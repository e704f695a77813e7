import Monkey.Token

/-!
Scanning: a text is cut into tokens from the left. A scanner is a byte offset with the text from
there on, and each step takes the longest token at the next character that is not blank.
-/

namespace Monkey

/-- Space, tab, line feed and carriage return separate tokens. -/
def Token.isBlank (char : Char) : Bool :=
  char == ' ' || char == '\t' || char == '\n' || char == '\r'

/-- Words are made of the letters `a` to `z` and `A` to `Z` and of `_`. -/
def Token.isLetter (char : Char) : Bool :=
  char.isAlpha || char == '_'

/-- A token with the text it was read from and the text that follows. -/
structure Lexeme where
  token : Token
  text : List Char
  rest : List Char

/-- A quoted text runs up to the next quote, or to the end when there is none. -/
def Lexeme.quoted (chars : List Char) : Lexeme :=
  let content := chars.takeWhile (· != '"')
  let after := chars.dropWhile (· != '"')
  { token := ⟨.string, String.ofList content⟩
    text := '"' :: content ++ after.take 1
    rest := after.drop 1 }

def Lexeme.word (chars : List Char) : Lexeme :=
  let letters := chars.takeWhile Token.isLetter
  { token := ⟨.ofWord (String.ofList letters), String.ofList letters⟩
    text := letters
    rest := chars.dropWhile Token.isLetter }

def Lexeme.number (chars : List Char) : Lexeme :=
  let digits := chars.takeWhile Char.isDigit
  { token := ⟨.int, String.ofList digits⟩
    text := digits
    rest := chars.dropWhile Char.isDigit }

/-- Of the symbols, only `=` and `!` look at the character after them. -/
def Lexeme.symbol (first : Char) (others : List Char) : Lexeme :=
  match first, others with
  | '=', '=' :: rest => ⟨⟨.equal, "=="⟩, ['=', '='], rest⟩
  | '!', '=' :: rest => ⟨⟨.notEqual, "!="⟩, ['!', '='], rest⟩
  | _, _ => ⟨⟨.ofSymbol first, String.ofList [first]⟩, [first], others⟩

/-- The lexeme at the front of a text whose first character is not blank. -/
def Lexeme.first (first : Char) (others : List Char) : Lexeme :=
  if first = '"' then .quoted others
  else if Token.isLetter first then .word (first :: others)
  else if first.isDigit then .number (first :: others)
  else .symbol first others

theorem Lexeme.text_append_rest (first : Char) (others : List Char) :
    (Lexeme.first first others).text ++ (Lexeme.first first others).rest = first :: others := by
  unfold Lexeme.first
  split
  · next quote =>
      simp only [Lexeme.quoted, List.cons_append, List.append_assoc, List.take_append_drop,
        List.takeWhile_append_dropWhile, quote]
  · split
    · simp [Lexeme.word, List.takeWhile_append_dropWhile]
    · split
      · simp [Lexeme.number, List.takeWhile_append_dropWhile]
      · unfold Lexeme.symbol
        split <;> rfl

theorem Lexeme.text_ne_nil (first : Char) (others : List Char) :
    (Lexeme.first first others).text ≠ [] := by
  unfold Lexeme.first
  split
  · simp [Lexeme.quoted]
  · split
    · next letter => simp [Lexeme.word, letter]
    · split
      · next digit => simp [Lexeme.number, digit]
      · unfold Lexeme.symbol
        split <;> simp

theorem Lexeme.rest_length (first : Char) (others : List Char) :
    (Lexeme.first first others).rest.length ≤ others.length := by
  have whole := congrArg List.length (Lexeme.text_append_rest first others)
  have nonempty := List.length_pos_iff.mpr (Lexeme.text_ne_nil first others)
  simp only [List.length_append, List.length_cons] at whole
  omega

/-- The number of bytes that a text takes in UTF-8. -/
def byteSize : List Char → Nat
  | [] => 0
  | first :: others => first.utf8Size + byteSize others

/-- A place in a text: how many bytes lie before it, and the characters from there on. -/
structure Scanner where
  offset : Nat
  rest : List Char

def Scanner.ofString (source : String) : Scanner :=
  ⟨0, source.toList⟩

/-- The place after the characters in `passed`. -/
def Scanner.moveTo (scanner : Scanner) (passed rest : List Char) : Scanner :=
  ⟨scanner.offset + byteSize passed, rest⟩

/-- Blanks are passed over, and at the end of the text the token is `eof` again and again. -/
def Scanner.next (scanner : Scanner) : Token × Scanner :=
  let blanks := scanner.rest.takeWhile Token.isBlank
  match scanner.rest.dropWhile Token.isBlank with
  | [] => (.eof, scanner.moveTo blanks [])
  | first :: others =>
      let lexeme := Lexeme.first first others
      (lexeme.token, scanner.moveTo (blanks ++ lexeme.text) lexeme.rest)

/-- Only the end of the text leaves nothing to read. -/
theorem Scanner.next_rest_length (scanner : Scanner)
    (more : scanner.rest.dropWhile Token.isBlank ≠ []) :
    scanner.next.2.rest.length < scanner.rest.length := by
  have dropped := (List.dropWhile_suffix Token.isBlank (l := scanner.rest)).length_le
  unfold Scanner.next
  split
  · next atEnd => exact absurd atEnd more
  · next first others found =>
      have shorter := Lexeme.rest_length first others
      rw [found, List.length_cons] at dropped
      simp only [Scanner.moveTo]
      omega

/-- The tokens before the end of the text. -/
def Scanner.tokens (scanner : Scanner) : List Token :=
  if atEnd : scanner.rest.dropWhile Token.isBlank = [] then []
  else
    have := scanner.next_rest_length atEnd
    scanner.next.1 :: scanner.next.2.tokens
termination_by scanner.rest.length

/-- The tokens of a source text, without the `eof` that ends it. -/
def Token.list (source : String) : List Token :=
  (Scanner.ofString source).tokens

end Monkey
