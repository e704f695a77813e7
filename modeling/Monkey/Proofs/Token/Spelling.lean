import Mathlib.Data.List.TakeWhile
import Monkey.Token.Scanner

/-!
How tokens are spelled, said without a scanner, and the fact that every lexeme is spelled so: it is
well formed for its kind, its text is its spelling, and the character behind it cannot extend it.
-/

namespace Monkey

/-- The kinds of tokens that have a single spelling and are no words. -/
def Token.Kind.symbol? : Token.Kind → Option String
  | .assign => some "="
  | .plus => some "+"
  | .minus => some "-"
  | .bang => some "!"
  | .asterisk => some "*"
  | .slash => some "/"
  | .less => some "<"
  | .greater => some ">"
  | .equal => some "=="
  | .notEqual => some "!="
  | .comma => some ","
  | .semicolon => some ";"
  | .leftParen => some "("
  | .rightParen => some ")"
  | .leftBrace => some "\x7b"
  | .rightBrace => some "\x7d"
  | .leftBracket => some "["
  | .rightBracket => some "]"
  | _ => none

/-- Some token other than an illegal one starts with the character. -/
def Token.Opens (char : Char) : Prop :=
  char = '"' ∨ Token.isLetter char ∨ char.isDigit ∨
    ∃ kind text, Token.Kind.symbol? kind = some text ∧ text.toList.head? = some char

/-- The kinds of words. -/
def Token.Kind.words : List Token.Kind :=
  [.ident, .fnWord, .letWord, .trueWord, .falseWord, .ifWord, .elseWord, .returnWord]

/-- The literals that a token of each kind can have. -/
def Token.WellFormed (token : Token) : Prop :=
  match token.kind with
  | .eof => False
  | .illegal => ∃ char, token.literal.toList = [char] ∧ ¬ Token.Opens char ∧ ¬ Token.isBlank char
  | .int => token.literal.toList ≠ [] ∧ ∀ char ∈ token.literal.toList, char.isDigit
  | .string => '"' ∉ token.literal.toList
  | kind =>
      if kind ∈ Token.Kind.words then
        token.literal.toList ≠ [] ∧ (∀ char ∈ token.literal.toList, Token.isLetter char) ∧
          kind = Token.Kind.ofWord token.literal
      else kind.symbol? = some token.literal

/-- The characters that a token is written with. -/
def Token.text (token : Token) : List Char :=
  if token.kind = .string then '"' :: (token.literal.toList ++ ['"']) else token.literal.toList

/-- The character would be read as a part of the token in front of it. -/
def Token.Extends (token : Token) (char : Char) : Prop :=
  match token.kind with
  | .int => char.isDigit
  | .assign | .bang => char = '='
  | kind => kind ∈ Token.Kind.words ∧ Token.isLetter char

namespace Token

/-- A word has one of the kinds of words. -/
theorem Kind.ofWord_mem (word : String) : Kind.ofWord word ∈ Kind.words := by
  have reserved : ∀ pair ∈ Token.reserved, pair.2 ∈ Kind.words := by decide
  unfold Kind.ofWord
  match found : Token.reserved.lookup word with
  | none => decide
  | some kind =>
      obtain ⟨before, after, table, _⟩ := List.lookup_eq_some_iff.mp found
      exact reserved (word, kind) (by simp [table])

/-- A word is well formed when it has letters alone and the kind that goes with them. -/
theorem wellFormed_word {kind : Kind} {literal : String} (word : kind ∈ Kind.words) :
    WellFormed ⟨kind, literal⟩ ↔ literal.toList ≠ [] ∧
      (∀ char ∈ literal.toList, isLetter char) ∧ kind = Kind.ofWord literal := by
  simp only [Kind.words, List.mem_cons, List.not_mem_nil, or_false] at word
  rcases word with rfl | rfl | rfl | rfl | rfl | rfl | rfl | rfl <;>
    simp [WellFormed, Kind.words]

/-- Letters extend a word, and nothing else does. -/
theorem extends_word {kind : Kind} {literal : String} {char : Char} (word : kind ∈ Kind.words) :
    Extends ⟨kind, literal⟩ char ↔ isLetter char := by
  simp only [Kind.words, List.mem_cons, List.not_mem_nil, or_false] at word
  rcases word with rfl | rfl | rfl | rfl | rfl | rfl | rfl | rfl <;>
    simp [Extends, Kind.words]

/-- A word is written as it is. -/
theorem text_word {kind : Kind} {literal : String} (word : kind ∈ Kind.words) :
    text ⟨kind, literal⟩ = literal.toList := by
  simp only [Kind.words, List.mem_cons, List.not_mem_nil, or_false] at word
  rcases word with rfl | rfl | rfl | rfl | rfl | rfl | rfl | rfl <;> rfl

/-- The end is no well-formed token. -/
theorem WellFormed.kind_ne_eof {token : Token} (wellFormed : token.WellFormed) :
    token.kind ≠ .eof := by
  intro atEnd
  simp [WellFormed, atEnd] at wellFormed

/-- A symbol of one character is in the table of symbols, and is spelled with its character. -/
theorem Kind.ofSymbol_cases (char : Char) :
    (Kind.ofSymbol char).symbol? = some (String.ofList [char]) ∨
      Kind.ofSymbol char = .illegal ∧ ∀ pair ∈ Token.symbols, pair.1 ≠ char := by
  have spelled : ∀ pair ∈ Token.symbols, pair.2.symbol? = some (String.ofList [pair.1]) := by decide
  unfold Kind.ofSymbol
  match found : Token.symbols.lookup char with
  | none =>
      refine .inr ⟨rfl, fun pair member same => ?_⟩
      have absent := List.lookup_eq_none_iff.mp found pair member
      simp [same] at absent
  | some kind =>
      obtain ⟨before, after, table, _⟩ := List.lookup_eq_some_iff.mp found
      exact .inl (spelled (char, kind) (by simp [table]))

/-- A symbol with its own spelling is well formed. -/
theorem wellFormed_symbol {kind : Kind} {literal : String}
    (spelled : kind.symbol? = some literal) : WellFormed ⟨kind, literal⟩ := by
  cases kind <;> simp_all [Kind.symbol?, WellFormed, Kind.words]

/-- A symbol is written as it is. -/
theorem text_symbol {kind : Kind} {literal : String} (spelled : kind.symbol? = some literal) :
    text ⟨kind, literal⟩ = literal.toList := by
  cases kind <;> simp_all [Kind.symbol?, text]

/-- Of the symbols, only `=` and `!` can be extended, and only by `=`. -/
theorem extends_symbol {kind : Kind} {literal : String} {char : Char}
    (spelled : kind.symbol? = some literal) (longer : Extends ⟨kind, literal⟩ char) :
    (kind = .assign ∨ kind = .bang) ∧ char = '=' := by
  cases kind <;> simp_all [Kind.symbol?, Extends, Kind.words]

/-- A character that starts no other token is illegal. -/
theorem not_opens {char : Char} (noQuote : char ≠ '"') (noLetter : ¬ isLetter char)
    (noDigit : ¬ char.isDigit) (noSymbol : ∀ pair ∈ Token.symbols, pair.1 ≠ char) :
    ¬ Opens char := by
  rintro (quote | letter | digit | ⟨kind, text, spelled, head⟩)
  · exact noQuote quote
  · exact noLetter letter
  · exact noDigit digit
  · have listed : ∀ pair ∈ Token.symbols, pair.1 ≠ char := noSymbol
    simp only [Token.symbols, List.mem_cons, List.not_mem_nil, or_false, forall_eq_or_imp,
      forall_eq] at listed
    cases kind <;> simp_all [Kind.symbol?] <;> subst spelled <;> simp_all

end Token

/-- A lexeme is as its token is spelled; only a quoted text at the end may lack its last quote. -/
structure Lexeme.Valid (lexeme : Lexeme) : Prop where
  wellFormed : lexeme.token.WellFormed
  text : lexeme.text = lexeme.token.text ∨
    lexeme.token.kind = .string ∧ lexeme.text = '"' :: lexeme.token.literal.toList ∧
      lexeme.rest = []
  maximal : ∀ char ∈ lexeme.rest.head?, ¬ lexeme.token.Extends char

namespace Lexeme

/-- The first character that is left does not pass the test. -/
theorem not_of_mem_head_dropWhile {test : Char → Bool} {chars : List Char} {char : Char}
    (head : char ∈ (chars.dropWhile test).head?) : test char = false := by
  have stops := List.head?_dropWhile_not test chars
  rw [Option.mem_def.mp head] at stops
  simpa using stops

/-- A quoted lexeme is cut as it should be. -/
theorem quoted_valid (chars : List Char) : (Lexeme.quoted chars).Valid where
  wellFormed := by
    intro quote
    simp only [Lexeme.quoted, String.toList_ofList] at quote
    simpa using List.mem_takeWhile_imp quote
  text := by
    cases after : chars.dropWhile (· != '"') with
    | nil => exact .inr (by simp [Lexeme.quoted, after])
    | cons quote rest =>
        have closes := List.head?_dropWhile_not (· != '"') chars
        rw [after] at closes
        exact .inl (by simp_all [Lexeme.quoted, Token.text])
  maximal := by simp [Lexeme.quoted, Token.Extends, Token.Kind.words]

theorem word_valid {first : Char} {others : List Char} (letter : Token.isLetter first) :
    (Lexeme.word (first :: others)).Valid where
  wellFormed := by
    refine (Token.wellFormed_word (Token.Kind.ofWord_mem _)).mpr ⟨?_, ?_, rfl⟩
    · simp [letter]
    · intro char member
      rw [String.toList_ofList] at member
      exact List.mem_takeWhile_imp member
  text := by
    refine .inl ?_
    simp only [Lexeme.word]
    rw [Token.text_word (Token.Kind.ofWord_mem _), String.toList_ofList]
  maximal := by
    intro char head
    simp only [Lexeme.word] at head ⊢
    rw [Token.extends_word (Token.Kind.ofWord_mem _), not_of_mem_head_dropWhile head]
    decide

theorem number_valid {first : Char} {others : List Char} (digit : first.isDigit) :
    (Lexeme.number (first :: others)).Valid where
  wellFormed := by
    refine ⟨by simp [Lexeme.number, digit], fun char member => ?_⟩
    simp only [Lexeme.number, String.toList_ofList] at member
    exact List.mem_takeWhile_imp member
  text := .inl (by simp [Lexeme.number, Token.text])
  maximal := by
    intro char head
    simp only [Lexeme.number] at head
    simp [Lexeme.number, Token.Extends, not_of_mem_head_dropWhile head]

theorem symbol_valid {first : Char} {others : List Char} (noBlank : ¬ Token.isBlank first)
    (noQuote : first ≠ '"') (noLetter : ¬ Token.isLetter first) (noDigit : ¬ first.isDigit) :
    (Lexeme.symbol first others).Valid := by
  unfold Lexeme.symbol
  split
  · exact ⟨Token.wellFormed_symbol rfl, .inl (by simp [Token.text]),
      fun _ _ longer => absurd (Token.extends_symbol rfl longer).1 (by decide)⟩
  · exact ⟨Token.wellFormed_symbol rfl, .inl (by simp [Token.text]),
      fun _ _ longer => absurd (Token.extends_symbol rfl longer).1 (by decide)⟩
  · next noEqual noNotEqual =>
      rcases Token.Kind.ofSymbol_cases first with spelled | ⟨illegal, noSymbol⟩
      · refine ⟨Token.wellFormed_symbol spelled, .inl ?_, fun char head longer => ?_⟩
        · rw [Token.text_symbol spelled, String.toList_ofList]
        · obtain ⟨kind, rfl⟩ := Token.extends_symbol spelled longer
          obtain ⟨rest, rfl⟩ := List.head?_eq_some_iff.mp head
          rcases kind with kind | kind <;> rw [kind] at spelled
          · have equals : "=" = String.ofList [first] := Option.some.inj spelled
            exact noEqual rest (by simpa [eq_comm] using congrArg String.toList equals) rfl
          · have equals : "!" = String.ofList [first] := Option.some.inj spelled
            exact noNotEqual rest (by simpa [eq_comm] using congrArg String.toList equals) rfl
      · refine ⟨?_, .inl ?_, ?_⟩
        · simp only [illegal]
          exact ⟨first, String.toList_ofList, Token.not_opens noQuote noLetter noDigit noSymbol,
            noBlank⟩
        · simp [Token.text, illegal]
        · simp [Token.Extends, illegal, Token.Kind.words]

/-- The first lexeme of every text is cut as it should be. -/
theorem first_valid {first : Char} {others : List Char} (noBlank : ¬ Token.isBlank first) :
    (Lexeme.first first others).Valid := by
  unfold Lexeme.first
  split
  · exact quoted_valid others
  · next noQuote =>
      split
      · next letter => exact word_valid letter
      · next noLetter =>
          split
          · next digit => exact number_valid digit
          · next noDigit => exact symbol_valid noBlank noQuote noLetter noDigit

end Lexeme

end Monkey
