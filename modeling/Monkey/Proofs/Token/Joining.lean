import Mathlib.Algebra.Group.Nat.Even
import Monkey.Proofs.Token.Cutting

/-!
Texts put one behind the other. The spelling of a token is read as that token again, as long as the
character behind it does not extend it, so a text whose quoted texts are all closed is read in front
of another text as it is read on its own.
-/

namespace Monkey

namespace Scanner

/-- Blanks alone have no tokens. -/
theorem tokens_of_blank {scanner : Scanner} (atEnd : scanner.rest.dropWhile Token.isBlank = []) :
    scanner.tokens = [] := by
  rw [Scanner.tokens, dif_pos atEnd]

/-- The first lexeme is the first token, and the others follow behind it. -/
theorem tokens_of_cons {scanner : Scanner} {first : Char} {others : List Char}
    (found : scanner.rest.dropWhile Token.isBlank = first :: others) :
    ∃ reached : Scanner, reached.rest = (Lexeme.first first others).rest ∧
      scanner.tokens = (Lexeme.first first others).token :: reached.tokens := by
  have more : scanner.rest.dropWhile Token.isBlank ≠ [] := by
    rw [found]
    exact List.cons_ne_nil _ _
  have next := next_of_cons found
  refine ⟨scanner.next.2, by rw [next, moveTo], ?_⟩
  rw [Scanner.tokens, dif_neg more]
  dsimp only
  rw [next]

/-- How many bytes lie before a place makes no difference to the tokens from there on. -/
theorem tokens_congr {first second : Scanner}
    (same : first.rest.dropWhile Token.isBlank = second.rest.dropWhile Token.isBlank) :
    first.tokens = second.tokens := by
  induction length : first.rest.length using Nat.strongRecOn generalizing first second with
  | ind size inductionHypothesis =>
      match found : first.rest.dropWhile Token.isBlank with
      | [] => rw [tokens_of_blank found, tokens_of_blank (same ▸ found)]
      | head :: others =>
          have shorter := Lexeme.rest_length head others
          have dropped := (List.dropWhile_suffix Token.isBlank (l := first.rest)).length_le
          rw [found, List.length_cons] at dropped
          obtain ⟨reached, rest, firstTokens⟩ := tokens_of_cons found
          obtain ⟨other, otherRest, secondTokens⟩ := tokens_of_cons (same ▸ found)
          rw [firstTokens, secondTokens]
          congr 1
          apply inductionHypothesis reached.rest.length
          · rw [rest]
            omega
          · rw [rest, otherRest]
          · rfl

end Scanner

namespace Token

/-- The tokens of some characters, wherever these stand in a text. -/
def scan (chars : List Char) : List Token :=
  (Scanner.mk 0 chars).tokens

theorem list_eq_scan (source : String) : Token.list source = scan source.toList := rfl

theorem scan_nil : scan [] = [] :=
  Scanner.tokens_of_blank rfl

/-- Without a blank in front the first lexeme is the first token. -/
theorem scan_first {first : Char} (noBlank : ¬ isBlank first) (others : List Char) :
    scan (first :: others) =
      (Lexeme.first first others).token :: scan (Lexeme.first first others).rest := by
  have found : (first :: others).dropWhile isBlank = first :: others :=
    List.dropWhile_cons_of_neg noBlank
  obtain ⟨reached, rest, tokens⟩ := @Scanner.tokens_of_cons ⟨0, first :: others⟩ _ _ found
  rw [scan, tokens]
  congr 1
  apply Scanner.tokens_congr
  rw [rest]

/-- A blank in front changes no token. -/
theorem scan_blank {char : Char} (blank : isBlank char) (rest : List Char) :
    scan (char :: rest) = scan rest := by
  apply Scanner.tokens_congr
  exact List.dropWhile_cons_of_pos blank

/-- Blanks in front change no token. -/
theorem scan_blanks {blanks : List Char} (blank : ∀ char ∈ blanks, isBlank char)
    (rest : List Char) : scan (blanks ++ rest) = scan rest := by
  apply Scanner.tokens_congr
  exact List.dropWhile_append_of_pos blank

/-- There are four blanks. -/
theorem isBlank_cases {char : Char} (blank : isBlank char) :
    char = ' ' ∨ char = '\t' ∨ char = '\n' ∨ char = '\r' := by
  simpa [isBlank, or_assoc] using blank

/-- A blank is neither a letter nor a digit, and opens no symbol. -/
theorem not_opens_blank {char : Char} (blank : isBlank char) : ¬ Opens char := by
  apply not_opens <;> rcases isBlank_cases blank with rfl | rfl | rfl | rfl <;> decide

/-- Letters and the underscore lie between the first and the last letter. -/
theorem isLetter_range {char : Char} (letter : isLetter char) :
    65 ≤ char.toNat ∧ char.toNat ≤ 122 := by
  simp only [isLetter, Bool.or_eq_true, beq_iff_eq] at letter
  rcases letter with alpha | rfl
  · change (decide (char.val ≥ 65 ∧ char.val ≤ 90) ||
      decide (char.val ≥ 97) && decide (char.val ≤ 122)) = true at alpha
    simp only [Bool.or_eq_true, Bool.and_eq_true, decide_eq_true_eq, ge_iff_le,
      UInt32.le_iff_toNat_le] at alpha
    change (65 ≤ char.toNat ∧ char.toNat ≤ 90) ∨ (97 ≤ char.toNat ∧ char.toNat ≤ 122) at alpha
    omega
  · decide

/-- Digits lie between the first and the last digit. -/
theorem isDigit_range {char : Char} (digit : char.isDigit) :
    48 ≤ char.toNat ∧ char.toNat ≤ 57 := by
  simp only [Char.isDigit, Bool.and_eq_true, decide_eq_true_eq, ge_iff_le,
    UInt32.le_iff_toNat_le] at digit
  exact digit

/-- No digit is a letter. -/
theorem not_letter_of_digit {char : Char} (digit : char.isDigit) : ¬ isLetter char := by
  intro letter
  have digits := isDigit_range digit
  have letters := isLetter_range letter
  omega

/-- Only letters, digits and the equals sign extend a token. -/
theorem not_extends (token : Token) {char : Char} (noLetter : ¬ isLetter char)
    (noDigit : ¬ char.isDigit) (noEqual : char ≠ '=') : ¬ token.Extends char := by
  obtain ⟨kind, literal⟩ := token
  cases kind <;> simp [Extends, Kind.words, noLetter, noDigit, noEqual]

/-- A blank makes no token longer. -/
theorem not_extends_blank (token : Token) {char : Char} (blank : isBlank char) :
    ¬ token.Extends char := by
  apply not_extends <;> rcases isBlank_cases blank with rfl | rfl | rfl | rfl <;> decide

/-- A token whose kind has a spelling is spelled so. -/
theorem WellFormed.symbol_eq {kind : Kind} {literal text : String}
    (wellFormed : WellFormed ⟨kind, literal⟩) (symbol : kind.symbol? = some text) :
    kind.symbol? = some literal := by
  cases kind <;> simp_all [Kind.symbol?, WellFormed, Kind.words]

/-- A symbol has two characters or stands in the table of symbols. -/
theorem Kind.symbol_cases {kind : Kind} {literal : String} (spelled : kind.symbol? = some literal) :
    kind = .equal ∧ literal = "==" ∨ kind = .notEqual ∧ literal = "!=" ∨
      ∃ char, (char, kind) ∈ Token.symbols ∧ literal = String.ofList [char] := by
  cases kind <;> simp [Kind.symbol?] at spelled <;> simp [← spelled, Token.symbols]

/-- A symbol in the table is no other sort of character, and is listed once. -/
theorem symbols_plain {char : Char} {kind : Kind} (listed : (char, kind) ∈ Token.symbols) :
    char ≠ '"' ∧ ¬ isLetter char ∧ ¬ char.isDigit ∧ ¬ isBlank char ∧ Kind.ofSymbol char = kind := by
  have table : ∀ pair ∈ Token.symbols, pair.1 ≠ '"' ∧ ¬ isLetter pair.1 ∧ ¬ pair.1.isDigit ∧
      ¬ isBlank pair.1 ∧ Kind.ofSymbol pair.1 = pair.2 := by decide
  exact table _ listed

end Token

namespace Lexeme

/-- A run of characters ends where one of another sort follows. -/
theorem run_append {test : Char → Bool} {run rest : List Char} (holds : ∀ char ∈ run, test char)
    (stops : ∀ char ∈ rest.head?, ¬ test char) :
    (run ++ rest).takeWhile test = run ∧ (run ++ rest).dropWhile test = rest := by
  rw [List.takeWhile_append_of_pos holds, List.dropWhile_append_of_pos holds]
  match rest with
  | [] => simp
  | first :: others =>
      have stop : ¬ test first := stops first rfl
      rw [List.takeWhile_cons_of_neg stop, List.dropWhile_cons_of_neg stop]
      simp


/-- A letter starts a word. -/
theorem first_of_letter {first : Char} (letter : Token.isLetter first) (others : List Char) :
    Lexeme.first first others = .word (first :: others) := by
  have noQuote : first ≠ '"' := by
    rintro rfl
    exact absurd letter (by decide)
  rw [Lexeme.first, if_neg noQuote, if_pos letter]

/-- A digit starts a number. -/
theorem first_of_digit {first : Char} (digit : first.isDigit) (others : List Char) :
    Lexeme.first first others = .number (first :: others) := by
  have noQuote : first ≠ '"' := by
    rintro rfl
    exact absurd digit (by decide)
  rw [Lexeme.first, if_neg noQuote, if_neg (Token.not_letter_of_digit digit), if_pos digit]

/-- In front of the rest, the text of the token is read as the token. -/
def Reads (token : Token) (rest : List Char) : Prop :=
  ∃ first others, token.text = first :: others ∧ ¬ Token.isBlank first ∧
    (Lexeme.first first (others ++ rest)).token = token ∧
    (Lexeme.first first (others ++ rest)).rest = rest

/-- A word is read back up to the first other character. -/
theorem reads_word {kind : Token.Kind} {literal : String} {rest : List Char}
    (word : kind ∈ Token.Kind.words) (wellFormed : Token.WellFormed ⟨kind, literal⟩)
    (stops : ∀ char ∈ rest.head?, ¬ Token.isLetter char) : Reads ⟨kind, literal⟩ rest := by
  obtain ⟨nonempty, letters, rfl⟩ := (Token.wellFormed_word word).mp wellFormed
  obtain ⟨first, others, spelled⟩ := List.exists_cons_of_ne_nil nonempty
  have letter : Token.isLetter first := letters first (by simp [spelled])
  obtain ⟨run, behind⟩ := run_append letters stops
  rw [spelled, List.cons_append] at run behind
  refine ⟨first, others, ?_, ?_, ?_, ?_⟩
  · rw [Token.text_word word, spelled]
  · intro blank
    exact Token.not_opens_blank blank (.inr (.inl letter))
  · rw [first_of_letter letter, Lexeme.word]
    dsimp only
    rw [run, ← spelled, String.ofList_toList]
  · rw [first_of_letter letter]
    exact behind

/-- A number is read back up to the first other character. -/
theorem reads_number {literal : String} {rest : List Char}
    (wellFormed : Token.WellFormed ⟨.int, literal⟩)
    (stops : ∀ char ∈ rest.head?, ¬ char.isDigit) : Reads ⟨.int, literal⟩ rest := by
  obtain ⟨nonempty, digits⟩ := wellFormed
  obtain ⟨first, others, spelled⟩ := List.exists_cons_of_ne_nil nonempty
  have spelled : literal.toList = first :: others := spelled
  have digit : first.isDigit := digits first (by simp [spelled])
  obtain ⟨run, behind⟩ := run_append digits stops
  rw [spelled, List.cons_append] at run behind
  refine ⟨first, others, spelled, ?_, ?_, ?_⟩
  · intro blank
    exact Token.not_opens_blank blank (.inr (.inr (.inl digit)))
  · rw [first_of_digit digit, Lexeme.number]
    dsimp only
    rw [run, ← spelled, String.ofList_toList]
  · rw [first_of_digit digit]
    exact behind

/-- A quoted text is read back whatever follows. -/
theorem reads_quoted {literal : String} (wellFormed : Token.WellFormed ⟨.string, literal⟩)
    (rest : List Char) : Reads ⟨.string, literal⟩ rest := by
  have noQuote : ∀ char ∈ literal.toList, (char != '"') = true := by
    intro char member
    have other : char ≠ '"' := by
      rintro rfl
      exact wellFormed member
    simpa using other
  obtain ⟨run, behind⟩ := @run_append (· != '"') literal.toList ('"' :: rest) noQuote (by simp)
  refine ⟨'"', literal.toList ++ ['"'], rfl, by decide, ?_, ?_⟩
  · rw [Lexeme.first, if_pos rfl, Lexeme.quoted, List.append_assoc, List.singleton_append, run,
      String.ofList_toList]
  · rw [Lexeme.first, if_pos rfl, Lexeme.quoted, List.append_assoc, List.singleton_append, behind]
    rfl

/-- A character that is no quote, letter or digit is read as a symbol. -/
theorem first_of_other {first : Char} (noQuote : first ≠ '"') (noLetter : ¬ Token.isLetter first)
    (noDigit : ¬ first.isDigit) (others : List Char) :
    Lexeme.first first others = .symbol first others := by
  rw [Lexeme.first, if_neg noQuote, if_neg noLetter, if_neg noDigit]

/-- A symbol is longer than its first character only if that is `=` or `!` and a `=` follows. -/
theorem symbol_single {first : Char} {rest : List Char}
    (single : first = '=' ∨ first = '!' → ∀ char ∈ rest.head?, char ≠ '=') :
    Lexeme.symbol first rest = ⟨⟨.ofSymbol first, String.ofList [first]⟩, [first], rest⟩ := by
  unfold Lexeme.symbol
  split
  · exact absurd rfl (single (.inl rfl) '=' rfl)
  · exact absurd rfl (single (.inr rfl) '=' rfl)
  · rfl

/-- An illegal character is read back whatever follows. -/
theorem reads_illegal {literal : String} (wellFormed : Token.WellFormed ⟨.illegal, literal⟩)
    (rest : List Char) : Reads ⟨.illegal, literal⟩ rest := by
  obtain ⟨char, spelled, noOpening, noBlank⟩ := wellFormed
  have spelled : literal.toList = [char] := spelled
  simp only [Token.Opens, not_or] at noOpening
  obtain ⟨noQuote, noLetter, noDigit, noSymbol⟩ := noOpening
  have illegal : Token.Kind.ofSymbol char = .illegal := by
    rcases Token.Kind.ofSymbol_cases char with symbol | ⟨illegal, _⟩
    · exact absurd ⟨_, _, symbol, by simp⟩ noSymbol
    · exact illegal
  have single : char = '=' ∨ char = '!' → ∀ next ∈ rest.head?, next ≠ '=' := by
    rintro (rfl | rfl)
    · exact absurd ⟨.assign, _, rfl, rfl⟩ noSymbol
    · exact absurd ⟨.bang, _, rfl, rfl⟩ noSymbol
  refine ⟨char, [], spelled, noBlank, ?_, ?_⟩ <;>
    rw [first_of_other noQuote noLetter noDigit, List.nil_append, symbol_single single]
  rw [illegal, ← spelled, String.ofList_toList]

/-- A symbol is read back unless what follows extends it. -/
theorem reads_symbol {kind : Token.Kind} {literal : String} {rest : List Char}
    (spelled : kind.symbol? = some literal)
    (apart : ∀ char ∈ rest.head?, ¬ Token.Extends ⟨kind, literal⟩ char) :
    Reads ⟨kind, literal⟩ rest := by
  rcases Token.Kind.symbol_cases spelled with ⟨rfl, rfl⟩ | ⟨rfl, rfl⟩ | ⟨char, listed, rfl⟩
  · exact ⟨'=', ['='], rfl, by decide, rfl, rfl⟩
  · exact ⟨'!', ['='], rfl, by decide, rfl, rfl⟩
  · obtain ⟨noQuote, noLetter, noDigit, noBlank, isKind⟩ := Token.symbols_plain listed
    have single : char = '=' ∨ char = '!' → ∀ next ∈ rest.head?, next ≠ '=' := by
      rintro first next follows rfl
      apply apart '=' follows
      rcases first with rfl | rfl <;> subst isKind <;> rfl
    refine ⟨char, [], ?_, noBlank, ?_, ?_⟩
    · rw [Token.text_symbol spelled, String.toList_ofList]
    · rw [first_of_other noQuote noLetter noDigit, List.nil_append, symbol_single single]
      rw [isKind]
    · rw [first_of_other noQuote noLetter noDigit, List.nil_append, symbol_single single]

/-- Every well-formed token is read from its text again. -/
theorem reads_text {token : Token} {rest : List Char} (wellFormed : token.WellFormed)
    (apart : ∀ char ∈ rest.head?, ¬ token.Extends char) : Reads token rest := by
  obtain ⟨kind, literal⟩ := token
  by_cases word : kind ∈ Token.Kind.words
  · apply reads_word word wellFormed
    intro char follows letter
    exact apart char follows ((Token.extends_word word).mpr letter)
  match symbol : kind.symbol? with
  | some text => exact reads_symbol (wellFormed.symbol_eq symbol) apart
  | none =>
      cases kind <;> simp [Token.Kind.symbol?, Token.Kind.words] at symbol word
      case illegal => exact reads_illegal wellFormed rest
      case eof => exact absurd rfl wellFormed.kind_ne_eof
      case int => exact reads_number wellFormed apart
      case string => exact reads_quoted wellFormed rest

end Lexeme

namespace Token

/-- The text of a well-formed token is read back unless what follows extends it. -/
theorem scan_text {token : Token} {rest : List Char} (wellFormed : token.WellFormed)
    (apart : ∀ char ∈ rest.head?, ¬ token.Extends char) :
    scan (token.text ++ rest) = token :: scan rest := by
  obtain ⟨first, others, text, noBlank, isToken, isRest⟩ := Lexeme.reads_text wellFormed apart
  rw [text, List.cons_append, scan_first noBlank, isToken, isRest]

end Token

namespace Cutting

variable {chars lead : List Char} {pieces : List Piece}

/-- The text behind the first token is cut into the other ones. -/
theorem tail {piece : Piece} (cutting : Cutting chars lead (piece :: pieces)) :
    Cutting (piece.gap ++ pieces.flatMap fun piece => piece.text ++ piece.gap) piece.gap
      pieces where
  whole := rfl
  leadBlank := cutting.gapsBlank piece List.mem_cons_self
  gapsBlank other member := cutting.gapsBlank other (List.mem_cons_of_mem _ member)
  wellFormed other member := cutting.wellFormed other (List.mem_cons_of_mem _ member)
  spelled := by
    intro other member
    apply cutting.spelled
    match pieces with
    | [] => simp at member
    | next :: others =>
        rw [List.dropLast_cons_cons]
        exact List.mem_cons_of_mem _ member
  lastSpelled other member := cutting.lastSpelled other (List.mem_getLast?_cons member)
  apart := cutting.apart.tail

/-- Only the last token may lack its closing quote. -/
theorem text_cases {piece : Piece} (cutting : Cutting chars lead (piece :: pieces)) :
    piece.text = piece.token.text ∨ pieces = [] ∧ piece.Unterminated := by
  match pieces with
  | [] =>
      rcases cutting.lastSpelled piece rfl with spelled | unterminated
      · exact .inl spelled
      · exact .inr ⟨rfl, unterminated⟩
  | next :: others =>
      left
      apply cutting.spelled
      rw [List.dropLast_cons_cons]
      exact List.mem_cons_self

/-- No piece of a cutting is empty. -/
theorem exists_head {piece : Piece} (cutting : Cutting chars lead (piece :: pieces)) :
    ∃ first others, piece.text = first :: others := by
  rcases cutting.text_cases with spelled | ⟨_, _, text, _⟩
  · have wellFormed := cutting.wellFormed piece List.mem_cons_self
    obtain ⟨first, others, text, _⟩ := @Lexeme.reads_text _ [] wellFormed (by simp)
    exact ⟨first, others, spelled.trans text⟩
  · exact ⟨_, _, text⟩

/-- What follows the first token does not extend it. -/
theorem apart_head {piece : Piece} {rest : List Char}
    (cutting : Cutting chars lead (piece :: pieces))
    (seam : pieces = [] → piece.gap = [] → ∀ char ∈ rest.head?, ¬ piece.token.Extends char) :
    ∀ char ∈ (piece.gap ++ (pieces.flatMap fun piece => piece.text ++ piece.gap) ++ rest).head?,
      ¬ piece.token.Extends char := by
  intro char head
  match gap : piece.gap with
  | first :: blanks =>
      have blank := cutting.gapsBlank piece List.mem_cons_self first (by simp [gap])
      have isFirst : first = char := by simpa [gap] using head
      exact isFirst ▸ piece.token.not_extends_blank blank
  | [] =>
      match pieces with
      | [] => exact seam rfl gap char (by simpa [gap] using head)
      | next :: others =>
          obtain ⟨first, more, text⟩ := cutting.tail.exists_head
          have apart := cutting.apart
          rw [List.isChain_cons_cons] at apart
          apply apart.1 gap
          simpa [gap, text] using head

/-- In front of a text that does not extend its last token, a text whose quoted texts are closed is
read as it is read on its own. -/
theorem scan_append {rest : List Char} (cutting : Cutting chars lead pieces)
    (closed : ∀ last ∈ pieces.getLast?, last.text = last.token.text)
    (seam : ∀ last ∈ pieces.getLast?, last.gap = [] →
      ∀ char ∈ rest.head?, ¬ last.token.Extends char) :
    Token.scan (chars ++ rest) = pieces.map Piece.token ++ Token.scan rest := by
  induction pieces generalizing chars lead with
  | nil =>
      have whole : chars = lead := by simpa using cutting.whole
      rw [whole, Token.scan_blanks cutting.leadBlank]
      rfl
  | cons piece others inductionHypothesis =>
      have spelled : piece.text = piece.token.text := by
        rcases cutting.text_cases with spelled | ⟨rfl, _⟩
        · exact spelled
        · exact closed piece rfl
      have whole : chars ++ rest = lead ++ (piece.token.text ++
          (piece.gap ++ (others.flatMap fun piece => piece.text ++ piece.gap) ++ rest)) := by
        rw [cutting.whole, List.flatMap_cons, spelled]
        simp only [List.append_assoc]
      rw [whole, Token.scan_blanks cutting.leadBlank, Token.scan_text]
      · rw [inductionHypothesis cutting.tail]
        · rfl
        · intro last isLast
          exact closed last (List.mem_getLast?_cons isLast)
        · intro last isLast
          exact seam last (List.mem_getLast?_cons isLast)
      · exact cutting.wellFormed piece List.mem_cons_self
      · apply cutting.apart_head
        rintro rfl
        exact seam piece rfl

end Cutting

namespace Token

/-- A character that is no part of a word, a number or a symbol is a token of its own unless it is
quoted. -/
theorem WellFormed.cases_of_mem {token : Token} (wellFormed : token.WellFormed) {char : Char}
    (member : char ∈ token.literal.toList) (noLetter : ¬ isLetter char) (noDigit : ¬ char.isDigit)
    (noSymbol : ∀ pair ∈ Token.symbols, pair.1 ≠ char) :
    token.kind = .string ∨ token.kind = .illegal ∧ token.literal.toList = [char] := by
  obtain ⟨kind, literal⟩ := token
  by_cases word : kind ∈ Kind.words
  · obtain ⟨_, letters, _⟩ := (wellFormed_word word).mp wellFormed
    exact absurd (letters char member) noLetter
  match symbol : kind.symbol? with
  | some text =>
      exfalso
      rcases Kind.symbol_cases (wellFormed.symbol_eq symbol) with
        ⟨rfl, rfl⟩ | ⟨rfl, rfl⟩ | ⟨only, listed, rfl⟩
      · have isEqual : '=' = char := by simpa [eq_comm] using member
        exact noSymbol ('=', .assign) (by decide) isEqual
      · have isEither : '!' = char ∨ '=' = char := by simpa [eq_comm] using member
        rcases isEither with isBang | isEqual
        · exact noSymbol ('!', .bang) (by decide) isBang
        · exact noSymbol ('=', .assign) (by decide) isEqual
      · exact noSymbol _ listed (by simpa [eq_comm] using member)
  | none =>
      cases kind <;> simp [Kind.symbol?, Kind.words] at symbol word
      case eof => exact absurd rfl wellFormed.kind_ne_eof
      case illegal =>
        obtain ⟨only, spelled, _⟩ := wellFormed
        have spelled : literal.toList = [only] := spelled
        obtain rfl : char = only := by simpa [spelled] using member
        exact .inr ⟨rfl, spelled⟩
      case int => exact absurd (wellFormed.2 char member) noDigit
      case string => exact .inl rfl

/-- The quotes of a quoted text are the only ones in a token. -/
theorem WellFormed.no_quote {token : Token} (wellFormed : token.WellFormed) :
    '"' ∉ token.literal.toList := by
  intro quote
  rcases wellFormed.cases_of_mem quote (by decide) (by decide) (by decide) with
    kind | ⟨kind, spelled⟩
  · simp only [WellFormed, kind] at wellFormed
    exact wellFormed quote
  · simp only [WellFormed, kind] at wellFormed
    obtain ⟨char, literal, noOpening, _⟩ := wellFormed
    obtain rfl : '"' = char := by simpa [spelled] using literal
    exact noOpening (.inl rfl)

/-- A quoted text has two quotes, and any other token has none. -/
theorem WellFormed.count_quotes {token : Token} (wellFormed : token.WellFormed) :
    token.text.count '"' = if token.kind = .string then 2 else 0 := by
  have none : token.literal.toList.count '"' = 0 := List.count_eq_zero.mpr wellFormed.no_quote
  unfold text
  split
  · rw [List.count_cons_self, List.count_append, none]
    rfl
  · exact none

end Token

namespace Cutting

variable {chars lead : List Char} {pieces : List Piece}

/-- There is no quote among blanks. -/
theorem count_quotes_blanks {blanks : List Char} (blank : ∀ char ∈ blanks, Token.isBlank char) :
    blanks.count '"' = 0 := by
  apply List.count_eq_zero.mpr
  intro quote
  exact absurd (blank _ quote) (by decide)

/-- A text has an even number of quotes exactly when its last token does not lack one. -/
theorem even_quotes_iff (cutting : Cutting chars lead pieces) :
    Even (chars.count '"') ↔ ∀ last ∈ pieces.getLast?, last.text = last.token.text := by
  induction pieces generalizing chars lead with
  | nil =>
      have whole : chars = lead := by simpa using cutting.whole
      simp [whole, count_quotes_blanks cutting.leadBlank]
  | cons piece others inductionHypothesis =>
      have wellFormed := cutting.wellFormed piece List.mem_cons_self
      have counts : chars.count '"' = piece.text.count '"' +
          (piece.gap ++ others.flatMap fun piece => piece.text ++ piece.gap).count '"' := by
        rw [cutting.whole, List.flatMap_cons, List.append_assoc, List.count_append,
          List.count_append, count_quotes_blanks cutting.leadBlank, Nat.zero_add]
      rcases cutting.text_cases with spelled | ⟨rfl, kind, text, gap⟩
      · have even : Even (piece.text.count '"') := by
          rw [spelled, wellFormed.count_quotes]
          split <;> decide
        rw [counts, Nat.even_add, iff_true_left even, inductionHypothesis cutting.tail]
        match others with
        | [] => simpa using spelled
        | next :: more => simp
      · have one : piece.text.count '"' = 1 := by
          rw [text, List.count_cons_self, List.count_eq_zero.mpr wellFormed.no_quote]
        have odd : chars.count '"' = 1 := by
          rw [counts, one]
          simp [gap]
        rw [odd]
        apply iff_of_false (by decide)
        intro closed
        have two := wellFormed.count_quotes
        rw [← closed piece rfl, one, if_pos kind] at two
        cases two

end Cutting

namespace Token

/-- The last token of a source is the one in its last piece. -/
theorem last_cutting (source : String) :
    ∃ lead pieces, Cutting source.toList lead pieces ∧
      pieces.map Piece.token = Token.list source ∧
      ∀ piece ∈ pieces.getLast?, piece.token ∈ (Token.list source).getLast? := by
  obtain ⟨lead, pieces, cutting, tokens⟩ := (Scanner.ofString source).cutting
  have tokens : pieces.map Piece.token = Token.list source := tokens
  refine ⟨lead, pieces, cutting, tokens, fun piece isLast => ?_⟩
  rw [← tokens, List.getLast?_map]
  exact Option.mem_map_of_mem _ isLast

/-- The quotes of a source come in pairs when its last token is no quoted text. -/
theorem even_quotes_of_last {source : String}
    (noText : ∀ token ∈ (Token.list source).getLast?, token.kind ≠ .string) :
    Even (source.toList.count '"') := by
  obtain ⟨lead, pieces, cutting, _, last⟩ := last_cutting source
  rw [cutting.even_quotes_iff]
  intro piece isLast
  rcases cutting.lastSpelled piece isLast with spelled | unterminated
  · exact spelled
  · exact absurd unterminated.1 (noText _ (last piece isLast))

/-- Two sources are read one behind the other when the first one leaves no quote open and the second
one does not extend its last token. -/
theorem list_append {first second : String} (paired : Even (first.toList.count '"'))
    (seam : ∀ token ∈ (Token.list first).getLast?, ∀ char ∈ second.toList.head?,
      ¬ token.Extends char) :
    Token.list (first ++ second) = Token.list first ++ Token.list second := by
  obtain ⟨lead, pieces, cutting, tokens, last⟩ := last_cutting first
  rw [list_eq_scan, String.toList_append, cutting.scan_append (cutting.even_quotes_iff.mp paired),
    tokens, ← list_eq_scan]
  intro piece isLast _
  exact seam _ (last piece isLast)

/-- A blank between two sources keeps their tokens apart. -/
theorem list_append_blank {first : String} (paired : Even (first.toList.count '"')) {blank : Char}
    (separates : isBlank blank) (second : String) :
    Token.list (first ++ String.singleton blank ++ second) =
      Token.list first ++ Token.list second := by
  rw [String.append_assoc, list_append paired, list_eq_scan (String.singleton blank ++ second),
    String.toList_append, String.toList_singleton, List.singleton_append, scan_blank separates,
    list_eq_scan second]
  intro token _ char follows
  obtain rfl : blank = char := by simpa using follows
  exact token.not_extends_blank separates

end Token

end Monkey
