import Mathlib.Data.List.Chain
import Monkey.Proofs.Token.Spelling

/-!
A text is cut into its tokens: the tokens are written one behind the other with blanks before,
between and behind them, nothing is lost or read twice, and no token could have been longer. The
scanner gives them one after the other, and then the end of the text for ever.
-/

namespace Monkey

/-- A token with the characters it is read from and the blanks behind it. -/
structure Piece where
  token : Token
  text : List Char
  gap : List Char

/-- A quoted text at the end of the source that lacks its closing quote. -/
def Piece.Unterminated (piece : Piece) : Prop :=
  piece.token.kind = .string ∧ piece.text = '"' :: piece.token.literal.toList ∧ piece.gap = []

/-- The characters are the pieces behind some blanks. -/
structure Cutting (chars lead : List Char) (pieces : List Piece) : Prop where
  whole : chars = lead ++ pieces.flatMap fun piece => piece.text ++ piece.gap
  leadBlank : ∀ char ∈ lead, Token.isBlank char
  gapsBlank : ∀ piece ∈ pieces, ∀ char ∈ piece.gap, Token.isBlank char
  wellFormed : ∀ piece ∈ pieces, piece.token.WellFormed
  spelled : ∀ piece ∈ pieces.dropLast, piece.text = piece.token.text
  lastSpelled : ∀ piece ∈ pieces.getLast?, piece.text = piece.token.text ∨ piece.Unterminated
  apart : pieces.IsChain fun first second =>
    first.gap = [] → ∀ char ∈ second.text.head?, ¬ first.token.Extends char

namespace Cutting

variable {chars lead : List Char} {pieces : List Piece}

/-- Blanks alone are cut into no pieces. -/
theorem blank (blanks : ∀ char ∈ lead, Token.isBlank char) : Cutting lead lead [] where
  whole := by simp
  leadBlank := blanks
  gapsBlank := by simp
  wellFormed := by simp
  spelled := by simp
  lastSpelled := by simp
  apart := .nil

/-- One more lexeme in front of a text that is cut already. -/
theorem cons {lexeme : Lexeme} {blanks : List Char} (valid : lexeme.Valid)
    (leadBlank : ∀ char ∈ blanks, Token.isBlank char) (cutting : Cutting lexeme.rest lead pieces)
    (atEnd : lexeme.rest = [] → pieces = []) :
    Cutting (blanks ++ (lexeme.text ++ lexeme.rest)) blanks
      (⟨lexeme.token, lexeme.text, lead⟩ :: pieces) where
  whole := by simp [← cutting.whole]
  leadBlank := leadBlank
  gapsBlank := by
    intro piece member
    rcases List.mem_cons.mp member with rfl | member
    · exact cutting.leadBlank
    · exact cutting.gapsBlank piece member
  wellFormed := by
    intro piece member
    rcases List.mem_cons.mp member with rfl | member
    · exact valid.wellFormed
    · exact cutting.wellFormed piece member
  spelled := by
    intro piece member
    match pieces with
    | [] => simp at member
    | next :: others =>
        rw [List.dropLast_cons_cons] at member
        rcases List.mem_cons.mp member with rfl | member
        · rcases valid.text with text | ⟨_, _, ends⟩
          · exact text
          · exact absurd (atEnd ends) (by simp)
        · exact cutting.spelled piece member
  lastSpelled := by
    intro piece member
    match pieces with
    | [] =>
        cases member
        rcases valid.text with text | ⟨kind, text, ends⟩
        · exact .inl text
        · have gap : lead = [] := by simpa [ends] using cutting.whole
          exact .inr ⟨kind, text, gap⟩
    | next :: others => exact cutting.lastSpelled piece (by simpa using member)
  apart := by
    match pieces with
    | [] => exact .singleton _
    | next :: others =>
        refine .cons_cons (fun gap char head => valid.maximal char ?_) cutting.apart
        have gap : lead = [] := gap
        obtain ⟨rest, text⟩ := List.head?_eq_some_iff.mp head
        simp [cutting.whole, gap, text]

end Cutting

namespace Scanner

/-- The next token is the first lexeme behind the blanks. -/
theorem next_of_cons {scanner : Scanner} {first : Char} {others : List Char}
    (found : scanner.rest.dropWhile Token.isBlank = first :: others) :
    scanner.next = ((Lexeme.first first others).token,
      scanner.moveTo (scanner.rest.takeWhile Token.isBlank ++ (Lexeme.first first others).text)
        (Lexeme.first first others).rest) := by
  unfold Scanner.next
  rw [found]

/-- With blanks alone left the next token is the end. -/
theorem next_of_nil {scanner : Scanner} (atEnd : scanner.rest.dropWhile Token.isBlank = []) :
    scanner.next = (.eof, scanner.moveTo (scanner.rest.takeWhile Token.isBlank) []) := by
  unfold Scanner.next
  rw [atEnd]

/-- The place that is reached by reading a number of tokens. -/
def after (scanner : Scanner) : Nat → Scanner
  | 0 => scanner
  | count + 1 => scanner.next.2.after count

/-- One more call goes on from where the others have come to. -/
theorem after_succ (scanner : Scanner) (count : Nat) :
    scanner.after (count + 1) = (scanner.after count).next.2 := by
  induction count generalizing scanner with
  | zero => rfl
  | succ count inductionHypothesis => exact inductionHypothesis scanner.next.2

/-- The tokens are read in their order, and behind the last one there is nothing but the end. -/
theorem next_after (scanner : Scanner) (count : Nat) :
    (scanner.after count).next.1 = scanner.tokens.getD count .eof := by
  induction count generalizing scanner with
  | zero =>
      rw [Scanner.tokens]
      split
      · next atEnd => exact congrArg Prod.fst (next_of_nil atEnd)
      · rfl
  | succ count inductionHypothesis =>
      rw [Scanner.after, inductionHypothesis]
      nth_rewrite 2 [Scanner.tokens]
      split
      · next atEnd =>
          have none : scanner.next.2.tokens = [] := by
            rw [next_of_nil atEnd, Scanner.tokens]
            exact dif_pos rfl
          rw [none]
          rfl
      · rfl

/-- There are no tokens at the end. -/
theorem tokens_of_rest_eq_nil {scanner : Scanner} (atEnd : scanner.rest = []) :
    scanner.tokens = [] := by
  rw [Scanner.tokens, dif_pos (by rw [atEnd, List.dropWhile_nil])]

/-- What is left at a scanner is cut into the tokens it goes on to read. -/
theorem cutting (scanner : Scanner) :
    ∃ lead pieces, Cutting scanner.rest lead pieces ∧
      pieces.map Piece.token = scanner.tokens := by
  fun_induction Scanner.tokens scanner with
  | case1 scanner atEnd =>
      have blanks := List.dropWhile_eq_nil_iff.mp atEnd
      exact ⟨scanner.rest, [], .blank blanks, rfl⟩
  | case2 scanner more shorter inductionHypothesis =>
      obtain ⟨lead, pieces, cutting, tokens⟩ := inductionHypothesis
      obtain ⟨first, others, found⟩ := List.exists_cons_of_ne_nil more
      have noBlank : ¬ Token.isBlank first := by
        have stops := List.head?_dropWhile_not Token.isBlank scanner.rest
        simpa [found] using stops
      have whole : scanner.rest = scanner.rest.takeWhile Token.isBlank ++
          ((Lexeme.first first others).text ++ (Lexeme.first first others).rest) := by
        rw [Lexeme.text_append_rest, ← found, List.takeWhile_append_dropWhile]
      have blanks : ∀ char ∈ scanner.rest.takeWhile Token.isBlank, Token.isBlank char :=
        fun _ member => List.mem_takeWhile_imp member
      have next := Scanner.next_of_cons found
      have rest : scanner.next.2.rest = (Lexeme.first first others).rest := by
        rw [next, Scanner.moveTo]
      rw [whole]
      refine ⟨_, _, .cons (Lexeme.first_valid noBlank) blanks (rest ▸ cutting) ?_, ?_⟩
      · intro atEnd
        have none := tokens_of_rest_eq_nil (rest.trans atEnd)
        exact List.map_eq_nil_iff.mp (tokens.trans none)
      · rw [List.map_cons, tokens, next]

end Scanner

/-- The tokens of a source text, one behind the other with blanks around them, are the text. -/
theorem Token.list_cutting (source : String) :
    ∃ lead pieces, Cutting source.toList lead pieces ∧
      pieces.map Piece.token = Token.list source :=
  (Scanner.ofString source).cutting

end Monkey
