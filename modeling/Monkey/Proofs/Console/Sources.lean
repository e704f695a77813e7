import Monkey.Proofs.Console.Lines
import Monkey.Proofs.Grammar.Joining

/-!
Reading lines. A line that is read without an error and closes its quotes is read in the same way
without the white space at its end, and lines that are sealed are read together as they are read one
by one.
-/

namespace Monkey

namespace Text

/-- White space lies below and above the characters that tokens are made of. -/
theorem isWhiteSpace_range {char : Char} (space : isWhiteSpace char) :
    char.toNat ≤ 0x20 ∨ 0x85 ≤ char.toNat := by
  simp only [isWhiteSpace, Bool.or_eq_true, Bool.and_eq_true, decide_eq_true_eq,
    beq_iff_eq] at space
  omega

/-- White space is no visible character. -/
theorem ne_of_isWhiteSpace {char other : Char} (space : isWhiteSpace char)
    (visible : ¬ isWhiteSpace other := by decide) : char ≠ other := by
  rintro rfl
  exact visible space

theorem not_letter_of_isWhiteSpace {char : Char} (space : isWhiteSpace char) :
    ¬ Token.isLetter char := by
  intro letter
  have spaces := isWhiteSpace_range space
  have letters := Token.isLetter_range letter
  omega

theorem not_digit_of_isWhiteSpace {char : Char} (space : isWhiteSpace char) : ¬ char.isDigit := by
  intro digit
  have spaces := isWhiteSpace_range space
  have digits := Token.isDigit_range digit
  omega

/-- White space opens no token. -/
theorem not_opens_of_isWhiteSpace {char : Char} (space : isWhiteSpace char) :
    ¬ Token.Opens char := by
  have visible : ∀ pair ∈ Token.symbols, ¬ isWhiteSpace pair.1 := by decide
  apply Token.not_opens (ne_of_isWhiteSpace space) (not_letter_of_isWhiteSpace space)
    (not_digit_of_isWhiteSpace space)
  intro pair member same
  exact visible pair member (same ▸ space)

/-- What is trimmed from the end of a text is white space. -/
theorem trimEnd_append (text : String) :
    ∃ tail, (∀ char ∈ tail, isWhiteSpace char) ∧ text = trimEnd text ++ String.ofList tail := by
  refine ⟨(text.toList.reverse.takeWhile isWhiteSpace).reverse, ?_, ?_⟩
  · intro char member
    exact List.mem_takeWhile_imp (List.mem_reverse.mp member)
  · apply String.toList_inj.mp
    rw [trimEnd, String.toList_append, String.toList_ofList, String.toList_ofList,
      ← List.reverse_append, List.takeWhile_append_dropWhile, List.reverse_reverse]

end Text

namespace Token

/-- White space behind a text has no tokens other than illegal ones. -/
theorem list_append_space {front : String} {tail : List Char}
    (space : ∀ char ∈ tail, Text.isWhiteSpace char) (paired : Even (front.toList.count '"'))
    (legal : ∀ token ∈ Token.list (front ++ String.ofList tail), token.kind ≠ .illegal) :
    Token.list (front ++ String.ofList tail) = Token.list front := by
  induction tail generalizing front with
  | nil => simp
  | cons char others inductionHypothesis =>
      rw [List.forall_mem_cons] at space
      have apart : front ++ String.ofList (char :: others) =
          front ++ String.ofList [char] ++ String.ofList others := by
        rw [String.append_assoc, ← String.ofList_append, List.singleton_append]
      have pairedLonger : Even ((front ++ String.ofList [char]).toList.count '"') := by
        have noQuote : char ≠ '"' := Text.ne_of_isWhiteSpace space.1
        simpa [List.count_singleton, noQuote] using paired
      have split : Token.list (front ++ String.ofList [char]) =
          Token.list front ++ scan [char] := by
        rw [Token.list_append paired, Token.list_eq_scan (String.ofList [char]),
          String.toList_ofList]
        intro token _ next isNext
        obtain rfl : char = next := by simpa using isNext
        exact token.not_extends (Text.not_letter_of_isWhiteSpace space.1)
          (Text.not_digit_of_isWhiteSpace space.1) (Text.ne_of_isWhiteSpace space.1)
      rw [apart] at legal ⊢
      have same := inductionHypothesis space.2 pairedLonger legal
      rw [same, split] at legal ⊢
      by_cases blank : isBlank char
      · rw [scan_blank blank, scan_nil, List.append_nil]
      -- white space that the tokens do not know would be an illegal token
      · have wellFormed : WellFormed ⟨.illegal, String.ofList [char]⟩ :=
          ⟨char, String.toList_ofList, Text.not_opens_of_isWhiteSpace space.1, blank⟩
        have scanned := @scan_text _ [] wellFormed (by simp)
        rw [List.append_nil, text, if_neg Kind.noConfusion, String.toList_ofList] at scanned
        rw [scanned] at legal
        exact absurd rfl (legal ⟨.illegal, String.ofList [char]⟩ (by simp))

end Token

namespace Program

/-- Sources with the same tokens are read alike. -/
theorem read_congr {first second : String} (tokens : Token.list first = Token.list second) :
    Program.read first = Program.read second := by
  rw [Program.read_eq, Program.read_eq, Reader.ofString, Reader.ofString, tokens]

/-- A line is read as it is without the white space at its end. -/
theorem read_trimEnd {line : String} (clean : (Program.read line).2 = [])
    (paired : Even (line.toList.count '"')) :
    Program.read (Text.trimEnd line) = Program.read line := by
  obtain ⟨tail, space, whole⟩ := Text.trimEnd_append line
  have legal : ∀ token ∈ Token.list line, token.kind ≠ .illegal := by
    intro token member
    have passes := (Program.derives clean).passes Grammar.passing_legal trivial
    simpa using passes token member
  have pairedFront : Even ((Text.trimEnd line).toList.count '"') := by
    have noQuotes : tail.count '"' = 0 := by
      apply List.count_eq_zero.mpr
      intro quote
      exact absurd (space _ quote) (by decide)
    rwa [whole, String.toList_append, List.count_append, String.toList_ofList, noQuotes,
      Nat.add_zero] at paired
  rw [whole] at legal
  have same := Token.list_append_space space pairedFront legal
  rw [← whole] at same
  exact read_congr same.symm

end Program

namespace Console

/-- A line feed parts the tokens of two sources when no text is left open. -/
theorem list_append_feed {line : String} (paired : Even (line.toList.count '"')) (rest : String) :
    Token.list (line ++ "\n" ++ rest) = Token.list line ++ Token.list rest :=
  Token.list_append_blank paired (show Token.isBlank '\n' by decide) rest

/-- Lines that are sealed are read together, with one more line behind them, as one by one. -/
theorem read_unlines {lines : List String} {last : String}
    (clean : ∀ line ∈ lines, (Program.read line).2 = [])
    (isSealed : ∀ line ∈ lines, Token.Sealed (Token.list line))
    (paired : Even (last.toList.count '"')) :
    Program.read (unlines (lines ++ [last])) =
      (⟨(lines.flatMap fun line => (Program.read line).1.statements) ++
          (Program.read last).1.statements⟩, (Program.read last).2) := by
  induction lines with
  | nil =>
      apply Program.read_congr
      have empty : Token.list "" = [] := Token.scan_nil
      simpa [empty] using list_append_feed paired ""
  | cons first others inductionHypothesis =>
      rw [List.forall_mem_cons] at clean isSealed
      have tokens := list_append_feed isSealed.1.even_quotes (unlines (others ++ [last]))
      rw [List.cons_append, unlines_cons, Program.read_of_list_append tokens clean.1 isSealed.1,
        inductionHypothesis clean.2 isSealed.2, List.flatMap_cons, List.append_assoc]

end Console

end Monkey
