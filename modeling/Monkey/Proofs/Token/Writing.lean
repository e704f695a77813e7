import Monkey.Proofs.Token.Joining

/-!
Writing tokens. Tokens that are written with blanks between them are read again as they were, so the
text of a list of tokens, however it is spaced, says no less than the list.
-/

namespace Monkey.Token

/-- The tokens one behind the other, each with a separator behind it as long as there are any. -/
def write : List Token → List String → String
  | [], _ => ""
  | token :: others, [] => String.ofList token.text ++ write others []
  | token :: others, separator :: separators =>
      String.ofList token.text ++ separator ++ write others separators

/-- Blanks, and at least one of them. -/
def Separates (separator : String) : Prop :=
  separator ≠ "" ∧ ∀ char ∈ separator.toList, isBlank char

instance (separator : String) : Decidable (Separates separator) :=
  decidable_of_iff (separator ≠ "" ∧ separator.toList.all isBlank) (by simp [Separates])

/-- A token in front of a separator is read on its own, whatever it ends with. -/
theorem scan_separated {token : Token} {separator : String} (wellFormed : token.WellFormed)
    (separates : Separates separator) (rest : List Char) :
    scan (token.text ++ (separator.toList ++ rest)) = token :: scan rest := by
  obtain ⟨nonempty, blanks⟩ := separates
  rw [scan_text wellFormed, scan_blanks blanks]
  intro char head
  apply token.not_extends_blank
  apply blanks
  match spelled : separator.toList with
  | [] => exact absurd (String.toList_eq_nil_iff.mp spelled) nonempty
  | first :: others =>
      have isFirst : first = char := by simpa [spelled] using head
      exact isFirst ▸ List.mem_cons_self

/-- Well-formed tokens with separators between them are read back. -/
theorem scan_write {tokens : List Token} {separators : List String}
    (wellFormed : ∀ token ∈ tokens, token.WellFormed)
    (separate : ∀ separator ∈ separators, Separates separator)
    (enough : tokens.length ≤ separators.length + 1) :
    scan (write tokens separators).toList = tokens := by
  induction tokens generalizing separators with
  | nil => exact scan_nil
  | cons token others inductionHypothesis =>
      rw [List.forall_mem_cons] at wellFormed
      match separators with
      | [] =>
          -- Without a separator there is no token but this one.
          have last : others = [] := List.length_eq_zero_iff.mp (by simpa using enough)
          have alone := @scan_text token [] wellFormed.1 (by simp)
          simpa [last, write, scan_nil] using alone
      | separator :: separators =>
          rw [List.forall_mem_cons] at separate
          have rest := inductionHypothesis wellFormed.2 separate.2 (by simpa using enough)
          rw [write, String.toList_append, String.toList_append, String.toList_ofList,
            List.append_assoc, scan_separated wellFormed.1 separate.1, rest]

/-- Well-formed tokens with separators between them are read again one after the other, and behind
the last one the scanner finds the end of the text and nothing else. -/
theorem list_write (tokens : List Token) (separators : List String)
    (wellFormed : ∀ token ∈ tokens, token.WellFormed)
    (separate : ∀ separator ∈ separators, Separates separator)
    (enough : tokens.length ≤ separators.length + 1) :
    Token.list (write tokens separators) = tokens ∧
      ∀ count, ((Scanner.ofString (write tokens separators)).after count).next.1 =
        tokens.getD count .eof := by
  have tokensAgain : Token.list (write tokens separators) = tokens :=
    scan_write wellFormed separate enough
  refine ⟨tokensAgain, fun count => ?_⟩
  rw [Scanner.next_after]
  exact congrArg (fun found => List.getD found count .eof) tokensAgain

/-- The tokens `=`, `==`, `iffy`, `if`, `007`, `@` and a quoted text with an operator, a line feed
and a letter beyond ASCII in it. -/
theorem list_write_neighbours :
    ∃ (tokens : List Token) (separators : List String),
      (∀ token ∈ tokens, token.WellFormed) ∧ (∀ separator ∈ separators, Separates separator) ∧
      tokens.length = 7 ∧ separators.length = 6 ∧
      Token.list (write tokens separators) = tokens ∧
      ∀ count, ((Scanner.ofString (write tokens separators)).after count).next.1 =
        tokens.getD count .eof := by
  let tokens : List Token := [⟨.assign, "="⟩, ⟨.equal, "=="⟩, ⟨.ident, "iffy"⟩, ⟨.ifWord, "if"⟩,
    ⟨.int, "007"⟩, ⟨.illegal, "@"⟩, ⟨.string, "!=\né"⟩]
  let separators : List String := [" ", "\n", "\t ", "\r\n", " ", " "]
  have separate : ∀ separator ∈ separators, Separates separator := by decide
  have wellFormed : ∀ token ∈ tokens, token.WellFormed := by
    simp only [tokens, List.forall_mem_cons]
    refine ⟨wellFormed_symbol rfl, wellFormed_symbol rfl, (wellFormed_word (by decide)).mpr ?_,
      (wellFormed_word (by decide)).mpr ?_, ?_, ⟨'@', rfl, ?_, by decide⟩, ?_, by simp⟩
    · exact ⟨by decide, List.all_eq_true.mp (by decide), by decide⟩
    · exact ⟨by decide, List.all_eq_true.mp (by decide), by decide⟩
    · have digits : "007".toList.all Char.isDigit := by decide
      exact ⟨by decide, List.all_eq_true.mp digits⟩
    · apply not_opens <;> decide
    · exact (show '"' ∉ "!=\né".toList by decide)
  exact ⟨tokens, separators, wellFormed, separate, rfl, rfl,
    list_write tokens separators wellFormed separate (by decide)⟩

end Monkey.Token
