import Mathlib.Algebra.Ring.Parity
import Monkey.Proofs.Token.Joining

/-!
Quotes that are open at the end of a source. Whether the tokens of a source are kept when another
source is put behind it, with a blank between them, is decided by the number of its quotes alone: an
open quote makes the other source, up to the next quote in it, a part of the quoted text.
-/

namespace Monkey.Token

/-- What stands behind the last quote of a source is the quoted text that the quote opens, and the
characters before the quote have the other tokens. -/
structure EndsOpen (source before literal : String) : Prop where
  whole : source = before ++ "\"" ++ literal
  unclosed : '"' ∉ literal.toList
  tokens : Token.list source = Token.list before ++ [⟨.string, literal⟩]

/-- The characters up to the last quote, and those behind it. -/
theorem split_last_quote {source : String} (unpaired : Odd (source.toList.count '"')) :
    ∃ before literal : String, source = before ++ "\"" ++ literal ∧ '"' ∉ literal.toList ∧
      Even (before.toList.count '"') := by
  have quote : '"' ∈ source.toList.reverse := by
    rw [List.mem_reverse, ← List.count_pos_iff]
    exact Nat.pos_of_ne_zero fun none => by simp [none] at unpaired
  obtain ⟨behind, ahead, split, unclosed⟩ := List.eq_append_cons_of_mem quote
  have whole : source.toList = ahead.reverse ++ '"' :: behind.reverse := by
    simpa using congrArg List.reverse split
  refine ⟨String.ofList ahead.reverse, String.ofList behind.reverse, ?_, ?_, ?_⟩
  · apply String.toList_inj.mp
    simp [whole]
  · simpa using unclosed
  · have one : source.toList.count '"' = ahead.reverse.count '"' + 1 := by
      have none : behind.reverse.count '"' = 0 := by simpa [List.count_eq_zero] using unclosed
      rw [whole, List.count_append, List.count_cons_self, none]
    rw [one, Nat.odd_add_one, Nat.not_odd_iff_even] at unpaired
    simpa using unpaired

/-- A quote makes no token longer, so the tokens before it stay as they are. -/
theorem list_append_quote {before : String} (paired : Even (before.toList.count '"'))
    (rest : String) :
    Token.list (before ++ ("\"" ++ rest)) = Token.list before ++ Token.list ("\"" ++ rest) := by
  apply list_append paired
  intro token _ char follows
  obtain rfl : '"' = char := by simpa using follows
  exact token.not_extends (by decide) (by decide) (by decide)

/-- A quote that is not closed makes all behind it one text. -/
theorem list_unclosed {literal : String} (unclosed : '"' ∉ literal.toList) :
    Token.list ("\"" ++ literal) = [⟨.string, literal⟩] := by
  have run := @Lexeme.run_append (· != '"') literal.toList [] (by grind) (by simp)
  rw [List.append_nil] at run
  have opened : ("\"" ++ literal).toList = '"' :: literal.toList := by simp
  rw [list_eq_scan, opened, scan_first (by decide), Lexeme.first, if_pos rfl, Lexeme.quoted,
    run.1, run.2, String.ofList_toList]
  exact congrArg _ scan_nil

/-- A source with an odd number of quotes ends with a quoted text that is not closed, which goes on
in whatever is put behind the source. -/
theorem exists_endsOpen {source : String} (unpaired : Odd (source.toList.count '"')) :
    ∃ before literal, EndsOpen source before literal ∧
      ∀ rest, Token.list (source ++ rest) =
        Token.list before ++ Token.list ("\"" ++ literal ++ rest) := by
  obtain ⟨before, literal, rfl, unclosed, paired⟩ := split_last_quote unpaired
  refine ⟨before, literal, ⟨rfl, unclosed, ?_⟩, fun rest => ?_⟩
  · rw [String.append_assoc, list_append_quote paired, list_unclosed unclosed]
  · simp only [String.append_assoc]
    exact list_append_quote paired (literal ++ rest)

/-- A quoted text that is not closed takes in the blank behind it. -/
theorem list_append_blank_ne {source : String} (unpaired : Odd (source.toList.count '"'))
    {blank : Char} (separates : isBlank blank) :
    Token.list (source ++ String.singleton blank) ≠ Token.list source := by
  obtain ⟨before, literal, opened, goesOn⟩ := exists_endsOpen unpaired
  have unclosed : '"' ∉ (literal ++ String.singleton blank).toList := by
    have noQuote : '"' ≠ blank := by
      rintro rfl
      exact absurd separates (by decide)
    simpa [opened.unclosed] using noQuote
  intro same
  rw [goesOn, opened.tokens, String.append_assoc, list_unclosed unclosed,
    List.append_cancel_left_eq] at same
  have sameText : literal ++ String.singleton blank = literal := by simpa using same
  have lengths := congrArg String.length sameText
  simp at lengths

/-- The tokens of a source are kept in front of every other source, with a blank between them, just
when its quotes come in pairs. Otherwise the last one of them is a quoted text that is not closed,
and that one is read again, from its quote on, together with what is put behind it. -/
theorem list_append_quotes (first : String) {blank : Char} (separates : isBlank blank) :
    (Even (first.toList.count '"') ↔
      ∀ second, Token.list (first ++ String.singleton blank ++ second) =
        Token.list first ++ Token.list second) ∧
    (Odd (first.toList.count '"') →
      ∃ before literal, EndsOpen first before literal ∧
        (Token.list first).getLast? = some ⟨.string, literal⟩ ∧
        ∀ second, Token.list (first ++ String.singleton blank ++ second) =
          (Token.list first).dropLast ++
            Token.list ("\"" ++ literal ++ String.singleton blank ++ second)) := by
  constructor
  · refine ⟨fun paired => list_append_blank paired separates, fun kept => ?_⟩
    by_contra unpaired
    have empty : Token.list "" = [] := scan_nil
    apply list_append_blank_ne (Nat.not_even_iff_odd.mp unpaired) separates
    simpa [empty] using kept ""
  · intro unpaired
    obtain ⟨before, literal, opened, goesOn⟩ := exists_endsOpen unpaired
    refine ⟨before, literal, opened, ?_, fun second => ?_⟩
    · rw [opened.tokens, List.getLast?_concat]
    · rw [opened.tokens, List.dropLast_concat, String.append_assoc, goesOn]
      simp only [String.append_assoc]

/-- A line feed keeps `"é" =` and `= 1` apart, but not `x "é` and `y" z`: there it becomes a part of
the quoted text. -/
theorem list_append_quotes_lines :
    isBlank '\n' ∧ Even ("\"é\" =".toList.count '"') ∧ Odd ("x \"é".toList.count '"') ∧
      Token.list ("\"é\" =" ++ String.singleton '\n' ++ "= 1") =
        Token.list "\"é\" =" ++ Token.list "= 1" ∧
      ∃ before literal, EndsOpen "x \"é" before literal ∧
        Token.list ("x \"é" ++ String.singleton '\n' ++ "y\" z") =
          (Token.list "x \"é").dropLast ++
            Token.list ("\"" ++ literal ++ String.singleton '\n' ++ "y\" z") := by
  have separates : isBlank '\n' := by decide
  have paired : Even ("\"é\" =".toList.count '"') := by decide
  have unpaired : Odd ("x \"é".toList.count '"') := by decide
  obtain ⟨before, literal, opened, _, goesOn⟩ := (list_append_quotes "x \"é" separates).2 unpaired
  exact ⟨separates, paired, unpaired, (list_append_quotes "\"é\" =" separates).1.mp paired "= 1",
    before, literal, opened, goesOn "y\" z"⟩

end Monkey.Token
