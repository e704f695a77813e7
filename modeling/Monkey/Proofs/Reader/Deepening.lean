import Monkey.Proofs.Bounded
import Monkey.Reader.Bound

/-!
A bound that is large enough could have been larger: what is read under one bound is read under
every larger one. So the bound that a program is read with makes no difference, as long as it is
above the number of tokens.
-/

namespace Monkey

namespace Reading

open Bounded

variable {Item : Type} {bound larger : Nat}

/-- Recording an error refines when the reading does. -/
theorem refines_recorded {first second : Reading Item} (refines : Refines first second) :
    Refines (recorded first) (recorded second) :=
  refines.attempt.bind fun _ => refines_refl _

/-- Further items refine when the item and the bound do. -/
theorem refines_moreItems {first second : Reading Item} (refines : Refines first second)
    (le : bound ≤ larger) : Refines (moreItems first bound) (moreItems second larger) := by
  induction bound generalizing larger with
  | zero => exact refines_exhausted _
  | succ bound inductionHypothesis =>
      obtain ⟨larger, rfl⟩ : ∃ smaller, larger = smaller + 1 := ⟨larger - 1, by omega⟩
      apply (refines_refl following).bind
      intro next
      split
      · exact (refines_refl _).bind fun _ => (refines_refl _).bind fun _ => refines.bind fun _ =>
          (inductionHypothesis (by omega)).bind fun _ => refines_refl _
      · exact refines_refl _

/-- Items refine when the item and the bound do. -/
theorem refines_items {first second : Reading Item} (refines : Refines first second)
    (closing : Token.Kind) (le : bound ≤ larger) :
    Refines (items first closing bound) (items second closing larger) := by
  apply (refines_refl following).bind
  intro next
  apply (refines_refl advance).bind
  intro _
  split
  · exact refines_refl _
  · exact refines.bind fun _ => (refines_moreItems refines le).bind fun _ => refines_refl _

section

variable {first second : Precedence → Reading (Expr Unit)}
  (refines : ∀ level, Refines (first level) (second level))

include refines

/-- A statement refines when its expression does. -/
theorem refines_statement : Refines (statement first) (statement second) := by
  apply (refines_refl current).bind
  intro token
  split
  · exact (refines_refl _).bind fun _ => (refines_refl _).bind fun _ => (refines_refl _).bind
      fun _ => (refines_refl _).bind fun _ => (refines _).bind fun _ => refines_refl _
  · exact (refines_refl _).bind fun _ => (refines _).bind fun _ => refines_refl _
  · exact (refines _).bind fun _ => refines_refl _

/-- Statements refine when the expression and the bound do. -/
theorem refines_statements (closing : List Token.Kind) (le : bound ≤ larger) :
    Refines (statements first closing bound) (statements second closing larger) := by
  induction bound generalizing larger with
  | zero => exact refines_exhausted _
  | succ bound inductionHypothesis =>
      obtain ⟨larger, rfl⟩ : ∃ smaller, larger = smaller + 1 := ⟨larger - 1, by omega⟩
      apply (refines_refl current).bind
      intro token
      split
      · exact refines_refl _
      · exact (refines_recorded (refines_statement refines)).bind fun _ =>
          (refines_refl _).bind fun _ => (inductionHypothesis (by omega)).bind fun _ =>
            refines_refl _

/-- A block refines when the expression and the bound do. -/
theorem refines_block (le : bound ≤ larger) :
    Refines (block first bound) (block second larger) :=
  (refines_refl _).bind fun _ => (refines_refl _).bind fun _ =>
    (refines_statements refines _ le).bind fun _ => refines_refl _

/-- An alternative refines when the expression and the bound do. -/
theorem refines_alternative (le : bound ≤ larger) :
    Refines (alternative first bound) (alternative second larger) := by
  apply (refines_refl following).bind
  intro next
  split
  · exact (refines_refl _).bind fun _ => (refines_refl _).bind fun _ =>
      (refines_block refines le).bind fun _ => refines_refl _
  · exact refines_refl _

/-- An operand refines when the expression and the bound do. -/
theorem refines_operandFrom (token : Token) (le : bound ≤ larger) :
    Refines (operandFrom first token bound) (operandFrom second token larger) := by
  cases kind : token.kind <;> simp only [operandFrom, kind]
  case bang | minus =>
    exact (refines_refl _).bind fun _ => (refines _).bind fun _ => refines_refl _
  case leftParen =>
    exact (refines_refl _).bind fun _ => (refines _).bind fun _ => refines_refl _
  case ifWord =>
    exact (refines_refl _).bind fun _ => (refines_refl _).bind fun _ => (refines _).bind fun _ =>
      (refines_refl _).bind fun _ => (refines_refl _).bind fun _ =>
      (refines_block refines le).bind fun _ => (refines_alternative refines le).bind fun _ =>
      refines_refl _
  case fnWord =>
    exact (refines_refl _).bind fun _ => (refines_items (refines_refl _) _ le).bind fun _ =>
      (refines_refl _).bind fun _ => (refines_block refines le).bind fun _ => refines_refl _
  case leftBracket => exact (refines_items (refines _) _ le).bind fun _ => refines_refl _
  all_goals exact refines_refl _

/-- A continuation refines when the expression and the bound do. -/
theorem refines_continuation (left : Expr Unit) (le : bound ≤ larger) :
    Refines (continuation first left bound) (continuation second left larger) := by
  apply (refines_refl current).bind
  intro token
  split
  · exact (refines_items (refines _) _ le).bind fun _ => refines_refl _
  · exact (refines_refl _).bind fun _ => (refines _).bind fun _ => refines_refl _
  · exact (refines_refl _).bind fun _ => (refines _).bind fun _ => refines_refl _

/-- Operators refine when the expression and the bound do. -/
theorem refines_operators (level : Precedence) (left : Expr Unit) (le : bound ≤ larger) :
    Refines (operators first level bound left) (operators second level larger left) := by
  induction bound generalizing larger left with
  | zero => exact refines_exhausted _
  | succ bound inductionHypothesis =>
      obtain ⟨larger, rfl⟩ : ∃ smaller, larger = smaller + 1 := ⟨larger - 1, by omega⟩
      have le : bound ≤ larger := by omega
      apply (refines_refl following).bind
      intro next
      split
      · exact (refines_refl _).bind fun _ => (refines_continuation refines left le).bind
          fun longer => inductionHypothesis longer le
      · exact refines_refl _

end

/-- What is read within some bound is read alike within a larger one. -/
theorem refines_expression (level : Precedence) (le : bound ≤ larger) :
    Refines (expression bound level) (expression larger level) := by
  induction bound generalizing larger level with
  | zero => exact refines_exhausted _
  | succ bound inductionHypothesis =>
      obtain ⟨larger, rfl⟩ : ∃ smaller, larger = smaller + 1 := ⟨larger - 1, by omega⟩
      have parts := fun level => inductionHypothesis level (show bound ≤ larger by omega)
      apply Refines.bind
      · apply (refines_refl current).bind
        intro token
        exact refines_operandFrom parts token (by omega)
      · intro left
        exact refines_operators parts level left le

end Reading

/-- Every bound above the number of tokens reads the program. -/
theorem Reader.program_eq_of_lt (reader : Reader) {bound steps : Nat}
    (fits : reader.tokens.length < bound) (enough : reader.tokens.length < steps) :
    Reading.statements (Reading.expression bound) [.eof] steps reader =
      some (.ok reader.program.1.statements, reader.program.2) :=
  Reading.refines_statements (fun level => Reading.refines_expression level fits) [.eof] enough
    reader.program_eq

end Monkey
