import Monkey.Proofs.Bounded
import Monkey.Reader.Program

/-!
Reading only goes forward: whatever a reader reads, and however that ends, the tokens that are left
are the last ones of those it had, and errors are added behind the ones it has recorded.
-/

namespace Monkey

/-- The second reader can be reached from the first one. -/
structure Reader.Reaches (reader reached : Reader) : Prop where
  tokens : reached.tokens <:+ reader.tokens
  errors : reader.errors.toList <+: reached.errors.toList

namespace Reader

instance : Std.Refl Reader.Reaches where
  refl _ := ⟨List.suffix_rfl, List.prefix_rfl⟩

instance : Trans Reader.Reaches Reader.Reaches Reader.Reaches where
  trans first second :=
    ⟨second.tokens.trans first.tokens, first.errors.trans second.errors⟩

/-- A reader comes to the next token. -/
theorem reaches_advance (reader : Reader) : reader.Reaches reader.advance :=
  ⟨List.tail_suffix _, List.prefix_rfl⟩

/-- A reader comes to where an error is recorded. -/
theorem reaches_record (reader : Reader) (error : SyntaxError) :
    reader.Reaches (reader.record error) :=
  ⟨List.suffix_rfl, by simp [Reader.record]⟩

/-- Recorded errors stay recorded. -/
theorem Reaches.errors_size {reader reached : Reader} (reaches : reader.Reaches reached) :
    reader.errors.size ≤ reached.errors.size := by
  simpa using reaches.errors.length_le

end Reader

namespace Reading

open Bounded

/-- The reading goes forward. -/
abbrev Forward {Item : Type} (reading : Reading Item) : Prop :=
  Moves Reader.Reaches reading

variable {Item : Type}

theorem forward_current : Forward current := moves_inspect _

theorem forward_following : Forward following := moves_inspect _

theorem forward_advance : Forward advance := moves_change Reader.reaches_advance

theorem forward_expect (kind : Token.Kind) : Forward (expect kind) := by
  refine forward_following.bind fun next => ?_
  split
  · exact forward_advance
  · exact moves_fail _

theorem forward_accept (kind : Token.Kind) : Forward (accept kind) := by
  refine forward_following.bind fun next => ?_
  split
  · exact forward_advance
  · exact moves_pure _

/-- Recording an error goes forward when the reading does. -/
theorem forward_recorded {item : Reading Item} (forward : Forward item) :
    Forward (recorded item) := by
  refine forward.attempt.bind fun outcome => ?_
  split
  · exact moves_pure _
  · exact (moves_change fun reader => reader.reaches_record _).bind fun _ => moves_pure _

/-- Further items go forward when each of them does. -/
theorem forward_moreItems {item : Reading Item} (forward : Forward item) (bound : Nat) :
    Forward (moreItems item bound) := by
  induction bound with
  | zero => exact moves_exhausted
  | succ bound inductionHypothesis =>
      refine forward_following.bind fun next => ?_
      split
      · exact forward_advance.bind fun _ => forward_advance.bind fun _ => forward.bind fun _ =>
          inductionHypothesis.bind fun _ => moves_pure _
      · exact moves_pure _

/-- Items go forward when each of them does. -/
theorem forward_items {item : Reading Item} (forward : Forward item) (closing : Token.Kind)
    (bound : Nat) : Forward (items item closing bound) := by
  refine forward_following.bind fun next => forward_advance.bind fun _ => ?_
  split
  · exact moves_pure _
  · exact forward.bind fun _ => (forward_moreItems forward bound).bind fun _ =>
      (forward_expect closing).bind fun _ => moves_pure _

/-- A parameter goes forward. -/
theorem forward_parameter : Forward parameter := by
  refine forward_current.bind fun token => ?_
  split
  · exact moves_pure _
  · exact moves_fail _

section

variable {expression : Precedence → Reading (Expr Unit)}

/-- A statement goes forward when its expression does. -/
theorem forward_statement (forward : ∀ level, Forward (expression level)) :
    Forward (statement expression) := by
  refine forward_current.bind fun token => ?_
  split
  · exact (forward_expect _).bind fun _ => forward_current.bind fun _ =>
      (forward_expect _).bind fun _ => forward_advance.bind fun _ => (forward _).bind fun _ =>
      (forward_accept _).bind fun _ => moves_pure _
  · exact forward_advance.bind fun _ => (forward _).bind fun _ =>
      (forward_accept _).bind fun _ => moves_pure _
  · exact (forward _).bind fun _ => (forward_accept _).bind fun _ => moves_pure _

/-- Statements go forward when their expressions do. -/
theorem forward_statements (forward : ∀ level, Forward (expression level))
    (closing : List Token.Kind) (bound : Nat) :
    Forward (statements expression closing bound) := by
  induction bound with
  | zero => exact moves_exhausted
  | succ bound inductionHypothesis =>
      refine forward_current.bind fun token => ?_
      split
      · exact moves_pure _
      · exact (forward_recorded (forward_statement forward)).bind fun _ =>
          forward_advance.bind fun _ => inductionHypothesis.bind fun _ => moves_pure _

/-- A block goes forward when its expressions do. -/
theorem forward_block (forward : ∀ level, Forward (expression level)) (bound : Nat) :
    Forward (block expression bound) :=
  forward_current.bind fun _ => forward_advance.bind fun _ =>
    (forward_statements forward _ bound).bind fun _ => moves_pure _

/-- An alternative goes forward when its expressions do. -/
theorem forward_alternative (forward : ∀ level, Forward (expression level)) (bound : Nat) :
    Forward (alternative expression bound) := by
  refine forward_following.bind fun next => ?_
  split
  · exact forward_advance.bind fun _ => (forward_expect _).bind fun _ =>
      (forward_block forward bound).bind fun _ => moves_pure _
  · exact moves_pure _

/-- An operand goes forward when the expressions in it do. -/
theorem forward_operandFrom (forward : ∀ level, Forward (expression level)) (token : Token)
    (bound : Nat) : Forward (operandFrom expression token bound) := by
  unfold operandFrom
  split
  · exact moves_pure _
  · unfold integer
    split
    · exact moves_pure _
    · exact moves_fail _
  · exact moves_pure _
  · exact moves_pure _
  · exact moves_pure _
  · exact forward_advance.bind fun _ => (forward _).bind fun _ => moves_pure _
  · exact forward_advance.bind fun _ => (forward _).bind fun _ => moves_pure _
  · exact forward_advance.bind fun _ => (forward _).bind fun _ =>
      (forward_expect _).bind fun _ => moves_pure _
  · exact (forward_expect _).bind fun _ => forward_advance.bind fun _ => (forward _).bind fun _ =>
      (forward_expect _).bind fun _ => (forward_expect _).bind fun _ =>
      (forward_block forward bound).bind fun _ => (forward_alternative forward bound).bind fun _ =>
      moves_pure _
  · exact (forward_expect _).bind fun _ => (forward_items forward_parameter _ bound).bind fun _ =>
      (forward_expect _).bind fun _ => (forward_block forward bound).bind fun _ => moves_pure _
  · exact (forward_items (forward _) _ bound).bind fun _ => moves_pure _
  · exact moves_fail _

/-- A continuation goes forward when the expressions in it do. -/
theorem forward_continuation (forward : ∀ level, Forward (expression level)) (left : Expr Unit)
    (bound : Nat) : Forward (continuation expression left bound) := by
  refine forward_current.bind fun token => ?_
  split
  · exact (forward_items (forward _) _ bound).bind fun _ => moves_pure _
  · exact forward_advance.bind fun _ => (forward _).bind fun _ =>
      (forward_expect _).bind fun _ => moves_pure _
  · exact forward_advance.bind fun _ => (forward _).bind fun _ => moves_pure _

/-- Operators go forward when their operands do. -/
theorem forward_operators (forward : ∀ level, Forward (expression level)) (level : Precedence)
    (bound : Nat) (left : Expr Unit) : Forward (operators expression level bound left) := by
  induction bound generalizing left with
  | zero => exact moves_exhausted
  | succ bound inductionHypothesis =>
      refine forward_following.bind fun next => ?_
      split
      · exact forward_advance.bind fun _ => (forward_continuation forward left bound).bind
          fun longer => inductionHypothesis longer
      · exact moves_pure _

end

/-- An expression goes forward, by induction on the bound. -/
theorem forward_expression (bound : Nat) (level : Precedence) :
    Forward (expression bound level) := by
  induction bound generalizing level with
  | zero => exact moves_exhausted
  | succ bound inductionHypothesis =>
      exact (forward_current.bind fun token =>
        forward_operandFrom inductionHypothesis token bound).bind fun left =>
          forward_operators inductionHypothesis level (bound + 1) left

end Reading

end Monkey
