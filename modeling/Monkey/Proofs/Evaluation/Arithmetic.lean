import Mathlib.Algebra.Ring.Int.Defs
import Monkey.Evaluation
import Monkey.Proofs.Bounded

/-!
Arithmetic. A calculation is an expression of integer literals, signs and the four operations. Its
reference value is that of the unbounded integers, where a quotient loses its fraction. Evaluation
gives this value when every operation has a result of 64 bits, and otherwise it reports the first
operation, from left to right and operands before operations, that has none.
-/

namespace Monkey

/-- The four operations. -/
inductive Arithmetic where
  | add
  | subtract
  | multiply
  | divide
  deriving DecidableEq

namespace Arithmetic

/-- The text of the operator in a program. -/
def symbol : Arithmetic → String
  | add => "+"
  | subtract => "-"
  | multiply => "*"
  | divide => "/"

/-- The operation on unbounded integers. -/
def apply : Arithmetic → Int → Int → Int
  | add, left, right => left + right
  | subtract, left, right => left - right
  | multiply, left, right => left * right
  | divide, left, right => left.tdiv right

/-- An operation and its operands. -/
structure Step where
  left : Int
  operator : Arithmetic
  right : Int
  deriving DecidableEq

namespace Step

/-- What the step comes to in the unbounded integers. -/
def result (step : Step) : Int :=
  step.operator.apply step.left step.right

/-- A division that has no result. -/
def DividesByZero (step : Step) : Prop :=
  step.operator = .divide ∧ step.right = 0

/-- The result is one of the integers that programs have. -/
def InRange (step : Step) : Prop :=
  -2 ^ 63 ≤ step.result ∧ step.result ≤ 2 ^ 63 - 1

/-- The step has no result of 64 bits. -/
def Offends (step : Step) : Prop :=
  step.DividesByZero ∨ ¬step.InRange

instance (step : Step) : Decidable step.DividesByZero :=
  inferInstanceAs (Decidable (_ ∧ _))

instance (step : Step) : Decidable step.InRange :=
  inferInstanceAs (Decidable (_ ∧ _))

instance (step : Step) : Decidable step.Offends :=
  inferInstanceAs (Decidable (_ ∨ _))

/-- What is reported of a step that offends: a zero divisor, or else the operation with its
operands. -/
inductive Reported (step : Step) : RuntimeError → Prop where
  | divisionByZero (zero : step.DividesByZero) : Reported step .divisionByZero
  | overflow {left right : Int64} (nonzero : ¬step.DividesByZero) (outside : ¬step.InRange)
      (leftExact : left.toInt = step.left) (rightExact : right.toInt = step.right) :
      Reported step (.overflow left step.operator.symbol right)

end Step

end Arithmetic

/-- Expressions of integer literals, signs and the four operations. -/
inductive Calculation where
  | literal (token : Token) (value : Int64)
  | negation (token : Token) (operand : Calculation)
  | operation (token : Token) (left : Calculation) (operator : Arithmetic) (right : Calculation)

namespace Calculation

open Arithmetic

/-- The calculation as an expression of a program. -/
def expr : Calculation → Expr Nat
  | literal token value => .integer token value
  | negation token operand => .unary token "-" operand.expr
  | operation token left operator right => .binary token left.expr operator.symbol right.expr

/-- The value in the unbounded integers. -/
def reference : Calculation → Int
  | literal _ value => value.toInt
  | negation _ operand => -operand.reference
  | operation _ left operator right => operator.apply left.reference right.reference

/-- The steps from left to right, those of the operands before the operation itself. A sign is a
difference from zero. -/
def steps : Calculation → List Step
  | literal _ _ => []
  | negation _ operand => operand.steps ++ [⟨0, .subtract, operand.reference⟩]
  | operation _ left operator right =>
      left.steps ++ (right.steps ++ [⟨left.reference, operator, right.reference⟩])

/-- How deep the operations are nested. -/
def height : Calculation → Nat
  | literal _ _ => 1
  | negation _ operand => operand.height + 1
  | operation _ left _ right => max left.height right.height + 1

end Calculation

namespace Arithmetic

/-- Only an offending step is reported. -/
theorem Step.Reported.offends {step : Step} {cause : RuntimeError}
    (reported : step.Reported cause) : step.Offends := by
  cases reported with
  | divisionByZero zero => exact .inl zero
  | overflow _ outside _ _ => exact .inr outside

/-- There is one error for each offending step. -/
theorem Step.Reported.unique {step : Step} {first second : RuntimeError}
    (reported : step.Reported first) (again : step.Reported second) : first = second := by
  cases reported with
  | divisionByZero zero =>
      cases again with
      | divisionByZero _ => rfl
      | overflow nonzero _ _ _ => exact absurd zero nonzero
  | overflow nonzero _ leftExact rightExact =>
      cases again with
      | divisionByZero zero => exact absurd zero nonzero
      | overflow _ _ leftAgain rightAgain =>
          rw [Int64.toInt_inj.mp (leftExact.trans leftAgain.symm),
            Int64.toInt_inj.mp (rightExact.trans rightAgain.symm)]

/-- How steps end whose last result is `value`: with this value when none of them offends, and with
the report of the first one that does otherwise. -/
def Ends (steps : List Step) (value : Int) (outcome : Except RuntimeError Value) : Prop :=
  match steps.find? (·.Offends) with
  | none => ∃ integer : Int64, integer.toInt = value ∧ outcome = .ok (.integer integer)
  | some step => ∃ cause, step.Reported cause ∧ outcome = .error cause

/-- An integer has no exact representation just when it is out of range. -/
theorem exact_eq_none_iff (step : Step) :
    Integer.exact step.result = none ↔ ¬step.InRange := by
  have lower : Int64.minValue.toInt = -2 ^ 63 := by decide
  have upper : Int64.maxValue.toInt = 2 ^ 63 - 1 := by decide
  rw [Integer.exact, lower, upper, ite_eq_right_iff]
  constructor
  · intro nothing inRange
    cases nothing inRange
  · intro outside inRange
    exact absurd inRange outside

/-- An operation on exact operands ends with the exact result, or reports the overflow. -/
theorem ends_arithmetic (step : Step) (nonzero : ¬step.DividesByZero) {left right : Int64}
    (leftExact : left.toInt = step.left) (rightExact : right.toInt = step.right) :
    Ends [step] step.result
      (Operator.arithmetic left step.operator.symbol right step.result) := by
  unfold Operator.arithmetic
  cases fits : Integer.exact step.result with
  | some integer =>
      have inoffensive : ¬step.Offends := by
        rintro (zero | outside)
        · exact nonzero zero
        · rw [(exact_eq_none_iff step).mpr outside] at fits
          cases fits
      simp only [Ends, List.find?_singleton, inoffensive, decide_false, Bool.false_eq_true,
        if_false]
      exact ⟨integer, Integer.toInt_of_exact fits, rfl⟩
  | none =>
      have outside := (exact_eq_none_iff step).mp fits
      have offends : step.Offends := .inr outside
      simp only [Ends, List.find?_singleton, offends, decide_true, if_true]
      exact ⟨_, .overflow nonzero outside leftExact rightExact, rfl⟩

/-- One operation on integers. -/
theorem ends_onIntegers (operator : Arithmetic) (left right : Int64) :
    Ends [⟨left.toInt, operator, right.toInt⟩] (operator.apply left.toInt right.toInt)
      (Operator.onIntegers operator.symbol left right) := by
  have fine := ends_arithmetic ⟨left.toInt, operator, right.toInt⟩
  cases operator with
  | add => exact fine (fun zero => nomatch zero.1) rfl rfl
  | subtract => exact fine (fun zero => nomatch zero.1) rfl rfl
  | multiply => exact fine (fun zero => nomatch zero.1) rfl rfl
  | divide =>
      simp only [symbol, Operator.onIntegers]
      split
      · next zero =>
          subst zero
          exact ⟨_, .divisionByZero ⟨rfl, rfl⟩, rfl⟩
      · next nonzero => exact fine (fun zero => nonzero (Int64.toInt_inj.mp zero.2)) rfl rfl

/-- A negation is a subtraction from zero, and ends like one. -/
theorem ends_negate (operand : Int64) :
    Ends [⟨0, .subtract, operand.toInt⟩] (-operand.toInt) (Operator.negate operand) := by
  have difference := ends_arithmetic ⟨0, .subtract, operand.toInt⟩ (fun zero => nomatch zero.1)
    Int64.toInt_zero rfl
  simp only [Step.result, apply, Int.zero_sub] at difference
  exact difference

/-- What stands behind some steps is reached when none of them offends. -/
theorem Ends.bind {first second : List Step} {value last : Int}
    {outcome : Except RuntimeError Value} {next : Value → Except RuntimeError Value}
    (ends : Ends first value outcome)
    (rest : ∀ integer : Int64, integer.toInt = value → Ends second last (next (.integer integer))) :
    Ends (first ++ second) last (outcome >>= next) := by
  unfold Ends at ends ⊢
  rw [List.find?_append]
  cases found : first.find? (·.Offends) with
  | none =>
      rw [found] at ends
      obtain ⟨integer, exactly, rfl⟩ := ends
      exact rest integer exactly
  | some step =>
      rw [found] at ends
      obtain ⟨cause, reported, rfl⟩ := ends
      exact ⟨cause, reported, rfl⟩

/-- There is a value just when no step offends, and it is the exact one. -/
theorem Ends.eq_ok_iff {steps : List Step} {value : Int} {outcome : Except RuntimeError Value}
    (ends : Ends steps value outcome) (result : Value) :
    outcome = .ok result ↔
      (∀ step ∈ steps, ¬step.Offends) ∧
        ∃ integer : Int64, integer.toInt = value ∧ result = .integer integer := by
  unfold Ends at ends
  split at ends
  · next found =>
      obtain ⟨integer, exactly, rfl⟩ := ends
      have inoffensive : ∀ step ∈ steps, ¬step.Offends := by
        simpa [List.find?_eq_none] using found
      constructor
      · rintro ⟨⟩
        exact ⟨inoffensive, integer, exactly, rfl⟩
      · rintro ⟨-, other, same, rfl⟩
        rw [Int64.toInt_inj.mp (exactly.trans same.symm)]
  · next step found =>
      obtain ⟨cause, reported, rfl⟩ := ends
      constructor
      · rintro ⟨⟩
      · rintro ⟨inoffensive, -⟩
        exact absurd reported.offends (inoffensive step (List.mem_of_find?_eq_some found))

/-- There is an error just when a step offends, and it is that of the first one. -/
theorem Ends.eq_error_iff {steps : List Step} {value : Int} {outcome : Except RuntimeError Value}
    (ends : Ends steps value outcome) (cause : RuntimeError) :
    outcome = .error cause ↔
      ∃ step, steps.find? (·.Offends) = some step ∧ step.Reported cause := by
  unfold Ends at ends
  split at ends
  · next found =>
      obtain ⟨integer, -, rfl⟩ := ends
      simp [found]
  · next step found =>
      obtain ⟨reason, reported, rfl⟩ := ends
      rw [found]
      constructor
      · rintro ⟨⟩
        exact ⟨step, rfl, reported⟩
      · rintro ⟨_, ⟨⟩, again⟩
        rw [reported.unique again]

end Arithmetic

namespace Calculation

open Arithmetic Bounded

/-- A calculation ends within its height, and from every state alike. -/
theorem exists_ends (builtins : Builtins) (calculation : Calculation) (scope : Nat) {depth : Nat}
    (enough : calculation.height ≤ depth) :
    ∃ outcome, Evaluation.expression builtins depth calculation.expr scope = settle outcome ∧
      Ends calculation.steps calculation.reference outcome := by
  induction calculation generalizing depth with
  | literal token value =>
      obtain _ | depth := depth
      · cases enough
      exact ⟨.ok (.integer value), rfl, value, rfl, rfl⟩
  | negation token operand inductionHypothesis =>
      obtain _ | depth := depth
      · cases enough
      obtain ⟨outcome, found, ends⟩ := inductionHypothesis (Nat.le_of_succ_le_succ enough)
      refine ⟨outcome >>= Operator.unary "-", ?_, ends.bind ?_⟩
      · simp only [expr, Evaluation.expression, Evaluation.node, found]
        exact settle_bind_settle outcome (Operator.unary "-")
      · intro integer exactly
        rw [reference, ← exactly]
        exact ends_negate integer
  | operation token left operator right leftHypothesis rightHypothesis =>
      obtain _ | depth := depth
      · cases enough
      have smaller : max left.height right.height ≤ depth := Nat.le_of_succ_le_succ enough
      obtain ⟨first, leftFound, leftEnds⟩ :=
        leftHypothesis (Nat.le_trans (Nat.le_max_left _ _) smaller)
      obtain ⟨second, rightFound, rightEnds⟩ :=
        rightHypothesis (Nat.le_trans (Nat.le_max_right _ _) smaller)
      refine ⟨first >>= fun left => second >>= Operator.binary operator.symbol left, ?_,
        leftEnds.bind fun left leftExact => rightEnds.bind fun right rightExact => ?_⟩
      · simp only [expr, Evaluation.expression, Evaluation.node, leftFound, rightFound]
        rw [← settle_bind_settle]
        simp only [← settle_bind_settle]
      · rw [reference, ← leftExact, ← rightExact]
        exact ends_onIntegers operator left right

/-- A calculation has its exact value when every divisor is nonzero and every result has 64 bits.
Otherwise the first step that offends is reported. -/
theorem expression_reference (builtins : Builtins) (calculation : Calculation) (scope : Nat)
    (machine : Machine) {depth : Nat} (enough : calculation.height ≤ depth) :
    ∃ outcome,
      Evaluation.expression builtins depth calculation.expr scope machine =
        some (outcome, machine) ∧
      (∀ value, outcome = .ok value ↔
        (∀ step ∈ calculation.steps, ¬step.DividesByZero ∧ step.InRange) ∧
          ∃ integer : Int64,
            integer.toInt = calculation.reference ∧ value = .integer integer) ∧
      (∀ cause, outcome = .error cause ↔
        ∃ step, calculation.steps.find? (·.Offends) = some step ∧ step.Reported cause) := by
  obtain ⟨outcome, found, ends⟩ := exists_ends builtins calculation scope enough
  refine ⟨outcome, congrFun found machine, fun value => ?_, ends.eq_error_iff⟩
  rw [ends.eq_ok_iff]
  simp only [Step.Offends, not_or, Decidable.not_not]

/-- The least integer, which has no literal. -/
def least : Calculation :=
  .operation ⟨.minus, "-"⟩
    (.negation ⟨.minus, "-"⟩ (.literal ⟨.int, "9223372036854775807"⟩ Int64.maxValue))
    .subtract (.literal ⟨.int, "1"⟩ 1)

/-- The negation of the least integer, whose result is out of range. -/
def leastNegated : Calculation :=
  .negation ⟨.minus, "-"⟩ least

/-- The division of the least integer by -1, whose result is out of range. -/
def leastDivided : Calculation :=
  .operation ⟨.slash, "/"⟩ least .divide (.negation ⟨.minus, "-"⟩ (.literal ⟨.int, "1"⟩ 1))

/-- The least integer can be computed, but it has no opposite and no quotient by minus one. -/
theorem expression_reference_least :
    let machine : Machine := ⟨.empty, .buffer ""⟩
    (least.height ≤ 4 ∧ leastNegated.height ≤ 4 ∧ leastDivided.height ≤ 4) ∧
    Evaluation.expression .standard 4 least.expr 0 machine =
      some (.ok (.integer Int64.minValue), machine) ∧
    Evaluation.expression .standard 4 leastNegated.expr 0 machine =
      some (.error (.overflow 0 "-" Int64.minValue), machine) ∧
    Evaluation.expression .standard 4 leastDivided.expr 0 machine =
      some (.error (.overflow Int64.minValue "/" (-1)), machine) := by
  intro machine
  have enough : least.height ≤ 4 ∧ leastNegated.height ≤ 4 ∧ leastDivided.height ≤ 4 := by decide
  refine ⟨enough, ?_, ?_, ?_⟩
  · obtain ⟨outcome, ends, results, -⟩ :=
      expression_reference .standard least 0 machine enough.1
    rw [ends, (results (.integer Int64.minValue)).mpr]
    exact ⟨by decide, Int64.minValue, by decide, rfl⟩
  · obtain ⟨outcome, ends, -, errors⟩ :=
      expression_reference .standard leastNegated 0 machine enough.2.1
    rw [ends, (errors (.overflow 0 "-" Int64.minValue)).mpr]
    refine ⟨⟨0, .subtract, -2 ^ 63⟩, by decide, ?_⟩
    exact .overflow (by decide) (by decide) (by decide) (by decide)
  · obtain ⟨outcome, ends, -, errors⟩ :=
      expression_reference .standard leastDivided 0 machine enough.2.2
    rw [ends, (errors (.overflow Int64.minValue "/" (-1))).mpr]
    refine ⟨⟨-2 ^ 63, .divide, -1⟩, by decide, ?_⟩
    exact .overflow (by decide) (by decide) (by decide) (by decide)

end Calculation

end Monkey
