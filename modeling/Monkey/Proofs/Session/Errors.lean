import Monkey.Proofs.Scope.Stored
import Monkey.Proofs.Session.Answer

/-!
Errors are no data. An error travels beside the values and becomes a value only in the answer of a
session; no array, no argument, no wrapping and no scope ever holds one.
-/

namespace Monkey

mutual

/-- There is no error in the value, at any depth. -/
def Value.errorFree : Value → Bool
  | .array elements => Value.errorFreeEach elements
  | .returned inner => inner.errorFree
  | .error _ => false
  | _ => true

def Value.errorFreeEach : List Value → Bool
  | [] => true
  | first :: others => first.errorFree && Value.errorFreeEach others

end

namespace Value

/-- Values hold no error together when none of them does. -/
theorem errorFreeEach_iff {values : List Value} :
    errorFreeEach values = true ↔ ∀ value ∈ values, value.errorFree = true := by
  induction values with
  | nil => simp [errorFreeEach]
  | cons first others inductionHypothesis => simp [errorFreeEach, inductionHypothesis]

/-- An array holds no error when none of its elements does. -/
theorem hereditary_errorFree : Hereditary fun value => value.errorFree = true where
  integer _ := rfl
  boolean _ := rfl
  text _ := rfl
  null := rfl
  void := rfl
  array _ := errorFreeEach_iff

/-- A value that holds no error is not one. -/
theorem kind_ne_error {value : Value} (errorFree : value.errorFree = true) :
    value.kind ≠ .error := by
  cases value with
  | error cause => cases errorFree
  | _ => simp [kind]

end Value

/-- No binding holds an error. -/
def Machine.ErrorFree : Machine → Prop :=
  Machine.All fun value => value.errorFree = true

namespace Evaluation

/-- What a call is given holds no error. -/
def Task.ErrorFree : Task → Prop
  | .call callee arguments =>
      callee.errorFree = true ∧ ∀ argument ∈ arguments, argument.errorFree = true
  | _ => True

/-- No step of evaluation puts an error into a value. -/
def Invariant.errorFree (builtins : Builtins) : Invariant builtins where
  node _ := True
  heap := Heap.All fun value => value.errorFree = true
  value _ value := value.errorFree = true
  scope _ _ := True
  error _ := True
  hereditary _ := Value.hereditary_errorFree
  builtin known := by
    obtain ⟨_, rfl⟩ := Builtins.exists_of_lookup known
    rfl
  returned := Iff.rfl
  value_mono _ holds := holds
  scope_mono _ inside := inside
  lookup start found := start.lookup found
  bind number name := fun start holds => start.bind number name holds
  create start _ each := ⟨start.create (callScope_all _ each), trivial⟩
  function _ _ := rfl
  body _ := fun _ _ => trivial
  unary _ _ := fun _ _ => trivial
  binary _ _ _ := fun _ _ => trivial
  others _ := trivial

/-- An admitted task holds no error. -/
theorem Invariant.Admits.errorFree {builtins : Builtins} {size : Nat} {task : Task}
    (admits : (Invariant.errorFree builtins).Admits size task) : task.ErrorFree := by
  cases task with
  | call callee arguments => exact admits
  | expression _ _ | block _ _ | program _ _ => exact trivial

end Evaluation

namespace Session

open Evaluation

/-- The evaluation of a program in a session without errors starts without any. -/
theorem errorFree_beginning {session : Session} (start : session.machine.ErrorFree)
    (depth scope : Nat) (program : Program Nat) :
    (Invariant.errorFree session.builtins).Holds (session.beginning depth program scope) :=
  ⟨⟨fun _ _ _ _ => trivial, trivial⟩, start⟩

/-- While a program is evaluated, neither the bindings nor what is passed to a call nor any value
holds an error. The answer is an error just when the evaluation has failed, and that error is all
of the answer; any other answer holds none. -/
theorem errors_are_no_data (session : Session) (depth scope : Nat) (program : Program Nat)
    (start : session.machine.ErrorFree) :
    (∀ moment, Within session.builtins (session.beginning depth program scope) moment →
      moment.machine.ErrorFree ∧ moment.task.ErrorFree ∧
        ∀ outcome after, moment.ends session.builtins = some (outcome, after) →
          after.ErrorFree ∧ ∀ value, outcome = .ok (some value) → value.errorFree = true) ∧
    ∀ result after, session.evaluate depth program scope = some (result, after) →
      after.machine.ErrorFree ∧
      ((∃ value, result = some value ∧ value.kind = .error) ↔
        ∃ cause, (session.beginning depth program scope).ends session.builtins =
          some (.error cause, after.machine)) ∧
      ∀ value, result = some value → value.errorFree = true ∨
        ∃ cause, value = .error cause ∧
          (session.beginning depth program scope).ends session.builtins =
            some (.error cause, after.machine) := by
  have holds := errorFree_beginning start depth scope program
  constructor
  · intro moment isWithin
    have here := holds.within isWithin
    refine ⟨here.heap, here.task.errorFree, ?_⟩
    intro outcome after ends
    have kept := here.ends ends
    exact ⟨kept.heap, fun value succeeds => kept.yields (some value) succeeds value rfl⟩
  · intro result after evaluated
    obtain ⟨outcome, machine, ends, rfl, rfl⟩ := evaluate_eq_some.mp evaluated
    have kept := holds.ends ends
    rw [ends]
    refine ⟨kept.heap, ?_⟩
    cases outcome with
    | error cause => simp [answer, Value.kind]
    | ok result =>
        have free (value : Value) (isResult : result = some value) : value.errorFree = true :=
          kept.yields result rfl value isResult
        constructor
        · constructor
          · rintro ⟨value, isResult, isError⟩
            exact absurd isError (Value.kind_ne_error (free value isResult))
          · rintro ⟨cause, fails⟩
            cases fails
        · intro value isResult
          exact .inl (free value isResult)

/-- The program `let f = fn() { [1, missing] }; f();` is answered with the error about the second
element of an array inside a call, and leaves only the function bound. -/
theorem errors_are_no_data_in_call :
    ∃ (session after : Session) (program : Program Nat),
      session.machine.ErrorFree ∧
      session.evaluate 4 program 0 = some (some (.error (.unbound "missing")), after) ∧
      after.machine.ErrorFree ∧
      (session.beginning 4 program 0).ends session.builtins =
        some (.error (.unbound "missing"), after.machine) := by
  let name (text : String) : Ident := ⟨⟨.ident, text⟩, text⟩
  let pair : Expr Nat :=
    .array ⟨.leftBracket, "["⟩ [.integer ⟨.int, "1"⟩ 1, .ident (name "missing")]
  let literal : Expr Nat := .function ⟨.fnWord, "fn"⟩ 0 []
    (.mk ⟨.leftBrace, "\x7b"⟩ [.expression ⟨.leftBracket, "["⟩ pair])
  let program : Program Nat := ⟨[.bind ⟨.letWord, "let"⟩ (name "f") literal,
    .expression ⟨.ident, "f"⟩ (.call ⟨.leftParen, "("⟩ (.ident (name "f")) [])]⟩
  let session : Session := ⟨.standard, ⟨⟨#[⟨[], none⟩]⟩, .buffer ""⟩, 1⟩
  have answered : (session.evaluate 4 program 0).map Prod.fst =
      some (some (.error (.unbound "missing"))) := by
    with_unfolding_all rfl
  obtain ⟨⟨_, after⟩, evaluated, rfl⟩ := Option.map_eq_some_iff.mp answered
  have start : session.machine.ErrorFree := by
    intro scope member name value bound
    simp only [session, Array.mem_singleton] at member
    simp [member] at bound
  obtain ⟨_, answers⟩ := errors_are_no_data session 4 0 program start
  obtain ⟨kept, _, only⟩ := answers _ after evaluated
  obtain free | ⟨_, ⟨⟩, fails⟩ := only _ rfl
  · cases free
  · exact ⟨session, after, program, start, evaluated, kept, fails⟩

end Session

end Monkey
