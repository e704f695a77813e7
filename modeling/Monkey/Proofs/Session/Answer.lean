import Monkey.Proofs.Evaluation.Invariant
import Monkey.Session

/-!
The answers of a session. A session answers a program with its value, and with the error where it
fails; a text is answered when it has no syntax errors. What holds of every evaluation so holds of
what a session answers, and of the machine that is left for the next program.
-/

namespace Monkey.Session

variable {session after : Session} {depth scope : Nat}

/-- An error is answered as a value. -/
def answer : Except RuntimeError (Option Value) → Option Value
  | .ok result => result
  | .error cause => some (.error cause)

/-- The evaluation of a program in a scope, as it is about to start. -/
def beginning (session : Session) (depth : Nat) (program : Program Nat) (scope : Nat) :
    Evaluation.Moment :=
  ⟨depth, .program program.statements scope, session.machine⟩

/-- A session evaluates a program as its machine does, and answers with the error if there is one.
-/
theorem evaluate_eq_some {program : Program Nat} {result : Option Value} :
    session.evaluate depth program scope = some (result, after) ↔
      ∃ outcome machine,
        (session.beginning depth program scope).ends session.builtins = some (outcome, machine) ∧
          result = answer outcome ∧ after = { session with machine } := by
  have unfolded : (session.beginning depth program scope).ends session.builtins =
      Evaluation.program (Evaluation.expression session.builtins depth) scope none
        program.statements session.machine := rfl
  simp only [evaluate, unfolded]
  match Evaluation.program (Evaluation.expression session.builtins depth) scope none
      program.statements session.machine with
  | none => simp
  | some (.ok value, machine) | some (.error cause, machine) =>
      constructor
      · rintro ⟨⟩
        exact ⟨_, machine, rfl, rfl, rfl⟩
      · rintro ⟨_, _, ⟨⟩, rfl, rfl⟩
        rfl

/-- A source without errors is run by evaluating what has been read and loaded. -/
theorem run_eq_ok {source : String} {result : Option Value} :
    session.run depth source scope = some (.ok result, after) ↔
      (Program.read source).2 = [] ∧
        (session.load (Program.read source).1).2.evaluate depth
          (session.load (Program.read source).1).1 scope = some (result, after) := by
  simp only [run]
  match Program.read source with
  | (program, []) =>
      simp only [true_and]
      match (session.load program).2.evaluate depth (session.load program).1 scope with
      | none => simp
      | some (found, reached) => simp
  | (program, error :: errors) => simp

/-- What has been read and loaded can be evaluated to run the source. -/
theorem run_of_read {source : String} {program : Program Unit} {labelled : Program Nat}
    {loaded : Session} {result : Option Value} (read : Program.read source = (program, []))
    (loads : session.load program = (labelled, loaded))
    (ends : loaded.evaluate depth labelled scope = some (result, after)) :
    session.run depth source scope = some (.ok result, after) := by
  rw [run_eq_ok, read, loads]
  exact ⟨rfl, ends⟩

/-- A source with errors is not run, and the session stays as it was. -/
theorem run_of_errors {source : String} (rejected : (Program.read source).2 ≠ []) :
    session.run depth source scope = some (.error (Program.read source).2, session) := by
  unfold run
  split
  · next found => exact absurd (by rw [found]) rejected
  · next found => rw [found]

/-- A text with syntax errors leaves the session as it was. -/
theorem run_eq_error {source : String} {errors : List SyntaxError}
    (refused : session.run depth source scope = some (.error errors, after)) : after = session := by
  simp only [run] at refused
  split at refused
  · split at refused <;> cases refused
  · cases refused
    rfl

end Monkey.Session
