import Monkey.Proofs.Evaluation.Output
import Monkey.Proofs.Scope.Frame

/-!
A function that is applied to the elements of an array in rounds, one element in each of them, until
no element is left or an application fails. What has come of the rounds can be told from the
applications alone: their arguments, their outcomes and what they have written.
-/

namespace Monkey.Mapping

open Evaluation Bounded

/-- One application of the function: its argument, the machine that it starts on, how it ends, and
the machine that it leaves. -/
structure Application where
  argument : Value
  before : Machine
  outcome : Except RuntimeError Value
  after : Machine

/-- The application ends as it says. -/
def Application.Happens (function : Value) (application : Application) : Prop :=
  ∃ depth, call (expression .standard depth) function [application.argument] application.before =
    some (application.outcome, application.after)

/-- The text is what the application has written. -/
def Application.Writes (application : Application) (text : String) : Prop :=
  application.before.output.write text = .ok application.after.output

/-- A round has a scope of its own, which lies in the scope of the call of `map`. -/
def enter (home : Nat) (left done : List Value) (machine : Machine) : Machine :=
  { machine with
    heap := (machine.heap.create
      ⟨[("acc", .array done), ("arr", .array left)], some home⟩).2 }

/-- Rounds with the elements that are left and the values that are done. They end when nothing is
left or an application fails. -/
inductive Rounds (function : Value) (home : Nat) : List Value → List Value → Machine →
    List Application → Except RuntimeError (List Value) → Machine → Prop
  | finish {done : List Value} {machine : Machine} :
      Rounds function home [] done machine [] (.ok done) (enter home [] done machine)
  | pass {first value : Value} {others done : List Value} {machine reached after : Machine}
      {applications : List Application} {result : Except RuntimeError (List Value)}
      (happens : Application.Happens function
        ⟨first, enter home (first :: others) done machine, .ok value, reached⟩)
      (goesOn : Rounds function home others (done ++ [value]) reached applications result after) :
      Rounds function home (first :: others) done machine
        (⟨first, enter home (first :: others) done machine, .ok value, reached⟩ :: applications)
        result after
  | stop {first : Value} {others done : List Value} {machine reached : Machine}
      {cause : RuntimeError}
      (happens : Application.Happens function
        ⟨first, enter home (first :: others) done machine, .error cause, reached⟩) :
      Rounds function home (first :: others) done machine
        [⟨first, enter home (first :: others) done machine, .error cause, reached⟩]
        (.error cause) reached

/-- What has come of applying the function to the elements. -/
structure Account (function : Value) (elements : List Value) (machine : Machine)
    (applications : List Application) (result : Except RuntimeError (List Value))
    (after : Machine) : Prop where
  happen : ∀ application ∈ applications, application.Happens function
  success : ∀ values, result = .ok values →
    applications.map Application.argument = elements ∧
      applications.map Application.outcome = values.map .ok
  failure : ∀ cause, result = .error cause → ∃ earlier last, applications = earlier ++ [last] ∧
    applications.map Application.argument <+: elements ∧
      (∀ application ∈ earlier, ∃ value, application.outcome = .ok value) ∧
        last.outcome = .error cause ∧ last.after = after
  output : ∃ texts, List.Forall₂ Application.Writes applications texts ∧
    machine.output.write (String.join texts) = .ok after.output
  scopes : Machine.Frame none machine after

variable {home : Nat} {function : Value} {before after machine : Machine} {left done : List Value}

@[simp] theorem output_enter (home : Nat) (left done : List Value) (machine : Machine) :
    (enter home left done machine).output = machine.output := rfl

/-- Entering a round changes no old scope. -/
theorem frame_enter (home : Nat) (left done : List Value) (machine : Machine) :
    Machine.Frame none machine (enter home left done machine) :=
  machine.heap.frame_create _

/-- A call of the function changes no old scope. -/
theorem frame_applied {depth : Nat} {callee : Value} {arguments : List Value}
    {outcome : Except RuntimeError Value}
    (ends : call (expression .standard depth) callee arguments before = some (outcome, after)) :
    Machine.Frame none before after :=
  frame_call (frame_expression .standard depth) callee arguments ends

namespace Rounds

variable {applications : List Application} {result : Except RuntimeError (List Value)}
  (rounds : Rounds function home left done machine applications result after)

include rounds

/-- Each application of the rounds has happened. -/
theorem happen : ∀ application ∈ applications, application.Happens function := by
  induction rounds with
  | finish => simp
  | stop happens => simpa using happens
  | pass happens _ inductionHypothesis =>
      exact List.forall_mem_cons.mpr ⟨happens, inductionHypothesis⟩

/-- When all rounds succeed, each element has been applied and its value is in the result. -/
theorem success {values : List Value} (succeeds : result = .ok values) :
    applications.map Application.argument = left ∧
      values.map .ok = done.map .ok ++ applications.map Application.outcome := by
  induction rounds with
  | finish =>
      cases succeeds
      simp
  | stop => cases succeeds
  | pass _ _ inductionHypothesis =>
      obtain ⟨arguments, outcomes⟩ := inductionHypothesis succeeds
      simp [arguments, outcomes]

/-- When a round fails, it is the last one, and all earlier ones have succeeded. -/
theorem failure {cause : RuntimeError} (fails : result = .error cause) :
    ∃ earlier last, applications = earlier ++ [last] ∧
      applications.map Application.argument <+: left ∧
        (∀ application ∈ earlier, ∃ value, application.outcome = .ok value) ∧
          last.outcome = .error cause ∧ last.after = after := by
  induction rounds with
  | finish => cases fails
  | stop =>
      cases fails
      exact ⟨[], _, rfl, by simp, by simp, rfl, rfl⟩
  | pass _ _ inductionHypothesis =>
      obtain ⟨earlier, last, rfl, arguments, succeed, fails, ends⟩ := inductionHypothesis fails
      refine ⟨_ :: earlier, last, rfl, ?_, ?_, fails, ends⟩
      · exact List.cons_prefix_cons.mpr ⟨rfl, arguments⟩
      · exact List.forall_mem_cons.mpr ⟨⟨_, rfl⟩, succeed⟩

/-- The rounds change no old scope. -/
theorem frame : Machine.Frame none machine after := by
  induction rounds with
  | finish => exact frame_enter _ _ _ _
  | stop happens =>
      obtain ⟨depth, applied⟩ := happens
      exact Trans.trans (frame_enter _ _ _ _) (frame_applied applied)
  | pass happens _ inductionHypothesis =>
      obtain ⟨depth, applied⟩ := happens
      have first := Trans.trans (frame_enter _ _ _ _) (frame_applied applied)
      exact Trans.trans first inductionHypothesis

/-- The rounds write what the applications write, one after the other. -/
theorem writes : ∃ texts, List.Forall₂ Application.Writes applications texts ∧
    machine.output.write (String.join texts) = .ok after.output := by
  induction rounds with
  | finish => exact ⟨[], .nil, Output.write_empty _⟩
  | stop happens =>
      obtain ⟨depth, applied⟩ := happens
      obtain ⟨text, written⟩ := call_writes .standard depth function _ applied
      refine ⟨[text], .cons written .nil, ?_⟩
      simpa using written
  | pass happens _ inductionHypothesis =>
      obtain ⟨depth, applied⟩ := happens
      obtain ⟨text, written⟩ := call_writes .standard depth function _ applied
      obtain ⟨texts, others, whole⟩ := inductionHypothesis
      refine ⟨text :: texts, .cons written others, ?_⟩
      rw [Output.write_write written] at whole
      simpa using whole

end Rounds

/-- Rounds that start with nothing done on a machine as good as the given one. -/
theorem Rounds.account {elements : List Value} {start : Machine} {applications : List Application}
    {result : Except RuntimeError (List Value)}
    (rounds : Rounds function home elements [] start applications result after)
    (frame : Machine.Frame none machine start) (output : start.output = machine.output) :
    Account function elements machine applications result after where
  happen := rounds.happen
  success := by
    intro values succeeds
    obtain ⟨arguments, outcomes⟩ := rounds.success succeeds
    exact ⟨arguments, outcomes.symm⟩
  failure _ fails := rounds.failure fails
  output := output ▸ rounds.writes
  scopes := Trans.trans frame rounds.frame

end Monkey.Mapping
