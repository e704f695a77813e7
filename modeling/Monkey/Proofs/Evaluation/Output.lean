import Monkey.Proofs.Evaluation.Parts
import Monkey.Proofs.Scope.Isolation

/-!
The output is written to and never read. With another output that takes texts as the first one does,
evaluation ends in the same way and with the same heap, and it has written the same text behind what
was there.
-/

namespace Monkey

/-- Every scope is linked to itself and to no other one. -/
def itself : Nat → Nat → Prop :=
  within fun _ => True

/-- Every value is like itself. -/
theorem Value.alike_itself (value : Value) : Value.Alike itself value value :=
  value.alike_self fun _ _ => ⟨rfl, trivial⟩

/-- Scopes are equal when their values are. -/
theorem Scope.Alike.eq_of_itself {first second : Scope} (alike : Scope.Alike itself first second) :
    first = second := by
  obtain ⟨firstBindings, firstOuter⟩ := first
  obtain ⟨secondBindings, secondOuter⟩ := second
  obtain ⟨bindings, outer⟩ := alike
  have sameBindings : firstBindings = secondBindings := by
    apply List.forall₂_eq_eq_eq ▸ bindings.imp
    rintro left right ⟨name, values⟩
    exact Prod.ext name values.eq_of_within
  have sameOuter : firstOuter = secondOuter := by
    cases outer with
    | none => rfl
    | some linked => rw [linked.1]
  rw [sameBindings, sameOuter]

/-- Equality of scopes keeps up with all that happens to them. -/
theorem Scope.tracked_eq : Scope.Tracked itself Eq where
  created _ _ alike := alike.eq_of_itself
  bound := by
    rintro scope _ rfl name left right values
    rw [values.eq_of_within]
  similar := by
    rintro scope _ rfl
    refine ⟨fun name => ?_, ?_⟩
    · cases scope.bindings.lookup name with
      | none => exact .none
      | some value => exact .some value.alike_itself
    · cases scope.outer with
      | none => exact .none
      | some outer => exact .some ⟨rfl, trivial⟩

namespace Heap

/-- Every heap is like itself. -/
theorem alike_itself (heap : Heap) : heap.Alike itself Eq heap where
  scopes := by
    rintro number _ ⟨rfl, _⟩
    cases heap.scopes[number]? with
    | none => exact .none
    | some scope => exact .some rfl
  fresh _ := ⟨rfl, trivial⟩

/-- Heaps are equal when their scopes are. -/
theorem Alike.eq_of_itself {first second : Heap} (alike : first.Alike itself Eq second) :
    first = second := by
  obtain ⟨firstScopes⟩ := first
  obtain ⟨secondScopes⟩ := second
  congr 1
  apply Array.ext_getElem?
  intro number
  have scopes := alike.scopes (⟨rfl, trivial⟩ : itself number number)
  generalize (Heap.mk firstScopes).scopes[number]? = left at scopes
  generalize (Heap.mk secondScopes).scopes[number]? = right at scopes
  cases scopes with
  | none => rfl
  | some same => rw [same]

end Heap

/-- The text behind what was written before can be told from the output. -/
theorem Output.write_inj {output written : Output} {added same : String} (takes : output ≠ .full)
    (first : output.write added = .ok written) (second : output.write same = .ok written) :
    added = same := by
  cases output with
  | full => exact absurd rfl takes
  | buffer before | stream before =>
      cases first
      have texts : before ++ same = before ++ added := by simpa [Output.write] using second
      exact ((String.append_right_inj before).mp texts).symm

namespace Evaluation

open Bounded

/-- What has been written has no influence, and what is written now does not depend on it. -/
def WriteOnly {Result : Type} (computation : Evaluation Result) : Prop :=
  ∀ ⦃heap : Heap⦄ ⦃first second : Output⦄, (first = .full ↔ second = .full) →
    Option.Rel
      (fun ends others => ends.1 = others.1 ∧ ends.2.heap = others.2.heap ∧
        Output.Extended first second ends.2.output others.2.output)
      (computation ⟨heap, first⟩) (computation ⟨heap, second⟩)

/-- A computation that is in step with itself, whatever outputs are related, only writes. -/
theorem writeOnly_of_inStep {Result : Type} {computation : Evaluation Result}
    {results : Result → Result → Prop}
    (same : ∀ ⦃first second⦄, results first second → first = second)
    (inStep : ∀ ⦃states : Machine → Machine → Prop⦄, Simulation itself states →
      InStep states results computation computation) : WriteOnly computation := by
  intro heap first second sinks
  have simulation : Simulation itself (Machine.Alike itself Eq (Output.Extended first second)) :=
    simulation_alike ordered_within (Output.parallel_extended sinks) Scope.tracked_eq
  have start : Machine.Alike itself Eq (Output.Extended first second) ⟨heap, first⟩
      ⟨heap, second⟩ :=
    ⟨heap.alike_itself, "", first.write_empty, second.write_empty⟩
  have ends := inStep simulation start
  generalize computation ⟨heap, first⟩ = firstEnds at ends ⊢
  generalize computation ⟨heap, second⟩ = secondEnds at ends ⊢
  cases ends with
  | none => exact .none
  | some ends =>
      obtain ⟨outcomes, machines⟩ := ends
      exact .some ⟨outcomes.eq_of_forall fun _ _ related => same related,
        machines.heap.eq_of_itself, machines.output⟩

section

variable (builtins : Builtins) (depth scope : Nat) (stmts : List (Stmt Nat))

theorem writeOnly_statements (result : Value) :
    WriteOnly (statements (expression builtins depth) scope result stmts) := by
  apply writeOnly_of_inStep fun first _ alike => Value.Alike.eq_of_within first alike
  intro states simulation
  exact inStep_statements simulation (inStep_expression simulation builtins depth)
    ⟨rfl, trivial⟩ stmts result.alike_itself

/-- The statements of a program only write. -/
theorem writeOnly_program (result : Option Value) :
    WriteOnly (program (expression builtins depth) scope result stmts) := by
  apply writeOnly_of_inStep fun _ _ alike => Value.option_eq_of_within alike
  intro states simulation
  have results : Option.Rel (Value.Alike itself) result result := by
    cases result with
    | none => exact .none
    | some value => exact .some value.alike_itself
  exact inStep_program simulation (inStep_expression simulation builtins depth) ⟨rfl, trivial⟩ stmts
    results

/-- Whatever is evaluated, an expression, a block, a program or a call. -/
theorem writeOnly_run (task : Task) : WriteOnly (task.run builtins depth) := by
  cases task with
  | program stmts scope => exact writeOnly_program builtins depth scope stmts none
  | expression expr scope =>
      apply writeOnly_of_inStep fun _ _ alike => Value.option_eq_of_within alike
      intro states simulation
      exact (inStep_expression simulation builtins depth ⟨rfl, trivial⟩ expr).bind
        fun _ _ values => inStep_pure (.some values)
  | block body scope =>
      apply writeOnly_of_inStep fun _ _ alike => Value.option_eq_of_within alike
      intro states simulation
      exact (inStep_block simulation (inStep_expression simulation builtins depth)
        ⟨rfl, trivial⟩ body).bind fun _ _ values => inStep_pure (.some values)
  | call callee arguments =>
      apply writeOnly_of_inStep fun _ _ alike => Value.option_eq_of_within alike
      intro states simulation
      have all : List.Forall₂ (Value.Alike itself) arguments arguments :=
        List.forall₂_same.mpr fun argument _ => argument.alike_itself
      exact (inStep_call simulation (inStep_expression simulation builtins depth)
        callee.alike_itself all).bind fun _ _ values => inStep_pure (.some values)

end

/-- However a call ends, it has written a text behind what was there. -/
theorem call_writes (builtins : Builtins) (depth : Nat) (callee : Value) (arguments : List Value) :
    Moves (fun before after => ∃ added, before.output.write added = .ok after.output)
      (call (expression builtins depth) callee arguments) := by
  rintro ⟨heap, first⟩ after outcome ends
  have ran : (Task.call callee arguments).run builtins depth ⟨heap, first⟩ =
      some (some <$> outcome, after) := by
    cases outcome with
    | ok value => exact bind_of_ok ends
    | error cause => exact bind_of_error ends
  have related := @writeOnly_run builtins depth (.call callee arguments) heap first first Iff.rfl
  rw [ran] at related
  cases related with
  | some related =>
      obtain ⟨_, _, added, written, _⟩ := related
      exact ⟨added, written⟩

/-- Where a computation ends on one output that takes texts, there is one text that it writes to
this and to every other such output, and nothing else depends on the output. -/
theorem WriteOnly.ends {Result : Type} {computation : Evaluation Result}
    (writeOnly : WriteOnly computation) {heap reached : Heap} {first output : Output}
    {outcome : Except RuntimeError Result} (takes : first ≠ .full)
    (ends : computation ⟨heap, first⟩ = some (outcome, ⟨reached, output⟩)) :
    ∃ added, first.write added = .ok output ∧ ∀ second, second ≠ .full →
      ∃ written, second.write added = .ok written ∧
        computation ⟨heap, second⟩ = some (outcome, ⟨reached, written⟩) := by
  have both (second : Output) (alsoTakes : second ≠ .full) :
      ∃ added, first.write added = .ok output ∧ ∃ written, second.write added = .ok written ∧
        computation ⟨heap, second⟩ = some (outcome, ⟨reached, written⟩) := by
    have related := @writeOnly heap first second (iff_of_false takes alsoTakes)
    rw [ends] at related
    generalize computation ⟨heap, second⟩ = secondEnds at related
    cases related with
    | @some _ others related =>
        obtain ⟨otherOutcome, otherReached, written⟩ := others
        obtain ⟨rfl, rfl, added, firstWritten, secondWritten⟩ :
          outcome = otherOutcome ∧ reached = otherReached ∧ _ := related
        exact ⟨added, firstWritten, written, secondWritten, rfl⟩
  obtain ⟨added, firstWritten, _⟩ := both first takes
  refine ⟨added, firstWritten, fun second alsoTakes => ?_⟩
  obtain ⟨same, alsoWritten, others⟩ := both second alsoTakes
  rwa [Output.write_inj takes firstWritten alsoWritten]

/-- What is evaluated adds a text to the buffer, and the outcome, the heap and this text do not
depend on what the buffer held before. A stream in the place of the buffer is sent the same text. -/
theorem output_appended (builtins : Builtins) (depth : Nat) (task : Task) (before : String)
    {heap reached : Heap} {output : Output} {outcome : Except RuntimeError (Option Value)}
    (ends : task.run builtins depth ⟨heap, .buffer before⟩ = some (outcome, ⟨reached, output⟩)) :
    ∃ added, output = .buffer (before ++ added) ∧
      (∀ other, task.run builtins depth ⟨heap, .buffer other⟩ =
        some (outcome, ⟨reached, .buffer (other ++ added)⟩)) ∧
      ∀ sent, task.run builtins depth ⟨heap, .stream sent⟩ =
        some (outcome, ⟨reached, .stream (sent ++ added)⟩) := by
  have writeOnly := writeOnly_run builtins depth task
  obtain ⟨added, written, others⟩ := writeOnly.ends Output.noConfusion ends
  refine ⟨added, ?_, fun other => ?_, fun sent => ?_⟩
  · cases written
    rfl
  · obtain ⟨_, ⟨⟩, alsoEnds⟩ := others (.buffer other) Output.noConfusion
    exact alsoEnds
  · obtain ⟨_, ⟨⟩, alsoEnds⟩ := others (.stream sent) Output.noConfusion
    exact alsoEnds

/-- The program `let say = [print]; say[0]("b", 1); missing;` fails at its end, and has written `b1`
by then, whatever was written before. -/
theorem output_appended_through_array :
    ∃ (task : Task) (heap reached : Heap),
      task.run .standard 3 ⟨heap, .buffer "a"⟩ =
        some (.error (.unbound "missing"), ⟨reached, .buffer "ab1"⟩) ∧
      ∃ added, Output.buffer "ab1" = .buffer ("a" ++ added) ∧
        (∀ other, task.run .standard 3 ⟨heap, .buffer other⟩ =
          some (.error (.unbound "missing"), ⟨reached, .buffer (other ++ added)⟩)) ∧
        ∀ sent, task.run .standard 3 ⟨heap, .stream sent⟩ =
          some (.error (.unbound "missing"), ⟨reached, .stream (sent ++ added)⟩) := by
  let name (text : String) : Expr Nat := .ident ⟨⟨.ident, text⟩, text⟩
  let bracket : Token := ⟨.leftBracket, "["⟩
  let zero : Expr Nat := .integer ⟨.int, "0"⟩ 0
  let say : Stmt Nat :=
    .bind ⟨.letWord, "let"⟩ ⟨⟨.ident, "say"⟩, "say"⟩ (.array bracket [name "print"])
  let call : Expr Nat := .call ⟨.leftParen, "("⟩ (.index bracket (name "say") zero)
    [.text ⟨.string, "b"⟩ "b", .integer ⟨.int, "1"⟩ 1]
  let task : Task := .program [say, .expression ⟨.ident, "say"⟩ call,
    .expression ⟨.ident, "missing"⟩ (name "missing")] 0
  let heap : Heap := ⟨#[⟨[], none⟩]⟩
  let reached : Heap := ⟨#[⟨[("say", .array [.builtin "print" .print])], none⟩]⟩
  have ends : task.run .standard 3 ⟨heap, .buffer "a"⟩ =
      some (.error (.unbound "missing"), ⟨reached, .buffer "ab1"⟩) := by
    with_unfolding_all rfl
  exact ⟨task, heap, reached, ends, output_appended .standard 3 task "a" ends⟩

end Evaluation

end Monkey
