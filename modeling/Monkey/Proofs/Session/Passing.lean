import Monkey.Proofs.Evaluation.Deepening
import Monkey.Proofs.Evaluation.Output
import Monkey.Proofs.Evaluation.Sequence
import Monkey.Session

/-!
Programs that are evaluated to their end, without an error and without a statement that returns.
Behind such a program a session goes on with the next one as if both were one program, under every
larger bound on the depth and whatever has been written before.
-/

namespace Monkey

theorem Stmt.labelEach_cons (first : Stmt Unit) (others : List (Stmt Unit)) (next : Nat) :
    (Stmt.labelEach (first :: others)).run next =
      ((first.label.run next).1 :: ((Stmt.labelEach others).run (first.label.run next).2).1,
        ((Stmt.labelEach others).run (first.label.run next).2).2) := rfl

/-- Statements in front get their labels before those behind them. -/
theorem Stmt.labelEach_append (first second : List (Stmt Unit)) (next : Nat) :
    (Stmt.labelEach (first ++ second)).run next =
      (((Stmt.labelEach first).run next).1 ++
          ((Stmt.labelEach second).run ((Stmt.labelEach first).run next).2).1,
        ((Stmt.labelEach second).run ((Stmt.labelEach first).run next).2).2) := by
  induction first generalizing next with
  | nil => rfl
  | cons stmt others inductionHypothesis =>
      rw [List.cons_append, Stmt.labelEach_cons, inductionHypothesis, Stmt.labelEach_cons,
        List.cons_append]

/-- Labels count on from one part of a program to the next. -/
theorem Program.label_append (first second : List (Stmt Unit)) (next : Nat) :
    Program.label ⟨first ++ second⟩ next =
      (⟨(Program.label ⟨first⟩ next).1.statements ++
          (Program.label ⟨second⟩ (Program.label ⟨first⟩ next).2).1.statements⟩,
        (Program.label ⟨second⟩ (Program.label ⟨first⟩ next).2).2) := by
  rw [Program.label, Stmt.labelEach_append]
  rfl

/-- A labelled program has as many statements, so it is not empty either. -/
theorem Program.label_ne_nil {stmts : List (Stmt Unit)} (more : stmts ≠ []) (next : Nat) :
    (Program.label ⟨stmts⟩ next).1.statements ≠ [] := by
  cases stmts with
  | nil => exact absurd rfl more
  | cons first others => exact List.cons_ne_nil _ _

/-- An output that has taken a text is not full. -/
theorem Output.ne_full_of_write {output written : Output} {text : String}
    (takes : output ≠ .full) (ends : output.write text = .ok written) : written ≠ .full := by
  cases output with
  | full => exact absurd rfl takes
  | buffer | stream =>
      cases ends
      exact Output.noConfusion

namespace Session

variable {session : Session} {depth scope : Nat}

/-- An evaluation that ends within some depth ends alike within a larger one. -/
theorem evaluate_deepen {program : Program Nat} {ends : Option Value × Session} {larger : Nat}
    (found : session.evaluate depth program scope = some ends) (le : depth ≤ larger) :
    session.evaluate larger program scope = some ends := by
  have refines := @Evaluation.refines_program _ _
    (Evaluation.refines_expression session.builtins le) scope none program.statements
    session.machine
  simp only [evaluate] at found ⊢
  match reached : Evaluation.program (Evaluation.expression session.builtins depth) scope none
      program.statements session.machine with
  | none => simp [reached] at found
  | some (outcome, machine) =>
      rw [refines reached]
      rwa [reached] at found

/-- A run that ends within some depth ends alike within a larger one. -/
theorem run_deepen {source : String}
    {ends : Except (List SyntaxError) (Option Value) × Session} {larger : Nat}
    (found : session.run depth source scope = some ends) (le : depth ≤ larger) :
    session.run larger source scope = some ends := by
  match read : Program.read source with
  | (program, []) =>
      simp only [run, read] at found ⊢
      match evaluated : (session.load program).2.evaluate depth (session.load program).1 scope with
      | none => simp [evaluated] at found
      | some reached =>
          rw [evaluate_deepen evaluated le]
          rwa [evaluated] at found
  | (program, error :: errors) =>
      simp only [run, read] at found ⊢
      exact found

/-- No statement of the program fails, and none returns. -/
def Completes (session : Session) (depth scope : Nat) (program : Program Nat) (machine : Machine) :
    Prop :=
  ∃ value, Evaluation.statements (Evaluation.expression session.builtins depth) scope .void
      program.statements session.machine = some (.ok value, machine) ∧ value.kind ≠ .returned

/-- The texts are evaluated one after the other, and all of them to their end. -/
inductive Passes (depth scope : Nat) : Session → List String → Session → Prop
  | done {session : Session} : Passes depth scope session [] session
  | next {session reached : Session} {machine : Machine} {source : String} {others : List String}
      (completes : (session.load (Program.read source).1).2.Completes depth scope
        (session.load (Program.read source).1).1 machine)
      (rest : Passes depth scope { (session.load (Program.read source).1).2 with machine } others
        reached) :
      Passes depth scope session (source :: others) reached

/-- What completes within some depth does so within a larger one. -/
theorem Completes.deepen {program : Program Nat} {machine : Machine} {larger : Nat}
    (completes : session.Completes depth scope program machine) (le : depth ≤ larger) :
    session.Completes larger scope program machine := by
  obtain ⟨value, ends, goesOn⟩ := completes
  refine ⟨value, ?_, goesOn⟩
  exact Evaluation.refines_statements (Evaluation.refines_expression session.builtins le) scope _ _
    ends

/-- In both sessions a program does the same, and what it writes is taken. -/
structure Twin (first second : Session) : Prop where
  builtins : first.builtins = second.builtins
  heap : first.machine.heap = second.machine.heap
  takes : first.output ≠ .full
  alsoTakes : second.output ≠ .full

variable {other : Session}

/-- Of twins both write to a full device, or neither does. -/
theorem Twin.sinks (twin : session.Twin other) :
    session.output = .full ↔ other.output = .full :=
  iff_of_false twin.takes twin.alsoTakes

/-- Twins evaluate a program alike and write the same texts. -/
theorem Twin.evaluate (twin : session.Twin other) (depth scope : Nat) (program : Program Nat) :
    Option.Rel
      (fun ends others => ends.1 = others.1 ∧
        Output.Extended session.output other.output ends.2.output others.2.output)
      (session.evaluate depth program scope) (other.evaluate depth program scope) := by
  have both := @Evaluation.writeOnly_program session.builtins depth scope program.statements none
    session.machine.heap _ _ twin.sinks
  obtain ⟨builtins, ⟨heap, output⟩, label⟩ := session
  obtain ⟨otherBuiltins, ⟨otherHeap, otherOutput⟩, otherLabel⟩ := other
  obtain rfl : builtins = otherBuiltins := twin.builtins
  obtain rfl : heap = otherHeap := twin.heap
  simp only [Session.evaluate]
  dsimp only [Session.output] at both
  generalize Evaluation.program _ _ _ _ ⟨heap, output⟩ = firstEnds at both ⊢
  generalize Evaluation.program _ _ _ _ ⟨heap, otherOutput⟩ = secondEnds at both ⊢
  cases both with
  | none => exact .none
  | @some ends others related =>
      obtain ⟨outcome, reached⟩ := ends
      obtain ⟨otherOutcome, otherReached⟩ := others
      obtain ⟨rfl, _, extended⟩ : outcome = otherOutcome ∧ _ := related
      cases outcome with
      | ok result => exact .some ⟨rfl, extended⟩
      | error failure => exact .some ⟨rfl, extended⟩

/-- A program that is evaluated to its end writes the same text to every output that takes it. -/
theorem Completes.twin {program : Program Nat} {machine : Machine}
    (completes : session.Completes depth scope program machine) (twin : session.Twin other) :
    ∃ added written, session.output.write added = .ok machine.output ∧
      other.output.write added = .ok written ∧
      other.Completes depth scope program ⟨machine.heap, written⟩ := by
  obtain ⟨value, ends, goesOn⟩ := completes
  have both := @Evaluation.writeOnly_statements session.builtins depth scope program.statements
    .void session.machine.heap _ _ twin.sinks
  obtain ⟨builtins, ⟨heap, output⟩, label⟩ := session
  obtain ⟨otherBuiltins, ⟨otherHeap, otherOutput⟩, otherLabel⟩ := other
  obtain rfl : builtins = otherBuiltins := twin.builtins
  obtain rfl : heap = otherHeap := twin.heap
  dsimp only [Session.output] at both
  rw [ends] at both
  generalize found : Evaluation.statements _ _ _ _ ⟨heap, otherOutput⟩ = secondEnds at both
  cases both with
  | @some _ others related =>
      obtain ⟨outcome, reached⟩ := others
      obtain ⟨rfl, sameHeap, added, first, second⟩ : .ok value = outcome ∧ _ := related
      refine ⟨added, reached.output, first, second, value, ?_, goesOn⟩
      rw [show machine.heap = reached.heap from sameHeap, found]

/-- An output that took texts before a program takes them after it. -/
theorem Completes.takes {program : Program Nat} {machine : Machine}
    (completes : session.Completes depth scope program machine) (takes : session.output ≠ .full) :
    machine.output ≠ .full := by
  obtain ⟨_, _, written, _⟩ := completes.twin ⟨rfl, rfl, takes, takes⟩
  exact Output.ne_full_of_write takes written

/-- The next program starts where this one ends. -/
theorem Completes.evaluate_append {program : Program Nat} {machine : Machine}
    (completes : session.Completes depth scope program machine) {others : List (Stmt Nat)}
    (more : others ≠ []) :
    session.evaluate depth ⟨program.statements ++ others⟩ scope =
      { session with machine }.evaluate depth ⟨others⟩ scope := by
  obtain ⟨value, ends, goesOn⟩ := completes
  obtain ⟨reached, same⟩ := Evaluation.program_of_statements none ends goesOn
  simp only [Session.evaluate]
  rw [same, Evaluation.program_congr more reached none]

/-- A program that completes is evaluated to some result. -/
theorem Completes.evaluate {program : Program Nat} {machine : Machine}
    (completes : session.Completes depth scope program machine) :
    ∃ result, session.evaluate depth program scope = some (result, { session with machine }) := by
  obtain ⟨value, ends, goesOn⟩ := completes
  obtain ⟨reached, same⟩ := Evaluation.program_of_statements none ends goesOn
  have whole := same []
  rw [List.append_nil] at whole
  refine ⟨reached, ?_⟩
  simp only [Session.evaluate, whole]
  rfl

/-- Sources that pass within some depth do so within a larger one. -/
theorem Passes.deepen {reached : Session} {sources : List String} {larger : Nat}
    (passes : session.Passes depth scope sources reached) (le : depth ≤ larger) :
    session.Passes larger scope sources reached := by
  induction passes with
  | done => exact .done
  | next completes _ inductionHypothesis => exact .next (completes.deepen le) inductionHypothesis

/-- Sources that pass in a session pass in its twin. -/
theorem Passes.twin {reached : Session} {sources : List String}
    (passes : session.Passes depth scope sources reached) (twin : session.Twin other)
    (labels : session.nextLabel = other.nextLabel) :
    ∃ final, other.Passes depth scope sources final := by
  induction passes generalizing other with
  | done => exact ⟨other, .done⟩
  | @next session _ machine source _ completes _ inductionHypothesis =>
      have loaded : (session.load (Program.read source).1).2.Twin
          (other.load (Program.read source).1).2 :=
        ⟨twin.builtins, twin.heap, twin.takes, twin.alsoTakes⟩
      obtain ⟨added, written, first, second, alsoCompletes⟩ := completes.twin loaded
      have sameProgram : (session.load (Program.read source).1).1 =
          (other.load (Program.read source).1).1 := by
        rw [load, load, labels]
      rw [sameProgram] at alsoCompletes
      obtain ⟨final, rest⟩ := @inductionHypothesis
        { (other.load (Program.read source).1).2 with machine := ⟨machine.heap, written⟩ }
        ⟨twin.builtins, rfl, Output.ne_full_of_write twin.takes first,
          Output.ne_full_of_write twin.alsoTakes second⟩
        (by simp only [load, labels])
      exact ⟨final, .next alsoCompletes rest⟩

end Session

end Monkey
