import Monkey.Proofs.Scope.Grounded
import Monkey.Proofs.Session.Answer

/-!
What a host can do with a session. It runs texts, evaluates programs that it has read or made
itself, creates scopes and binds values that it has; none of it leads to a heap in which the search
for a name would not end.
-/

namespace Monkey.Session

open Evaluation

/-- An act of the host and the value that it is given for it, if any. The scope in which it has
something evaluated or puts a new scope exists, and so do those that a value which it binds has
captured. -/
inductive Act : Session → Option Value → Session → Prop where
  | run {session after : Session} {depth scope : Nat} {source : String} {result : Option Value}
      (inside : scope < session.machine.heap.size)
      (ends : session.run depth source scope = some (.ok result, after)) :
      Act session result after
  | refuse {session after : Session} {depth scope : Nat} {source : String}
      {errors : List SyntaxError}
      (ends : session.run depth source scope = some (.error errors, after)) :
      Act session none after
  | load (session : Session) (program : Program Unit) : Act session none (session.load program).2
  | evaluate {session after : Session} {depth scope : Nat} {program : Program Nat}
      {result : Option Value} (inside : scope < session.machine.heap.size)
      (ends : session.evaluate depth program scope = some (result, after)) :
      Act session result after
  | create {session : Session} {outer : Option Nat}
      (inside : ∀ number ∈ outer, number < session.machine.heap.size) :
      Act session none (session.createScope outer).2
  | bind {session : Session} (scope : Nat) (name : String) {value : Value}
      (lives : value.LivesIn session.machine.heap) :
      Act session none (session.bind scope name value)
  | lookup (session : Session) (scope : Nat) (name : String) :
      Act session (session.lookup scope name) session
  | setOutput (session : Session) (output : Output) : Act session none (session.setOutput output)

/-- One act leads from the one session to the other. -/
def Leads (before after : Session) : Prop :=
  ∃ result, Act before result after

variable {session before after : Session} {depth scope : Nat} {result : Option Value}

/-- The evaluation of a program in a grounded session starts on grounded scopes. -/
theorem grounded_beginning (grounded : session.machine.heap.Grounded)
    (inside : scope < session.machine.heap.size) (depth : Nat) (program : Program Nat) :
    (Invariant.grounded session.builtins).Holds (session.beginning depth program scope) :=
  ⟨⟨fun _ _ _ _ => trivial, inside⟩, grounded⟩

/-- Evaluation keeps the heap grounded and gives values that live in it. -/
theorem evaluate_grounded {program : Program Nat} (grounded : session.machine.heap.Grounded)
    (inside : scope < session.machine.heap.size)
    (ends : session.evaluate depth program scope = some (result, after)) :
    after.machine.heap.Grounded ∧ ∀ value ∈ result, value.LivesIn after.machine.heap := by
  obtain ⟨outcome, machine, programEnds, rfl, rfl⟩ := evaluate_eq_some.mp ends
  have kept := (grounded_beginning grounded inside depth program).ends programEnds
  refine ⟨kept.heap, ?_⟩
  cases outcome with
  | ok found => exact kept.yields found rfl
  | error cause =>
      rintro _ ⟨⟩ captured isCaptured
      cases isCaptured

/-- Every act of a host keeps the heap grounded and gives values that live in it. -/
theorem Act.keeps (act : Act before result after) (grounded : before.machine.heap.Grounded) :
    after.machine.heap.Grounded ∧ ∀ value ∈ result, value.LivesIn after.machine.heap := by
  have nothing (heap : Heap) : ∀ value ∈ (none : Option Value), value.LivesIn heap :=
    fun _ member => nomatch member
  cases act with
  | @run _ _ _ source _ inside ends =>
      have loaded : (before.load (Program.read source).1).2.machine.heap.Grounded := grounded
      exact evaluate_grounded loaded inside (run_eq_ok.mp ends).2
  | refuse ends => exact run_eq_error ends ▸ ⟨grounded, nothing _⟩
  | load program => exact ⟨grounded, nothing _⟩
  | evaluate inside ends => exact evaluate_grounded grounded inside ends
  | create inside => exact ⟨grounded.create inside (fun _ member => nomatch member), nothing _⟩
  | bind scope name lives => exact ⟨grounded.bind scope name lives, nothing _⟩
  | lookup scope name => exact ⟨grounded, fun value found => grounded.shown.lookup found⟩
  | setOutput output => exact ⟨grounded, nothing _⟩

/-- Every session that is reached has a grounded heap. -/
theorem grounded_of_reached {builtins : Builtins} {output : Output}
    (reached : Relation.ReflTransGen Leads (start builtins output) session) :
    session.machine.heap.Grounded := by
  induction reached with
  | refl => exact Heap.grounded_empty
  | tail _ leads inductionHypothesis =>
      obtain ⟨_, act⟩ := leads
      exact (act.keeps inductionHypothesis).1

/-- Whatever the host has done since the start of a session, each scope lies in an older one, and
every function that a scope binds or that the host is given has captured a scope that exists. The
same holds at all times while a program is evaluated. So the search for a name ends for every name
and every scope. -/
theorem scopes_stay_grounded (builtins : Builtins) (output : Output)
    (reached : Relation.ReflTransGen Leads (start builtins output) session) :
    session.machine.heap.Grounded ∧
    (∀ result after, Act session result after →
      after.machine.heap.Grounded ∧ ∀ value ∈ result, value.LivesIn after.machine.heap) ∧
    (∀ depth program scope moment, scope < session.machine.heap.size →
      Within session.builtins (session.beginning depth program scope) moment →
        moment.machine.heap.Grounded) ∧
    ∀ name number result, session.machine.heap.Finds name number result ↔
      number < session.machine.heap.size ∧ result = session.lookup number name := by
  have grounded := grounded_of_reached reached
  refine ⟨grounded, fun _ _ act => act.keeps grounded, ?_, fun _ _ _ => grounded.finds_iff⟩
  intro depth program scope moment inside isWithin
  exact ((grounded_beginning grounded inside depth program).within isWithin).heap

/-- The program `let f = fn(n) { f(n) }; [f]` binds a function in the scope that the function has
captured, and is answered with an array that holds it. -/
theorem scopes_stay_grounded_recursive :
    ∃ (session : Session) (closure : Closure),
      Relation.ReflTransGen Leads (start .standard (.buffer "")) session ∧
      closure.scope = 0 ∧
      session.machine.heap.Grounded ∧
      (Value.array [.function closure]).LivesIn session.machine.heap ∧
      session.machine.heap.Finds "f" 0 (some (.function closure)) ∧
      session.machine.heap.Finds "n" 0 none := by
  let name (text : String) : Ident := ⟨⟨.ident, text⟩, text⟩
  let body : Block Nat := .mk ⟨.leftBrace, "\x7b"⟩ [.expression ⟨.ident, "f"⟩
    (.call ⟨.leftParen, "("⟩ (.ident (name "f")) [.ident (name "n")])]
  let program : Program Nat := ⟨[.bind ⟨.letWord, "let"⟩ (name "f")
      (.function ⟨.fnWord, "fn"⟩ 0 [name "n"] body),
    .expression ⟨.leftBracket, "["⟩ (.array ⟨.leftBracket, "["⟩ [.ident (name "f")])]⟩
  let closure : Closure := ⟨0, [name "n"], body, 0⟩
  let first : Session := ((start .standard (.buffer "")).createScope none).2
  let session : Session :=
    ⟨.standard, ⟨⟨#[⟨[("f", .function closure)], none⟩]⟩, .buffer ""⟩, 0⟩
  have ends : first.evaluate 2 program 0 = some (some (.array [.function closure]), session) := by
    with_unfolding_all rfl
  have begins : Relation.ReflTransGen Leads (start .standard (.buffer "")) first :=
    .single ⟨none, .create (fun _ member => nomatch member)⟩
  have act : Act first (some (.array [.function closure])) session :=
    .evaluate Nat.zero_lt_one ends
  have reached := begins.tail ⟨_, act⟩
  obtain ⟨_, acts, _⟩ := scopes_stay_grounded .standard (.buffer "") begins
  obtain ⟨grounded, _, _, finds⟩ := scopes_stay_grounded .standard (.buffer "") reached
  have isBound : session.lookup 0 "f" = some (.function closure) := by with_unfolding_all rfl
  have isUnbound : session.lookup 0 "n" = none := by with_unfolding_all rfl
  exact ⟨session, closure, reached, rfl, grounded, (acts _ _ act).2 _ rfl,
    (finds _ _ _).mpr ⟨Nat.zero_lt_one, isBound.symm⟩,
    (finds _ _ _).mpr ⟨Nat.zero_lt_one, isUnbound.symm⟩⟩

end Monkey.Session
