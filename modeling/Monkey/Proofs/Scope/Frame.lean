import Mathlib.Logic.Relation
import Monkey.Evaluation
import Monkey.Proofs.Bounded

/-!
What evaluation may change in the heap. Evaluation in a scope binds names in that scope and in
scopes that it creates, and a call only in scopes that it creates, so a scope that a function has
captured stays as the call that created it has left it.
-/

namespace Monkey

namespace Heap

/-- The scope of the number exists and binds the name. -/
def Binds (heap : Heap) (number : Nat) (name : String) : Prop :=
  ∃ scope, heap.scopes[number]? = some scope ∧ name ∈ scope.bindings.map Prod.fst

/-- Of the scopes that exist before, at most the own one has changed. It lies where it lay, and it
binds the names that it bound. -/
structure Frame (own : Option Nat) (before after : Heap) : Prop where
  size : before.size ≤ after.size
  others : ∀ number < before.size, some number ≠ own →
    after.scopes[number]? = before.scopes[number]?
  outers : ∀ number < before.size,
    (after.scopes[number]?).map Scope.outer = (before.scopes[number]?).map Scope.outer
  names : ∀ number name, before.Binds number name → after.Binds number name

variable {own : Option Nat} {before middle after : Heap}

/-- A scope that binds a name is one of the heap. -/
theorem Binds.lt {heap : Heap} {number : Nat} {name : String} (binds : heap.Binds number name) :
    number < heap.size := by
  obtain ⟨scope, found, _⟩ := binds
  exact (Array.getElem?_eq_some_iff.mp found).1

theorem Frame.refl (heap : Heap) : Frame own heap heap :=
  ⟨Nat.le_refl _, fun _ _ _ => rfl, fun _ _ => rfl, fun _ _ binds => binds⟩

/-- Two changes in a row are one. -/
theorem Frame.trans (first : Frame own before middle) (second : Frame own middle after) :
    Frame own before after where
  size := Nat.le_trans first.size second.size
  others number old other := by
    rw [second.others number (Nat.lt_of_lt_of_le old first.size) other]
    exact first.others number old other
  outers number old := by
    rw [second.outers number (Nat.lt_of_lt_of_le old first.size)]
    exact first.outers number old
  names number name binds := second.names number name (first.names number name binds)

/-- A heap whose old scopes are all as they were. -/
theorem Frame.of_same (size : before.size ≤ after.size)
    (same : ∀ number < before.size, after.scopes[number]? = before.scopes[number]?) :
    Frame own before after where
  size := size
  others number old _ := same number old
  outers number old := by rw [same number old]
  names := by
    intro number name binds
    obtain ⟨scope, found, bound⟩ := binds
    exact ⟨scope, (same number (Binds.lt ⟨scope, found, bound⟩)).trans found, bound⟩

/-- Where no scope is written to, all old scopes are the same. -/
theorem Frame.same (frame : Frame none before after) (number : Nat) (old : number < before.size) :
    after.scopes[number]? = before.scopes[number]? :=
  frame.others number old (by simp)

/-- A change of no scope is also one of at most one scope. -/
theorem Frame.widen (frame : Frame none before after) : Frame own before after :=
  .of_same frame.size frame.same

/-- A scope that was not there at first is nobody's own. -/
theorem Frame.after_fresh {number : Nat} (first : Frame none before middle)
    (second : Frame (some number) middle after) (fresh : before.size ≤ number) :
    Frame none before after := by
  apply Frame.of_same (Nat.le_trans first.size second.size)
  intro old isOld
  have other : some old ≠ some number := by
    rw [ne_eq, Option.some.injEq]
    omega
  rw [second.others old (Nat.lt_of_lt_of_le isOld first.size) other]
  exact first.same old isOld

/-- A new scope changes no old one. -/
theorem frame_create (heap : Heap) (scope : Scope) : Frame own heap (heap.create scope).2 := by
  apply Frame.of_same
  · simp [create, size]
  · intro number old
    change (heap.scopes.push scope)[number]? = heap.scopes[number]?
    exact (Array.getElem?_push ..).trans (if_neg (Nat.ne_of_lt old))

/-- A new scope makes the heap one larger. -/
theorem size_create (heap : Heap) (scope : Scope) :
    (heap.create scope).2.size = heap.size + 1 := by
  simp [create, size]

/-- Binding a name leaves the other scopes, the outer scopes and the bound names. -/
theorem frame_bind (heap : Heap) (scope : Nat) (name : String) (value : Value) :
    Frame (some scope) heap (heap.bind scope name value) where
  size := by simp [bind, size]
  others := by
    intro number old other
    have different : scope ≠ number := fun same => other (congrArg some same.symm)
    simp [bind, Array.getElem?_modify, different]
  outers := by
    intro number old
    simp only [bind, Array.getElem?_modify]
    split
    · rw [Option.map_map]
      rfl
    · rfl
  names := by
    rintro number bound ⟨found, isFound, member⟩
    simp only [Binds, bind, Array.getElem?_modify, isFound]
    split
    · exact ⟨_, rfl, List.mem_cons_of_mem _ member⟩
    · exact ⟨found, rfl, member⟩

/-- The search for a name goes through scopes that were there before, so it finds what it found. -/
theorem Frame.lookup (frame : Frame none before after) {number : Nat} (old : number < before.size)
    (name : String) : after.lookup number name = before.lookup number name := by
  induction number using Nat.strongRecOn with
  | ind number inductionHypothesis =>
      have further (outer : Nat) : (if outer < number then after.lookup outer name else none) =
          if outer < number then before.lookup outer name else none := by
        split
        · next older => exact inductionHypothesis outer older (Nat.lt_trans older old)
        · rfl
      rw [Heap.lookup, frame.same number old, Heap.lookup]
      simp only [further]

/-- The bindings of a scope come first, then all that the scope around it shows. -/
theorem lookup_eq {heap : Heap} {number : Nat} {scope : Scope}
    (found : heap.scopes[number]? = some scope) (older : ∀ outer ∈ scope.outer, outer < number)
    (name : String) :
    heap.lookup number name =
      (scope.bindings.lookup name).or (scope.outer.bind fun outer => heap.lookup outer name) := by
  rw [Heap.lookup]
  simp only [found]
  cases scope.bindings.lookup name with
  | some value => rfl
  | none =>
      cases around : scope.outer with
      | none => rfl
      | some outer => exact if_pos (older outer around)

/-- A new scope shows its own bindings, and else what the scope around it shows. -/
theorem lookup_create (heap : Heap) (bindings : List (String × Value)) {outer : Nat}
    (older : outer < heap.size) (name : String) :
    (heap.create ⟨bindings, some outer⟩).2.lookup heap.size name =
      (bindings.lookup name).or (heap.lookup outer name) := by
  have found : (heap.create ⟨bindings, some outer⟩).2.scopes[heap.size]? =
      some ⟨bindings, some outer⟩ := by
    simp [create, size]
  have frame : Frame none heap (heap.create ⟨bindings, some outer⟩).2 := heap.frame_create _
  rw [lookup_eq found (by simpa using older), Option.bind_some, frame.lookup older]

/-- A name that is bound in a new scope could have been there from the start. -/
theorem bind_create (heap : Heap) (scope : Scope) (name : String) (value : Value) :
    (heap.create scope).2.bind heap.size name value = (heap.create (scope.bind name value)).2 := by
  simp only [bind, create, mk.injEq]
  apply Array.ext_getElem?
  intro number
  rw [Array.getElem?_modify]
  split
  · next same =>
      subst same
      simp [size]
  · next other =>
      have newer : ¬ number = heap.scopes.size := fun same => other same.symm
      rw [Array.getElem?_push, Array.getElem?_push, if_neg newer, if_neg newer]

end Heap

/-- The heap of a machine has changed only as its frame allows. -/
def Machine.Frame (own : Option Nat) (before after : Machine) : Prop :=
  before.heap.Frame own after.heap

instance (own : Option Nat) : Std.Refl (Machine.Frame own) :=
  ⟨fun machine => Heap.Frame.refl machine.heap⟩

instance (own : Option Nat) : Trans (Machine.Frame own) (Machine.Frame own) (Machine.Frame own) :=
  ⟨fun first second => Heap.Frame.trans first second⟩

namespace Evaluation

open Bounded

/-- Binding a name changes the scope where it is bound. -/
theorem frame_bindName (scope : Nat) (name : String) (value : Value) :
    Moves (Machine.Frame (some scope)) (bindName scope name value) :=
  moves_change fun machine => machine.heap.frame_bind scope name value

/-- Built-in functions keep off the scopes, those of a host included. -/
theorem frame_applyBuiltin {own : Option Nat} (function : Builtin) (arguments : List Value) :
    Moves (Machine.Frame own) (applyBuiltin function arguments) :=
  moves_step fun machine => Heap.Frame.refl machine.heap

/-- Looking up a name changes nothing. -/
theorem frame_ident {own : Option Nat} (builtins : Builtins) (scope : Nat) (name : String) :
    Moves (Machine.Frame own) (ident builtins scope name) := by
  refine (moves_inspect _).bind fun found => ?_
  split
  · exact moves_pure _
  · split
    · exact moves_pure _
    · exact moves_fail _

section

variable {evaluate : Expr Nat → Nat → Evaluation Value}
  (framed : ∀ expr scope, Moves (Machine.Frame (some scope)) (evaluate expr scope))

include framed

/-- Expressions one after the other change no other scope than their own. -/
theorem frame_each (scope : Nat) (exprs : List (Expr Nat)) :
    Moves (Machine.Frame (some scope)) (each evaluate scope exprs) := by
  induction exprs with
  | nil => exact moves_pure _
  | cons first others inductionHypothesis =>
      exact (framed first scope).bind fun value => inductionHypothesis.bind fun values =>
        moves_pure _

/-- A statement changes no other scope than its own. -/
theorem frame_statement (scope : Nat) (stmt : Stmt Nat) :
    Moves (Machine.Frame (some scope)) (statement evaluate scope stmt) := by
  cases stmt with
  | bind token name value =>
      exact (framed value scope).bind fun result =>
        (frame_bindName scope name.name result).bind fun _ => moves_pure _
  | give token value => exact (framed value scope).bind fun _ => moves_pure _
  | expression token value => exact (framed value scope).bind fun _ => moves_pure _

/-- Statements change no other scope than their own. -/
theorem frame_statements (scope : Nat) (result : Value) (stmts : List (Stmt Nat)) :
    Moves (Machine.Frame (some scope)) (statements evaluate scope result stmts) := by
  induction stmts generalizing result with
  | nil => exact moves_pure _
  | cons first others inductionHypothesis =>
      apply (frame_statement framed scope first).bind
      intro value
      split
      · exact moves_pure _
      · exact inductionHypothesis _
      · exact inductionHypothesis _

/-- A block changes no other scope than its own. -/
theorem frame_block (scope : Nat) (body : Block Nat) :
    Moves (Machine.Frame (some scope)) (block evaluate scope body) :=
  frame_statements framed scope .void body.statements

/-- The statements of a program change no other scope than their own. -/
theorem frame_program (scope : Nat) (result : Option Value) (stmts : List (Stmt Nat)) :
    Moves (Machine.Frame (some scope)) (program evaluate scope result stmts) := by
  induction stmts generalizing result with
  | nil => exact moves_pure _
  | cons first others inductionHypothesis =>
      apply (frame_statement framed scope first).bind
      intro value
      split
      · exact moves_pure _
      · exact inductionHypothesis _

/-- The body of a function is evaluated in a scope of its own. -/
theorem frame_body (closure : Closure) (arguments : List Value) {before after : Machine}
    {outcome : Except RuntimeError Value}
    (ends : (do
      let scope ← createScope (callScope closure arguments)
      let value ← block evaluate scope closure.body
      pure (unwrap value)) before = some (outcome, after)) :
    Machine.Frame none before after ∧ before.heap.size < after.heap.size := by
  let created := (before.heap.create (callScope closure arguments)).2
  have inside : Moves (Machine.Frame (some before.heap.size))
      (block evaluate before.heap.size closure.body >>= fun value => pure (unwrap value)) :=
    (frame_block framed _ _).bind fun _ => moves_pure _
  have frame : created.Frame (some before.heap.size) after.heap :=
    inside (show _ = some (outcome, after) from ends)
  refine ⟨(before.heap.frame_create _).after_fresh frame (Nat.le_refl _), ?_⟩
  have size : created.size = before.heap.size + 1 := before.heap.size_create _
  have grows := frame.size
  omega

/-- A call changes no scope that there was before. -/
theorem frame_call (callee : Value) (arguments : List Value) :
    Moves (Machine.Frame none) (call evaluate callee arguments) := by
  unfold call
  split
  · split
    · exact moves_fail _
    · intro before after outcome ends
      exact (frame_body framed _ arguments ends).1
  · exact frame_applyBuiltin _ _
  · exact moves_fail _

/-- An alternative changes no other scope than its own. -/
theorem frame_alternative (scope : Nat) (otherwise : Option (Block Nat)) :
    Moves (Machine.Frame (some scope)) (alternative evaluate scope otherwise) := by
  cases otherwise with
  | none => exact moves_pure _
  | some other => exact frame_block framed scope other

/-- Each kind of expression changes no other scope than its own when its parts do not. -/
theorem frame_node (builtins : Builtins) (scope : Nat) (expr : Expr Nat) :
    Moves (Machine.Frame (some scope)) (node evaluate builtins scope expr) := by
  cases expr with
  | ident name => exact frame_ident builtins scope name.name
  | integer token value => exact moves_pure _
  | text token value => exact moves_pure _
  | boolean token value => exact moves_pure _
  | array token elements => exact (frame_each framed scope elements).bind fun _ => moves_pure _
  | unary token operator operand =>
      exact (framed operand scope).bind fun _ => moves_settle _
  | binary token left operator right =>
      exact (framed left scope).bind fun _ => (framed right scope).bind fun _ => moves_settle _
  | index token collection position =>
      exact (framed collection scope).bind fun _ =>
        (framed position scope).bind fun _ => moves_settle _
  | conditional token condition consequence otherwise =>
      apply (framed condition scope).bind
      intro value
      split
      · exact frame_block framed scope consequence
      · exact frame_alternative framed scope otherwise
  | function token label parameters body => exact moves_pure _
  | call token callee arguments =>
      apply (framed callee scope).bind
      intro function
      apply (frame_each framed scope arguments).bind
      intro values
      exact (frame_call framed function values).mono fun _ _ frame => frame.widen

end

/-- An expression changes no other scope than its own, by induction on the depth. -/
theorem frame_expression (builtins : Builtins) (depth : Nat) (expr : Expr Nat) (scope : Nat) :
    Moves (Machine.Frame (some scope)) (expression builtins depth expr scope) := by
  induction depth generalizing expr scope with
  | zero => exact moves_exhausted
  | succ depth inductionHypothesis => exact frame_node inductionHypothesis builtins scope expr

end Evaluation

/-- What a host does next without evaluating or binding anything in the scope that is kept. -/
inductive Machine.Act (kept : Nat) : Machine → Machine → Prop
  | expression {builtins : Builtins} {depth scope : Nat} {expr : Expr Nat} {before after : Machine}
      {outcome : Except RuntimeError Value} (elsewhere : scope ≠ kept)
      (ends : Evaluation.expression builtins depth expr scope before = some (outcome, after)) :
      Act kept before after
  | block {builtins : Builtins} {depth scope : Nat} {body : Block Nat} {before after : Machine}
      {outcome : Except RuntimeError Value} (elsewhere : scope ≠ kept)
      (ends : Evaluation.block (Evaluation.expression builtins depth) scope body before =
        some (outcome, after)) :
      Act kept before after
  | program {builtins : Builtins} {depth scope : Nat} {statements : List (Stmt Nat)}
      {before after : Machine} {outcome : Except RuntimeError (Option Value)}
      (elsewhere : scope ≠ kept)
      (ends : Evaluation.program (Evaluation.expression builtins depth) scope none statements
        before = some (outcome, after)) :
      Act kept before after
  | call {builtins : Builtins} {depth : Nat} {callee : Value} {arguments : List Value}
      {before after : Machine} {outcome : Except RuntimeError Value}
      (ends : Evaluation.call (Evaluation.expression builtins depth) callee arguments before =
        some (outcome, after)) :
      Act kept before after
  | create (scope : Scope) (machine : Machine) :
      Act kept machine { machine with heap := (machine.heap.create scope).2 }
  | bind {scope : Nat} (elsewhere : scope ≠ kept) (name : String) (value : Value)
      (machine : Machine) :
      Act kept machine { machine with heap := machine.heap.bind scope name value }
  | output (output : Output) (machine : Machine) : Act kept machine { machine with output }

namespace Machine

variable {kept : Nat} {before after : Machine}

/-- An old scope that is not written to is kept. -/
theorem Frame.keeps {own : Option Nat} (frame : Frame own before after)
    (elsewhere : some kept ≠ own) (old : kept < before.heap.size) :
    kept < after.heap.size ∧ after.heap.scopes[kept]? = before.heap.scopes[kept]? :=
  ⟨Nat.lt_of_lt_of_le old frame.size, frame.others kept old elsewhere⟩

/-- No act of the host changes the scope. -/
theorem Act.keeps (act : Act kept before after) (old : kept < before.heap.size) :
    kept < after.heap.size ∧ after.heap.scopes[kept]? = before.heap.scopes[kept]? := by
  have other {scope : Nat} (elsewhere : scope ≠ kept) : some kept ≠ some scope :=
    fun same => elsewhere (Option.some.inj same).symm
  cases act with
  | expression elsewhere ends =>
      exact Frame.keeps (Evaluation.frame_expression _ _ _ _ ends) (other elsewhere) old
  | block elsewhere ends =>
      exact Frame.keeps (Evaluation.frame_block (Evaluation.frame_expression _ _) _ _ ends)
        (other elsewhere) old
  | program elsewhere ends =>
      exact Frame.keeps (Evaluation.frame_program (Evaluation.frame_expression _ _) _ _ _ ends)
        (other elsewhere) old
  | call ends =>
      exact Frame.keeps (Evaluation.frame_call (Evaluation.frame_expression _ _) _ _ ends)
        (by simp) old
  | create scope =>
      have frame : Heap.Frame none before.heap _ := before.heap.frame_create scope
      exact Frame.keeps frame (by simp) old
  | bind elsewhere name value =>
      exact Frame.keeps (before.heap.frame_bind _ name value) (other elsewhere) old
  | output => exact ⟨old, rfl⟩

/-- Nor does any number of them. -/
theorem Act.keeps_all (acts : Relation.ReflTransGen (Act kept) before after)
    (old : kept < before.heap.size) :
    kept < after.heap.size ∧ after.heap.scopes[kept]? = before.heap.scopes[kept]? := by
  induction acts with
  | refl => exact ⟨old, rfl⟩
  | tail _ act inductionHypothesis =>
      obtain ⟨stillOld, same⟩ := inductionHypothesis
      obtain ⟨isOld, unchanged⟩ := act.keeps stillOld
      exact ⟨isOld, unchanged.trans same⟩

end Machine

/-- Evaluation in a scope changes no other scope that exists, a call changes none, and once a call
has returned nothing that goes on elsewhere changes its scope. -/
theorem Evaluation.writes_own_scope (builtins : Builtins) (depth : Nat) :
    (∀ expr scope, Bounded.Moves (Machine.Frame (some scope))
      (expression builtins depth expr scope)) ∧
    (∀ body scope, Bounded.Moves (Machine.Frame (some scope))
      (block (expression builtins depth) scope body)) ∧
    (∀ statements scope, Bounded.Moves (Machine.Frame (some scope))
      (program (expression builtins depth) scope none statements)) ∧
    (∀ callee arguments, Bounded.Moves (Machine.Frame none)
      (call (expression builtins depth) callee arguments)) ∧
    ∀ closure arguments before returned later outcome,
      closure.parameters.length ≤ arguments.length →
      call (expression builtins depth) (.function closure) arguments before =
        some (outcome, returned) →
      Relation.ReflTransGen (Machine.Act before.heap.size) returned later →
      before.heap.size < returned.heap.size ∧
        later.heap.scopes[before.heap.size]? = returned.heap.scopes[before.heap.size]? := by
  have framed := frame_expression builtins depth
  refine ⟨framed, fun body scope => frame_block framed scope body,
    fun statements scope => frame_program framed scope none statements, frame_call framed, ?_⟩
  intro closure arguments before returned later outcome enough ends acts
  rw [call, if_neg (Nat.not_lt.mpr enough)] at ends
  have created := (frame_body framed closure arguments ends).2
  exact ⟨created, (Machine.Act.keeps_all acts created).2⟩

/-- A function with the body `let y = 1; fn() { let y = 2; }` returns a function, and to call that
one binds `y` in a scope of its own. -/
theorem Evaluation.writes_own_scope_shadowing :
    ∃ (outer inner : Closure) (before returned later : Machine),
      outer.parameters.length ≤ ([] : List Value).length ∧
      call (expression .standard 1) (.function outer) [] before =
        some (.ok (.function inner), returned) ∧
      inner.scope = before.heap.size ∧
      call (expression .standard 1) (.function inner) [] returned = some (.ok .void, later) ∧
      later.heap.scopes[before.heap.size]? = returned.heap.scopes[before.heap.size]? := by
  let binding (value : Int64) : Stmt Nat :=
    .bind ⟨.letWord, "let"⟩ ⟨⟨.ident, "y"⟩, "y"⟩ (.integer ⟨.int, Integer.decimal value⟩ value)
  let body : Block Nat := .mk ⟨.leftBrace, "\x7b"⟩ [binding 2]
  let outer : Closure := ⟨0, [], .mk ⟨.leftBrace, "\x7b"⟩
    [binding 1, .expression ⟨.fnWord, "fn"⟩ (.function ⟨.fnWord, "fn"⟩ 1 [] body)], 0⟩
  let inner : Closure := ⟨1, [], body, 1⟩
  let bound (value : Int64) (outer : Nat) : Scope := ⟨[("y", .integer value)], some outer⟩
  let before : Machine := ⟨⟨#[⟨[], none⟩]⟩, .buffer ""⟩
  let returned : Machine := ⟨⟨#[⟨[], none⟩, bound 1 0]⟩, .buffer ""⟩
  let later : Machine := ⟨⟨#[⟨[], none⟩, bound 1 0, bound 2 1]⟩, .buffer ""⟩
  have first : call (expression .standard 1) (.function outer) [] before =
      some (.ok (.function inner), returned) := rfl
  have second : call (expression .standard 1) (.function inner) [] returned =
      some (.ok .void, later) := rfl
  refine ⟨outer, inner, before, returned, later, Nat.le_refl 0, first, rfl, second, ?_⟩
  have kept := (writes_own_scope .standard 1).2.2.2.2 outer [] before returned later _
    (Nat.le_refl 0) first
  exact (kept (.single (.call second))).2

end Monkey
