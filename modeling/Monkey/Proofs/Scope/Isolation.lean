import Monkey.Proofs.Scope.Alike

/-!
What evaluation can see. From a scope the search for names leads outward, and into the scopes that
the functions among the bound values have captured; a call starts from the scopes that its function
and its arguments have captured. Whatever stands in any other scope has no influence, on the outcome
as little as on the output or on the scopes that can be seen.
-/

namespace Monkey

/-- Both scopes show the same values, whatever earlier bindings these hide, and lie in the same
scope. -/
structure Scope.Agree (first second : Scope) : Prop where
  bindings : ∀ name, first.bindings.lookup name = second.bindings.lookup name
  outer : first.outer = second.outer

namespace Heap

/-- The scopes that can be seen from the given ones. -/
inductive Reachable (heap : Heap) (roots : List Nat) : Nat → Prop
  | root {number : Nat} (member : number ∈ roots) : Reachable heap roots number
  | outer {number around : Nat} {scope : Scope} (reachable : Reachable heap roots number)
      (found : heap.scopes[number]? = some scope) (outer : scope.outer = some around) :
      Reachable heap roots around
  | captured {number inside : Nat} {scope : Scope} {name : String} {value : Value}
      (reachable : Reachable heap roots number) (found : heap.scopes[number]? = some scope)
      (bound : scope.bindings.lookup name = some value) (member : inside ∈ value.captured) :
      Reachable heap roots inside

/-- The scopes that can be seen now, and those that will be created. -/
def InSight (heap : Heap) (roots : List Nat) (number : Nat) : Prop :=
  heap.Reachable roots number ∨ heap.size ≤ number

/-- There are as many scopes in both heaps, and those of the region agree. -/
structure Agree (region : Nat → Prop) (first second : Heap) : Prop where
  size : first.size = second.size
  scopes : ∀ number, region number →
    Option.Rel Scope.Agree first.scopes[number]? second.scopes[number]?

end Heap

/-- Every scope of the region is linked to itself. -/
def within (region : Nat → Prop) (number other : Nat) : Prop :=
  number = other ∧ region number

section

variable {region : Nat → Prop}

/-- The scopes of a region are linked to themselves in order. -/
theorem ordered_within : Ordered (within region) := by
  rintro first _ other _ ⟨rfl, _⟩ ⟨rfl, _⟩
  rfl

mutual

/-- Values are equal when all that they capture is linked to itself. -/
theorem Value.Alike.eq_of_within (first : Value) {second : Value}
    (alike : Value.Alike (within region) first second) : first = second := by
  cases alike with
  | array all => rw [Value.Alike.eq_of_within_each _ all]
  | function closure linked => rw [← linked.1]
  | returned alike => rw [Value.Alike.eq_of_within _ alike]
  | _ => rfl

theorem Value.Alike.eq_of_within_each (firsts : List Value) {seconds : List Value}
    (all : List.Forall₂ (Value.Alike (within region)) firsts seconds) : firsts = seconds := by
  cases all with
  | nil => rfl
  | cons alike all =>
      rw [Value.Alike.eq_of_within _ alike, Value.Alike.eq_of_within_each _ all]

end

/-- Results are equal when all that they capture is linked to itself. -/
theorem Value.option_eq_of_within {first second : Option Value}
    (alike : Option.Rel (Value.Alike (within region)) first second) : first = second := by
  cases alike with
  | none => rfl
  | some alike => rw [alike.eq_of_within]

/-- Scopes that are similar within a region agree. -/
theorem Scope.Similar.agree {first second : Scope}
    (similar : Scope.Similar (within region) first second) : first.Agree second where
  bindings name := Value.option_eq_of_within (similar.bindings name)
  outer := by
    have outer := similar.outer
    generalize first.outer = left at outer ⊢
    generalize second.outer = right at outer ⊢
    cases outer with
    | none => rfl
    | some linked => rw [linked.1]

/-- Scopes that agree are similar when all that can be seen from them belongs to the region. -/
theorem Scope.Agree.similar {first second : Scope} (agree : first.Agree second)
    (around : ∀ outer, first.outer = some outer → region outer)
    (inside : ∀ name value, first.bindings.lookup name = some value →
      ∀ captured ∈ value.captured, region captured) :
    Scope.Similar (within region) first second where
  bindings := by
    intro name
    rw [← agree.bindings name]
    match bound : first.bindings.lookup name with
    | none => exact .none
    | some value =>
        apply Option.Rel.some
        apply value.alike_self
        intro captured member
        exact ⟨rfl, inside name value bound captured member⟩
  outer := by
    rw [← agree.outer]
    match outer : first.outer with
    | none => exact .none
    | some number => exact .some ⟨rfl, around number outer⟩

end

namespace Heap

variable {roots : List Nat} {first second : Heap}

/-- New scopes are in sight. -/
theorem inSight_fresh (heap : Heap) (count : Nat) : heap.InSight roots (heap.size + count) :=
  .inr (Nat.le_add_right _ _)

/-- Heaps that agree on what can be seen are alike on what is in sight. -/
theorem Agree.alike (agree : first.Agree (first.Reachable roots) second) :
    first.Alike (within (first.InSight roots)) (Scope.Similar (within (first.InSight roots)))
      second where
  scopes := by
    rintro number _ ⟨rfl, reachable | new⟩
    · have scopes := agree.scopes number reachable
      match found : first.scopes[number]?, second.scopes[number]?, scopes with
      | none, none, .none => exact .none
      | some left, some right, .some both =>
          apply Option.Rel.some
          apply both.similar
          · intro outer around
            exact .inl (.outer reachable found around)
          · intro name value bound captured member
            exact .inl (.captured reachable found bound member)
    · have alsoNew : second.size ≤ number := agree.size ▸ new
      rw [Array.getElem?_eq_none new, Array.getElem?_eq_none alsoNew]
      exact .none
  fresh := by
    intro count
    exact ⟨by rw [agree.size], first.inSight_fresh count⟩

/-- Heaps that are alike within a region agree on it. -/
theorem Alike.agree {region : Nat → Prop}
    (alike : first.Alike (within region) (Scope.Similar (within region)) second) :
    first.Agree region second where
  size := (alike.fresh 0).1
  scopes := by
    intro number inRegion
    have scopes := alike.scopes ⟨rfl, inRegion⟩
    generalize first.scopes[number]? = left at scopes
    generalize second.scopes[number]? = right at scopes
    cases scopes with
    | none => exact .none
    | some similar => exact .some similar.agree

/-- Binding a name in a scope that cannot be seen leaves all that can be seen. -/
theorem agree_bind_unseen (heap : Heap) {scope : Nat} (unseen : ¬ heap.Reachable roots scope)
    (name : String) (value : Value) :
    heap.Agree (heap.Reachable roots) (heap.bind scope name value) where
  size := by simp [bind, size]
  scopes := by
    intro number reachable
    have other : scope ≠ number := fun same => unseen (same ▸ reachable)
    rw [bind, Array.getElem?_modify, if_neg other]
    cases heap.scopes[number]? with
    | none => exact .none
    | some found => exact .some ⟨fun _ => rfl, rfl⟩

end Heap

namespace Output

/-- Both outputs have come from the given ones by writing one text. -/
def Extended (first second left right : Output) : Prop :=
  ∃ added, first.write added = .ok left ∧ second.write added = .ok right

/-- Two texts in a row are written like one. -/
theorem write_write {output middle : Output} {added : String}
    (written : output.write added = .ok middle) (text : String) :
    middle.write text = output.write (added ++ text) := by
  cases output with
  | buffer before =>
      cases written
      simp [write, String.append_assoc]
  | stream before =>
      cases written
      simp [write, String.append_assoc]
  | full =>
      by_cases nothing : added = ""
      · subst nothing
        cases written
        simp [write]
      · simp [write, nothing] at written

/-- Only a full device refuses a text. -/
theorem write_of_ne_full {output : Output} (notFull : output ≠ .full) (text : String) :
    ∃ written, output.write text = .ok written := by
  cases output with
  | buffer before => exact ⟨_, rfl⟩
  | stream before => exact ⟨_, rfl⟩
  | full => exact absurd rfl notFull

/-- Of two outputs that are full together, or not at all, each takes the texts that the other one
takes. -/
theorem parallel_extended {first second : Output} (sinks : first = .full ↔ second = .full) :
    Output.Parallel (Output.Extended first second) := by
  rintro left right ⟨added, writtenLeft, writtenRight⟩ text
  rw [write_write writtenLeft, write_write writtenRight]
  by_cases isFull : first = .full
  · rw [isFull, sinks.mp isFull]
    match written : Output.full.write (added ++ text) with
    | .ok reached => exact .ok ⟨added ++ text, written, written⟩
    | .error failure => exact .error failure
  · obtain ⟨reached, written⟩ := write_of_ne_full isFull (added ++ text)
    obtain ⟨other, alsoWritten⟩ := write_of_ne_full (mt sinks.mpr isFull) (added ++ text)
    rw [written, alsoWritten]
    exact .ok ⟨added ++ text, written, alsoWritten⟩

end Output

namespace Evaluation

open Bounded

/-- Only the scopes that can be seen from the roots have an influence: on machines that agree on
them the computation ends with the same outcome and the same added text or on neither, and the
machines that it reaches agree on all that was in sight. -/
def Isolated {Result : Type} (roots : List Nat) (computation : Evaluation Result) : Prop :=
  ∀ ⦃first second : Machine⦄, first.heap.Agree (first.heap.Reachable roots) second.heap →
    (first.output = .full ↔ second.output = .full) →
    Option.Rel
      (fun ends others => ends.1 = others.1 ∧
        Output.Extended first.output second.output ends.2.output others.2.output ∧
        ends.2.heap.Agree (first.heap.InSight roots) others.2.heap)
      (computation first) (computation second)

/-- Two machines on the way of one computation that has started on the given ones. -/
def Alongside (region : Nat → Prop) (first second : Machine) : Machine → Machine → Prop :=
  Machine.Alike (within region) (Scope.Similar (within region))
    (Output.Extended first.output second.output)

/-- Two machines that write the same texts stay alongside each other. -/
theorem simulation_alongside {region : Nat → Prop} {first second : Machine}
    (sinks : first.output = .full ↔ second.output = .full) :
    Simulation (within region) (Alongside region first second) :=
  simulation_alike ordered_within (Output.parallel_extended sinks) Scope.tracked_similar

/-- Machines that agree on what they reach start alongside each other. -/
theorem alongside_start {roots : List Nat} {first second : Machine}
    (agree : first.heap.Agree (first.heap.Reachable roots) second.heap) :
    Alongside (first.heap.InSight roots) first second first second :=
  ⟨agree.alike, "", first.output.write_empty, second.output.write_empty⟩

/-- A computation that keeps two machines in step, whatever region holds its roots, is isolated. -/
theorem isolated_of_inStep {Result : Type} {roots : List Nat} {computation : Evaluation Result}
    {results : (Nat → Prop) → Result → Result → Prop}
    (same : ∀ ⦃region first second⦄, results region first second → first = second)
    (inStep : ∀ ⦃region : Nat → Prop⦄ ⦃states : Machine → Machine → Prop⦄,
      (∀ root ∈ roots, region root) → Simulation (within region) states →
      InStep states (results region) computation computation) :
    Isolated roots computation := by
  intro first second agree sinks
  have rooted : ∀ root ∈ roots, first.heap.InSight roots root :=
    fun root member => .inl (.root member)
  have both := inStep rooted (simulation_alongside sinks) (alongside_start agree)
  generalize computation first = left at both
  generalize computation second = right at both
  cases both with
  | none => exact .none
  | @some ends others reached =>
      obtain ⟨outcomes, machines⟩ := reached
      exact .some ⟨outcomes.eq_of_forall fun _ _ related => same related, machines.output,
        machines.heap.agree⟩

section

variable (builtins : Builtins) (depth : Nat)

/-- An expression is isolated from what its scope does not reach. -/
theorem isolated_expression (expr : Expr Nat) (scope : Nat) :
    Isolated [scope] (expression builtins depth expr scope) := by
  apply isolated_of_inStep fun _ first _ alike => Value.Alike.eq_of_within first alike
  intro region states rooted simulation
  exact inStep_expression simulation builtins depth ⟨rfl, rooted scope (by simp)⟩ expr

/-- A block is isolated from what its scope does not reach. -/
theorem isolated_block (body : Block Nat) (scope : Nat) :
    Isolated [scope] (block (expression builtins depth) scope body) := by
  apply isolated_of_inStep fun _ first _ alike => Value.Alike.eq_of_within first alike
  intro region states rooted simulation
  exact inStep_block simulation (inStep_expression simulation builtins depth)
    ⟨rfl, rooted scope (by simp)⟩ body

/-- A program is isolated from what its scope does not reach. -/
theorem isolated_program (statements : List (Stmt Nat)) (scope : Nat) :
    Isolated [scope] (program (expression builtins depth) scope none statements) := by
  apply isolated_of_inStep fun _ _ _ alike => Value.option_eq_of_within alike
  intro region states rooted simulation
  exact inStep_program simulation (inStep_expression simulation builtins depth)
    ⟨rfl, rooted scope (by simp)⟩ statements .none

/-- A call sees what its function and its arguments have captured. -/
theorem isolated_call (callee : Value) (arguments : List Value) :
    Isolated (Value.capturedEach (callee :: arguments))
      (call (expression builtins depth) callee arguments) := by
  apply isolated_of_inStep fun _ first _ alike => Value.Alike.eq_of_within first alike
  intro region states rooted simulation
  have linked : ∀ root ∈ Value.capturedEach (callee :: arguments), within region root root :=
    fun root member => ⟨rfl, rooted root member⟩
  cases Value.alike_self_each (callee :: arguments) linked with
  | cons callees all =>
      exact inStep_call simulation (inStep_expression simulation builtins depth) callees all

/-- Evaluation depends on no more than what can be seen from where it starts. In particular nothing
that the caller binds has an influence on a call, unless the call can see the scope of the
caller. -/
theorem isolated :
    (∀ expr scope, Isolated [scope] (expression builtins depth expr scope)) ∧
    (∀ body scope, Isolated [scope] (block (expression builtins depth) scope body)) ∧
    (∀ statements scope,
      Isolated [scope] (program (expression builtins depth) scope none statements)) ∧
    (∀ callee arguments, Isolated (Value.capturedEach (callee :: arguments))
      (call (expression builtins depth) callee arguments)) ∧
    ∀ callee arguments caller name value (machine : Machine),
      ¬ machine.heap.Reachable (Value.capturedEach (callee :: arguments)) caller →
      Option.Rel (fun ends others => ends.1 = others.1 ∧ ends.2.output = others.2.output)
        (call (expression builtins depth) callee arguments machine)
        (call (expression builtins depth) callee arguments
          { machine with heap := machine.heap.bind caller name value }) := by
  refine ⟨isolated_expression builtins depth, isolated_block builtins depth,
    isolated_program builtins depth, isolated_call builtins depth, ?_⟩
  intro callee arguments caller name value machine unseen
  have agree := machine.heap.agree_bind_unseen unseen name value
  have isolatedCall := isolated_call builtins depth callee arguments
  have both := @isolatedCall machine ⟨machine.heap.bind caller name value, machine.output⟩ agree
    Iff.rfl
  generalize call (expression builtins depth) callee arguments machine = left at both ⊢
  generalize call (expression builtins depth) callee arguments _ = right at both ⊢
  cases both with
  | none => exact .none
  | some reached =>
      obtain ⟨outcomes, ⟨added, written, alsoWritten⟩, _⟩ := reached
      exact .some ⟨outcomes, Except.ok.inj (written.symm.trans alsoWritten)⟩

end

/-- The function `fn() { x }` has captured a scope where `x` is 1; whether `x` is 2 or 3 in the
scope of the caller, a call gives 1. -/
theorem isolated_shadowing :
    ∃ (callee : Value) (first second : Machine),
      first.heap.Agree (first.heap.Reachable (Value.capturedEach [callee])) second.heap ∧
      first.heap.lookup 1 "x" = some (.integer 2) ∧
      second.heap.lookup 1 "x" = some (.integer 3) ∧
      ∃ reached found,
        call (expression .standard 1) callee [] first = some (.ok (.integer 1), reached) ∧
        call (expression .standard 1) callee [] second = some (.ok (.integer 1), found) ∧
        reached.output = found.output := by
  let name : Ident := ⟨⟨.ident, "x"⟩, "x"⟩
  let callee : Value := .function ⟨0, [], .mk ⟨.leftBrace, "\x7b"⟩
    [.expression name.token (.ident name)], 0⟩
  let scopes (value : Int64) : Array Scope :=
    #[⟨[("x", .integer 1)], none⟩, ⟨[("x", .integer value)], some 0⟩]
  let first : Machine := ⟨⟨scopes 2⟩, .buffer ""⟩
  let second : Machine := ⟨⟨scopes 3⟩, .buffer ""⟩
  have onlyOutermost : ∀ number, first.heap.Reachable [0] number → number = 0 := by
    intro number reachable
    induction reachable with
    | root member => simpa using member
    | outer _ found outer isOutermost =>
        subst isOutermost
        cases found
        cases outer
    | @captured _ _ _ sought _ _ found bound member isOutermost =>
        subst isOutermost
        cases found
        change [("x", Value.integer 1)].lookup sought = some _ at bound
        rw [List.lookup_cons] at bound
        split at bound
        · cases bound
          cases member
        · cases bound
  have agree : first.heap.Agree (first.heap.Reachable [0]) second.heap := by
    refine ⟨rfl, ?_⟩
    intro number reachable
    rw [onlyOutermost number reachable]
    exact .some ⟨fun _ => rfl, rfl⟩
  have firstEnds : call (expression .standard 1) callee [] first =
      some (.ok (.integer 1), ⟨⟨(scopes 2).push ⟨[], some 0⟩⟩, .buffer ""⟩) := by
    with_unfolding_all rfl
  have sinks : first.output = .full ↔ second.output = .full := by simp [first, second]
  have both := @(isolated .standard 1).2.2.2.1 callee [] first second agree sinks
  rw [firstEnds] at both
  generalize secondEnds : call (expression .standard 1) callee [] second = ends at both
  cases both with
  | @some _ found reached =>
      obtain ⟨outcome, machine⟩ := found
      obtain ⟨same, ⟨added, written, alsoWritten⟩, _⟩ := reached
      cases same
      refine ⟨callee, first, second, agree, ?_, ?_, _, machine, firstEnds, secondEnds, ?_⟩
      · with_unfolding_all rfl
      · with_unfolding_all rfl
      · exact Except.ok.inj (written.symm.trans alsoWritten)

end Evaluation

end Monkey
