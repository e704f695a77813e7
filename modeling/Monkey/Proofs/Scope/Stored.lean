import Monkey.Evaluation
import Monkey.Proofs.Value.Hereditary

/-!
Properties of all the values that a heap stores. Names are bound to values that have come out of
evaluation, and calls bind their parameters to arguments, so a property that evaluation hands on
holds of the values in the heap at any time.
-/

namespace Monkey

/-- Every value that the scope shows under a name has the property. -/
def Scope.All (holds : Value → Prop) (scope : Scope) : Prop :=
  ∀ name value, scope.bindings.lookup name = some value → holds value

/-- Every value that a scope of the heap shows has the property. -/
def Heap.All (holds : Value → Prop) (heap : Heap) : Prop :=
  ∀ scope ∈ heap.scopes, scope.All holds

/-- All values that are bound in the scopes of the machine have the property. -/
def Machine.All (holds : Value → Prop) (machine : Machine) : Prop :=
  machine.heap.All holds

variable {holds : Value → Prop}

/-- Binding a name to a value with the property keeps the scope to it. -/
theorem Scope.All.bind {scope : Scope} (all : scope.All holds) (name : String) {value : Value}
    (valueHolds : holds value) : (scope.bind name value).All holds := by
  intro sought found bound
  simp only [Scope.bind, List.lookup_cons] at bound
  split at bound
  · cases bound
    exact valueHolds
  · exact all sought found bound

namespace Heap

variable {heap : Heap}

/-- A heap without scopes binds nothing. -/
theorem all_empty : Heap.empty.All holds := by
  intro scope member
  simp [empty] at member

/-- A scope whose values have the property may be created. -/
theorem All.create (all : heap.All holds) {scope : Scope} (scopeAll : scope.All holds) :
    (heap.create scope).2.All holds := by
  intro found member
  rcases Array.mem_push.mp member with old | rfl
  · exact all found old
  · exact scopeAll

/-- A value with the property may be bound anywhere. -/
theorem All.bind (all : heap.All holds) (scope : Nat) (name : String) {value : Value}
    (valueHolds : holds value) : (heap.bind scope name value).All holds := by
  intro found member
  obtain ⟨number, inside, rfl⟩ := Array.mem_iff_getElem.mp member
  have bound : number < heap.scopes.size := by simpa [Heap.bind] using inside
  have before := all _ (Array.getElem_mem bound)
  simp only [Heap.bind, Array.getElem_modify]
  split
  · exact before.bind name valueHolds
  · exact before

/-- What the search for a name finds is shown by one of the scopes. -/
theorem All.lookup (all : heap.All holds) {number : Nat} {name : String} {value : Value}
    (found : heap.lookup number name = some value) : holds value := by
  induction number using Nat.strongRecOn with
  | ind number inductionHypothesis =>
      rw [Heap.lookup] at found
      match scopeFound : heap.scopes[number]? with
      | none => simp [scopeFound] at found
      | some scope =>
          have scopeAll := all scope (Array.mem_of_getElem? scopeFound)
          simp only [scopeFound] at found
          split at found
          · next bound =>
              cases found
              exact scopeAll name value bound
          · split at found
            · cases found
            · next outer _ =>
                split at found
                · next older => exact inductionHypothesis outer older found
                · cases found

end Heap

namespace Evaluation

open Bounded

/-- The parameters of a call are bound to its arguments. -/
theorem callScope_all (closure : Closure) {arguments : List Value}
    (each : ∀ argument ∈ arguments, holds argument) : (callScope closure arguments).All holds := by
  intro name value bound
  obtain ⟨before, behind, split, _⟩ := List.lookup_eq_some_iff.mp bound
  have member : (name, value) ∈ (callScope closure arguments).bindings := by simp [split]
  simp only [callScope, List.mem_reverse] at member
  exact each value (List.of_mem_zip member).2

/-- Binding a name to a value with the property keeps the machine to it. -/
theorem keeps_bindName (scope : Nat) (name : String) {value : Value} (valueHolds : holds value) :
    Keeps (Machine.All holds) (fun _ => True) (bindName scope name value) := by
  change Keeps _ _ (Bounded.step _)
  apply keeps_step
  intro machine all
  exact ⟨all.bind scope name valueHolds, yields_ok trivial⟩

/-- The scope of a call binds the arguments and nothing else. -/
theorem keeps_createScope (closure : Closure) {arguments : List Value}
    (each : ∀ argument ∈ arguments, holds argument) :
    Keeps (Machine.All holds) (fun _ => True) (createScope (callScope closure arguments)) := by
  apply keeps_step
  intro machine all
  exact ⟨all.create (callScope_all closure each), yields_ok trivial⟩

/-- What is found under a name has the property, be it bound or built in. -/
theorem keeps_ident (builtins : Builtins) (scope : Nat) (name : String)
    (known : ∀ value, builtins.lookup name = some value → holds value) :
    Keeps (Machine.All holds) holds (ident builtins scope name) := by
  have inScopes : Keeps (Machine.All holds) (fun found => ∀ value ∈ found, holds value)
      (inspect fun machine => machine.heap.lookup scope name : Evaluation (Option Value)) :=
    keeps_inspect fun machine all value found => all.lookup found
  apply inScopes.bind
  intro found each
  match found with
  | some value => exact keeps_pure (each value rfl)
  | none =>
      cases isBuiltin : builtins.lookup name with
      | none => exact keeps_fail _
      | some value => exact keeps_pure (known value isBuiltin)

/-- Built-in functions take values with the property to values with it. -/
theorem keeps_applyBuiltin (hereditary : Value.Hereditary holds) (function : Builtin)
    {arguments : List Value} (each : ∀ argument ∈ arguments, holds argument) :
    Keeps (Machine.All holds) holds (applyBuiltin function arguments) := by
  apply keeps_step
  intro machine all
  exact ⟨all, Builtin.apply_yields hereditary function each machine.output⟩

end Evaluation

end Monkey
