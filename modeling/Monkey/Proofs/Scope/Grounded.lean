import Monkey.Proofs.Evaluation.Invariant
import Monkey.Proofs.Scope.Binding
import Monkey.Proofs.Scope.Repetition
import Monkey.Proofs.Scope.Stored

/-!
Heaps in which the search for a name comes to an end. A function that is bound in the scope it has
captured closes a circle through the bindings, but the way outward never does: each scope lies in
one that was created before it.
-/

namespace Monkey

/-- A well-formed heap in which each scope lies only in older ones. -/
structure Heap.Grounded (heap : Heap) : Prop extends heap.WellFormed, heap.Layered

/-- The search for a name, begun in a scope, ends with the result. It goes outward as long as the
name is not bound, however far that is. -/
inductive Heap.Finds (heap : Heap) (name : String) : Nat → Option Value → Prop where
  | bound {number : Nat} {scope : Scope} {value : Value}
      (found : heap.scopes[number]? = some scope)
      (isBound : scope.bindings.lookup name = some value) : Finds heap name number (some value)
  | outermost {number : Nat} {scope : Scope} (found : heap.scopes[number]? = some scope)
      (unbound : scope.bindings.lookup name = none) (nothing : scope.outer = none) :
      Finds heap name number none
  | outward {number outer : Nat} {scope : Scope} {result : Option Value}
      (found : heap.scopes[number]? = some scope)
      (unbound : scope.bindings.lookup name = none) (around : scope.outer = some outer)
      (search : Finds heap name outer result) : Finds heap name number result

namespace Heap

variable {heap : Heap}

/-- Scopes that lie only in older ones lie in scopes that exist. -/
theorem Layered.grounded (layered : heap.Layered)
    (bound : ∀ scope ∈ heap.scopes, ∀ binding ∈ scope.bindings, binding.2.LivesIn heap) :
    heap.Grounded := by
  refine ⟨⟨?_, bound⟩, layered⟩
  intro scope member outer around
  obtain ⟨number, inside, rfl⟩ := Array.mem_iff_getElem.mp member
  have isOlder := layered.older number _ (Array.getElem?_eq_getElem inside) outer around
  exact Nat.lt_trans isOlder inside

/-- A heap without scopes is grounded. -/
theorem grounded_empty : Heap.empty.Grounded := by
  apply Layered.grounded
  · exact ⟨by simp [empty]⟩
  · simp [empty]

/-- In a grounded heap all bound values live in the heap. -/
theorem Grounded.shown (grounded : heap.Grounded) :
    heap.All fun value => value.LivesIn heap := by
  intro scope member name value isBound
  obtain ⟨before, behind, split, _⟩ := List.lookup_eq_some_iff.mp isBound
  exact grounded.bound scope member (name, value) (by simp [split])

/-- A new scope lies in one that exists and binds values whose scopes exist. -/
theorem Grounded.create (grounded : heap.Grounded) {scope : Scope}
    (around : ∀ outer ∈ scope.outer, outer < heap.size)
    (lives : ∀ binding ∈ scope.bindings, binding.2.LivesIn heap) :
    (heap.create scope).2.Grounded := by
  have grows : heap.size ≤ (heap.create scope).2.size := by
    rw [size_create]
    exact Nat.le_succ _
  apply (grounded.toLayered.create around).grounded
  intro found member binding isBinding captured isCaptured
  apply Nat.lt_of_lt_of_le _ grows
  rcases Array.mem_push.mp member with old | rfl
  · exact grounded.bound found old binding isBinding captured isCaptured
  · exact lives binding isBinding captured isCaptured

/-- Binding a name creates no scope. -/
theorem size_bind (heap : Heap) (number : Nat) (name : String) (value : Value) :
    (heap.bind number name value).size = heap.size := by
  simp [bind, size]

/-- A value whose scopes exist can be bound anywhere. -/
theorem Grounded.bind (grounded : heap.Grounded) (number : Nat) (name : String) {value : Value}
    (lives : value.LivesIn heap) : (heap.bind number name value).Grounded := by
  have sameSize := heap.size_bind number name value
  apply (grounded.toLayered.bind number name value).grounded
  intro found member binding isBinding
  unfold Value.LivesIn
  rw [sameSize]
  obtain ⟨other, inside, rfl⟩ := Array.mem_iff_getElem.mp member
  have bound : other < heap.scopes.size := by simpa [Heap.bind] using inside
  have before := grounded.bound _ (Array.getElem_mem bound)
  simp only [Heap.bind, Array.getElem_modify] at isBinding
  split at isBinding
  · rcases List.mem_cons.mp isBinding with rfl | earlier
    · exact lives
    · exact before binding earlier
  · exact before binding isBinding

/-- The search for a name ends for every name and scope, and nowhere does it end otherwise than the
lookup does. -/
theorem Grounded.finds_iff (grounded : heap.Grounded) {name : String} {number : Nat}
    {result : Option Value} :
    heap.Finds name number result ↔ number < heap.size ∧ result = heap.lookup number name := by
  constructor
  · intro search
    induction search with
    | bound found isBound =>
        rw [Heap.lookup]
        exact ⟨(Array.getElem?_eq_some_iff.mp found).1, by simp [found, isBound]⟩
    | outermost found unbound nothing =>
        rw [Heap.lookup]
        exact ⟨(Array.getElem?_eq_some_iff.mp found).1, by simp [found, unbound, nothing]⟩
    | @outward number outer scope result found unbound around _ inductionHypothesis =>
        have isOlder := grounded.older number scope found outer around
        rw [Heap.lookup]
        refine ⟨(Array.getElem?_eq_some_iff.mp found).1, ?_⟩
        simp [found, unbound, around, isOlder, inductionHypothesis.2]
  · rintro ⟨inside, rfl⟩
    -- Each step outward leads to a lower number, whatever is bound in the scopes.
    induction number using Nat.strongRecOn with
    | ind number inductionHypothesis =>
        have found : heap.scopes[number]? = some heap.scopes[number] :=
          Array.getElem?_eq_getElem inside
        rw [Heap.lookup]
        simp only [found]
        cases isBound : heap.scopes[number].bindings.lookup name with
        | some value => exact .bound found isBound
        | none =>
            cases around : heap.scopes[number].outer with
            | none => exact .outermost found isBound around
            | some outer =>
                have isOlder := grounded.older number _ found outer around
                simp only [isOlder, if_true]
                exact .outward found isBound around
                  (inductionHypothesis outer isOlder (Nat.lt_trans isOlder inside))

end Heap

/-- An array captures old scopes only when its elements do. -/
theorem Value.hereditary_below (size : Nat) :
    Hereditary fun value => ∀ scope ∈ value.captured, scope < size where
  integer _ := by simp [captured]
  boolean _ := by simp [captured]
  text _ := by simp [captured]
  null := by simp [captured]
  void := by simp [captured]
  array elements := by
    simp only [captured, mem_capturedEach]
    grind

/-- Evaluation captures only scopes that exist, and creates scopes only in those that were
captured. -/
def Evaluation.Invariant.grounded (builtins : Builtins) : Invariant builtins where
  node _ := True
  heap := Heap.Grounded
  value size value := ∀ scope ∈ value.captured, scope < size
  scope size number := number < size
  error _ := True
  hereditary := Value.hereditary_below
  builtin known := by
    obtain ⟨_, rfl⟩ := Builtins.exists_of_lookup known
    simp [Value.captured]
  returned := Iff.rfl
  value_mono le lives := fun scope isCaptured => Nat.lt_of_lt_of_le (lives scope isCaptured) le
  scope_mono le inside := Nat.lt_of_lt_of_le inside le
  lookup grounded found := grounded.shown.lookup found
  bind number name := fun grounded lives => grounded.bind number name lives
  create := by
    intro store closure arguments grounded function each
    refine ⟨grounded.create ?_ ?_, Nat.lt_succ_self _⟩
    · rintro _ ⟨⟩
      exact function closure.scope (by simp [Value.captured])
    · intro binding isBinding
      exact each _ (List.of_mem_zip (List.mem_reverse.mp isBinding)).2
  function _ inside := by simpa [Value.captured] using inside
  body _ := fun _ _ => trivial
  unary _ _ := fun _ _ => trivial
  binary _ _ _ := fun _ _ => trivial
  others _ := trivial

end Monkey
