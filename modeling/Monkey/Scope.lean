import Monkey.Value

/-!
Scopes and the heap they live in. A scope binds names and may lie inside another scope; a scope is
known by its number in the heap, and the numbers are given out in the order of creation.
-/

namespace Monkey

/-- The bindings of one scope, the latest first, and the number of the scope around it. -/
structure Scope where
  bindings : List (String × Value)
  outer : Option Nat

/-- A new binding hides the earlier ones of the same name. -/
def Scope.bind (scope : Scope) (name : String) (value : Value) : Scope :=
  { scope with bindings := (name, value) :: scope.bindings }

structure Heap where
  scopes : Array Scope

namespace Heap

def empty : Heap := ⟨#[]⟩

def size (heap : Heap) : Nat := heap.scopes.size

/-- The number of the new scope is the number of scopes before it. -/
def create (heap : Heap) (scope : Scope) : Nat × Heap :=
  (heap.size, ⟨heap.scopes.push scope⟩)

/-- Binding a name changes one scope only. -/
def bind (heap : Heap) (scope : Nat) (name : String) (value : Value) : Heap :=
  ⟨heap.scopes.modify scope (·.bind name value)⟩

/-- The innermost binding of a name. The search goes outward, and a scope lies only in scopes that
are older than itself. -/
def lookup (heap : Heap) (scope : Nat) (name : String) : Option Value :=
  match heap.scopes[scope]? with
  | none => none
  | some found =>
      match found.bindings.lookup name with
      | some value => some value
      | none =>
          match found.outer with
          | none => none
          | some outer => if outer < scope then heap.lookup outer name else none
termination_by scope

end Heap

end Monkey
