import Monkey.Builtin
import Monkey.Operator
import Monkey.Proofs.Bounded

/-!
Properties of values that an array has when all its elements have them. Operators and built-in
functions give back nothing but parts of what they are given and values without parts, so such a
property passes through them.
-/

namespace Monkey

/-- A property of all plain values without parts, and of an array when it is one of all its
elements. Nothing is said of functions, built-in functions, wrapped values and errors. -/
structure Value.Hereditary (holds : Value → Prop) : Prop where
  integer : ∀ value, holds (.integer value)
  boolean : ∀ value, holds (.boolean value)
  text : ∀ value, holds (.text value)
  null : holds .null
  void : holds .void
  array : ∀ elements, holds (.array elements) ↔ ∀ element ∈ elements, holds element

mutual

/-- The functions in a value. -/
def Value.closures : Value → List Closure
  | .array elements => Value.closuresEach elements
  | .function closure => [closure]
  | .returned value => value.closures
  | _ => []

def Value.closuresEach : List Value → List Closure
  | [] => []
  | first :: others => first.closures ++ Value.closuresEach others

end

/-- The functions in values are those in each of them. -/
theorem Value.forall_closuresEach {holds : Closure → Prop} {values : List Value} :
    (∀ closure ∈ closuresEach values, holds closure) ↔
      ∀ value ∈ values, ∀ closure ∈ value.closures, holds closure := by
  induction values with
  | nil => simp [closuresEach]
  | cons first others inductionHypothesis =>
      rw [closuresEach, List.forall_mem_append, inductionHypothesis, List.forall_mem_cons]

/-- A property of all functions in a value passes to arrays and their elements. -/
theorem Value.hereditary_closures (holds : Closure → Prop) :
    Hereditary fun value => ∀ closure ∈ value.closures, holds closure where
  integer _ := by simp [closures]
  boolean _ := by simp [closures]
  text _ := by simp [closures]
  null := by simp [closures]
  void := by simp [closures]
  array _ := forall_closuresEach

/-- A table holds nothing but built-in functions under their own names. -/
theorem Builtins.exists_of_lookup {builtins : Builtins} {name : String} {value : Value}
    (known : builtins.lookup name = some value) : ∃ function, value = .builtin name function := by
  obtain ⟨function, _, rfl⟩ := Option.map_eq_some_iff.mp known
  exact ⟨function, rfl⟩

variable {holds : Value → Prop}

namespace Operator

open Bounded

variable (hereditary : Value.Hereditary holds)

include hereditary

/-- A negation gives an integer. -/
theorem negate_yields (operand : Int64) : Yields holds (negate operand) := by
  unfold negate
  split
  · exact yields_ok (hereditary.integer _)
  · exact yields_error _

/-- A unary operation gives a plain value. -/
theorem unary_yields (operator : String) (operand : Value) :
    Yields holds (unary operator operand) := by
  unfold unary
  split
  · exact yields_ok (hereditary.boolean _)
  · exact negate_yields hereditary _
  · exact yields_error _

/-- Arithmetic gives an integer. -/
theorem arithmetic_yields (left : Int64) (operator : String) (right : Int64) (result : Int) :
    Yields holds (arithmetic left operator right result) := by
  unfold arithmetic
  split
  · exact yields_ok (hereditary.integer _)
  · exact yields_error _

/-- An operator on integers gives an integer or a boolean. -/
theorem onIntegers_yields (operator : String) (left right : Int64) :
    Yields holds (onIntegers operator left right) := by
  unfold onIntegers
  split
  · exact arithmetic_yields hereditary _ _ _ _
  · exact arithmetic_yields hereditary _ _ _ _
  · exact arithmetic_yields hereditary _ _ _ _
  · split
    · exact yields_error _
    · exact arithmetic_yields hereditary _ _ _ _
  · exact yields_ok (hereditary.boolean _)
  · exact yields_ok (hereditary.boolean _)
  · exact yields_ok (hereditary.boolean _)
  · exact yields_ok (hereditary.boolean _)
  · exact yields_error _

/-- A binary operation gives a plain value. -/
theorem binary_yields (operator : String) (left right : Value) :
    Yields holds (binary operator left right) := by
  unfold binary
  split
  · exact yields_error _
  · split
    · exact onIntegers_yields hereditary _ _ _
    · unfold onTexts
      split
      · exact yields_ok (hereditary.text _)
      · exact yields_error _
    · unfold onOthers
      split
      · exact yields_ok (hereditary.boolean _)
      · exact yields_ok (hereditary.boolean _)
      · exact yields_error _

/-- What is found in an array is one of its elements, or `null`. -/
theorem index_yields {collection : Value} (whole : holds collection) (position : Value) :
    Yields holds (index collection position) := by
  unfold index
  split
  · next elements place =>
      apply yields_ok
      have each := (hereditary.array elements).mp whole
      unfold elementAt
      split
      · exact hereditary.null
      · match found : elements[place.toInt.toNat]? with
        | none => exact hereditary.null
        | some element => exact each element (List.mem_of_getElem? found)
  · exact yields_error _

end Operator

namespace Builtin

open Bounded

/-- A single argument has the property when all arguments have it. -/
theorem oneArgument_yields {arguments : List Value}
    (each : ∀ argument ∈ arguments, holds argument) : Yields holds (oneArgument arguments) := by
  match arguments with
  | [] => exact yields_error _
  | [argument] => exact yields_ok (each argument (by simp))
  | _ :: _ :: _ => exact yields_error _

/-- An element of a value with the property has it, and so has `null`. -/
theorem elementOf_holds (hereditary : Value.Hereditary holds) (position : Nat) {value : Value}
    (whole : holds value) : holds (elementOf position value) := by
  cases value with
  | array elements =>
      have each := (hereditary.array elements).mp whole
      match found : elements[position]? with
      | none => simpa [elementOf, found] using hereditary.null
      | some element =>
          simpa [elementOf, found] using each element (List.mem_of_getElem? found)
  | _ => exact hereditary.null

mutual

/-- A function of the host has nothing to answer with but plain values and what its arguments
hold. -/
theorem answered_holds (hereditary : Value.Hereditary holds) {arguments : List Value}
    (each : ∀ argument ∈ arguments, holds argument) (reply : Reply) :
    holds (answered arguments reply) := by
  match reply with
  | .integer value => exact hereditary.integer value
  | .boolean value => exact hereditary.boolean value
  | .text value => exact hereditary.text value
  | .array elements => exact (hereditary.array _).mpr (answeredEach_holds hereditary each elements)
  | .argument position => exact elementOf_holds hereditary _ ((hereditary.array _).mpr each)
  | .element whole position =>
      exact elementOf_holds hereditary _ (answered_holds hereditary each whole)
  | .null => exact hereditary.null
  | .void => exact hereditary.void

theorem answeredEach_holds (hereditary : Value.Hereditary holds) {arguments : List Value}
    (each : ∀ argument ∈ arguments, holds argument) (replies : List Reply) :
    ∀ value ∈ answeredEach arguments replies, holds value := by
  match replies with
  | [] => simp [answeredEach]
  | reply :: others =>
      rw [answeredEach, List.forall_mem_cons]
      exact ⟨answered_holds hereditary each reply, answeredEach_holds hereditary each others⟩

end

variable (hereditary : Value.Hereditary holds)

include hereditary

/-- The elements of an array with the property have it. -/
theorem elementsOf_yields (function : String) {value : Value} (whole : holds value) :
    Yields (fun elements => ∀ element ∈ elements, holds element) (elementsOf function value) := by
  cases value with
  | array elements => exact yields_ok ((hereditary.array elements).mp whole)
  | _ => exact yields_error _

theorem lengthOf_yields (value : Value) : Yields holds (lengthOf value) := by
  cases value with
  | text _ => exact yields_ok (hereditary.integer _)
  | array _ => exact yields_ok (hereditary.integer _)
  | _ => exact yields_error _

theorem firstOf_holds {elements : List Value} (each : ∀ element ∈ elements, holds element) :
    holds (firstOf elements) := by
  match elements with
  | [] => exact hereditary.null
  | foremost :: _ => exact each foremost (by simp)

theorem lastOf_holds {elements : List Value} (each : ∀ element ∈ elements, holds element) :
    holds (lastOf elements) := by
  unfold lastOf
  match found : elements.getLast? with
  | none => exact hereditary.null
  | some rearmost => exact each rearmost (List.mem_of_getLast? found)

/-- All elements but the first have the property together. -/
theorem restOf_holds {elements : List Value} (each : ∀ element ∈ elements, holds element) :
    holds (restOf elements) := by
  match elements with
  | [] => exact hereditary.null
  | _ :: others =>
      apply (hereditary.array others).mpr
      intro element member
      exact each element (List.mem_cons_of_mem _ member)

/-- An array keeps the property when a value with it is pushed. -/
theorem pushOnto_yields {arguments : List Value}
    (each : ∀ argument ∈ arguments, holds argument) : Yields holds (pushOnto arguments) := by
  match arguments with
  | [] => exact yields_error _
  | [_] => exact yields_error _
  | [collection, added] =>
      refine (elementsOf_yields hereditary "push" (each collection (by simp))).bind ?_
      intro elements eachElement
      refine yields_ok ((hereditary.array _).mpr ?_)
      intro element member
      rcases List.mem_append.mp member with old | new
      · exact eachElement element old
      · exact each element (List.mem_cons_of_mem _ new)
  | _ :: _ :: _ :: _ => exact yields_error _

theorem write_yields (text : String) (output : Output) : Yields holds (write text output).1 := by
  unfold write
  split
  · exact yields_ok hereditary.void
  · exact yields_error _

/-- What a function of the host gives back has the property. -/
theorem applyHost_yields (function : HostFunction) {arguments : List Value}
    (each : ∀ argument ∈ arguments, holds argument) (output : Output) :
    Yields holds (applyHost function arguments output).1 := by
  unfold applyHost
  dsimp only
  split
  · have answers : Yields (fun _ => True) (function.answer (Value.sightEach arguments)) :=
      fun _ _ => trivial
    exact answers.map fun reply _ => answered_holds hereditary each reply
  · exact yields_error _

-- A function that writes how many arguments it has and answers with an element of the second one.
example :
    let function : HostFunction :=
      ⟨fun seen => toString seen.length, fun _ => .ok (.element (.argument 1) 0), nofun⟩
    applyHost function [.null, .array [.text "a", .void]] (.buffer "n=") =
      (.ok (.text "a"), .buffer "n=2") := by
  rfl

/-- What a built-in function gives back has every hereditary property that its arguments have. -/
theorem apply_yields (function : Builtin) {arguments : List Value}
    (each : ∀ argument ∈ arguments, holds argument) (output : Output) :
    Yields holds (function.apply arguments output).1 := by
  have elements (name : String) := (oneArgument_yields each).bind fun value whole =>
    elementsOf_yields hereditary name whole
  cases function with
  | len => exact (oneArgument_yields each).bind fun value _ => lengthOf_yields hereditary value
  | print => exact write_yields hereditary _ _
  | println => exact write_yields hereditary _ _
  | first => exact (elements "first").map fun _ eachElement => firstOf_holds hereditary eachElement
  | last => exact (elements "last").map fun _ eachElement => lastOf_holds hereditary eachElement
  | pop => exact (elements "rest").map fun _ eachElement => restOf_holds hereditary eachElement
  | push => exact pushOnto_yields hereditary each
  | host function => exact applyHost_yields hereditary function each output

end Builtin

end Monkey
