import Mathlib.Data.List.Forall2
import Monkey.Proofs.Value.Hereditary

/-!
Values that differ only in the numbers of the scopes which their functions have captured. Nothing
that a program can do with values tells them apart, as long as different scopes stay different.
-/

namespace Monkey

/-- A link between the scopes of two heaps that keeps their order, and so keeps them apart. -/
def Ordered (link : Nat → Nat → Prop) : Prop :=
  ∀ ⦃first second other another : Nat⦄, link first second → link other another →
    (first < other ↔ second < another)

/-- Linked scopes are equal together. -/
theorem Ordered.eq_iff {link : Nat → Nat → Prop} (ordered : Ordered link)
    {first second other another : Nat} (linked : link first second)
    (otherLinked : link other another) : first = other ↔ second = another := by
  have below := ordered linked otherLinked
  have above := ordered otherLinked linked
  omega

namespace Value

mutual

/-- The scopes of the functions in a value. -/
def captured : Value → List Nat
  | array elements => capturedEach elements
  | function closure => [closure.scope]
  | returned value => captured value
  | _ => []

def capturedEach : List Value → List Nat
  | [] => []
  | first :: others => captured first ++ capturedEach others

end

/-- What values capture is what one of them captures. -/
theorem mem_capturedEach {scope : Nat} {values : List Value} :
    scope ∈ capturedEach values ↔ ∃ value ∈ values, scope ∈ value.captured := by
  induction values with
  | nil => simp [capturedEach]
  | cons first others inductionHypothesis => simp [capturedEach, inductionHypothesis]

/-- What holds no function is made of parts that hold none. -/
theorem hereditary_captured : Hereditary fun value => value.captured = [] where
  integer _ := rfl
  boolean _ := rfl
  text _ := rfl
  null := rfl
  void := rfl
  array elements := by
    change capturedEach elements = [] ↔ _
    simp only [List.eq_nil_iff_forall_not_mem, mem_capturedEach]
    grind

/-- Two values that are equal but for the captured scopes, and these are linked. -/
inductive Alike (link : Nat → Nat → Prop) : Value → Value → Prop
  | integer (value : Int64) : Alike link (.integer value) (.integer value)
  | boolean (value : Bool) : Alike link (.boolean value) (.boolean value)
  | text (value : String) : Alike link (.text value) (.text value)
  | array {firsts seconds : List Value} (all : List.Forall₂ (Alike link) firsts seconds) :
      Alike link (.array firsts) (.array seconds)
  | function (closure : Closure) {scope : Nat} (linked : link closure.scope scope) :
      Alike link (.function closure) (.function { closure with scope })
  | builtin (name : String) (function : Builtin) :
      Alike link (.builtin name function) (.builtin name function)
  | returned {first second : Value} (alike : Alike link first second) :
      Alike link (.returned first) (.returned second)
  | error (cause : RuntimeError) : Alike link (.error cause) (.error cause)
  | null : Alike link .null .null
  | void : Alike link .void .void

variable {link : Nat → Nat → Prop}

/-- Alike values are of one kind. -/
theorem Alike.kind_eq {first second : Value} (alike : Alike link first second) :
    first.kind = second.kind := by
  cases alike <;> rfl

/-- Integers and texts hold no function. -/
theorem Alike.eq_of_kind {first second : Value} (alike : Alike link first second)
    (plain : first.kind = .integer ∨ first.kind = .text) : first = second := by
  cases alike with
  | integer value => rfl
  | text value => rfl
  | _ => simp [kind] at plain

/-- Alike values count alike as true or false. -/
theorem Alike.isTruthy_eq {first second : Value} (alike : Alike link first second) :
    first.isTruthy = second.isTruthy := by
  cases alike <;> rfl

mutual

/-- A value is like itself when each scope that it captures is linked to itself. -/
theorem alike_self (value : Value) (linked : ∀ scope ∈ value.captured, link scope scope) :
    Alike link value value := by
  match value with
  | integer value => exact .integer value
  | boolean value => exact .boolean value
  | text value => exact .text value
  | array elements => exact .array (alike_self_each elements linked)
  | function closure => exact .function closure (linked closure.scope (by simp [captured]))
  | builtin name entry => exact .builtin name entry
  | returned value => exact .returned (alike_self value linked)
  | error cause => exact .error cause
  | null => exact .null
  | void => exact .void

theorem alike_self_each (values : List Value)
    (linked : ∀ scope ∈ capturedEach values, link scope scope) :
    List.Forall₂ (Alike link) values values := by
  match values with
  | [] => exact .nil
  | first :: others =>
      simp only [capturedEach, List.mem_append] at linked
      exact .cons (alike_self first fun scope member => linked scope (.inl member))
        (alike_self_each others fun scope member => linked scope (.inr member))

end

theorem inspect_array (elements : List Value) :
    inspect (.array elements) = "[" ++ commaSeparated (inspectEach elements) ++ "]" := rfl

theorem inspectEach_cons (first : Value) (others : List Value) :
    inspectEach (first :: others) = inspect first :: inspectEach others := rfl

/-- The texts of values are made one by one. -/
theorem inspectEach_eq_map (values : List Value) :
    inspectEach values = values.map inspect := by
  induction values with
  | nil => rfl
  | cons first others inductionHypothesis =>
      rw [inspectEach_cons, inductionHypothesis, List.map_cons]

mutual

/-- Alike values have one text. -/
theorem Alike.inspect_eq (first : Value) {second : Value} (alike : Alike link first second) :
    first.inspect = second.inspect := by
  cases alike with
  | array all => rw [inspect_array, inspect_array, Alike.inspectEach_eq _ all]
  | returned alike =>
      have inner := Alike.inspect_eq _ alike
      exact inner
  | _ => rfl

theorem Alike.inspectEach_eq (firsts : List Value) {seconds : List Value}
    (all : List.Forall₂ (Alike link) firsts seconds) :
    inspectEach firsts = inspectEach seconds := by
  cases all with
  | nil => rfl
  | cons alike all =>
      rw [inspectEach_cons, inspectEach_cons, Alike.inspect_eq _ alike, Alike.inspectEach_eq _ all]

end

mutual

/-- Functions are the same when their scopes are, and linked scopes are the same together. -/
theorem Alike.same_eq (ordered : Ordered link) (first : Value) {second other another : Value}
    (alike : Alike link first second) (otherAlike : Alike link other another) :
    first.same other = second.same another := by
  cases alike with
  | array all =>
      cases otherAlike with
      | array others => exact Alike.sameEach_eq ordered _ all others
      | _ => rfl
  | function closure linked =>
      cases otherAlike with
      | function other otherLinked =>
          have scopes := ordered.eq_iff linked otherLinked
          change (closure.label == other.label && closure.scope == other.scope) =
            (closure.label == other.label && _ == _)
          rw [Bool.eq_iff_iff]
          simp only [Bool.and_eq_true, beq_iff_eq, scopes]
      | _ => rfl
  | returned alike =>
      cases otherAlike with
      | returned otherAlike =>
          have inner := Alike.same_eq ordered _ alike otherAlike
          exact inner
      | _ => rfl
  | _ => cases otherAlike <;> rfl

theorem Alike.sameEach_eq (ordered : Ordered link) (firsts : List Value)
    {seconds others anothers : List Value} (all : List.Forall₂ (Alike link) firsts seconds)
    (otherAll : List.Forall₂ (Alike link) others anothers) :
    sameEach firsts others = sameEach seconds anothers := by
  cases all with
  | nil => cases otherAll <;> rfl
  | cons alike all =>
      cases otherAll with
      | nil => rfl
      | cons otherAlike otherAll =>
          have heads := Alike.same_eq ordered _ alike otherAlike
          have tails := Alike.sameEach_eq ordered _ all otherAll
          change (same _ _ && sameEach _ _) = (same _ _ && sameEach _ _)
          rw [heads, tails]

end

mutual

/-- Functions of the host see no difference between alike values. -/
theorem Alike.sight_eq (first : Value) {second : Value} (alike : Alike link first second) :
    first.sight = second.sight := by
  cases alike with
  | array all => exact congrArg Sight.array (Alike.sightEach_eq _ all)
  | returned alike => exact congrArg Sight.returned (Alike.sight_eq _ alike)
  | _ => rfl

theorem Alike.sightEach_eq (firsts : List Value) {seconds : List Value}
    (all : List.Forall₂ (Alike link) firsts seconds) :
    sightEach firsts = sightEach seconds := by
  cases all with
  | nil => rfl
  | cons alike all =>
      exact congrArg₂ List.cons (Alike.sight_eq _ alike) (Alike.sightEach_eq _ all)

end

/-- What alike values have at one place is alike. -/
theorem alike_getElem? {firsts seconds : List Value}
    (all : List.Forall₂ (Alike link) firsts seconds) (place : Nat) :
    Alike link (firsts[place]?.getD .null) (seconds[place]?.getD .null) := by
  induction all generalizing place with
  | nil => exact .null
  | cons alike _ inductionHypothesis =>
      match place with
      | 0 => exact alike
      | place + 1 => simpa using inductionHypothesis place

end Value

namespace Operator

variable {link : Nat → Nat → Prop}

open Bounded (Alike)

/-- Outcomes without any function in them. -/
def Plain (outcome : Except RuntimeError Value) : Prop :=
  ∀ value, outcome = .ok value → value.captured = []

/-- A plain outcome is like itself. -/
theorem Plain.alike {outcome : Except RuntimeError Value} (plain : Plain outcome) :
    Alike (Value.Alike link) outcome outcome := by
  match outcome with
  | .error failure => exact .error failure
  | .ok value =>
      refine .ok (Value.alike_self value fun scope member => ?_)
      rw [plain value rfl] at member
      cases member

/-- A unary operation gives nothing that captures a scope. -/
theorem plain_unary (operator : String) (operand : Value) : Plain (unary operator operand) :=
  unary_yields Value.hereditary_captured operator operand

/-- A binary operation gives nothing that captures a scope. -/
theorem plain_binary (operator : String) (left right : Value) :
    Plain (binary operator left right) :=
  binary_yields Value.hereditary_captured operator left right

/-- Other unary operations are not known. -/
theorem unary_other {operator : String} {operand : Value} (noBang : operator ≠ "!")
    (noInteger : operand.kind ≠ .integer) :
    unary operator operand = .error (.unknownUnary operator operand.kind) := by
  unfold unary
  split
  · exact absurd rfl noBang
  · exact absurd rfl noInteger
  · rfl

/-- A unary operation does not tell alike operands apart. -/
theorem unary_eq (operator : String) {first second : Value}
    (alike : Value.Alike link first second) :
    unary operator first = unary operator second := by
  by_cases bang : operator = "!"
  · subst bang
    change Except.ok (Value.boolean !first.isTruthy) = .ok (.boolean !second.isTruthy)
    rw [alike.isTruthy_eq]
  · by_cases integer : first.kind = .integer
    · rw [alike.eq_of_kind (.inl integer)]
    · rw [unary_other bang integer, unary_other bang (alike.kind_eq ▸ integer), alike.kind_eq]

/-- A comparison does not tell alike operands apart, since linked scopes are equal together. -/
theorem onOthers_eq (ordered : Ordered link) (operator : String)
    {first second other another : Value} (left : Value.Alike link first second)
    (right : Value.Alike link other another) :
    onOthers operator first other = onOthers operator second another := by
  unfold onOthers
  rw [left.same_eq ordered _ right, left.kind_eq, right.kind_eq]

/-- Operands of different kinds do not go together. -/
theorem binary_of_ne {operator : String} {left right : Value} (different : left.kind ≠ right.kind) :
    binary operator left right = .error (.typeMismatch left.kind operator right.kind) :=
  if_pos different

/-- Operands of one kind, neither integers nor texts, are only compared. -/
theorem binary_other {operator : String} {left right : Value} (same : left.kind = right.kind)
    (noInteger : left.kind ≠ .integer) (noText : left.kind ≠ .text) :
    binary operator left right = onOthers operator left right := by
  unfold binary
  rw [if_neg (not_not.mpr same)]
  split
  · exact absurd rfl noInteger
  · exact absurd rfl noText
  · rfl

/-- A binary operation does not tell alike operands apart. -/
theorem binary_eq (ordered : Ordered link) (operator : String)
    {first second other another : Value} (left : Value.Alike link first second)
    (right : Value.Alike link other another) :
    binary operator first other = binary operator second another := by
  have leftKind := left.kind_eq
  have rightKind := right.kind_eq
  by_cases same : first.kind = other.kind
  · by_cases plain : first.kind = .integer ∨ first.kind = .text
    · rw [left.eq_of_kind plain, right.eq_of_kind (same ▸ plain)]
    · obtain ⟨noInteger, noText⟩ := not_or.mp plain
      rw [binary_other same noInteger noText, onOthers_eq ordered operator left right]
      rw [binary_other (leftKind ▸ rightKind ▸ same) (leftKind ▸ noInteger) (leftKind ▸ noText)]
  · rw [binary_of_ne same, binary_of_ne (leftKind ▸ rightKind ▸ same), leftKind, rightKind]

/-- Alike arrays have alike elements at each position. -/
theorem elementAt_alike {firsts seconds : List Value}
    (all : List.Forall₂ (Value.Alike link) firsts seconds) (position : Int64) :
    Value.Alike link (elementAt firsts position) (elementAt seconds position) := by
  unfold elementAt
  split
  · exact .null
  · exact Value.alike_getElem? all _

/-- Looking up an element in alike arrays comes to alike outcomes. -/
theorem index_alike {first second other another : Value}
    (collection : Value.Alike link first second) (position : Value.Alike link other another) :
    Alike (Value.Alike link) (index first other) (index second another) := by
  cases collection with
  | array all =>
      cases position with
      | integer place => exact .ok (elementAt_alike all place)
      | _ => exact .error _
  | _ => exact .error _

end Operator

/-- Every output takes the empty text. -/
theorem Output.write_empty (output : Output) : output.write "" = .ok output := by
  cases output <;> simp [write]

/-- Related outputs take a text together and are related then, or refuse it for one reason. -/
def Output.Parallel (related : Output → Output → Prop) : Prop :=
  ∀ ⦃first second : Output⦄, related first second → ∀ text : String,
    Bounded.Alike related (first.write text) (second.write text)

namespace Builtin

variable {link : Nat → Nat → Prop} {firsts seconds : List Value}

open Bounded (Alike)

/-- Alike lists of arguments have alike single ones. -/
theorem oneArgument_alike (all : List.Forall₂ (Value.Alike link) firsts seconds) :
    Alike (Value.Alike link) (oneArgument firsts) (oneArgument seconds) := by
  have length := all.length_eq
  match all with
  | .nil => exact .error _
  | .cons alike .nil => exact .ok alike
  | .cons _ (.cons _ _) =>
      simp only [oneArgument, length]
      exact .error _

/-- Alike arrays have alike elements. -/
theorem elementsOf_alike (function : String) {first second : Value}
    (alike : Value.Alike link first second) :
    Alike (List.Forall₂ (Value.Alike link)) (elementsOf function first)
      (elementsOf function second) := by
  cases alike with
  | array all => exact .ok all
  | _ => exact .error _

/-- Alike values have one length. -/
theorem lengthOf_alike {first second : Value} (alike : Value.Alike link first second) :
    Alike (Value.Alike link) (lengthOf first) (lengthOf second) := by
  cases alike with
  | text value => exact .ok (.integer _)
  | array all =>
      simp only [lengthOf, all.length_eq]
      exact .ok (.integer _)
  | _ => exact .error _

theorem firstOf_alike (all : List.Forall₂ (Value.Alike link) firsts seconds) :
    Value.Alike link (firstOf firsts) (firstOf seconds) := by
  cases all with
  | nil => exact .null
  | cons alike _ => exact alike

theorem lastOf_alike (all : List.Forall₂ (Value.Alike link) firsts seconds) :
    Value.Alike link (lastOf firsts) (lastOf seconds) := by
  have reversed := firstOf_alike (List.rel_reverse all)
  simpa [firstOf, lastOf] using reversed

theorem restOf_alike (all : List.Forall₂ (Value.Alike link) firsts seconds) :
    Value.Alike link (restOf firsts) (restOf seconds) := by
  cases all with
  | nil => exact .null
  | cons _ others => exact .array others

/-- Pushing alike values onto alike arrays comes to alike outcomes. -/
theorem pushOnto_alike (all : List.Forall₂ (Value.Alike link) firsts seconds) :
    Alike (Value.Alike link) (pushOnto firsts) (pushOnto seconds) := by
  have length := all.length_eq
  match all with
  | .nil => exact .error _
  | .cons _ .nil => exact .error _
  | .cons collection (.cons element .nil) =>
      refine (elementsOf_alike "push" collection).bind fun _ _ elements => ?_
      exact .ok (.array (List.rel_append elements (.cons element .nil)))
  | .cons _ (.cons _ (.cons _ _)) =>
      simp only [pushOnto, length]
      exact .error _

/-- Alike arguments have one text. -/
theorem inspectAll_eq (all : List.Forall₂ (Value.Alike link) firsts seconds) :
    inspectAll firsts = inspectAll seconds := by
  unfold inspectAll
  induction all with
  | nil => rfl
  | cons alike _ inductionHypothesis =>
      rw [List.map_cons, List.map_cons, String.join_cons, String.join_cons, inductionHypothesis,
        alike.inspect_eq]

/-- Writing a text to related outputs has alike outcomes and leaves related outputs. -/
theorem write_alike {related : Output → Output → Prop} (parallel : Output.Parallel related)
    {first second : Output} (outputs : related first second) (text : String) :
    Alike (Value.Alike link) (write text first).1 (write text second).1 ∧
      related (write text first).2 (write text second).2 := by
  have written := parallel outputs text
  unfold write
  generalize first.write text = left at written
  generalize second.write text = right at written
  cases written with
  | ok outputs => exact ⟨.ok .void, outputs⟩
  | error failure => exact ⟨.error _, outputs⟩

/-- Alike values have alike elements at each place. -/
theorem elementOf_alike (position : Nat) {first second : Value}
    (alike : Value.Alike link first second) :
    Value.Alike link (elementOf position first) (elementOf position second) := by
  cases alike with
  | array all => exact Value.alike_getElem? all position
  | _ => exact .null

mutual

/-- The same answer stands for alike values when it is given to alike arguments. -/
theorem answered_alike (all : List.Forall₂ (Value.Alike link) firsts seconds) (reply : Reply) :
    Value.Alike link (answered firsts reply) (answered seconds reply) := by
  match reply with
  | .integer value => exact .integer value
  | .boolean value => exact .boolean value
  | .text value => exact .text value
  | .array elements => exact .array (answeredEach_alike all elements)
  | .argument position => exact elementOf_alike position (.array all)
  | .element whole position => exact elementOf_alike position (answered_alike all whole)
  | .null => exact .null
  | .void => exact .void

theorem answeredEach_alike (all : List.Forall₂ (Value.Alike link) firsts seconds)
    (replies : List Reply) :
    List.Forall₂ (Value.Alike link) (answeredEach firsts replies)
      (answeredEach seconds replies) := by
  match replies with
  | [] => exact .nil
  | reply :: others => exact .cons (answered_alike all reply) (answeredEach_alike all others)

end

/-- A function of the host cannot tell alike arguments apart. -/
theorem applyHost_alike {related : Output → Output → Prop} (parallel : Output.Parallel related)
    {first second : Output} (outputs : related first second) (function : HostFunction)
    (all : List.Forall₂ (Value.Alike link) firsts seconds) :
    Alike (Value.Alike link) (applyHost function firsts first).1
        (applyHost function seconds second).1 ∧
      related (applyHost function firsts first).2 (applyHost function seconds second).2 := by
  have writes : Alike (Value.Alike link) _ _ ∧ _ :=
    write_alike parallel outputs (function.prints (Value.sightEach firsts))
  simp only [applyHost, ← Value.Alike.sightEach_eq firsts all]
  generalize write (function.prints (Value.sightEach firsts)) first = left at writes
  generalize write (function.prints (Value.sightEach firsts)) second = right at writes
  obtain ⟨leftOutcome, leftOutput⟩ := left
  obtain ⟨rightOutcome, rightOutput⟩ := right
  obtain ⟨outcomes, outputs⟩ := writes
  cases outcomes with
  | error cause => exact ⟨.error cause, outputs⟩
  | ok _ =>
      refine ⟨?_, outputs⟩
      cases function.answer (Value.sightEach firsts) with
      | error cause => exact .error cause
      | ok reply => exact .ok (answered_alike all reply)

/-- Built-in functions take alike arguments and related outputs to alike results and related
outputs. -/
theorem apply_alike {related : Output → Output → Prop} (parallel : Output.Parallel related)
    {first second : Output} (outputs : related first second) (function : Builtin)
    (all : List.Forall₂ (Value.Alike link) firsts seconds) :
    Alike (Value.Alike link) (function.apply firsts first).1 (function.apply seconds second).1 ∧
      related (function.apply firsts first).2 (function.apply seconds second).2 := by
  have elements (name : String) := (oneArgument_alike all).bind fun _ _ alike =>
    elementsOf_alike name alike
  cases function with
  | len => exact ⟨(oneArgument_alike all).bind fun _ _ alike => lengthOf_alike alike, outputs⟩
  | print =>
      simp only [apply, inspectAll_eq all]
      exact write_alike parallel outputs _
  | println =>
      simp only [apply, inspectAll_eq all]
      exact write_alike parallel outputs _
  | first => exact ⟨(elements "first").map fun _ _ all => firstOf_alike all, outputs⟩
  | last => exact ⟨(elements "last").map fun _ _ all => lastOf_alike all, outputs⟩
  | pop => exact ⟨(elements "rest").map fun _ _ all => restOf_alike all, outputs⟩
  | push => exact ⟨pushOnto_alike all, outputs⟩
  | host function => exact applyHost_alike parallel outputs function all

end Builtin

end Monkey
