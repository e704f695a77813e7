import Monkey.Proofs.Value.Alike

/-!
The standard functions as functions of the host. What a function of the host sees of its arguments
and what it can answer with is enough for every standard function: each is a function of the host
that gives the same results and writes the same texts. So functions of the host are no narrower
than what programs are given without them.
-/

namespace Monkey

namespace Sight

/-- The kind of the value that is seen. -/
def kind : Sight → Value.Kind
  | integer _ => .integer
  | boolean _ => .boolean
  | text _ => .text
  | array _ => .array
  | function _ => .function
  | builtin _ => .builtin
  | returned _ => .returned
  | error _ => .error
  | null => .null
  | void => .void

mutual

/-- The text of the value that is seen. -/
def inspect : Sight → String
  | integer value => Integer.decimal value
  | boolean value => if value then "true" else "false"
  | text value => value
  | array elements => "[" ++ commaSeparated (inspectEach elements) ++ "]"
  | function shown => shown
  | builtin name => "builtin function: " ++ name
  | returned value => inspect value
  | error cause => "ERROR: " ++ cause.message
  | null => "null"
  | void => ""

def inspectEach : List Sight → List String
  | [] => []
  | first :: others => inspect first :: inspectEach others

end

end Sight

namespace Value

/-- As many values are seen as there are. -/
theorem length_sightEach (values : List Value) : (sightEach values).length = values.length := by
  induction values with
  | nil => rfl
  | cons first others inductionHypothesis =>
      rw [sightEach, List.length_cons, List.length_cons, inductionHypothesis]

mutual

/-- The text of a value can be seen. -/
theorem inspect_sight (value : Value) : value.sight.inspect = value.inspect := by
  cases value with
  | array elements =>
      change "[" ++ commaSeparated (Sight.inspectEach (sightEach elements)) ++ "]" = _
      rw [inspectEach_sightEach elements, inspect_array]
  | returned value =>
      have inner := inspect_sight value
      exact inner
  | _ => rfl

theorem inspectEach_sightEach (values : List Value) :
    Sight.inspectEach (sightEach values) = inspectEach values := by
  match values with
  | [] => rfl
  | first :: others =>
      exact congrArg₂ List.cons (inspect_sight first) (inspectEach_sightEach others)

end

end Value

namespace HostFunction

open Bounded

/-- The answer to a single argument. Any other number of arguments is refused. -/
def single (answer : Sight → Except RuntimeError Reply) : List Sight → Except RuntimeError Reply
  | [sight] => answer sight
  | seen => .error (.argumentCount seen.length 1)

/-- The length of a text or of an array that is seen. -/
def lengthSeen : Sight → Except RuntimeError Reply
  | .text value => .ok (.integer (Int64.ofNat value.utf8ByteSize))
  | .array elements => .ok (.integer (Int64.ofNat elements.length))
  | other => .error (.unsupportedArgument "len" other.kind)

/-- How many elements there are in an array that is seen. -/
def countSeen (function : String) : Sight → Except RuntimeError Nat
  | .array elements => .ok elements.length
  | other => .error (.wrongArgument function .array other.kind)

/-- Elements of the first argument: so many of them, from a position on. -/
def slice (position count : Nat) : List Reply :=
  (List.range' position count).map (.element (.argument 0))

/-- The first argument without its first element. -/
def restSeen : Nat → Reply
  | 0 => .null
  | count + 1 => .array (slice 1 count)

/-- The first argument with the second one behind its elements. -/
def pushSeen : List Sight → Except RuntimeError Reply
  | [collection, _] =>
      (fun count => .array (slice 0 count ++ [.argument 1])) <$> countSeen "push" collection
  | seen => .error (.argumentCount seen.length 2)

/-- A complaint about the number of arguments is none about operators. -/
theorem single_raises {answer : Sight → Except RuntimeError Reply}
    (raises : ∀ sight, Raises (fun cause => cause.aboutOperator = false) (answer sight))
    (seen : List Sight) :
    Raises (fun cause => cause.aboutOperator = false) (single answer seen) := by
  unfold single
  split
  · exact raises _
  · exact raises_error rfl

theorem lengthSeen_raises (sight : Sight) :
    Raises (fun cause => cause.aboutOperator = false) (lengthSeen sight) := by
  cases sight with
  | text _ | array _ => exact raises_ok _
  | _ => exact raises_error rfl

theorem countSeen_raises (function : String) (sight : Sight) :
    Raises (fun cause => cause.aboutOperator = false) (countSeen function sight) := by
  cases sight with
  | array _ => exact raises_ok _
  | _ => exact raises_error rfl

theorem pushSeen_raises (seen : List Sight) :
    Raises (fun cause => cause.aboutOperator = false) (pushSeen seen) := by
  unfold pushSeen
  split
  · exact (countSeen_raises _ _).map _
  · exact raises_error rfl

/-- Writes nothing and answers to one array, for which the number of elements decides. -/
def onElements (name : String) (reply : Nat → Reply) : HostFunction where
  prints _ := ""
  answer := single fun sight => reply <$> countSeen name sight
  sparesOperators := single_raises fun sight => (countSeen_raises name sight).map reply

/-- Writes a text and has no other answer. -/
def printing (text : List Sight → String) : HostFunction where
  prints := text
  answer _ := .ok .void
  sparesOperators _ := raises_ok _

/-- The function of the host that does what a built-in function does. -/
def ofBuiltin : Builtin → HostFunction
  | .len => ⟨fun _ => "", single lengthSeen, single_raises lengthSeen_raises⟩
  | .print => printing fun seen => Text.unescape (String.join (Sight.inspectEach seen))
  | .println => printing fun seen => String.join (Sight.inspectEach seen) ++ "\n"
  | .first => onElements "first" fun _ => .element (.argument 0) 0
  | .last => onElements "last" fun count => .element (.argument 0) (count - 1)
  | .pop => onElements "rest" restSeen
  | .push => ⟨fun _ => "", pushSeen, pushSeen_raises⟩
  | .host function => function

end HostFunction

namespace Builtin

open HostFunction

variable {arguments : List Value} {output : Output}

/-- A function that writes nothing leaves the output alone. -/
theorem applyHost_silent {function : HostFunction}
    (silent : function.prints (Value.sightEach arguments) = "") :
    applyHost function arguments output =
      (answered arguments <$> function.answer (Value.sightEach arguments), output) := by
  simp only [applyHost, silent, write, Output.write_empty]

/-- Functions of one argument refuse the same numbers of arguments. -/
theorem answered_single (answer : Sight → Except RuntimeError Reply) (arguments : List Value) :
    answered arguments <$> single answer (Value.sightEach arguments) =
      oneArgument arguments >>= fun value => answered [value] <$> answer value.sight := by
  match arguments with
  | [] => rfl
  | [argument] => rfl
  | one :: another :: others =>
      have length := Value.length_sightEach (one :: another :: others)
      have counts := congrArg (fun count => RuntimeError.argumentCount count 1) length
      exact congrArg Except.error counts

/-- The elements of an array are counted by what is seen of it. -/
theorem countSeen_sight (name : String) (value : Value) :
    countSeen name value.sight = List.length <$> elementsOf name value := by
  cases value with
  | array elements => exact congrArg Except.ok (Value.length_sightEach elements)
  | _ => rfl

/-- The parts of an answer are made one by one. -/
theorem answeredEach_eq_map (arguments : List Value) (replies : List Reply) :
    answeredEach arguments replies = replies.map (answered arguments) := by
  induction replies with
  | nil => rfl
  | cons reply others inductionHypothesis =>
      rw [answeredEach, List.map_cons, inductionHypothesis]

/-- The elements that a slice stands for. -/
theorem answeredEach_slice (elements others : List Value) {position count : Nat}
    (whole : position + count = elements.length) :
    answeredEach (.array elements :: others) (slice position count) = elements.drop position := by
  rw [answeredEach_eq_map, slice, List.map_map]
  apply List.ext_getElem
  · rw [List.length_map, List.length_range', List.length_drop]
    omega
  · intro place left right
    rw [List.length_drop] at right
    have inside : position + place < elements.length := by omega
    simp [answered, elementOf, inside]

/-- A function of an array that answers by the number of the elements. -/
theorem applyHost_onElements (name : String) {reply : Nat → Reply} {result : List Value → Value}
    (answers : ∀ elements : List Value,
      answered [.array elements] (reply elements.length) = result elements) :
    applyHost (onElements name reply) arguments output =
      (result <$> (oneArgument arguments >>= elementsOf name), output) := by
  rw [applyHost_silent rfl]
  congr 1
  change answered arguments <$> single _ _ = _
  rw [answered_single]
  match arguments with
  | [] => rfl
  | [argument] =>
      change answered [argument] <$> reply <$> countSeen name argument.sight =
        result <$> elementsOf name argument
      rw [countSeen_sight]
      cases argument with
      | array elements => exact congrArg Except.ok (answers elements)
      | _ => rfl
  | _ :: _ :: _ => rfl

/-- What is left of an array without its first element. -/
theorem answered_restSeen (elements : List Value) :
    answered [.array elements] (restSeen elements.length) = restOf elements := by
  match elements with
  | [] => rfl
  | foremost :: others =>
      have whole : 1 + others.length = (foremost :: others).length := by simp [Nat.add_comm]
      exact congrArg Value.array (answeredEach_slice _ _ whole)

/-- The last element is the one in front of which all others are. -/
theorem answered_last (elements : List Value) :
    answered [.array elements] (.element (.argument 0) (elements.length - 1)) =
      lastOf elements := by
  change elements[elements.length - 1]?.getD .null = elements.getLast?.getD .null
  rw [List.getLast?_eq_getElem?]

/-- An array and what is pushed onto it. -/
theorem answered_append (elements : List Value) (element : Value) :
    answered [.array elements, element] (.array (slice 0 elements.length ++ [.argument 1])) =
      .array (elements ++ [element]) := by
  change Value.array (answeredEach _ (_ ++ _)) = _
  rw [answeredEach_eq_map, List.map_append, ← answeredEach_eq_map,
    answeredEach_slice _ _ (Nat.zero_add _)]
  rfl

/-- Pushing wants two arguments, and an array as the first. -/
theorem answered_pushSeen (arguments : List Value) :
    answered arguments <$> pushSeen (Value.sightEach arguments) = pushOnto arguments := by
  rcases arguments with _ | ⟨collection, _ | ⟨element, _ | ⟨next, others⟩⟩⟩
  · rfl
  · rfl
  · change answered _ <$> (fun count => Reply.array _) <$> countSeen "push" _ = _
    rw [countSeen_sight]
    cases collection with
    | array elements => exact congrArg Except.ok (answered_append elements element)
    | _ => rfl
  · have length := Value.length_sightEach (collection :: element :: next :: others)
    have counts := congrArg (fun count => RuntimeError.argumentCount count 2) length
    exact congrArg Except.error counts

/-- The texts of the arguments can be put together from what is seen of them. -/
theorem join_sightEach (arguments : List Value) :
    String.join (Sight.inspectEach (Value.sightEach arguments)) = inspectAll arguments := by
  rw [Value.inspectEach_sightEach, Value.inspectEach_eq_map, inspectAll]

/-- A function that only writes answers as the writing does. -/
theorem applyHost_printing (text : List Sight → String) :
    applyHost (printing text) arguments output =
      write (text (Value.sightEach arguments)) output := by
  simp only [applyHost, printing, write]
  cases output.write (text (Value.sightEach arguments)) <;> rfl

/-- Every built-in function is one that a host can make: it gives the same results, writes the same
texts and leaves the same output. -/
theorem apply_eq_applyHost (function : Builtin) (arguments : List Value) (output : Output) :
    function.apply arguments output = applyHost (ofBuiltin function) arguments output := by
  cases function with
  | len =>
      rw [ofBuiltin, applyHost_silent rfl, answered_single]
      refine congrArg (fun answer => (oneArgument arguments >>= answer, output)) (funext ?_)
      intro value
      cases value with
      | array elements => simp [lengthOf, Value.sight, lengthSeen, answered, Value.length_sightEach]
      | _ => rfl
  | print => rw [ofBuiltin, applyHost_printing, join_sightEach, apply]
  | println => rw [ofBuiltin, applyHost_printing, join_sightEach, apply]
  | first =>
      refine (applyHost_onElements "first" fun elements => ?_).symm
      cases elements <;> rfl
  | last => exact (applyHost_onElements "last" answered_last).symm
  | pop => exact (applyHost_onElements "rest" answered_restSeen).symm
  | push =>
      rw [ofBuiltin, applyHost_silent rfl, apply, answered_pushSeen]
  | host function => rfl

end Builtin

end Monkey
