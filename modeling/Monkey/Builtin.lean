import Monkey.Output
import Monkey.Text.Control
import Monkey.Value

/-!
The built-in functions, those of a host among them, and tables that give them names.
-/

namespace Monkey

namespace Builtin

/-- Refuses any other number of arguments. -/
def oneArgument : List Value → Except RuntimeError Value
  | [argument] => .ok argument
  | arguments => .error (.argumentCount arguments.length 1)

def elementsOf (function : String) : Value → Except RuntimeError (List Value)
  | .array elements => .ok elements
  | other => .error (.wrongArgument function .array other.kind)

/-- The length of a text is counted in bytes. -/
def lengthOf : Value → Except RuntimeError Value
  | .text value => .ok (.integer (Int64.ofNat value.utf8ByteSize))
  | .array elements => .ok (.integer (Int64.ofNat elements.length))
  | other => .error (.unsupportedArgument "len" other.kind)

def firstOf (elements : List Value) : Value :=
  elements.head?.getD .null

def lastOf (elements : List Value) : Value :=
  elements.getLast?.getD .null

/-- All elements but the first. -/
def restOf : List Value → Value
  | [] => .null
  | _ :: others => .array others

def pushOnto : List Value → Except RuntimeError Value
  | [collection, element] => do
      let elements ← elementsOf "push" collection
      pure (.array (elements ++ [element]))
  | arguments => .error (.argumentCount arguments.length 2)

/-- The texts of the arguments with nothing between them. -/
def inspectAll (arguments : List Value) : String :=
  String.join (arguments.map Value.inspect)

/-- A text that cannot be written is an error, and then the output stays as it was. -/
def write (text : String) (output : Output) : Except RuntimeError Value × Output :=
  match output.write text with
  | .ok written => (.ok .void, written)
  | .error error => (.error (.output error.message), output)

/-- The element at a position, or `null` where there is none. -/
def elementOf (position : Nat) : Value → Value
  | .array elements => elements[position]?.getD .null
  | _ => .null

mutual

/-- The value that a function of the host answers with, given its arguments. -/
def answered (arguments : List Value) : Reply → Value
  | .integer value => .integer value
  | .boolean value => .boolean value
  | .text value => .text value
  | .array elements => .array (answeredEach arguments elements)
  | .argument position => elementOf position (.array arguments)
  | .element whole position => elementOf position (answered arguments whole)
  | .null => .null
  | .void => .void

def answeredEach (arguments : List Value) : List Reply → List Value
  | [] => []
  | reply :: others => answered arguments reply :: answeredEach arguments others

end

/-- A function of the host answers when its text is written. -/
def applyHost (function : HostFunction) (arguments : List Value) (output : Output) :
    Except RuntimeError Value × Output :=
  let seen := Value.sightEach arguments
  match write (function.prints seen) output with
  | (.ok _, written) => (answered arguments <$> function.answer seen, written)
  | (.error cause, written) => (.error cause, written)

/-- Applies a function to its arguments. Of the standard functions only `print` and `println` touch
the output. -/
def apply (function : Builtin) (arguments : List Value) (output : Output) :
    Except RuntimeError Value × Output :=
  match function with
  | len => (oneArgument arguments >>= lengthOf, output)
  | print => write (Text.unescape (inspectAll arguments)) output
  | println => write (inspectAll arguments ++ "\n") output
  | first => (firstOf <$> (oneArgument arguments >>= elementsOf "first"), output)
  | last => (lastOf <$> (oneArgument arguments >>= elementsOf "last"), output)
  | pop => (restOf <$> (oneArgument arguments >>= elementsOf "rest"), output)
  | push => (pushOnto arguments, output)
  | host function => applyHost function arguments output

end Builtin

/-- Names of built-in functions, those of a host among them, the latest registration first. -/
structure Builtins where
  entries : List (String × Builtin)

namespace Builtins

def empty : Builtins := ⟨[]⟩

/-- A name stands for the function that was registered last. -/
def register (builtins : Builtins) (name : String) (function : Builtin) : Builtins :=
  ⟨(name, function) :: builtins.entries⟩

def standard : Builtins :=
  ⟨[("len", .len), ("print", .print), ("println", .println), ("first", .first), ("last", .last),
    ("pop", .pop), ("push", .push)]⟩

def lookup (builtins : Builtins) (name : String) : Option Value :=
  (builtins.entries.lookup name).map (Value.builtin name)

end Builtins

end Monkey
