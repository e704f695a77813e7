import Monkey.Integer
import Monkey.Text.Quoted
import Monkey.Value.Kind

/-!
Run-time errors: the causes, the message that a program's user sees, and the debugging text.
-/

namespace Monkey

inductive RuntimeError where
  | typeMismatch (left : Value.Kind) (operator : String) (right : Value.Kind)
  | unknownUnary (operator : String) (operand : Value.Kind)
  | unknownBinary (left : Value.Kind) (operator : String) (right : Value.Kind)
  | divisionByZero
  | overflow (left : Int64) (operator : String) (right : Int64)
  | unbound (name : String)
  | notCallable (found : Value.Kind)
  | notIndexable (found : Value.Kind)
  | argumentCount (found wanted : Nat)
  | unsupportedArgument (function : String) (found : Value.Kind)
  | wrongArgument (function : String) (wanted found : Value.Kind)
  | output (reason : String)
  deriving DecidableEq

namespace RuntimeError

/-- The error says that an operator is not known for its operands. -/
def aboutOperator : RuntimeError → Bool
  | unknownUnary _ _ | unknownBinary _ _ _ => true
  | _ => false

/-- What a user of the program is told. -/
def message : RuntimeError → String
  | typeMismatch left operator right =>
      "type mismatch: " ++ left.name ++ " " ++ operator ++ " " ++ right.name
  | unknownUnary operator operand => "unknown operator: " ++ operator ++ operand.name
  | unknownBinary left operator right =>
      "unknown operator: " ++ left.name ++ " " ++ operator ++ " " ++ right.name
  | divisionByZero => "division by zero"
  | overflow left operator right =>
      "integer overflow: " ++ Integer.decimal left ++ " " ++ operator ++ " " ++
        Integer.decimal right
  | unbound name => "identifier not found: " ++ name
  | notCallable found => "not a function: " ++ found.name
  | notIndexable found => "index operator not supported: " ++ found.name
  | argumentCount found wanted =>
      "wrong number of arguments. got=" ++ toString found ++ ", want=" ++ toString wanted
  | unsupportedArgument function found =>
      "argument to `" ++ function ++ "` not supported, got " ++ found.name
  | wrongArgument function wanted found =>
      "argument to `" ++ function ++ "` must be " ++ wanted.name ++ ", got " ++ found.name
  | output reason => "output error: " ++ reason

/-- The name of the cause. -/
def name : RuntimeError → String
  | typeMismatch .. => "TypeMismatch"
  | unknownUnary .. => "UnknownPrefixOperator"
  | unknownBinary .. => "UnknownInfixOperator"
  | divisionByZero => "DivisionByZero"
  | overflow .. => "IntegerOverflow"
  | unbound .. => "IdentifierNotFound"
  | notCallable .. => "NotAFunction"
  | notIndexable .. => "IndexNotSupported"
  | argumentCount .. => "WrongNumberOfArguments"
  | unsupportedArgument .. => "ArgumentNotSupported"
  | wrongArgument .. => "ArgumentMustBe"
  | output .. => "Output"

/-- What is known besides the name: nothing, one unnamed item, or named items in braces. -/
def details : RuntimeError → String
  | typeMismatch left operator right | unknownBinary left operator right =>
      " \x7b left: " ++ left.debug ++ ", operator: " ++ Text.quoted operator ++ ", right: " ++
        right.debug ++ " \x7d"
  | unknownUnary operator operand =>
      " \x7b operator: " ++ Text.quoted operator ++ ", right: " ++ operand.debug ++ " \x7d"
  | divisionByZero => ""
  | overflow left operator right =>
      " \x7b left: " ++ Integer.decimal left ++ ", operator: " ++ Text.quoted operator ++
        ", right: " ++ Integer.decimal right ++ " \x7d"
  | unbound name => "(" ++ Text.quoted name ++ ")"
  | notCallable found | notIndexable found => "(" ++ found.debug ++ ")"
  | argumentCount found wanted =>
      " \x7b got: " ++ toString found ++ ", want: " ++ toString wanted ++ " \x7d"
  | unsupportedArgument function found =>
      " \x7b name: " ++ Text.quoted function ++ ", got: " ++ found.debug ++ " \x7d"
  | wrongArgument function wanted found =>
      " \x7b name: " ++ Text.quoted function ++ ", expected: " ++ wanted.debug ++ ", got: " ++
        found.debug ++ " \x7d"
  | output reason => "(" ++ Text.quoted reason ++ ")"

/-- The text that shows how an error is made. -/
def debug (error : RuntimeError) : String :=
  error.name ++ error.details

end RuntimeError

end Monkey
