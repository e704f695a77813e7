/-!
The kinds of run-time values, with the two names each of them has: one for messages and one for the
debugging text.
-/

namespace Monkey

inductive Value.Kind where
  | integer
  | text
  | boolean
  | array
  | function
  | builtin
  | returned
  | error
  | null
  | void
  deriving DecidableEq

def Value.Kind.name : Value.Kind → String
  | .integer => "INTEGER"
  | .text => "STRING"
  | .boolean => "BOOLEAN"
  | .array => "ARRAY"
  | .function => "FUNCTION"
  | .builtin => "BUILTIN"
  | .returned => "RETURN_VALUE"
  | .error => "ERROR"
  | .null => "NULL"
  | .void => "VOID"

def Value.Kind.debug : Value.Kind → String
  | .integer => "Integer"
  | .text => "Str"
  | .boolean => "Boolean"
  | .array => "Array"
  | .function => "Function"
  | .builtin => "Builtin"
  | .returned => "ReturnValue"
  | .error => "Error"
  | .null => "Null"
  | .void => "Void"

end Monkey
