import Monkey.Session

/-!
How results and syntax errors are shown to the user.
-/

namespace Monkey.Console

/-- A result stands on a line of its own; no value and `void` are not shown. -/
def report : Option Value → String
  | none => ""
  | some .void => ""
  | some value => value.inspect ++ "\n"

/-- One indented line for every error. -/
def listErrors (errors : List SyntaxError) : String :=
  String.join (errors.map fun error => "\t" ++ error.message ++ "\n")

/-- The text that some bytes encode. -/
def decode (bytes : List UInt8) : Option String :=
  String.fromUTF8? ⟨bytes.toArray⟩

end Monkey.Console
