import Monkey.Token

/-!
Syntax errors: what the reader of a program can object to, and how each objection is worded.
-/

namespace Monkey

inductive SyntaxError where
  /-- No expression starts with a token of this kind. -/
  | noOperand (found : Token.Kind)
  /-- The following token should have been of another kind. -/
  | unexpected (wanted found : Token.Kind)
  /-- A parameter is an identifier. -/
  | badParameter (found : Token.Kind)
  /-- The digits stand for a number above the largest integer. -/
  | hugeInteger (literal : String)
  deriving DecidableEq

def SyntaxError.message : SyntaxError → String
  | .noOperand found => "no prefix parse function for " ++ found.name
  | .unexpected wanted found =>
      "expected next token to be " ++ wanted.name ++ ", got " ++ found.name ++ " instead"
  | .badParameter found =>
      "expected parameter to be " ++ Token.Kind.ident.name ++ ", got " ++ found.name ++ " instead"
  | .hugeInteger literal => "could not parse " ++ literal ++ " as integer"

end Monkey
