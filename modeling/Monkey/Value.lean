import Monkey.HostFunction
import Monkey.Syntax.Render

/-!
Run-time values: their kinds, truth, equality, the texts they have for users and for debugging, and
what a function of the host sees of them.
-/

namespace Monkey

/-- The standard functions, and those that a host has made. -/
inductive Builtin where
  | len
  | print
  | println
  | first
  | last
  | pop
  | push
  | host (function : HostFunction)

/-- A function literal together with the scope it was evaluated in. -/
structure Closure where
  label : Nat
  parameters : List Ident
  body : Block Nat
  scope : Nat

/-- The text of a function shows its parameters and its body. -/
def Closure.text (closure : Closure) : String :=
  "fn(" ++ commaSeparated (closure.parameters.map Ident.name) ++ ") \x7b\n" ++
    closure.body.render ++ "\n\x7d"

inductive Value where
  | integer (value : Int64)
  | boolean (value : Bool)
  | text (value : String)
  | array (elements : List Value)
  | function (closure : Closure)
  | builtin (name : String) (function : Builtin)
  | returned (value : Value)
  | error (cause : RuntimeError)
  | null
  | void

namespace Value

def kind : Value → Kind
  | integer _ => .integer
  | boolean _ => .boolean
  | text _ => .text
  | array _ => .array
  | function _ => .function
  | builtin _ _ => .builtin
  | returned _ => .returned
  | error _ => .error
  | null => .null
  | void => .void

/-- Everything counts as true but `null` and `false`. -/
def isTruthy : Value → Bool
  | null => false
  | boolean value => value
  | _ => true

mutual

/-- Functions are the same when they come from one literal and one scope, built-in functions when
they have one name; all else is compared by content. -/
def same : Value → Value → Bool
  | integer left, integer right => left == right
  | boolean left, boolean right => left == right
  | text left, text right => left == right
  | array left, array right => sameEach left right
  | function left, function right => left.label == right.label && left.scope == right.scope
  | builtin left _, builtin right _ => left == right
  | returned left, returned right => same left right
  | error left, error right => left == right
  | null, null => true
  | void, void => true
  | _, _ => false

def sameEach : List Value → List Value → Bool
  | [], [] => true
  | left :: lefts, right :: rights => same left right && sameEach lefts rights
  | _, _ => false

end

mutual

/-- The text that stands for a value in the output of a program. -/
def inspect : Value → String
  | integer value => Integer.decimal value
  | boolean value => if value then "true" else "false"
  | text value => value
  | array elements => "[" ++ commaSeparated (inspectEach elements) ++ "]"
  | function closure => closure.text
  | builtin name _ => "builtin function: " ++ name
  | returned value => inspect value
  | error cause => "ERROR: " ++ cause.message
  | null => "null"
  | void => ""

def inspectEach : List Value → List String
  | [] => []
  | first :: others => inspect first :: inspectEach others

end

mutual

/-- The text that shows how a value is made. -/
def debug : Value → String
  | integer value => "Integer(" ++ Integer.decimal value ++ ")"
  | boolean value => "Boolean(" ++ (if value then "true" else "false") ++ ")"
  | text value => "Str(" ++ Text.quoted value ++ ")"
  | array elements => "Array([" ++ commaSeparated (debugEach elements) ++ "])"
  | function closure => "Function(" ++ closure.text ++ ")"
  | builtin name _ => "Builtin(" ++ Text.quoted name ++ ")"
  | returned value => "Return(" ++ debug value ++ ")"
  | error cause => "Error(" ++ cause.debug ++ ")"
  | null => "Null"
  | void => "Void"

def debugEach : List Value → List String
  | [] => []
  | first :: others => debug first :: debugEach others

end

mutual

/-- What a function of the host sees of a value: all of it but the scopes of its functions. -/
def sight : Value → Sight
  | integer value => .integer value
  | boolean value => .boolean value
  | text value => .text value
  | array elements => .array (sightEach elements)
  | function closure => .function closure.text
  | builtin name _ => .builtin name
  | returned value => .returned (sight value)
  | error cause => .error cause
  | null => .null
  | void => .void

def sightEach : List Value → List Sight
  | [] => []
  | first :: others => sight first :: sightEach others

end

end Value

end Monkey
