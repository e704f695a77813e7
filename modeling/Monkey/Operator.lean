import Monkey.Value

/-!
Operators on values. Integers have arithmetic and order, texts can be joined, and everything that is
neither can only be compared.
-/

namespace Monkey.Operator

def negate (operand : Int64) : Except RuntimeError Value :=
  match Integer.exact (-operand.toInt) with
  | some value => .ok (.integer value)
  | none => .error (.overflow 0 "-" operand)

def unary (operator : String) (operand : Value) : Except RuntimeError Value :=
  match operator, operand with
  | "!", operand => .ok (.boolean (!operand.isTruthy))
  | "-", .integer value => negate value
  | operator, operand => .error (.unknownUnary operator operand.kind)

/-- The exact result, or an error that names the operation which has none. -/
def arithmetic (left : Int64) (operator : String) (right : Int64) (result : Int) :
    Except RuntimeError Value :=
  match Integer.exact result with
  | some value => .ok (.integer value)
  | none => .error (.overflow left operator right)

/-- Division drops the fraction. -/
def onIntegers (operator : String) (left right : Int64) : Except RuntimeError Value :=
  match operator with
  | "+" => arithmetic left operator right (left.toInt + right.toInt)
  | "-" => arithmetic left operator right (left.toInt - right.toInt)
  | "*" => arithmetic left operator right (left.toInt * right.toInt)
  | "/" =>
      if right = 0 then .error .divisionByZero
      else arithmetic left operator right (left.toInt.tdiv right.toInt)
  | "<" => .ok (.boolean (left < right))
  | ">" => .ok (.boolean (right < left))
  | "==" => .ok (.boolean (left == right))
  | "!=" => .ok (.boolean (left != right))
  | _ => .error (.unknownBinary .integer operator .integer)

def onTexts (operator : String) (left right : String) : Except RuntimeError Value :=
  match operator with
  | "+" => .ok (.text (left ++ right))
  | _ => .error (.unknownBinary .text operator .text)

def onOthers (operator : String) (left right : Value) : Except RuntimeError Value :=
  match operator with
  | "==" => .ok (.boolean (left.same right))
  | "!=" => .ok (.boolean (!left.same right))
  | _ => .error (.unknownBinary left.kind operator right.kind)

/-- Both operands must be of one kind, whatever the operator is. -/
def binary (operator : String) (left right : Value) : Except RuntimeError Value :=
  if left.kind ≠ right.kind then .error (.typeMismatch left.kind operator right.kind)
  else
    match left, right with
    | .integer left, .integer right => onIntegers operator left right
    | .text left, .text right => onTexts operator left right
    | left, right => onOthers operator left right

/-- A position outside the array has the element `null`. -/
def elementAt (elements : List Value) (position : Int64) : Value :=
  if position < 0 then .null else elements[position.toInt.toNat]?.getD .null

def index (collection position : Value) : Except RuntimeError Value :=
  match collection, position with
  | .array elements, .integer position => .ok (elementAt elements position)
  | collection, _ => .error (.notIndexable collection.kind)

end Monkey.Operator
