/-!
The integers of the language are the 64-bit ones. Arithmetic is that of the unbounded integers as
long as the result has 64 bits.
-/

namespace Monkey.Integer

/-- The value as a 64-bit integer, if it is one. -/
def exact (value : Int) : Option Int64 :=
  if Int64.minValue.toInt ≤ value ∧ value ≤ Int64.maxValue.toInt then some (Int64.ofInt value)
  else none

theorem toInt_of_exact {value : Int} {integer : Int64} (fits : exact value = some integer) :
    integer.toInt = value := by
  unfold exact at fits
  split at fits
  · next inRange =>
      cases fits
      have lower : Int64.minValue.toInt = -2 ^ 63 := by decide
      have upper : Int64.maxValue.toInt = 2 ^ 63 - 1 := by decide
      exact Int64.toInt_ofInt_of_le (by omega) (by omega)
  · cases fits

/-- Decimal digits, with a minus sign in front of those of a negative integer. -/
def decimal (value : Int64) : String :=
  toString value.toInt

/-- The integer that some decimal digits stand for, unless it is too large. -/
def ofLiteral (literal : String) : Option Int64 :=
  exact (Nat.ofDigitChars 10 literal.toList 0)

end Monkey.Integer
