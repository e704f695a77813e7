import Monkey.Token

/-!
Binding strength of operators, from the weakest to the strongest.
-/

namespace Monkey

inductive Precedence where
  | lowest
  | equality
  | comparison
  | sum
  | product
  | unary
  | call
  deriving DecidableEq

def Precedence.rank : Precedence → Nat
  | .lowest => 1
  | .equality => 2
  | .comparison => 3
  | .sum => 4
  | .product => 5
  | .unary => 6
  | .call => 7

/-- How strongly a token between two operands binds; a token that continues no expression binds
least of all. -/
def Precedence.ofKind : Token.Kind → Precedence
  | .equal | .notEqual => .equality
  | .less | .greater => .comparison
  | .plus | .minus => .sum
  | .asterisk | .slash => .product
  | .leftParen | .leftBracket => .call
  | _ => .lowest

end Monkey
