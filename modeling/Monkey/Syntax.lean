import Monkey.Token

/-!
Abstract syntax. Every node keeps the token it was read from, and every function literal carries a
mark, so that two literals with the same text can be told apart.
-/

namespace Monkey

/-- A name where it is written. -/
structure Ident where
  token : Token
  name : String
  deriving DecidableEq

mutual

/-- Expressions whose function literals carry marks of the type `Mark`. -/
inductive Expr (Mark : Type) where
  | ident (ident : Ident)
  | integer (token : Token) (value : Int64)
  | text (token : Token) (value : String)
  | boolean (token : Token) (value : Bool)
  | array (token : Token) (elements : List (Expr Mark))
  | unary (token : Token) (operator : String) (operand : Expr Mark)
  | binary (token : Token) (left : Expr Mark) (operator : String) (right : Expr Mark)
  | index (token : Token) (collection : Expr Mark) (position : Expr Mark)
  | conditional (token : Token) (condition : Expr Mark) (consequence : Block Mark)
      (alternative : Option (Block Mark))
  | function (token : Token) (mark : Mark) (parameters : List Ident) (body : Block Mark)
  | call (token : Token) (callee : Expr Mark) (arguments : List (Expr Mark))

/-- A statement binds a name, returns a value, or is an expression. -/
inductive Stmt (Mark : Type) where
  | bind (token : Token) (name : Ident) (value : Expr Mark)
  | give (token : Token) (value : Expr Mark)
  | expression (token : Token) (value : Expr Mark)

/-- The statements between braces. -/
inductive Block (Mark : Type) where
  | mk (token : Token) (statements : List (Stmt Mark))

end

variable {Mark : Type}

def Block.token : Block Mark → Token
  | .mk token _ => token

def Block.statements : Block Mark → List (Stmt Mark)
  | .mk _ statements => statements

/-- The statements of a whole text. -/
structure Program (Mark : Type) where
  statements : List (Stmt Mark)

end Monkey
