import Monkey.Integer
import Monkey.Precedence
import Monkey.Reader
import Monkey.Syntax

/-!
Reading expressions, statements and blocks. An expression is an operand followed by the operators
that bind more strongly than the context does. Every reader starts on the first token of what it
reads and stops on the last one. The readers of the parts take the reader of expressions as an
argument, and `Reading.expression` ties the knot.
-/

namespace Monkey

namespace Reading

variable (expression : Precedence → Reading (Expr Unit))

def statement : Reading (Stmt Unit) := do
  let token ← current
  match token.kind with
  | .letWord =>
      expect .ident
      let name ← current
      expect .assign
      advance
      let value ← expression .lowest
      accept .semicolon
      pure (.bind token ⟨name, name.literal⟩ value)
  | .returnWord =>
      advance
      let value ← expression .lowest
      accept .semicolon
      pure (.give token value)
  | _ =>
      let value ← expression .lowest
      accept .semicolon
      pure (.expression token value)

/-- Statements up to a token of one of the closing kinds. A statement with an error is left out,
and reading goes on behind the token where the error was found. -/
def statements (closing : List Token.Kind) : Nat → Reading (List (Stmt Unit))
  | 0 => Bounded.exhausted
  | bound + 1 => do
      let token ← current
      if token.kind ∈ closing then pure []
      else
        let first ← recorded (statement expression)
        advance
        let others ← statements closing bound
        pure (first.toList ++ others)

/-- A block may be left open at the end of the text. -/
def block (bound : Nat) : Reading (Block Unit) := do
  let token ← current
  advance
  let statements ← statements expression [.rightBrace, .eof] bound
  pure (.mk token statements)

def parameter : Reading Ident := do
  let token ← current
  if token.kind = .ident then pure ⟨token, token.literal⟩
  else Bounded.fail (.badParameter token.kind)

def integer (token : Token) : Reading (Expr Unit) :=
  match Integer.ofLiteral token.literal with
  | some value => pure (.integer token value)
  | none => Bounded.fail (.hugeInteger token.literal)

def unary (token : Token) : Reading (Expr Unit) := do
  advance
  let operand ← expression .unary
  pure (.unary token token.literal operand)

/-- Parentheses leave no trace in the tree. -/
def grouped : Reading (Expr Unit) := do
  advance
  let inner ← expression .lowest
  expect .rightParen
  pure inner

def alternative (bound : Nat) : Reading (Option (Block Unit)) := do
  let next ← following
  if next.kind = .elseWord then
    advance
    expect .leftBrace
    let block ← block expression bound
    pure (some block)
  else pure none

def conditional (token : Token) (bound : Nat) : Reading (Expr Unit) := do
  expect .leftParen
  advance
  let condition ← expression .lowest
  expect .rightParen
  expect .leftBrace
  let consequence ← block expression bound
  let alternative ← alternative expression bound
  pure (.conditional token condition consequence alternative)

def function (token : Token) (bound : Nat) : Reading (Expr Unit) := do
  expect .leftParen
  let parameters ← items parameter .rightParen bound
  expect .leftBrace
  let body ← block expression bound
  pure (.function token () parameters body)

def array (token : Token) (bound : Nat) : Reading (Expr Unit) := do
  let elements ← items (expression .lowest) .rightBracket bound
  pure (.array token elements)

/-- What an expression can start with, by its first token. -/
def operandFrom (token : Token) (bound : Nat) : Reading (Expr Unit) :=
  match token.kind with
  | .ident => pure (.ident ⟨token, token.literal⟩)
  | .int => integer token
  | .string => pure (.text token token.literal)
  | .trueWord => pure (.boolean token true)
  | .falseWord => pure (.boolean token false)
  | .bang | .minus => unary expression token
  | .leftParen => grouped expression
  | .ifWord => conditional expression token bound
  | .fnWord => function expression token bound
  | .leftBracket => array expression token bound
  | found => Bounded.fail (.noOperand found)

def operand (bound : Nat) : Reading (Expr Unit) := do
  let token ← current
  operandFrom expression token bound

/-- The reader stands on the token behind `left` that continues it: a call, an index or an operator
with its right operand. -/
def continuation (left : Expr Unit) (bound : Nat) : Reading (Expr Unit) := do
  let token ← current
  match token.kind with
  | .leftParen =>
      let arguments ← items (expression .lowest) .rightParen bound
      pure (.call token left arguments)
  | .leftBracket =>
      advance
      let position ← expression .lowest
      expect .rightBracket
      pure (.index token left position)
  | kind =>
      advance
      let right ← expression (.ofKind kind)
      pure (.binary token left token.literal right)

/-- Continues `left` as long as the following token binds more strongly than the context. -/
def operators (level : Precedence) : Nat → Expr Unit → Reading (Expr Unit)
  | 0, _ => Bounded.exhausted
  | bound + 1, left => do
      let next ← following
      if level.rank < (Precedence.ofKind next.kind).rank then
        advance
        let longer ← continuation expression left bound
        operators level bound longer
      else pure left

end Reading

/-- An expression in a context of the given strength. The bound limits the nesting as well as the
length of every list of parts. -/
def Reading.expression : Nat → Precedence → Reading (Expr Unit)
  | 0, _ => Bounded.exhausted
  | bound + 1, level => do
      let left ← Reading.operand (Reading.expression bound) bound
      Reading.operators (Reading.expression bound) level (bound + 1) left

end Monkey
