import Monkey.Bounded
import Monkey.Builtin
import Monkey.Operator
import Monkey.Scope

/-!
Evaluation of programs. The parts of an expression are evaluated from left to right, and the first
error ends everything. A `return` travels outward as a wrapped value; a call and a program take off
one layer of wrapping. The evaluators of the parts take the evaluator of expressions as an argument,
and `Evaluation.expression` ties the knot under a bound on the depth of nesting and calls.
-/

namespace Monkey

/-- What evaluation changes. -/
structure Machine where
  heap : Heap
  output : Output

abbrev Evaluation := Bounded Machine RuntimeError

namespace Evaluation

def bindName (scope : Nat) (name : String) (value : Value) : Evaluation Unit :=
  Bounded.change fun machine => { machine with heap := machine.heap.bind scope name value }

def createScope (scope : Scope) : Evaluation Nat :=
  Bounded.step fun machine =>
    let (number, heap) := machine.heap.create scope
    (.ok number, { machine with heap := heap })

def applyBuiltin (function : Builtin) (arguments : List Value) : Evaluation Value :=
  Bounded.step fun machine =>
    let (outcome, output) := function.apply arguments machine.output
    (outcome, { machine with output := output })

/-- A name is looked up in the scopes first and among the built-in functions then. -/
def ident (builtins : Builtins) (scope : Nat) (name : String) : Evaluation Value := do
  match ← Bounded.inspect (·.heap.lookup scope name) with
  | some value => pure value
  | none =>
      match builtins.lookup name with
      | some value => pure value
      | none => Bounded.fail (.unbound name)

section

variable (evaluate : Expr Nat → Nat → Evaluation Value)

def each (scope : Nat) : List (Expr Nat) → Evaluation (List Value)
  | [] => pure []
  | first :: others => do
      let value ← evaluate first scope
      let values ← each scope others
      pure (value :: values)

/-- A binding has no value. -/
def statement (scope : Nat) : Stmt Nat → Evaluation (Option Value)
  | .bind _ name value => do
      let value ← evaluate value scope
      bindName scope name.name value
      pure none
  | .give _ value => do
      let value ← evaluate value scope
      pure (some (.returned value))
  | .expression _ value => do
      let value ← evaluate value scope
      pure (some value)

/-- The value of the last statement, or of the first one that returns, still wrapped. -/
def statements (scope : Nat) (result : Value) : List (Stmt Nat) → Evaluation Value
  | [] => pure result
  | first :: others => do
      match ← statement evaluate scope first with
      | some (.returned value) => pure (.returned value)
      | some value => statements scope value others
      | none => statements scope .void others

/-- A block without statements is `void`. -/
def block (scope : Nat) (block : Block Nat) : Evaluation Value :=
  statements evaluate scope .void block.statements

/-- The value of the last statement, or of the first one that returns, without its wrapping. -/
def program (scope : Nat) (result : Option Value) : List (Stmt Nat) → Evaluation (Option Value)
  | [] => pure result
  | first :: others => do
      match ← statement evaluate scope first with
      | some (.returned value) => pure (some value)
      | result => program scope result others

/-- Takes off one layer of wrapping. -/
def unwrap : Value → Value
  | .returned value => value
  | value => value

/-- The scope of a call lies in the scope of the function. Arguments beyond the parameters are
dropped, and of two parameters with one name the later one counts. -/
def callScope (closure : Closure) (arguments : List Value) : Scope :=
  { bindings := ((closure.parameters.map Ident.name).zip arguments).reverse
    outer := some closure.scope }

def call (callee : Value) (arguments : List Value) : Evaluation Value :=
  match callee with
  | .function closure =>
      if arguments.length < closure.parameters.length then
        Bounded.fail (.argumentCount arguments.length closure.parameters.length)
      else do
        let scope ← createScope (callScope closure arguments)
        let value ← block evaluate scope closure.body
        pure (unwrap value)
  | .builtin _ function => applyBuiltin function arguments
  | other => Bounded.fail (.notCallable other.kind)

def alternative (scope : Nat) : Option (Block Nat) → Evaluation Value
  | none => pure .null
  | some other => block evaluate scope other

/-- One expression, whose parts are given to `evaluate`. -/
def node (builtins : Builtins) (scope : Nat) : Expr Nat → Evaluation Value
  | .ident name => ident builtins scope name.name
  | .integer _ value => pure (.integer value)
  | .text _ value => pure (.text value)
  | .boolean _ value => pure (.boolean value)
  | .array _ elements => do
      let values ← each evaluate scope elements
      pure (.array values)
  | .unary _ operator operand => do
      let value ← evaluate operand scope
      Bounded.settle (Operator.unary operator value)
  | .binary _ left operator right => do
      let left ← evaluate left scope
      let right ← evaluate right scope
      Bounded.settle (Operator.binary operator left right)
  | .index _ collection position => do
      let collection ← evaluate collection scope
      let position ← evaluate position scope
      Bounded.settle (Operator.index collection position)
  | .conditional _ condition consequence otherwise => do
      let condition ← evaluate condition scope
      if condition.isTruthy then block evaluate scope consequence
      else alternative evaluate scope otherwise
  | .function _ label parameters body => pure (.function ⟨label, parameters, body, scope⟩)
  | .call _ callee arguments => do
      let callee ← evaluate callee scope
      let arguments ← each evaluate scope arguments
      call evaluate callee arguments

end

/-- The value of an expression in a scope. The depth counts nested expressions, those in the bodies
of called functions included. -/
def expression (builtins : Builtins) : Nat → Expr Nat → Nat → Evaluation Value
  | 0, _, _ => Bounded.exhausted
  | depth + 1, expr, scope => node (expression builtins depth) builtins scope expr

end Evaluation

end Monkey
