import Mathlib.Logic.Relation
import Monkey.Evaluation

/-!
The parts of an evaluation. The evaluation of a program, a block, an expression or a call comes to
parts of it, one after the other, and each part starts on the machine that the parts before it have
left. `Part` says when a part is come to, and which place it has in the whole.
-/

namespace Monkey

/-- The expression of a statement, whatever is done with its value. -/
def Stmt.value {Mark : Type} : Stmt Mark → Expr Mark
  | .bind _ _ value => value
  | .give _ value => value
  | .expression _ value => value

namespace Evaluation

/-- What there is to evaluate. -/
inductive Task where
  | expression (expr : Expr Nat) (scope : Nat)
  | block (body : Block Nat) (scope : Nat)
  | program (statements : List (Stmt Nat)) (scope : Nat)
  | call (callee : Value) (arguments : List Value)

/-- Only a program can end without a value. -/
def Task.run (builtins : Builtins) (depth : Nat) : Task → Evaluation (Option Value)
  | .expression expr scope => do
      let value ← Evaluation.expression builtins depth expr scope
      pure (some value)
  | .block body scope => do
      let value ← Evaluation.block (Evaluation.expression builtins depth) scope body
      pure (some value)
  | .program statements scope =>
      Evaluation.program (Evaluation.expression builtins depth) scope none statements
  | .call callee arguments => do
      let value ← Evaluation.call (Evaluation.expression builtins depth) callee arguments
      pure (some value)

/-- A task that is about to be done on a machine, within the depth that is left. -/
structure Moment where
  depth : Nat
  task : Task
  machine : Machine

/-- How the task ends, and the machine that it leaves. -/
def Moment.ends (builtins : Builtins) (moment : Moment) :
    Option (Except RuntimeError (Option Value) × Machine) :=
  moment.task.run builtins moment.depth moment.machine

/-- What becomes of the value of a part: operators, conditions, indices and calls use it up as an
operand, and an application is the call itself. -/
inductive Place where
  | operand
  | element
  | argument
  | bound
  | given
  | statement
  | branch
  | body
  | application

/-- The place that the expression of a statement has in it. -/
def Place.ofStmt : Stmt Nat → Place
  | .bind _ _ _ => .bound
  | .give _ _ => .given
  | .expression _ _ => .statement

/-- The evaluation of the whole comes to the part: all that stands before the part has been
evaluated without an error, and no statement before it has returned. -/
inductive Part (builtins : Builtins) : Moment → Place → Moment → Prop
  | operand {depth scope : Nat} {machine : Machine} {token : Token} {operator : String}
      {operand : Expr Nat} :
      Part builtins ⟨depth + 1, .expression (.unary token operator operand) scope, machine⟩
        .operand ⟨depth, .expression operand scope, machine⟩
  | left {depth scope : Nat} {machine : Machine} {token : Token} {operator : String}
      {left right : Expr Nat} :
      Part builtins ⟨depth + 1, .expression (.binary token left operator right) scope, machine⟩
        .operand ⟨depth, .expression left scope, machine⟩
  | right {depth scope : Nat} {machine reached : Machine} {token : Token} {operator : String}
      {left right : Expr Nat} {value : Value}
      (first : Evaluation.expression builtins depth left scope machine =
        some (.ok value, reached)) :
      Part builtins ⟨depth + 1, .expression (.binary token left operator right) scope, machine⟩
        .operand ⟨depth, .expression right scope, reached⟩
  | collection {depth scope : Nat} {machine : Machine} {token : Token}
      {collection position : Expr Nat} :
      Part builtins ⟨depth + 1, .expression (.index token collection position) scope, machine⟩
        .operand ⟨depth, .expression collection scope, machine⟩
  | position {depth scope : Nat} {machine reached : Machine} {token : Token}
      {collection position : Expr Nat} {value : Value}
      (first : Evaluation.expression builtins depth collection scope machine =
        some (.ok value, reached)) :
      Part builtins ⟨depth + 1, .expression (.index token collection position) scope, machine⟩
        .operand ⟨depth, .expression position scope, reached⟩
  | condition {depth scope : Nat} {machine : Machine} {token : Token} {condition : Expr Nat}
      {consequence : Block Nat} {otherwise : Option (Block Nat)} :
      Part builtins
        ⟨depth + 1, .expression (.conditional token condition consequence otherwise) scope, machine⟩
        .operand ⟨depth, .expression condition scope, machine⟩
  | consequence {depth scope : Nat} {machine reached : Machine} {token : Token}
      {condition : Expr Nat} {consequence : Block Nat} {otherwise : Option (Block Nat)}
      {value : Value}
      (first : Evaluation.expression builtins depth condition scope machine =
        some (.ok value, reached)) (truthy : value.isTruthy = true) :
      Part builtins
        ⟨depth + 1, .expression (.conditional token condition consequence otherwise) scope, machine⟩
        .branch ⟨depth, .block consequence scope, reached⟩
  | alternative {depth scope : Nat} {machine reached : Machine} {token : Token}
      {condition : Expr Nat} {consequence alternative : Block Nat} {value : Value}
      (first : Evaluation.expression builtins depth condition scope machine =
        some (.ok value, reached)) (falsy : value.isTruthy = false) :
      Part builtins
        ⟨depth + 1, .expression (.conditional token condition consequence (some alternative)) scope,
          machine⟩
        .branch ⟨depth, .block alternative scope, reached⟩
  | element {depth scope : Nat} {machine reached : Machine} {token : Token} {element : Expr Nat}
      {earlier later : List (Expr Nat)} {values : List Value}
      (before : each (Evaluation.expression builtins depth) scope earlier machine =
        some (.ok values, reached)) :
      Part builtins
        ⟨depth + 1, .expression (.array token (earlier ++ element :: later)) scope, machine⟩
        .element ⟨depth, .expression element scope, reached⟩
  | callee {depth scope : Nat} {machine : Machine} {token : Token} {callee : Expr Nat}
      {arguments : List (Expr Nat)} :
      Part builtins ⟨depth + 1, .expression (.call token callee arguments) scope, machine⟩
        .operand ⟨depth, .expression callee scope, machine⟩
  | argument {depth scope : Nat} {machine reached found : Machine} {token : Token}
      {callee argument : Expr Nat} {earlier later : List (Expr Nat)} {function : Value}
      {values : List Value}
      (first : Evaluation.expression builtins depth callee scope machine =
        some (.ok function, reached))
      (before : each (Evaluation.expression builtins depth) scope earlier reached =
        some (.ok values, found)) :
      Part builtins
        ⟨depth + 1, .expression (.call token callee (earlier ++ argument :: later)) scope, machine⟩
        .argument ⟨depth, .expression argument scope, found⟩
  | application {depth scope : Nat} {machine reached found : Machine} {token : Token}
      {callee : Expr Nat} {arguments : List (Expr Nat)} {function : Value} {values : List Value}
      (first : Evaluation.expression builtins depth callee scope machine =
        some (.ok function, reached))
      (before : each (Evaluation.expression builtins depth) scope arguments reached =
        some (.ok values, found)) :
      Part builtins ⟨depth + 1, .expression (.call token callee arguments) scope, machine⟩
        .application ⟨depth, .call function values, found⟩
  | body {depth : Nat} {machine : Machine} {closure : Closure} {arguments : List Value}
      (enough : closure.parameters.length ≤ arguments.length) :
      Part builtins ⟨depth, .call (.function closure) arguments, machine⟩
        .body ⟨depth, .block closure.body machine.heap.size,
          { machine with heap := (machine.heap.create (callScope closure arguments)).2 }⟩
  | statement {depth scope : Nat} {machine reached : Machine} {token : Token} {stmt : Stmt Nat}
      {earlier later : List (Stmt Nat)} {value : Value}
      (before : statements (Evaluation.expression builtins depth) scope .void earlier machine =
        some (.ok value, reached)) (goesOn : value.kind ≠ .returned) :
      Part builtins ⟨depth, .block (.mk token (earlier ++ stmt :: later)) scope, machine⟩
        (.ofStmt stmt) ⟨depth, .expression stmt.value scope, reached⟩
  | outermost {depth scope : Nat} {machine reached : Machine} {stmt : Stmt Nat}
      {earlier later : List (Stmt Nat)} {value : Value}
      (before : statements (Evaluation.expression builtins depth) scope .void earlier machine =
        some (.ok value, reached)) (goesOn : value.kind ≠ .returned) :
      Part builtins ⟨depth, .program (earlier ++ stmt :: later) scope, machine⟩
        (.ofStmt stmt) ⟨depth, .expression stmt.value scope, reached⟩

/-- The evaluation of the first comes to the second as a part of a part of a part, and so on. -/
def Within (builtins : Builtins) : Moment → Moment → Prop :=
  Relation.ReflTransGen fun whole part => ∃ place, Part builtins whole place part

end Evaluation

end Monkey
