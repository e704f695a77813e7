import Monkey.Proofs.Evaluation.Parts
import Monkey.Proofs.Evaluation.Sequence

/-!
The first error ends everything. Where an evaluation comes to a part that fails, the whole fails
with the error of the part, on the machine that the part has left. So what would have come behind
the part has no influence, and can be exchanged for anything else.
-/

namespace Monkey

/-- What is evaluated first of all, from left to right. Of a conditional that is the condition, and
the choice between its branches comes later. -/
def Expr.operands {Mark : Type} : Expr Mark → List (Expr Mark)
  | .array _ elements => elements
  | .unary _ _ operand => [operand]
  | .binary _ left _ right => [left, right]
  | .index _ collection position => [collection, position]
  | .conditional _ condition _ _ => [condition]
  | .call _ callee arguments => callee :: arguments
  | _ => []

namespace Evaluation

open Bounded

/-- Two evaluations come to their parts on the same way: what stands before the parts is the same in
both, and has been evaluated without an error and without a statement that returns. What stands
behind the parts, and what is done with their values, can be different. -/
inductive SameWay (builtins : Builtins) : Moment → Moment → Moment → Moment → Prop
  | operand {depth scope : Nat} {machine reached : Machine} {expr other operand rival : Expr Nat}
      {earlier later others : List (Expr Nat)} {values : List Value}
      (first : expr.operands = earlier ++ operand :: later)
      (second : other.operands = earlier ++ rival :: others)
      (before : each (Evaluation.expression builtins depth) scope earlier machine =
        some (.ok values, reached)) :
      SameWay builtins ⟨depth + 1, .expression expr scope, machine⟩
        ⟨depth + 1, .expression other scope, machine⟩
        ⟨depth, .expression operand scope, reached⟩ ⟨depth, .expression rival scope, reached⟩
  | consequence {depth scope : Nat} {machine reached : Machine} {token another : Token}
      {condition : Expr Nat} {consequence rival : Block Nat} {otherwise others : Option (Block Nat)}
      {value : Value}
      (before : Evaluation.expression builtins depth condition scope machine =
        some (.ok value, reached)) (truthy : value.isTruthy = true) :
      SameWay builtins
        ⟨depth + 1, .expression (.conditional token condition consequence otherwise) scope, machine⟩
        ⟨depth + 1, .expression (.conditional another condition rival others) scope, machine⟩
        ⟨depth, .block consequence scope, reached⟩ ⟨depth, .block rival scope, reached⟩
  | alternative {depth scope : Nat} {machine reached : Machine} {token another : Token}
      {condition : Expr Nat} {consequence others alternative rival : Block Nat} {value : Value}
      (before : Evaluation.expression builtins depth condition scope machine =
        some (.ok value, reached)) (falsy : value.isTruthy = false) :
      SameWay builtins
        ⟨depth + 1, .expression (.conditional token condition consequence (some alternative)) scope,
          machine⟩
        ⟨depth + 1, .expression (.conditional another condition others (some rival)) scope, machine⟩
        ⟨depth, .block alternative scope, reached⟩ ⟨depth, .block rival scope, reached⟩
  | application {depth scope : Nat} {machine reached found : Machine} {token another : Token}
      {callee : Expr Nat} {arguments : List (Expr Nat)} {function : Value} {values : List Value}
      (first : Evaluation.expression builtins depth callee scope machine =
        some (.ok function, reached))
      (before : each (Evaluation.expression builtins depth) scope arguments reached =
        some (.ok values, found)) :
      SameWay builtins ⟨depth + 1, .expression (.call token callee arguments) scope, machine⟩
        ⟨depth + 1, .expression (.call another callee arguments) scope, machine⟩
        ⟨depth, .call function values, found⟩ ⟨depth, .call function values, found⟩
  | body {depth scope label another : Nat} {machine : Machine} {parameters : List Ident}
      {body rival : Block Nat} {arguments : List Value}
      (enough : parameters.length ≤ arguments.length) :
      SameWay builtins
        ⟨depth, .call (.function ⟨label, parameters, body, scope⟩) arguments, machine⟩
        ⟨depth, .call (.function ⟨another, parameters, rival, scope⟩) arguments, machine⟩
        ⟨depth, .block body machine.heap.size,
          { machine with
            heap := (machine.heap.create
              (callScope ⟨label, parameters, body, scope⟩ arguments)).2 }⟩
        ⟨depth, .block rival machine.heap.size,
          { machine with
            heap := (machine.heap.create
              (callScope ⟨label, parameters, body, scope⟩ arguments)).2 }⟩
  | statement {depth scope : Nat} {machine reached : Machine} {token another : Token}
      {stmt rival : Stmt Nat} {earlier later others : List (Stmt Nat)} {value : Value}
      (before : statements (Evaluation.expression builtins depth) scope .void earlier machine =
        some (.ok value, reached)) (goesOn : value.kind ≠ .returned) :
      SameWay builtins ⟨depth, .block (.mk token (earlier ++ stmt :: later)) scope, machine⟩
        ⟨depth, .block (.mk another (earlier ++ rival :: others)) scope, machine⟩
        ⟨depth, .expression stmt.value scope, reached⟩
        ⟨depth, .expression rival.value scope, reached⟩
  | outermost {depth scope : Nat} {machine reached : Machine} {stmt rival : Stmt Nat}
      {earlier later others : List (Stmt Nat)} {value : Value}
      (before : statements (Evaluation.expression builtins depth) scope .void earlier machine =
        some (.ok value, reached)) (goesOn : value.kind ≠ .returned) :
      SameWay builtins ⟨depth, .program (earlier ++ stmt :: later) scope, machine⟩
        ⟨depth, .program (earlier ++ rival :: others) scope, machine⟩
        ⟨depth, .expression stmt.value scope, reached⟩
        ⟨depth, .expression rival.value scope, reached⟩

/-- Two evaluations come to one part on the same way, through parts of parts of them. -/
inductive SameWayTo (builtins : Builtins) (part : Moment) : Moment → Moment → Prop
  | here : SameWayTo builtins part part part
  | inside {whole other inner rival : Moment} (way : SameWay builtins whole other inner rival)
      (further : SameWayTo builtins part inner rival) : SameWayTo builtins part whole other

section

variable {evaluate : Expr Nat → Nat → Evaluation Value} {scope : Nat}
  {machine reached after : Machine} {error : RuntimeError}

/-- The scope that is created gets the next number. -/
theorem createScope_apply (scope : Scope) (machine : Machine) :
    createScope scope machine =
      some (.ok machine.heap.size, { machine with heap := (machine.heap.create scope).2 }) := rfl

/-- An expression that fails makes the list of expressions fail, whatever is left of it. -/
theorem each_fails {earlier : List (Expr Nat)} {expr : Expr Nat} {values : List Value}
    (before : each evaluate scope earlier machine = some (.ok values, reached))
    (fails : evaluate expr scope reached = some (.error error, after)) (later : List (Expr Nat)) :
    each evaluate scope (earlier ++ expr :: later) machine = some (.error error, after) := by
  induction earlier generalizing machine values with
  | nil =>
      obtain ⟨_, rfl⟩ : [] = values ∧ machine = reached := by simpa [each] using before
      exact bind_of_error fails
  | cons first others inductionHypothesis =>
      simp only [each, bind_eq_ok] at before
      obtain ⟨value, middle, ends, behind, found, rest, same⟩ := before
      obtain ⟨_, rfl⟩ : value :: behind = values ∧ found = reached := by simpa using same
      rw [List.cons_append, each, bind_of_ok ends]
      exact bind_of_error (inductionHypothesis rest)

/-- A list of expressions fails at the first one or behind it. -/
theorem each_cons_fails {first : Expr Nat} {others : List (Expr Nat)} :
    each evaluate scope (first :: others) machine = some (.error error, after) ↔
      evaluate first scope machine = some (.error error, after) ∨
        ∃ value reached, evaluate first scope machine = some (.ok value, reached) ∧
          each evaluate scope others reached = some (.error error, after) := by
  simp [each, bind_eq_error]

/-- Nothing is done before the operands, and nothing after one that fails. -/
theorem node_fails {expr : Expr Nat} (builtins : Builtins)
    (fails : each evaluate scope expr.operands machine = some (.error error, after)) :
    node evaluate builtins scope expr machine = some (.error error, after) := by
  have nothing (state : Machine) : each evaluate scope [] state ≠ some (.error error, after) := by
    simp [each]
  cases expr with
  | ident | integer | text | boolean | function => exact absurd fails (nothing machine)
  | array token elements => exact bind_of_error fails
  | unary token operator operand =>
      rcases each_cons_fails.mp fails with first | ⟨_, reached, _, second⟩
      · exact bind_of_error first
      · exact absurd second (nothing reached)
  | binary token left operator right =>
      rcases each_cons_fails.mp fails with first | ⟨_, _, ends, others⟩
      · exact bind_of_error first
      · rcases each_cons_fails.mp others with second | ⟨_, reached, _, third⟩
        · exact (bind_of_ok ends).trans (bind_of_error second)
        · exact absurd third (nothing reached)
  | index token collection position =>
      rcases each_cons_fails.mp fails with first | ⟨_, _, ends, others⟩
      · exact bind_of_error first
      · rcases each_cons_fails.mp others with second | ⟨_, reached, _, third⟩
        · exact (bind_of_ok ends).trans (bind_of_error second)
        · exact absurd third (nothing reached)
  | conditional token condition consequence otherwise =>
      rcases each_cons_fails.mp fails with first | ⟨_, reached, _, second⟩
      · exact bind_of_error first
      · exact absurd second (nothing reached)
  | call token callee arguments =>
      rcases each_cons_fails.mp fails with first | ⟨_, _, ends, others⟩
      · exact bind_of_error first
      · exact (bind_of_ok ends).trans (bind_of_error others)

/-- A statement fails when its expression does. -/
theorem statement_fails {stmt : Stmt Nat}
    (fails : evaluate stmt.value scope machine = some (.error error, after)) :
    statement evaluate scope stmt machine = some (.error error, after) := by
  cases stmt <;> exact bind_of_error fails

/-- A statement that is come to makes the block fail when its expression does. -/
theorem statements_fails {earlier : List (Stmt Nat)} {stmt : Stmt Nat} {start value : Value}
    (before : statements evaluate scope start earlier machine = some (.ok value, reached))
    (goesOn : value.kind ≠ .returned)
    (fails : evaluate stmt.value scope reached = some (.error error, after))
    (later : List (Stmt Nat)) :
    statements evaluate scope start (earlier ++ stmt :: later) machine =
      some (.error error, after) := by
  rw [statements_append before goesOn]
  exact bind_of_error (statement_fails fails)

/-- A statement that is come to makes the program fail when its expression does. -/
theorem program_fails {earlier : List (Stmt Nat)} {stmt : Stmt Nat} {start value : Value}
    (before : statements evaluate scope start earlier machine = some (.ok value, reached))
    (goesOn : value.kind ≠ .returned)
    (fails : evaluate stmt.value scope reached = some (.error error, after))
    (later : List (Stmt Nat)) (result : Option Value) :
    program evaluate scope result (earlier ++ stmt :: later) machine =
      some (.error error, after) := by
  obtain ⟨_, same⟩ := program_of_statements result before goesOn
  rw [same]
  exact bind_of_error (statement_fails fails)

end

variable {builtins : Builtins} {after : Machine} {error : RuntimeError}

section

variable {depth scope : Nat} {machine : Machine}

/-- A moment of an expression ends as the expression does. -/
theorem ends_expression {expr : Expr Nat} :
    Moment.ends builtins ⟨depth, .expression expr scope, machine⟩ = some (.error error, after) ↔
      expression builtins depth expr scope machine = some (.error error, after) := by
  simp [Moment.ends, Task.run, bind_eq_error]

theorem ends_block {body : Block Nat} :
    Moment.ends builtins ⟨depth, .block body scope, machine⟩ = some (.error error, after) ↔
      block (expression builtins depth) scope body machine = some (.error error, after) := by
  simp [Moment.ends, Task.run, bind_eq_error]

theorem ends_call {callee : Value} {arguments : List Value} :
    Moment.ends builtins ⟨depth, .call callee arguments, machine⟩ = some (.error error, after) ↔
      call (expression builtins depth) callee arguments machine = some (.error error, after) := by
  simp [Moment.ends, Task.run, bind_eq_error]

end

/-- An evaluation fails with its part. -/
theorem SameWay.fails {whole other part rival : Moment}
    (way : SameWay builtins whole other part rival)
    (fails : part.ends builtins = some (.error error, after)) :
    whole.ends builtins = some (.error error, after) := by
  cases way with
  | operand first second before =>
      rw [ends_expression] at fails ⊢
      apply node_fails
      rw [first]
      exact each_fails before fails _
  | consequence before truthy =>
      rw [ends_block] at fails
      rw [ends_expression, expression, node, bind_of_ok before, if_pos truthy]
      exact fails
  | alternative before falsy =>
      rw [ends_block] at fails
      rw [ends_expression, expression, node, bind_of_ok before, if_neg (by simp [falsy])]
      exact fails
  | application first before =>
      rw [ends_call] at fails
      rw [ends_expression, expression, node, bind_of_ok first, bind_of_ok before]
      exact fails
  | body enough =>
      rw [ends_block] at fails
      rw [ends_call, call, if_neg (Nat.not_lt.mpr enough), bind_of_ok (createScope_apply _ _)]
      exact bind_of_error fails
  | statement before goesOn =>
      rw [ends_expression] at fails
      rw [ends_block]
      exact statements_fails before goesOn fails _
  | outermost before goesOn =>
      rw [ends_expression] at fails
      exact program_fails before goesOn fails _ none

/-- Two ways that are the same are so in either order. -/
theorem SameWay.symm {whole other part rival : Moment}
    (way : SameWay builtins whole other part rival) :
    SameWay builtins other whole rival part := by
  cases way with
  | operand first second before => exact .operand second first before
  | consequence before truthy => exact .consequence before truthy
  | alternative before falsy => exact .alternative before falsy
  | application first before => exact .application first before
  | body enough => exact .body enough
  | statement before goesOn => exact .statement before goesOn
  | outermost before goesOn => exact .outermost before goesOn

/-- A list of one expression ends as the expression does. -/
theorem each_singleton {evaluate : Expr Nat → Nat → Evaluation Value} {scope : Nat}
    {expr : Expr Nat} {value : Value} {machine reached : Machine}
    (ends : evaluate expr scope machine = some (.ok value, reached)) :
    each evaluate scope [expr] machine = some (.ok [value], reached) := by
  rw [each, bind_of_ok ends]
  rfl

/-- Every evaluation is on the same way as itself. -/
theorem Part.sameWay {whole part : Moment} {place : Place}
    (isPart : Part builtins whole place part) : SameWay builtins whole whole part part := by
  -- `operands` says which operands stand before the part
  have operand {depth scope : Nat} {machine reached : Machine} {expr part : Expr Nat}
      {values : List Value} (earlier later : List (Expr Nat))
      (operands : expr.operands = earlier ++ part :: later)
      (before : each (expression builtins depth) scope earlier machine =
        some (.ok values, reached)) :
      SameWay builtins ⟨depth + 1, .expression expr scope, machine⟩
        ⟨depth + 1, .expression expr scope, machine⟩ ⟨depth, .expression part scope, reached⟩
        ⟨depth, .expression part scope, reached⟩ :=
    .operand operands operands before
  cases isPart with
  | operand => exact operand [] [] rfl rfl
  | left => exact operand [] [_] rfl rfl
  | right first => exact operand [_] [] rfl (each_singleton first)
  | collection => exact operand [] [_] rfl rfl
  | position first => exact operand [_] [] rfl (each_singleton first)
  | condition => exact operand [] [] rfl rfl
  | consequence first truthy => exact .consequence first truthy
  | alternative first falsy => exact .alternative first falsy
  | element before => exact operand _ _ rfl before
  | callee => exact operand [] _ rfl rfl
  | argument first before =>
      apply operand (_ :: _) _ rfl
      rw [each, bind_of_ok first, bind_of_ok before]
      rfl
  | application first before => exact .application first before
  | body enough => exact .body enough
  | statement before goesOn => exact .statement before goesOn
  | outermost before goesOn => exact .outermost before goesOn

/-- A failure anywhere within a moment is the failure of the whole. -/
theorem Within.fails {whole part : Moment} (isWithin : Within builtins whole part)
    (fails : part.ends builtins = some (.error error, after)) :
    whole.ends builtins = some (.error error, after) := by
  induction isWithin using Relation.ReflTransGen.head_induction_on with
  | refl => exact fails
  | head isPart _ inductionHypothesis =>
      obtain ⟨_, isPart⟩ := isPart
      exact isPart.sameWay.fails inductionHypothesis

/-- A failure is that of every whole with the same way to it. -/
theorem SameWayTo.fails {whole other part : Moment} (way : SameWayTo builtins part whole other)
    (fails : part.ends builtins = some (.error error, after)) :
    other.ends builtins = some (.error error, after) := by
  induction way with
  | here => exact fails
  | inside way _ inductionHypothesis => exact way.symm.fails inductionHypothesis

/-- The first error wins: an evaluation that comes to a part which fails ends with the error of the
part and on the machine that the part has left, and so does every other evaluation that has come to
the part on the same way, whatever stands behind the part. -/
theorem first_error_wins {whole part : Moment} (isWithin : Within builtins whole part)
    (fails : part.ends builtins = some (.error error, after)) :
    whole.ends builtins = some (.error error, after) ∧
      ∀ other, SameWayTo builtins part whole other →
        other.ends builtins = some (.error error, after) :=
  ⟨isWithin.fails fails, fun _ way => way.fails fails⟩

/-- The program `let a = [print("x"), missing + 1, print("y")];` fails at `missing`, with `x`
written and `y` not, and so does `let a = [print("x"), missing + true]; print("z");`. -/
theorem first_error_wins_nested :
    ∃ (whole other part : Moment) (after : Machine),
      Within .standard whole part ∧ SameWayTo .standard part whole other ∧
      part.ends .standard = some (.error (.unbound "missing"), after) ∧
      after.output = .buffer "x" ∧
      whole.ends .standard = some (.error (.unbound "missing"), after) ∧
      other.ends .standard = some (.error (.unbound "missing"), after) := by
  let name (text : String) : Expr Nat := .ident ⟨⟨.ident, text⟩, text⟩
  let print (text : String) : Expr Nat :=
    .call ⟨.leftParen, "("⟩ (name "print") [.text ⟨.string, text⟩ text]
  let sum (right : Expr Nat) : Expr Nat := .binary ⟨.plus, "+"⟩ (name "missing") "+" right
  let binding (elements : List (Expr Nat)) : Stmt Nat :=
    .bind ⟨.letWord, "let"⟩ ⟨⟨.ident, "a"⟩, "a"⟩ (.array ⟨.leftBracket, "["⟩ elements)
  let one : Expr Nat := .integer ⟨.int, "1"⟩ 1
  let truth : Expr Nat := .boolean ⟨.trueWord, "true"⟩ true
  let machine (text : String) : Machine := ⟨⟨#[⟨[], none⟩]⟩, .buffer text⟩
  let whole : Moment := ⟨3, .program [binding [print "x", sum one, print "y"]] 0, machine ""⟩
  let other : Moment :=
    ⟨3, .program [binding [print "x", sum truth], .expression ⟨.ident, "print"⟩ (print "z")] 0,
      machine ""⟩
  let part : Moment := ⟨1, .expression (name "missing") 0, machine "x"⟩
  have printed : each (expression .standard 2) 0 [print "x"] (machine "") =
      some (.ok [.void], machine "x") := by
    with_unfolding_all rfl
  have nothing : statements (expression .standard 3) 0 .void [] (machine "") =
      some (.ok .void, machine "") := rfl
  have isWithin : Within .standard whole part := by
    have statement := @Part.outermost .standard 3 0 _ _
      (binding [print "x", sum one, print "y"]) [] [] _ nothing (by decide)
    have element := @Part.element .standard 2 0 _ _ ⟨.leftBracket, "["⟩ (sum one) _ [print "y"] _
      printed
    exact .head ⟨_, statement⟩ (.head ⟨_, element⟩ (.single ⟨_, .left⟩))
  have way : SameWayTo .standard part whole other := by
    have statement := @SameWay.outermost .standard 3 0 _ _
      (binding [print "x", sum one, print "y"]) (binding [print "x", sum truth]) [] []
      [.expression ⟨.ident, "print"⟩ (print "z")] _ nothing (by decide)
    have element := @SameWay.operand .standard 2 0 _ _
      (.array ⟨.leftBracket, "["⟩ [print "x", sum one, print "y"])
      (.array ⟨.leftBracket, "["⟩ [print "x", sum truth]) (sum one) (sum truth) _ [print "y"] [] _
      rfl rfl printed
    have operand := @SameWay.operand .standard 1 0 (machine "x") _ (sum one) (sum truth)
      (name "missing") (name "missing") [] [one] [truth] _ rfl rfl rfl
    exact .inside statement (.inside element (.inside operand .here))
  have fails : part.ends .standard = some (.error (.unbound "missing"), machine "x") := by
    with_unfolding_all rfl
  obtain ⟨wholeFails, otherFails⟩ := first_error_wins isWithin fails
  exact ⟨whole, other, part, machine "x", isWithin, way, fails, rfl, wholeFails,
    otherFails other way⟩

end Evaluation

end Monkey
