import Monkey.Proofs.Evaluation.Deepening
import Monkey.Proofs.Scope.Grounded
import Monkey.Proofs.Syntax.Labels

/-!
Evaluation without functions ends. Only a call of a function leads to code that is not below the
expression that is evaluated. Where neither the program nor the heap has a function, none can come
up: operators and built-in functions give back nothing but parts of what they are given. So the
depth that evaluation needs is the depth to which expressions are nested in the program, and no
scope is created.
-/

namespace Monkey

section

variable {Mark : Type}

mutual

/-- How deep expressions are nested, those in blocks included. -/
def Expr.nesting : Expr Mark → Nat
  | .ident _ | .integer _ _ | .text _ _ | .boolean _ _ => 1
  | .array _ elements => Expr.nestingEach elements + 1
  | .unary _ _ operand => operand.nesting + 1
  | .binary _ left _ right => max left.nesting right.nesting + 1
  | .index _ collection position => max collection.nesting position.nesting + 1
  | .conditional _ condition consequence alternative =>
      max condition.nesting (max consequence.nesting (Block.nestingElse alternative)) + 1
  | .function _ _ _ body => body.nesting + 1
  | .call _ callee arguments => max callee.nesting (Expr.nestingEach arguments) + 1

def Expr.nestingEach : List (Expr Mark) → Nat
  | [] => 0
  | first :: others => max first.nesting (Expr.nestingEach others)

def Stmt.nesting : Stmt Mark → Nat
  | .bind _ _ value => value.nesting
  | .give _ value => value.nesting
  | .expression _ value => value.nesting

def Stmt.nestingAll : List (Stmt Mark) → Nat
  | [] => 0
  | first :: others => max first.nesting (Stmt.nestingAll others)

def Block.nesting : Block Mark → Nat
  | .mk _ statements => Stmt.nestingAll statements

def Block.nestingElse : Option (Block Mark) → Nat
  | none => 0
  | some block => block.nesting

end

/-- How deep the expressions of a program are nested. -/
def Program.nesting (program : Program Mark) : Nat :=
  Stmt.nestingAll program.statements

/-- An expression is nested at least once. -/
theorem Expr.nesting_pos (expr : Expr Mark) : 0 < expr.nesting := by
  cases expr <;> simp [nesting]

end

/-- The node is no function literal. -/
def Node.FunctionFree (node : Node Nat) : Prop :=
  node.label? = none

/-- A program without function literals. -/
def Program.FunctionFree (program : Program Nat) : Prop :=
  ∀ node ∈ program.nodes, node.FunctionFree

/-- There is no function in the value, at any depth. -/
def Value.FunctionFree (value : Value) : Prop :=
  value.closures = []

/-- An array holds no function when none of its elements does. -/
theorem Value.hereditary_functionFree : Hereditary FunctionFree := by
  have same : FunctionFree = fun value => ∀ closure ∈ value.closures, False := by
    funext value
    exact propext List.eq_nil_iff_forall_not_mem
  rw [same]
  exact hereditary_closures _

/-- So many scopes, and no function bound in any of them. -/
structure Machine.FunctionFree (size : Nat) (machine : Machine) : Prop where
  size : machine.heap.size = size
  values : machine.All Value.FunctionFree

namespace Evaluation

open Bounded

variable {size : Nat}

/-- The computation ends without a new scope, and gives results with the property. -/
abbrev Halts {Result : Type} (size : Nat) (results : Result → Prop)
    (computation : Evaluation Result) : Prop :=
  Finishes (Machine.FunctionFree size) results computation

theorem halts_pure {Result : Type} {results : Result → Prop} {result : Result}
    (holds : results result) : Halts size results (pure result) :=
  (keeps_pure holds).finishes fun _ => rfl

theorem halts_fail {Result : Type} {results : Result → Prop} (cause : RuntimeError) :
    Halts size results (fail cause : Evaluation Result) :=
  (keeps_fail cause).finishes fun _ => rfl

theorem halts_settle {outcome : Except RuntimeError Value}
    (yields : Yields Value.FunctionFree outcome) :
    Halts size Value.FunctionFree (settle outcome) :=
  (keeps_settle yields).finishes fun _ => rfl

/-- Binding a name halts and creates no scope. -/
theorem halts_bindName (scope : Nat) (name : String) {value : Value}
    (free : value.FunctionFree) : Halts size (fun _ => True) (bindName scope name value) := by
  apply Keeps.finishes _ fun _ => rfl
  change Keeps _ _ (Bounded.step _)
  apply keeps_step
  intro machine start
  have sameSize := (machine.heap.size_bind scope name value).trans start.size
  exact ⟨⟨sameSize, start.values.bind scope name free⟩, yields_ok trivial⟩

/-- Built-in functions halt, and what they give back holds no function. -/
theorem halts_applyBuiltin (function : Builtin) {arguments : List Value}
    (each : ∀ argument ∈ arguments, argument.FunctionFree) :
    Halts size Value.FunctionFree (applyBuiltin function arguments) := by
  apply Keeps.finishes _ fun _ => rfl
  apply keeps_step
  intro machine start
  have yields := Builtin.apply_yields Value.hereditary_functionFree function each machine.output
  exact ⟨⟨start.size, start.values⟩, yields⟩

/-- Looking up a name halts. -/
theorem halts_ident (builtins : Builtins) (scope : Nat) (name : String) :
    Halts size Value.FunctionFree (ident builtins scope name) := by
  have inScopes : Halts size (fun found => ∀ value ∈ found, value.FunctionFree)
      (inspect fun machine => machine.heap.lookup scope name : Evaluation (Option Value)) := by
    apply Keeps.finishes _ fun _ => rfl
    exact keeps_inspect fun machine start value found => start.values.lookup found
  apply inScopes.bind
  intro found each
  match found with
  | some value => exact halts_pure (each value rfl)
  | none =>
      cases known : builtins.lookup name with
      | none => exact halts_fail _
      | some value =>
          obtain ⟨_, rfl⟩ := Builtins.exists_of_lookup known
          exact halts_pure rfl

section

variable {evaluate : Expr Nat → Nat → Evaluation Value} {depth : Nat}
  (halts : ∀ ⦃expr : Expr Nat⦄ (scope : Nat), expr.Every Node.FunctionFree →
    expr.nesting ≤ depth → Halts size Value.FunctionFree (evaluate expr scope))

include halts

/-- Expressions one after the other halt within the depth of the deepest one. -/
theorem halts_each (scope : Nat) {exprs : List (Expr Nat)}
    (every : ∀ expr ∈ exprs, expr.Every Node.FunctionFree)
    (enough : Expr.nestingEach exprs ≤ depth) :
    Halts size (fun values => ∀ value ∈ values, value.FunctionFree)
      (each evaluate scope exprs) := by
  induction exprs with
  | nil => exact halts_pure (by simp)
  | cons first others inductionHypothesis =>
      obtain ⟨foremost, behind⟩ := List.forall_mem_cons.mp every
      rw [Expr.nestingEach] at enough
      apply (halts scope foremost (by omega)).bind
      intro value free
      apply (inductionHypothesis behind (by omega)).bind
      intro values each
      exact halts_pure (List.forall_mem_cons.mpr ⟨free, each⟩)

/-- A `return` wraps a value, and a function is not hidden by that. -/
theorem halts_statement (scope : Nat) {stmt : Stmt Nat}
    (every : stmt.Every Node.FunctionFree) (enough : stmt.nesting ≤ depth) :
    Halts size (fun result => ∀ value ∈ result, value.FunctionFree)
      (statement evaluate scope stmt) := by
  cases stmt with
  | bind token name value =>
      apply (halts scope (Stmt.every_bind.mp every).2.2 enough).bind
      intro result free
      apply (halts_bindName scope name.name free).bind
      intro _ _
      exact halts_pure (by simp)
  | give token value =>
      apply (halts scope (Stmt.every_give.mp every).2 enough).bind
      intro result free
      exact halts_pure (by simpa [Value.FunctionFree, Value.closures] using free)
  | expression token value =>
      apply (halts scope (Stmt.every_expression.mp every).2 enough).bind
      intro result free
      exact halts_pure (by simpa using free)

/-- Statements halt within the depth of the deepest one. -/
theorem halts_statements (scope : Nat) {stmts : List (Stmt Nat)} {result : Value}
    (every : ∀ stmt ∈ stmts, stmt.Every Node.FunctionFree)
    (enough : Stmt.nestingAll stmts ≤ depth) (free : result.FunctionFree) :
    Halts size Value.FunctionFree (statements evaluate scope result stmts) := by
  induction stmts generalizing result with
  | nil => exact halts_pure free
  | cons first others inductionHypothesis =>
      obtain ⟨foremost, behind⟩ := List.forall_mem_cons.mp every
      rw [Stmt.nestingAll] at enough
      apply (halts_statement halts scope foremost (by omega)).bind
      intro ends given
      have further {result : Value} (free : result.FunctionFree) :=
        inductionHypothesis behind (by omega) free
      match ends with
      | none => exact further rfl
      | some value =>
          have valueFree := given value rfl
          cases value with
          | returned inner => exact halts_pure valueFree
          | _ => exact further valueFree

/-- A block halts within the depth of its statements. -/
theorem halts_block (scope : Nat) {body : Block Nat}
    (every : body.Every Node.FunctionFree) (enough : body.nesting ≤ depth) :
    Halts size Value.FunctionFree (block evaluate scope body) := by
  cases body with
  | mk token stmts => exact halts_statements halts scope (Block.every_iff.mp every).2 enough rfl

/-- The statements of a program halt within the depth of the deepest one. -/
theorem halts_program (scope : Nat) {stmts : List (Stmt Nat)} {result : Option Value}
    (every : ∀ stmt ∈ stmts, stmt.Every Node.FunctionFree)
    (enough : Stmt.nestingAll stmts ≤ depth) (free : ∀ value ∈ result, value.FunctionFree) :
    Halts size (fun result => ∀ value ∈ result, value.FunctionFree)
      (program evaluate scope result stmts) := by
  induction stmts generalizing result with
  | nil => exact halts_pure free
  | cons first others inductionHypothesis =>
      obtain ⟨foremost, behind⟩ := List.forall_mem_cons.mp every
      rw [Stmt.nestingAll] at enough
      apply (halts_statement halts scope foremost (by omega)).bind
      intro ends given
      have further := inductionHypothesis behind (by omega) given
      match ends with
      | none => exact further
      | some value =>
          cases value with
          | returned inner =>
              have innerFree := given _ rfl
              exact halts_pure (by simpa [Value.FunctionFree, Value.closures] using innerFree)
          | _ => exact further

/-- An alternative halts within the depth of its block. -/
theorem halts_alternative (scope : Nat) {otherwise : Option (Block Nat)}
    (every : ∀ block ∈ otherwise, block.Every Node.FunctionFree)
    (enough : Block.nestingElse otherwise ≤ depth) :
    Halts size Value.FunctionFree (alternative evaluate scope otherwise) := by
  match otherwise with
  | none => exact halts_pure rfl
  | some body => exact halts_block halts scope (every body rfl) enough

omit halts in
/-- Without functions a call is one of a built-in function, or an error. -/
theorem halts_call (callee : Value) {arguments : List Value} (free : callee.FunctionFree)
    (each : ∀ argument ∈ arguments, argument.FunctionFree) :
    Halts size Value.FunctionFree (call evaluate callee arguments) := by
  cases callee with
  | function closure => cases free
  | builtin name function => exact halts_applyBuiltin function each
  | _ => exact halts_fail _

/-- Each kind of expression halts one level above its parts. -/
theorem halts_node (builtins : Builtins) (scope : Nat) {expr : Expr Nat}
    (every : expr.Every Node.FunctionFree) (enough : expr.nesting ≤ depth + 1) :
    Halts size Value.FunctionFree (node evaluate builtins scope expr) := by
  cases expr with
  | ident name => exact halts_ident builtins scope name.name
  | integer _ _ | text _ _ | boolean _ _ => exact halts_pure rfl
  | array token elements =>
      rw [Expr.nesting] at enough
      apply (halts_each halts scope (Expr.every_array.mp every).2 (by omega)).bind
      intro values each
      exact halts_pure ((Value.hereditary_functionFree.array values).mpr each)
  | unary token operator operand =>
      rw [Expr.nesting] at enough
      apply (halts scope (Expr.every_unary.mp every).2 (by omega)).bind
      intro value _
      exact halts_settle (Operator.unary_yields Value.hereditary_functionFree operator value)
  | binary token left operator right =>
      rw [Expr.nesting] at enough
      obtain ⟨_, first, second⟩ := Expr.every_binary.mp every
      apply (halts scope first (by omega)).bind
      intro leftValue _
      apply (halts scope second (by omega)).bind
      intro rightValue _
      exact halts_settle
        (Operator.binary_yields Value.hereditary_functionFree operator leftValue rightValue)
  | index token collection position =>
      rw [Expr.nesting] at enough
      obtain ⟨_, first, second⟩ := Expr.every_index.mp every
      apply (halts scope first (by omega)).bind
      intro value free
      apply (halts scope second (by omega)).bind
      intro place _
      exact halts_settle (Operator.index_yields Value.hereditary_functionFree free place)
  | conditional token condition consequence otherwise =>
      rw [Expr.nesting] at enough
      obtain ⟨_, first, second, third⟩ := Expr.every_conditional.mp every
      apply (halts scope first (by omega)).bind
      intro value _
      split
      · exact halts_block halts scope second (by omega)
      · exact halts_alternative halts scope third (by omega)
  | function token label parameters body => cases (Expr.every_function.mp every).1
  | call token callee arguments =>
      rw [Expr.nesting] at enough
      obtain ⟨_, first, others⟩ := Expr.every_call.mp every
      apply (halts scope first (by omega)).bind
      intro function free
      apply (halts_each halts scope others (by omega)).bind
      intro values each
      exact halts_call function free each

end

/-- An expression without function literals halts within its nesting. -/
theorem halts_expression (builtins : Builtins) {depth : Nat} ⦃expr : Expr Nat⦄ (scope : Nat)
    (every : expr.Every Node.FunctionFree) (enough : expr.nesting ≤ depth) :
    Halts size Value.FunctionFree (expression builtins depth expr scope) := by
  induction depth generalizing expr scope with
  | zero =>
      have positive := expr.nesting_pos
      omega
  | succ depth inductionHypothesis =>
      exact halts_node inductionHypothesis builtins scope every enough

/-- A program without function literals, evaluated where no function is bound, ends within the depth
to which its expressions are nested, whatever the heap and the output hold. There are as many scopes
as before, and neither in them nor in the result is there a function. -/
theorem ends_without_functions (builtins : Builtins) (program : Program Nat) (scope : Nat)
    (machine : Machine) (code : program.FunctionFree) (values : machine.All Value.FunctionFree) :
    ∃ outcome after,
      (∀ depth, program.nesting ≤ depth →
        Evaluation.program (expression builtins depth) scope none program.statements machine =
          some (outcome, after)) ∧
      after.heap.size = machine.heap.size ∧
      after.All Value.FunctionFree ∧
      ∀ value, outcome = .ok (some value) → value.FunctionFree := by
  have nothing : ∀ value ∈ (none : Option Value), value.FunctionFree :=
    fun _ member => nomatch member
  have start : machine.FunctionFree machine.heap.size := ⟨rfl, values⟩
  obtain ⟨outcome, after, ends, free, yields⟩ := halts_program (halts_expression builtins) scope
    (Stmt.every_all.mp code) (Nat.le_refl program.nesting) nothing start
  refine ⟨outcome, after, ?_, free.size, free.values, ?_⟩
  · intro depth enough
    exact refines_program (refines_expression builtins enough) scope none program.statements ends
  · intro value isValue
    exact yields _ isValue value rfl

/-- The program `let a = [1, [len("xy")]]; if (a[1][0] == 2) { print(a) } else { missing }` needs
the depth 5, and no more of it where the output has been written to already. -/
theorem ends_without_functions_nested :
    ∃ (program : Program Nat) (machine after : Machine),
      program.FunctionFree ∧ program.nesting = 5 ∧ machine.All Value.FunctionFree ∧
      Evaluation.program (expression .standard 5) 0 none program.statements machine =
        some (.ok (some .void), after) ∧
      after.output.contents = "before [1, [2]]" ∧
      after.heap.size = 1 ∧ after.All Value.FunctionFree := by
  let name (text : String) : Ident := ⟨⟨.ident, text⟩, text⟩
  let number (value : Int64) : Expr Nat := .integer ⟨.int, Integer.decimal value⟩ value
  let bracket : Token := ⟨.leftBracket, "["⟩
  let paren : Token := ⟨.leftParen, "("⟩
  let brace : Token := ⟨.leftBrace, "\x7b"⟩
  let length : Expr Nat := .call paren (.ident (name "len")) [.text ⟨.string, "xy"⟩ "xy"]
  let array : Expr Nat := .array bracket [number 1, .array bracket [length]]
  let element : Expr Nat :=
    .index bracket (.index bracket (.ident (name "a")) (number 1)) (number 0)
  let condition : Expr Nat := .binary ⟨.equal, "=="⟩ element "==" (number 2)
  let print : Expr Nat := .call paren (.ident (name "print")) [.ident (name "a")]
  let conditional : Expr Nat := .conditional ⟨.ifWord, "if"⟩ condition
    (.mk brace [.expression ⟨.ident, "print"⟩ print])
    (some (.mk brace [.expression ⟨.ident, "missing"⟩ (.ident (name "missing"))]))
  let program : Program Nat := ⟨[.bind ⟨.letWord, "let"⟩ (name "a") array,
    .expression ⟨.ifWord, "if"⟩ conditional]⟩
  let machine : Machine := ⟨⟨#[⟨[], none⟩]⟩, .buffer "before "⟩
  have code : program.FunctionFree := by
    simp [program, conditional, print, condition, element, array, length, number,
      Program.FunctionFree, Program.nodes, Stmt.nodesAll, Stmt.nodes, Expr.nodes, Expr.nodesEach,
      Block.nodes, Block.nodesElse, Node.FunctionFree, Node.label?]
  have values : machine.All Value.FunctionFree := by
    intro scope member name value bound
    simp only [machine, Array.mem_singleton] at member
    simp [member] at bound
  obtain ⟨outcome, after, ends, size, free, -⟩ :=
    ends_without_functions .standard program 0 machine code values
  have atDepth := ends 5 (by decide)
  have answered : (Evaluation.program (expression .standard 5) 0 none program.statements
      machine).map (fun reached => (reached.1, reached.2.output.contents)) =
        some (.ok (some .void), "before [1, [2]]") := by
    with_unfolding_all rfl
  rw [atDepth] at answered
  obtain ⟨rfl, written⟩ : outcome = .ok (some .void) ∧ _ := by simpa using answered
  exact ⟨program, machine, after, code, rfl, values, atDepth, written, size, free⟩

end Evaluation

end Monkey
