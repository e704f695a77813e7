import Monkey.Proofs.Evaluation.Parts
import Monkey.Proofs.Scope.Frame
import Monkey.Proofs.Syntax.Nodes
import Monkey.Proofs.Value.Hereditary

/-!
Invariants of evaluation. All that evaluation does to the heap is to look names up, to bind them and
to create scopes for calls; all that it does with values is to take them apart and to put them
together. A property of heaps and values that these steps keep is kept by every evaluation, whatever
it evaluates and however it ends, and it holds of each part that the evaluation comes to.
-/

namespace Monkey

open Bounded

/-- Looking up an element complains about what is indexed, not about an operator. -/
theorem Operator.index_raises (collection position : Value) :
    Raises (fun cause => cause.aboutOperator = false) (Operator.index collection position) := by
  unfold Operator.index
  split
  · exact raises_ok _
  · exact raises_error rfl

namespace Builtin

theorem oneArgument_raises (arguments : List Value) :
    Raises (fun cause => cause.aboutOperator = false) (oneArgument arguments) := by
  unfold oneArgument
  split
  · exact raises_ok _
  · exact raises_error rfl

theorem elementsOf_raises (function : String) (value : Value) :
    Raises (fun cause => cause.aboutOperator = false) (elementsOf function value) := by
  cases value with
  | array elements => exact raises_ok _
  | _ => exact raises_error rfl

theorem lengthOf_raises (value : Value) :
    Raises (fun cause => cause.aboutOperator = false) (lengthOf value) := by
  cases value with
  | text _ | array _ => exact raises_ok _
  | _ => exact raises_error rfl

theorem pushOnto_raises (arguments : List Value) :
    Raises (fun cause => cause.aboutOperator = false) (pushOnto arguments) := by
  unfold pushOnto
  split
  · exact (elementsOf_raises _ _).bind fun _ => raises_ok _
  · exact raises_error rfl

theorem write_raises (text : String) (output : Output) :
    Raises (fun cause => cause.aboutOperator = false) (write text output).1 := by
  unfold write
  split
  · exact raises_ok _
  · exact raises_error rfl

/-- A function of the host fails by the output or by its own complaint. -/
theorem applyHost_raises (function : HostFunction) (arguments : List Value) (output : Output) :
    Raises (fun cause => cause.aboutOperator = false) (applyHost function arguments output).1 := by
  have writes := write_raises (function.prints (Value.sightEach arguments)) output
  unfold applyHost
  dsimp only
  split
  · exact Raises.map (function.sparesOperators _) _
  · next cause written fails =>
      rw [fails] at writes
      exact raises_error (writes cause rfl)

/-- Built-in functions complain about their arguments and about the output, and functions of the
host never about operators. -/
theorem apply_raises (function : Builtin) (arguments : List Value) (output : Output) :
    Raises (fun cause => cause.aboutOperator = false) (function.apply arguments output).1 := by
  have elements (name : String) := (oneArgument_raises arguments).bind (elementsOf_raises name)
  cases function with
  | len => exact (oneArgument_raises arguments).bind lengthOf_raises
  | print | println => exact write_raises _ _
  | first | last | pop => exact (elements _).map _
  | push => exact pushOnto_raises arguments
  | host function => exact applyHost_raises function arguments output

end Builtin

namespace Evaluation

/-- Properties that fit together in such a way that no step of evaluation with these built-in
functions leads out of them. What holds of a value or of the number of a scope may depend on how
many scopes there are, and does not get lost when there are more of them. -/
structure Invariant (builtins : Builtins) where
  node : Node Nat → Prop
  heap : Heap → Prop
  value : Nat → Value → Prop
  scope : Nat → Nat → Prop
  error : RuntimeError → Prop
  hereditary (size : Nat) : Value.Hereditary (value size)
  builtin {size : Nat} {name : String} {item : Value} :
    builtins.lookup name = some item → value size item
  returned {size : Nat} {inner : Value} : value size (.returned inner) ↔ value size inner
  value_mono {size larger : Nat} {item : Value} (le : size ≤ larger) :
    value size item → value larger item
  scope_mono {size larger number : Nat} (le : size ≤ larger) :
    scope size number → scope larger number
  lookup {store : Heap} {number : Nat} {name : String} {item : Value} :
    heap store → store.lookup number name = some item → value store.size item
  bind {store : Heap} (number : Nat) (name : String) {item : Value} :
    heap store → value store.size item → heap (store.bind number name item)
  create {store : Heap} {closure : Closure} {arguments : List Value} :
    heap store → value store.size (.function closure) →
      (∀ argument ∈ arguments, value store.size argument) →
        heap (store.create (callScope closure arguments)).2 ∧
          scope (store.size + 1) store.size
  function {size number label : Nat} {token : Token} {parameters : List Ident} {body : Block Nat} :
    (Expr.function token label parameters body).Every node → scope size number →
      value size (.function ⟨label, parameters, body, number⟩)
  body {size : Nat} {closure : Closure} :
    value size (.function closure) → closure.body.Every node
  unary {token : Token} {operator : String} {operand : Expr Nat} (item : Value) :
    node (.expression (.unary token operator operand)) →
      Raises error (Operator.unary operator item)
  binary {token : Token} {operator : String} {left right : Expr Nat} (first second : Value) :
    node (.expression (.binary token left operator right)) →
      Raises error (Operator.binary operator first second)
  others {cause : RuntimeError} : cause.aboutOperator = false → error cause

namespace Invariant

variable {First Second Result : Type} {builtins : Builtins}

/-- How an evaluation ends that has started with so many scopes. -/
structure Kept (invariant : Invariant builtins) (size : Nat) (results : Nat → Result → Prop)
    (outcome : Except RuntimeError Result) (after : Machine) : Prop where
  size : size ≤ after.heap.size
  heap : invariant.heap after.heap
  yields : Yields (results after.heap.size) outcome
  raises : Raises invariant.error outcome

/-- The computation keeps the invariant when it starts with so many scopes. -/
def Preserves (invariant : Invariant builtins) (size : Nat) (results : Nat → Result → Prop)
    (computation : Evaluation Result) : Prop :=
  ∀ ⦃before after : Machine⦄ ⦃outcome : Except RuntimeError Result⦄, before.heap.size = size →
    invariant.heap before.heap → computation before = some (outcome, after) →
      invariant.Kept size results outcome after

section

variable {invariant : Invariant builtins} {size : Nat} {results : Nat → Result → Prop}

theorem preserves_exhausted : invariant.Preserves size results (exhausted : Evaluation Result) :=
  fun _ _ _ _ _ ends => nomatch ends

/-- An outcome alone needs no more than the property of its result or of its error. -/
theorem preserves_settle {settled : Except RuntimeError Result}
    (yields : Yields (results size) settled) (raises : Raises invariant.error settled) :
    invariant.Preserves size results (settle settled : Evaluation Result) := by
  rintro before after outcome rfl start ⟨⟩
  exact ⟨Nat.le_refl _, start, yields, raises⟩

theorem preserves_pure {result : Result} (holds : results size result) :
    invariant.Preserves size results (pure result : Evaluation Result) :=
  preserves_settle (yields_ok holds) (raises_ok _)

theorem preserves_fail {cause : RuntimeError} (other : cause.aboutOperator = false) :
    invariant.Preserves size results (fail cause : Evaluation Result) :=
  preserves_settle (yields_error _) (raises_error (invariant.others other))

/-- In a sequence the second part starts from a heap that has only grown. -/
theorem Preserves.bind {items : Nat → First → Prop} {others : Nat → Second → Prop}
    {first : Evaluation First} {next : First → Evaluation Second}
    (preserves : invariant.Preserves size items first)
    (rest : ∀ larger item, size ≤ larger → items larger item →
      invariant.Preserves larger others (next item)) :
    invariant.Preserves size others (first >>= next) := by
  intro before after outcome isSize start ends
  rw [bind_apply] at ends
  match found : first before with
  | none => simp [found] at ends
  | some (.error cause, reached) =>
      simp only [found, Option.some.injEq, Prod.mk.injEq] at ends
      obtain ⟨rfl, rfl⟩ := ends
      have kept := preserves isSize start found
      exact ⟨kept.size, kept.heap, yields_error cause, raises_error (kept.raises cause rfl)⟩
  | some (.ok item, reached) =>
      simp only [found] at ends
      have kept := preserves isSize start found
      have further := rest _ item kept.size (kept.yields item rfl) rfl kept.heap ends
      exact ⟨Nat.le_trans kept.size further.size, further.heap, further.yields, further.raises⟩

end

section

variable (invariant : Invariant builtins)

/-- Binding a name to a value that holds leaves a heap that holds. -/
theorem preserves_bindName {size : Nat} (scope : Nat) (name : String) {value : Value}
    (holds : invariant.value size value) :
    invariant.Preserves size (fun _ _ => True) (bindName scope name value) := by
  rintro before after outcome rfl start ⟨⟩
  refine ⟨?_, invariant.bind scope name start holds, yields_ok trivial, raises_ok _⟩
  simp [Heap.bind, Heap.size]

/-- The scope of a call gets a number that may be used from then on. -/
theorem preserves_createScope {size : Nat} {closure : Closure} {arguments : List Value}
    (function : invariant.value size (.function closure))
    (each : ∀ argument ∈ arguments, invariant.value size argument) :
    invariant.Preserves size (fun larger number => invariant.scope larger number)
      (createScope (callScope closure arguments)) := by
  rintro before after outcome rfl start ⟨⟩
  obtain ⟨heap, scope⟩ := invariant.create start function each
  have grows := before.heap.size_create (callScope closure arguments)
  have le : before.heap.size ≤ (before.heap.create (callScope closure arguments)).2.size := by omega
  exact ⟨le, heap, yields_ok (grows ▸ scope), raises_ok _⟩

/-- Built-in functions take values that hold to values that hold. -/
theorem preserves_applyBuiltin {size : Nat} (function : Builtin) {arguments : List Value}
    (each : ∀ argument ∈ arguments, invariant.value size argument) :
    invariant.Preserves size invariant.value (applyBuiltin function arguments) := by
  rintro before after outcome rfl start ⟨⟩
  refine ⟨Nat.le_refl _, start, ?_, ?_⟩
  · exact Builtin.apply_yields (invariant.hereditary _) function each before.output
  · intro cause fails
    exact invariant.others (Builtin.apply_raises function arguments before.output cause fails)

/-- What is found under a name holds, be it bound or built in. -/
theorem preserves_ident {size : Nat} (scope : Nat) (name : String) :
    invariant.Preserves size invariant.value (ident builtins scope name) := by
  have inScopes : invariant.Preserves size
      (fun larger found => ∀ value ∈ found, invariant.value larger value)
      (inspect fun machine => machine.heap.lookup scope name : Evaluation (Option Value)) := by
    rintro before after outcome rfl start ⟨⟩
    exact ⟨Nat.le_refl _, start, yields_ok fun value found => invariant.lookup start found,
      raises_ok _⟩
  apply inScopes.bind
  intro larger found _ each
  match found with
  | some value => exact preserves_pure (each value rfl)
  | none =>
      cases known : builtins.lookup name with
      | none => exact preserves_fail rfl
      | some value => exact preserves_pure (invariant.builtin known)

end

/-- Taking off a wrapper keeps the property. -/
theorem value_unwrap (invariant : Invariant builtins) {size : Nat} {value : Value}
    (holds : invariant.value size value) : invariant.value size (unwrap value) := by
  cases value with
  | returned inner => exact invariant.returned.mp holds
  | _ => exact holds

/-- Every value, of as many as there are, has the property. -/
def Each (invariant : Invariant builtins) (size : Nat) (values : List Value) : Prop :=
  ∀ value ∈ values, invariant.value size value

/-- The value, if there is one, has the property. -/
def Given (invariant : Invariant builtins) (size : Nat) (result : Option Value) : Prop :=
  ∀ value ∈ result, invariant.value size value

section

variable {invariant : Invariant builtins} {evaluate : Expr Nat → Nat → Evaluation Value}
  (preserves : ∀ ⦃size scope : Nat⦄ ⦃expr : Expr Nat⦄, expr.Every invariant.node →
    invariant.scope size scope →
      invariant.Preserves size invariant.value (evaluate expr scope))

include preserves

/-- Expressions one after the other come to values that hold. -/
theorem preserves_each {size scope : Nat} {exprs : List (Expr Nat)}
    (every : ∀ expr ∈ exprs, expr.Every invariant.node) (inside : invariant.scope size scope) :
    invariant.Preserves size invariant.Each (each evaluate scope exprs) := by
  induction exprs generalizing size with
  | nil => exact preserves_pure (by simp [Each])
  | cons first others inductionHypothesis =>
      obtain ⟨foremost, behind⟩ := List.forall_mem_cons.mp every
      apply (preserves foremost inside).bind
      intro larger value le holds
      apply (inductionHypothesis behind (invariant.scope_mono le inside)).bind
      intro largest values further each
      exact preserves_pure
        (List.forall_mem_cons.mpr ⟨invariant.value_mono further holds, each⟩)

/-- A statement gives a value that holds, if it gives one. -/
theorem preserves_statement {size scope : Nat} {stmt : Stmt Nat}
    (every : stmt.Every invariant.node) (inside : invariant.scope size scope) :
    invariant.Preserves size invariant.Given (statement evaluate scope stmt) := by
  cases stmt with
  | bind token name value =>
      apply (preserves (Stmt.every_bind.mp every).2.2 inside).bind
      intro larger result _ holds
      apply (preserves_bindName invariant scope name.name holds).bind
      intro _ _ _ _
      exact preserves_pure (by simp [Given])
  | give token value =>
      apply (preserves (Stmt.every_give.mp every).2 inside).bind
      intro larger result _ holds
      apply preserves_pure
      rintro _ ⟨⟩
      exact invariant.returned.mpr holds
  | expression token value =>
      apply (preserves (Stmt.every_expression.mp every).2 inside).bind
      intro larger result _ holds
      apply preserves_pure
      rintro _ ⟨⟩
      exact holds

/-- Statements one after the other come to a value that holds. -/
theorem preserves_statements {size scope : Nat} {stmts : List (Stmt Nat)} {result : Value}
    (every : ∀ stmt ∈ stmts, stmt.Every invariant.node) (inside : invariant.scope size scope)
    (holds : invariant.value size result) :
    invariant.Preserves size invariant.value (statements evaluate scope result stmts) := by
  -- The statements behind the first one start with the scopes that it has left.
  induction stmts generalizing size result with
  | nil => exact preserves_pure holds
  | cons first others inductionHypothesis =>
      obtain ⟨foremost, behind⟩ := List.forall_mem_cons.mp every
      apply (preserves_statement preserves foremost inside).bind
      intro larger ends le given
      have further {result : Value} (holds : invariant.value larger result) :=
        inductionHypothesis behind (invariant.scope_mono le inside) holds
      match ends with
      | none => exact further (invariant.hereditary larger).void
      | some value =>
          have valueHolds := given value rfl
          cases value with
          | returned inner => exact preserves_pure valueHolds
          | _ => exact further valueHolds

/-- A block comes to a value that holds. -/
theorem preserves_block {size scope : Nat} {body : Block Nat}
    (every : body.Every invariant.node) (inside : invariant.scope size scope) :
    invariant.Preserves size invariant.value (block evaluate scope body) :=
  preserves_statements preserves (Block.every_iff.mp every).2 inside
    (invariant.hereditary size).void

/-- The statements of a program give a value that holds, if they give one. -/
theorem preserves_program {size scope : Nat} {stmts : List (Stmt Nat)} {result : Option Value}
    (every : ∀ stmt ∈ stmts, stmt.Every invariant.node) (inside : invariant.scope size scope)
    (given : invariant.Given size result) :
    invariant.Preserves size invariant.Given (program evaluate scope result stmts) := by
  induction stmts generalizing size result with
  | nil => exact preserves_pure given
  | cons first others inductionHypothesis =>
      obtain ⟨foremost, behind⟩ := List.forall_mem_cons.mp every
      apply (preserves_statement preserves foremost inside).bind
      intro larger ends le endsGiven
      have further {result : Option Value} (given : invariant.Given larger result) :=
        inductionHypothesis behind (invariant.scope_mono le inside) given
      match ends with
      | none => exact further endsGiven
      | some value =>
          cases value with
          | returned inner =>
              apply preserves_pure
              rintro _ ⟨⟩
              exact invariant.returned.mp (endsGiven _ rfl)
          | _ => exact further endsGiven

/-- A call of a value that holds comes to one that holds. -/
theorem preserves_call {size : Nat} {callee : Value} {arguments : List Value}
    (calleeHolds : invariant.value size callee) (each : invariant.Each size arguments) :
    invariant.Preserves size invariant.value (call evaluate callee arguments) := by
  cases callee with
  | function closure =>
      simp only [call]
      split
      · exact preserves_fail rfl
      · apply (preserves_createScope invariant calleeHolds each).bind
        intro larger scope _ inside
        apply (preserves_block preserves (invariant.body calleeHolds) inside).bind
        intro _ value _ holds
        exact preserves_pure (invariant.value_unwrap holds)
  | builtin name function => exact preserves_applyBuiltin invariant function each
  | _ => exact preserves_fail rfl

/-- An alternative comes to a value that holds, also when there is none. -/
theorem preserves_alternative {size scope : Nat} {otherwise : Option (Block Nat)}
    (every : ∀ block ∈ otherwise, block.Every invariant.node)
    (inside : invariant.scope size scope) :
    invariant.Preserves size invariant.value (alternative evaluate scope otherwise) := by
  match otherwise with
  | none => exact preserves_pure (invariant.hereditary size).null
  | some body => exact preserves_block preserves (every body rfl) inside

/-- Each kind of expression preserves the invariant when its parts do. -/
theorem preserves_node {size scope : Nat} {expr : Expr Nat} (every : expr.Every invariant.node)
    (inside : invariant.scope size scope) :
    invariant.Preserves size invariant.value (Evaluation.node evaluate builtins scope expr) := by
  cases expr with
  | ident name => exact preserves_ident invariant scope name.name
  | integer token value => exact preserves_pure ((invariant.hereditary size).integer value)
  | text token value => exact preserves_pure ((invariant.hereditary size).text value)
  | boolean token value => exact preserves_pure ((invariant.hereditary size).boolean value)
  | array token elements =>
      apply (preserves_each preserves (Expr.every_array.mp every).2 inside).bind
      intro larger values _ each
      exact preserves_pure (((invariant.hereditary larger).array values).mpr each)
  | unary token operator operand =>
      obtain ⟨root, inner⟩ := Expr.every_unary.mp every
      apply (preserves inner inside).bind
      intro larger value _ _
      exact preserves_settle (Operator.unary_yields (invariant.hereditary larger) operator value)
        (invariant.unary value root)
  | binary token left operator right =>
      obtain ⟨root, first, second⟩ := Expr.every_binary.mp every
      apply (preserves first inside).bind
      intro larger leftValue le _
      apply (preserves second (invariant.scope_mono le inside)).bind
      intro largest rightValue _ _
      exact preserves_settle
        (Operator.binary_yields (invariant.hereditary largest) operator leftValue rightValue)
        (invariant.binary leftValue rightValue root)
  | index token collection position =>
      obtain ⟨_, first, second⟩ := Expr.every_index.mp every
      apply (preserves first inside).bind
      intro larger value le holds
      apply (preserves second (invariant.scope_mono le inside)).bind
      intro largest place further _
      apply preserves_settle
      · exact Operator.index_yields (invariant.hereditary largest)
          (invariant.value_mono further holds) place
      · intro cause fails
        exact invariant.others (Operator.index_raises value place cause fails)
  | conditional token condition consequence otherwise =>
      obtain ⟨_, first, second, third⟩ := Expr.every_conditional.mp every
      apply (preserves first inside).bind
      intro larger value le _
      split
      · exact preserves_block preserves second (invariant.scope_mono le inside)
      · exact preserves_alternative preserves third (invariant.scope_mono le inside)
  | function token label parameters body => exact preserves_pure (invariant.function every inside)
  | call token callee arguments =>
      obtain ⟨_, first, others⟩ := Expr.every_call.mp every
      apply (preserves first inside).bind
      intro larger function le holds
      apply (preserves_each preserves others (invariant.scope_mono le inside)).bind
      intro largest values further each
      exact preserves_call preserves (invariant.value_mono further holds) each

end

/-- An expression preserves the invariant, by induction on the depth. -/
theorem preserves_expression (invariant : Invariant builtins) (depth : Nat)
    ⦃size scope : Nat⦄ ⦃expr : Expr Nat⦄ (every : expr.Every invariant.node)
    (inside : invariant.scope size scope) :
    invariant.Preserves size invariant.value (expression builtins depth expr scope) := by
  induction depth generalizing size scope expr with
  | zero => exact preserves_exhausted
  | succ depth inductionHypothesis =>
      exact preserves_node inductionHypothesis every inside

/-- A task may be done when there are so many scopes. -/
def Admits (invariant : Invariant builtins) (size : Nat) : Task → Prop
  | .expression expr scope => expr.Every invariant.node ∧ invariant.scope size scope
  | .block body scope => body.Every invariant.node ∧ invariant.scope size scope
  | .program stmts scope =>
      (∀ stmt ∈ stmts, stmt.Every invariant.node) ∧ invariant.scope size scope
  | .call callee arguments => invariant.value size callee ∧ invariant.Each size arguments

/-- The invariant holds when the task is about to be done. -/
structure Holds (invariant : Invariant builtins) (moment : Moment) : Prop where
  task : invariant.Admits moment.machine.heap.size moment.task
  heap : invariant.heap moment.machine.heap

/-- Every task preserves the invariant. -/
theorem preserves_run (invariant : Invariant builtins) (depth : Nat) {size : Nat}
    {task : Task} (admits : invariant.Admits size task) :
    invariant.Preserves size invariant.Given (task.run builtins depth) := by
  have expressions := invariant.preserves_expression depth
  have some {computation : Evaluation Value}
      (preserves : invariant.Preserves size invariant.value computation) :
      invariant.Preserves size invariant.Given
        (computation >>= fun value => pure (some value)) := by
    apply preserves.bind
    intro larger value _ holds
    apply preserves_pure
    rintro _ ⟨⟩
    exact holds
  match task with
  | .expression expr scope => exact some (expressions admits.1 admits.2)
  | .block body scope => exact some (preserves_block expressions admits.1 admits.2)
  | .program stmts scope =>
      exact preserves_program expressions admits.1 admits.2 (by simp [Given])
  | .call callee arguments => exact some (preserves_call expressions admits.1 admits.2)

/-- However a task ends, the invariant holds of the machine, of the value and of the error. -/
theorem Holds.ends {invariant : Invariant builtins} {moment : Moment}
    {outcome : Except RuntimeError (Option Value)} {after : Machine}
    (holds : invariant.Holds moment) (ends : moment.ends builtins = some (outcome, after)) :
    invariant.Kept moment.machine.heap.size invariant.Given outcome after :=
  invariant.preserves_run moment.depth holds.task rfl holds.heap ends

section

variable {invariant : Invariant builtins} {depth scope : Nat}
  {machine reached : Machine}

/-- After an expression the heap has not shrunk, and it and the value hold. -/
theorem after_expression {expr : Expr Nat} {value : Value} (every : expr.Every invariant.node)
    (inside : invariant.scope machine.heap.size scope) (start : invariant.heap machine.heap)
    (ends : expression builtins depth expr scope machine = some (.ok value, reached)) :
    machine.heap.size ≤ reached.heap.size ∧ invariant.heap reached.heap ∧
      invariant.value reached.heap.size value := by
  have kept := invariant.preserves_expression depth every inside rfl start ends
  exact ⟨kept.size, kept.heap, kept.yields value rfl⟩

/-- After several expressions the heap has not shrunk, and it and the values hold. -/
theorem after_each {exprs : List (Expr Nat)} {values : List Value}
    (every : ∀ expr ∈ exprs, expr.Every invariant.node)
    (inside : invariant.scope machine.heap.size scope) (start : invariant.heap machine.heap)
    (ends : each (expression builtins depth) scope exprs machine = some (.ok values, reached)) :
    machine.heap.size ≤ reached.heap.size ∧ invariant.heap reached.heap ∧
      invariant.Each reached.heap.size values := by
  have expressions := invariant.preserves_expression depth
  have kept := preserves_each expressions every inside rfl start ends
  exact ⟨kept.size, kept.heap, kept.yields values rfl⟩

/-- A statement is come to on the machine that the statements before it have left. -/
theorem holds_statement {earlier later : List (Stmt Nat)} {stmt : Stmt Nat} {value : Value}
    (every : ∀ other ∈ earlier ++ stmt :: later, other.Every invariant.node)
    (inside : invariant.scope machine.heap.size scope) (start : invariant.heap machine.heap)
    (before : statements (expression builtins depth) scope .void earlier machine =
      some (.ok value, reached)) :
    invariant.Holds ⟨depth, .expression stmt.value scope, reached⟩ := by
  obtain ⟨earlierEvery, here⟩ := List.forall_mem_append.mp every
  obtain ⟨stmtEvery, _⟩ := List.forall_mem_cons.mp here
  have expressions := invariant.preserves_expression depth
  have kept := preserves_statements expressions earlierEvery inside
    (invariant.hereditary _).void rfl start before
  refine ⟨⟨?_, invariant.scope_mono kept.size inside⟩, kept.heap⟩
  cases stmt with
  | bind token name value => exact (Stmt.every_bind.mp stmtEvery).2.2
  | give token value => exact (Stmt.every_give.mp stmtEvery).2
  | expression token value => exact (Stmt.every_expression.mp stmtEvery).2

end

/-- The invariant holds of every part that the evaluation comes to. -/
theorem Holds.part {invariant : Invariant builtins} {whole part : Moment}
    {place : Place} (holds : invariant.Holds whole) (isPart : Part builtins whole place part) :
    invariant.Holds part := by
  obtain ⟨task, start⟩ := holds
  cases isPart with
  | operand => exact ⟨⟨(Expr.every_unary.mp task.1).2, task.2⟩, start⟩
  | left => exact ⟨⟨(Expr.every_binary.mp task.1).2.1, task.2⟩, start⟩
  | right first =>
      obtain ⟨every, inside⟩ := task
      obtain ⟨_, leftEvery, rightEvery⟩ := Expr.every_binary.mp every
      obtain ⟨le, kept, _⟩ := after_expression leftEvery inside start first
      exact ⟨⟨rightEvery, invariant.scope_mono le inside⟩, kept⟩
  | collection => exact ⟨⟨(Expr.every_index.mp task.1).2.1, task.2⟩, start⟩
  | position first =>
      obtain ⟨every, inside⟩ := task
      obtain ⟨_, collectionEvery, positionEvery⟩ := Expr.every_index.mp every
      obtain ⟨le, kept, _⟩ := after_expression collectionEvery inside start first
      exact ⟨⟨positionEvery, invariant.scope_mono le inside⟩, kept⟩
  | condition => exact ⟨⟨(Expr.every_conditional.mp task.1).2.1, task.2⟩, start⟩
  | consequence first =>
      obtain ⟨every, inside⟩ := task
      obtain ⟨_, conditionEvery, consequenceEvery, _⟩ := Expr.every_conditional.mp every
      obtain ⟨le, kept, _⟩ := after_expression conditionEvery inside start first
      exact ⟨⟨consequenceEvery, invariant.scope_mono le inside⟩, kept⟩
  | alternative first =>
      obtain ⟨every, inside⟩ := task
      obtain ⟨_, conditionEvery, _, otherwiseEvery⟩ := Expr.every_conditional.mp every
      obtain ⟨le, kept, _⟩ := after_expression conditionEvery inside start first
      exact ⟨⟨otherwiseEvery _ rfl, invariant.scope_mono le inside⟩, kept⟩
  | element before =>
      obtain ⟨every, inside⟩ := task
      obtain ⟨earlierEvery, here⟩ := List.forall_mem_append.mp (Expr.every_array.mp every).2
      obtain ⟨le, kept, _⟩ := after_each earlierEvery inside start before
      exact ⟨⟨(List.forall_mem_cons.mp here).1, invariant.scope_mono le inside⟩, kept⟩
  | callee => exact ⟨⟨(Expr.every_call.mp task.1).2.1, task.2⟩, start⟩
  | argument first before =>
      obtain ⟨every, inside⟩ := task
      obtain ⟨_, calleeEvery, argumentsEvery⟩ := Expr.every_call.mp every
      obtain ⟨earlierEvery, here⟩ := List.forall_mem_append.mp argumentsEvery
      obtain ⟨le, middle, _⟩ := after_expression calleeEvery inside start first
      have insideThen := invariant.scope_mono le inside
      obtain ⟨further, kept, _⟩ := after_each earlierEvery insideThen middle before
      exact ⟨⟨(List.forall_mem_cons.mp here).1, invariant.scope_mono further insideThen⟩, kept⟩
  | application first before =>
      obtain ⟨every, inside⟩ := task
      obtain ⟨_, calleeEvery, argumentsEvery⟩ := Expr.every_call.mp every
      obtain ⟨le, middle, function⟩ := after_expression calleeEvery inside start first
      have insideThen := invariant.scope_mono le inside
      obtain ⟨further, kept, values⟩ := after_each argumentsEvery insideThen middle before
      exact ⟨⟨invariant.value_mono further function, values⟩, kept⟩
  | @body _ machine closure arguments enough =>
      obtain ⟨function, each⟩ := task
      obtain ⟨kept, scope⟩ := invariant.create start function each
      have grows := machine.heap.size_create (callScope closure arguments)
      exact ⟨⟨invariant.body function, grows ▸ scope⟩, kept⟩
  | statement before => exact holds_statement (Block.every_iff.mp task.1).2 task.2 start before
  | outermost before => exact holds_statement task.1 task.2 start before

/-- An invariant holds at every moment within one at which it holds. -/
theorem Holds.within {invariant : Invariant builtins} {whole moment : Moment}
    (holds : invariant.Holds whole) (isWithin : Within builtins whole moment) :
    invariant.Holds moment := by
  induction isWithin with
  | refl => exact holds
  | tail _ isPart inductionHypothesis =>
      obtain ⟨_, isPart⟩ := isPart
      exact inductionHypothesis.part isPart

end Invariant

end Evaluation

end Monkey
