import Monkey.Proofs.Evaluation.Parts
import Monkey.Proofs.Scope.Stored

/-!
Where a `return` can get to. The value of a `return` travels outward in a wrapping, and a call and a
program take the wrapping off. As long as a conditional with a `return` in its branches is a
statement of its own, the wrapping goes from block to block and nowhere else: it is neither bound
nor passed on, it is in no array, no operator meets it, and there is never more than one layer of
it.
-/

namespace Monkey

section

variable {Mark : Type}

mutual

/-- A `return` stands in the expression, outside of its function literals. -/
def Expr.returns : Expr Mark → Bool
  | .array _ elements => Expr.returnsAny elements
  | .unary _ _ operand => operand.returns
  | .binary _ left _ right => left.returns || right.returns
  | .index _ collection position => collection.returns || position.returns
  | .conditional _ condition consequence alternative =>
      condition.returns || (consequence.returns || Block.returnsElse alternative)
  | .call _ callee arguments => callee.returns || Expr.returnsAny arguments
  | _ => false

def Expr.returnsAny : List (Expr Mark) → Bool
  | [] => false
  | first :: others => first.returns || Expr.returnsAny others

def Stmt.returns : Stmt Mark → Bool
  | .bind _ _ value => value.returns
  | .give _ _ => true
  | .expression _ value => value.returns

def Stmt.returnsAny : List (Stmt Mark) → Bool
  | [] => false
  | first :: others => first.returns || Stmt.returnsAny others

def Block.returns : Block Mark → Bool
  | .mk _ statements => Stmt.returnsAny statements

def Block.returnsElse : Option (Block Mark) → Bool
  | none => false
  | some block => block.returns

end

mutual

/-- Every conditional with a `return` in one of its branches is the whole of a statement, inside of
function literals too. Whether the expression itself is the whole of a statement is given. -/
def Expr.contained (whole : Bool) : Expr Mark → Bool
  | .array _ elements => Expr.containedEach elements
  | .unary _ _ operand => operand.contained false
  | .binary _ left _ right => left.contained false && right.contained false
  | .index _ collection position => collection.contained false && position.contained false
  | .conditional _ condition consequence alternative =>
      (whole || !(consequence.returns || Block.returnsElse alternative)) &&
        (condition.contained false && (consequence.contained && Block.containedElse alternative))
  | .function _ _ _ body => body.contained
  | .call _ callee arguments => callee.contained false && Expr.containedEach arguments
  | _ => true

def Expr.containedEach : List (Expr Mark) → Bool
  | [] => true
  | first :: others => first.contained false && Expr.containedEach others

def Stmt.contained : Stmt Mark → Bool
  | .bind _ _ value => value.contained false
  | .give _ value => value.contained false
  | .expression _ value => value.contained true

def Stmt.containedAll : List (Stmt Mark) → Bool
  | [] => true
  | first :: others => first.contained && Stmt.containedAll others

def Block.contained : Block Mark → Bool
  | .mk _ statements => Stmt.containedAll statements

def Block.containedElse : Option (Block Mark) → Bool
  | none => true
  | some block => block.contained

end

/-- A program all of whose statements are contained. -/
def Program.contained (program : Program Mark) : Bool :=
  Stmt.containedAll program.statements

/-- What may stand inside of something may also be the whole of a statement. -/
theorem Expr.contained_whole {expr : Expr Mark} (contained : expr.contained false = true) :
    expr.contained true = true := by
  cases expr <;> simp_all [Expr.contained]

/-- What is the whole of a statement may stand inside of something when there is no `return` in
it. -/
theorem Expr.contained_inside {expr : Expr Mark} (contained : expr.contained true = true)
    (silent : expr.returns = false) : expr.contained false = true := by
  cases expr <;> simp_all [Expr.contained, Expr.returns]

end

mutual

/-- The value is not wrapped at any depth, and in its functions every `return` is contained. -/
def Value.contained : Value → Bool
  | .array elements => Value.containedEach elements
  | .function closure => closure.body.contained
  | .returned _ => false
  | _ => true

def Value.containedEach : List Value → Bool
  | [] => true
  | first :: others => first.contained && Value.containedEach others

end

namespace Value

/-- Values are contained together when each of them is. -/
theorem containedEach_iff {values : List Value} :
    containedEach values = true ↔ ∀ value ∈ values, value.contained = true := by
  induction values with
  | nil => simp [containedEach]
  | cons first others inductionHypothesis => simp [containedEach, inductionHypothesis]

/-- An array is contained when all its elements are. -/
theorem hereditary_contained : Hereditary fun value => value.contained = true where
  integer _ := rfl
  boolean _ := rfl
  text _ := rfl
  null := rfl
  void := rfl
  array _ := containedEach_iff

/-- Contained, or, where a `return` can have brought it, one layer of wrapping around a contained
value. -/
def Carried (returning : Bool) (value : Value) : Prop :=
  value.contained = true ∨
    returning = true ∧ ∃ inner, value = .returned inner ∧ inner.contained = true

variable {value : Value} {returning : Bool}

/-- A contained value may be carried anywhere. -/
theorem carried_of_contained (contained : value.contained = true) : value.Carried returning :=
  .inl contained

/-- Where nothing returns, what is carried is contained. -/
theorem Carried.contained (carried : value.Carried false) : value.contained = true := by
  rcases carried with contained | ⟨returns, _⟩
  · exact contained
  · cases returns

/-- A value may be carried where more returning is allowed. -/
theorem Carried.mono (carried : value.Carried returning) {other : Bool}
    (implies : returning = true → other = true) : value.Carried other := by
  rcases carried with contained | ⟨returns, inner⟩
  · exact .inl contained
  · exact .inr ⟨implies returns, inner⟩

/-- What is not wrapped has not been brought by a `return`. -/
theorem Carried.contained_of_kind (carried : value.Carried returning)
    (plain : value.kind ≠ .returned) : value.contained = true := by
  rcases carried with contained | ⟨_, inner, rfl, _⟩
  · exact contained
  · exact absurd rfl plain

/-- What is carried in a wrapper is contained. -/
theorem Carried.of_returned {inner : Value} (carried : (Value.returned inner).Carried returning) :
    inner.contained = true := by
  rcases carried with contained | ⟨_, _, same, contained⟩
  · cases contained
  · cases same
    exact contained

/-- Without its wrapper a carried value is contained. -/
theorem Carried.unwrap (carried : value.Carried returning) :
    (Evaluation.unwrap value).contained = true := by
  cases value with
  | returned inner => exact carried.of_returned
  | _ => exact carried.contained_of_kind (by simp [kind])

end Value

/-- Nothing that is bound is wrapped. -/
def Machine.Contained : Machine → Prop :=
  Machine.All fun value => value.contained = true

namespace Evaluation

open Bounded

section

variable {evaluate : Expr Nat → Nat → Evaluation Value}
  (carried : ∀ ⦃whole : Bool⦄ ⦃expr : Expr Nat⦄, expr.contained whole = true → ∀ scope,
    Keeps Machine.Contained (Value.Carried whole) (evaluate expr scope))

include carried

/-- An operand comes to a contained value. -/
theorem contained_operand {expr : Expr Nat} (contained : expr.contained false = true)
    (scope : Nat) :
    Keeps Machine.Contained (fun value => value.contained = true) (evaluate expr scope) :=
  (carried contained scope).mono fun _ inside => inside.contained

/-- Contained expressions one after the other come to contained values. -/
theorem contained_each {exprs : List (Expr Nat)} (contained : Expr.containedEach exprs = true)
    (scope : Nat) :
    Keeps Machine.Contained (fun values => ∀ value ∈ values, value.contained = true)
      (each evaluate scope exprs) := by
  induction exprs with
  | nil => exact keeps_pure (by simp)
  | cons first others inductionHypothesis =>
      obtain ⟨firstContained, othersContained⟩ := Bool.and_eq_true_iff.mp contained
      apply (contained_operand carried firstContained scope).bind
      intro value valueContained
      apply (inductionHypothesis othersContained).bind
      intro values valuesContained
      exact keeps_pure (List.forall_mem_cons.mpr ⟨valueContained, valuesContained⟩)

/-- A statement carries a wrapped value out only when it returns. -/
theorem carried_statement {stmt : Stmt Nat} (contained : stmt.contained = true) (scope : Nat) :
    Keeps Machine.Contained (fun result => ∀ value ∈ result, value.Carried stmt.returns)
      (statement evaluate scope stmt) := by
  cases stmt with
  | bind token name value =>
      apply (contained_operand carried contained scope).bind
      intro result resultContained
      apply (keeps_bindName scope name.name resultContained).bind
      intro _ _
      exact keeps_pure (by simp)
  | give token value =>
      apply (contained_operand carried contained scope).bind
      intro result resultContained
      apply keeps_pure
      rintro _ ⟨⟩
      exact .inr ⟨rfl, result, rfl, resultContained⟩
  | expression token value =>
      -- without a `return` in it the expression is as good as an operand
      have valueCarried : Keeps Machine.Contained (Value.Carried value.returns)
          (evaluate value scope) := by
        match returns : value.returns with
        | true => exact carried contained scope
        | false => exact carried (Expr.contained_inside contained returns) scope
      apply valueCarried.bind
      intro result resultCarried
      apply keeps_pure
      rintro _ ⟨⟩
      exact resultCarried

/-- Statements carry a wrapped value out only when one of them returns. -/
theorem carried_statements {stmts : List (Stmt Nat)} (contained : Stmt.containedAll stmts = true)
    (scope : Nat) {result : Value} (resultContained : result.contained = true) :
    Keeps Machine.Contained (Value.Carried (Stmt.returnsAny stmts))
      (statements evaluate scope result stmts) := by
  induction stmts generalizing result with
  | nil => exact keeps_pure (.inl resultContained)
  | cons first others inductionHypothesis =>
      obtain ⟨firstContained, othersContained⟩ := Bool.and_eq_true_iff.mp contained
      have othersCarried {result : Value} (resultContained : result.contained = true) :
          Keeps Machine.Contained (Value.Carried (Stmt.returnsAny (first :: others)))
            (statements evaluate scope result others) :=
        (inductionHypothesis othersContained resultContained).mono fun _ inside =>
          inside.mono (by simp +contextual [Stmt.returnsAny])
      apply (carried_statement carried firstContained scope).bind
      intro ends endsCarried
      match ends with
      | none => exact othersCarried rfl
      | some value =>
          have valueCarried := endsCarried value rfl
          by_cases returned : value.kind = .returned
          · cases value with
            | returned inner =>
                apply keeps_pure
                exact valueCarried.mono (by simp +contextual [Stmt.returnsAny])
            | _ => cases returned
          · have valueContained := valueCarried.contained_of_kind returned
            cases value with
            | returned inner => exact absurd rfl returned
            | _ => exact othersCarried valueContained

/-- A block carries a wrapped value out only when it returns. -/
theorem carried_block {body : Block Nat} (contained : body.contained = true) (scope : Nat) :
    Keeps Machine.Contained (Value.Carried body.returns) (block evaluate scope body) := by
  match body with
  | .mk token stmts => exact carried_statements carried contained scope rfl

/-- The value of a program is contained, since the program takes the wrapper off. -/
theorem contained_program {stmts : List (Stmt Nat)} (contained : Stmt.containedAll stmts = true)
    (scope : Nat) {result : Option Value}
    (resultContained : ∀ value ∈ result, value.contained = true) :
    Keeps Machine.Contained (fun result => ∀ value ∈ result, value.contained = true)
      (program evaluate scope result stmts) := by
  induction stmts generalizing result with
  | nil => exact keeps_pure resultContained
  | cons first others inductionHypothesis =>
      obtain ⟨firstContained, othersContained⟩ := Bool.and_eq_true_iff.mp contained
      apply (carried_statement carried firstContained scope).bind
      intro ends endsCarried
      match ends with
      | none => exact inductionHypothesis othersContained (by simp)
      | some value =>
          have valueCarried := endsCarried value rfl
          cases value with
          | returned inner =>
              apply keeps_pure
              rintro _ ⟨⟩
              exact valueCarried.of_returned
          | _ =>
              apply inductionHypothesis othersContained
              rintro _ ⟨⟩
              exact valueCarried.contained_of_kind (by simp [Value.kind])

/-- The value of a call is contained, since the call takes the wrapper off. -/
theorem contained_call {callee : Value} (calleeContained : callee.contained = true)
    {arguments : List Value} (argumentsContained : ∀ argument ∈ arguments,
      argument.contained = true) :
    Keeps Machine.Contained (fun value => value.contained = true)
      (call evaluate callee arguments) := by
  cases callee with
  | function closure =>
      simp only [call]
      split
      · exact keeps_fail _
      · apply (keeps_createScope closure argumentsContained).bind
        intro scope _
        apply (carried_block carried calleeContained scope).bind
        intro value valueCarried
        exact keeps_pure valueCarried.unwrap
  | builtin name function =>
      exact keeps_applyBuiltin Value.hereditary_contained function argumentsContained
  | _ => exact keeps_fail _

/-- An alternative carries a wrapped value out only when it returns. -/
theorem carried_alternative {otherwise : Option (Block Nat)}
    (contained : Block.containedElse otherwise = true) (scope : Nat) :
    Keeps Machine.Contained (Value.Carried (Block.returnsElse otherwise))
      (alternative evaluate scope otherwise) := by
  match otherwise with
  | none => exact keeps_pure (.inl rfl)
  | some body => exact carried_block carried contained scope

/-- A conditional may carry out what its blocks do where it is a whole statement. -/
theorem carried_conditional {whole : Bool} {token : Token} {condition : Expr Nat}
    {consequence : Block Nat} {otherwise : Option (Block Nat)}
    (contained :
      (Expr.conditional token condition consequence otherwise).contained whole = true)
    (builtins : Builtins) (scope : Nat) :
    Keeps Machine.Contained (Value.Carried whole)
      (node evaluate builtins scope (.conditional token condition consequence otherwise)) := by
  simp only [Expr.contained, Bool.and_eq_true] at contained
  obtain ⟨place, conditionContained, consequenceContained, otherwiseContained⟩ := contained
  have allowed : consequence.returns = true ∨ Block.returnsElse otherwise = true →
      whole = true := by
    intro returns
    cases whole with
    | true => rfl
    | false => rcases returns with returns | returns <;> simp [returns] at place
  apply (contained_operand carried conditionContained scope).bind
  intro value _
  split
  · apply (carried_block carried consequenceContained scope).mono
    intro result resultCarried
    exact resultCarried.mono fun returns => allowed (.inl returns)
  · apply (carried_alternative carried otherwiseContained scope).mono
    intro result resultCarried
    exact resultCarried.mono fun returns => allowed (.inr returns)

/-- Each kind of expression carries a wrapped value out only where it may. -/
theorem carried_node {whole : Bool} {expr : Expr Nat} (contained : expr.contained whole = true)
    (builtins : Builtins) (scope : Nat) :
    Keeps Machine.Contained (Value.Carried whole) (node evaluate builtins scope expr) := by
  have inside {computation : Evaluation Value}
      (keeps : Keeps Machine.Contained (fun value => value.contained = true) computation) :
      Keeps Machine.Contained (Value.Carried whole) computation :=
    keeps.mono fun _ => Value.carried_of_contained
  cases expr with
  | ident name =>
      apply inside
      apply keeps_ident
      intro value known
      obtain ⟨_, rfl⟩ := Builtins.exists_of_lookup known
      rfl
  | integer token value => exact keeps_pure (.inl rfl)
  | text token value => exact keeps_pure (.inl rfl)
  | boolean token value => exact keeps_pure (.inl rfl)
  | array token elements =>
      apply (contained_each carried contained scope).bind
      intro values valuesContained
      exact keeps_pure (.inl (Value.containedEach_iff.mpr valuesContained))
  | unary token operator operand =>
      apply (contained_operand carried contained scope).bind
      intro value _
      exact inside (keeps_settle (Operator.unary_yields Value.hereditary_contained _ _))
  | binary token left operator right =>
      obtain ⟨leftContained, rightContained⟩ := Bool.and_eq_true_iff.mp contained
      apply (contained_operand carried leftContained scope).bind
      intro leftValue _
      apply (contained_operand carried rightContained scope).bind
      intro rightValue _
      exact inside (keeps_settle (Operator.binary_yields Value.hereditary_contained _ _ _))
  | index token collection position =>
      obtain ⟨collectionContained, positionContained⟩ := Bool.and_eq_true_iff.mp contained
      apply (contained_operand carried collectionContained scope).bind
      intro value valueContained
      apply (contained_operand carried positionContained scope).bind
      intro place _
      exact inside
        (keeps_settle (Operator.index_yields Value.hereditary_contained valueContained _))
  | conditional token condition consequence otherwise =>
      exact carried_conditional carried contained builtins scope
  | function token label parameters body => exact keeps_pure (.inl contained)
  | call token callee arguments =>
      obtain ⟨calleeContained, argumentsContained⟩ := Bool.and_eq_true_iff.mp contained
      apply (contained_operand carried calleeContained scope).bind
      intro function functionContained
      apply (contained_each carried argumentsContained scope).bind
      intro values valuesContained
      exact inside (contained_call carried functionContained valuesContained)

end

/-- An expression carries a wrapped value out only where it may, to any depth. -/
theorem carried_expression (builtins : Builtins) (depth : Nat) ⦃whole : Bool⦄ ⦃expr : Expr Nat⦄
    (contained : expr.contained whole = true) (scope : Nat) :
    Keeps Machine.Contained (Value.Carried whole) (expression builtins depth expr scope) := by
  induction depth generalizing whole expr scope with
  | zero => exact keeps_exhausted
  | succ depth inductionHypothesis =>
      exact carried_node inductionHypothesis contained builtins scope

/-- The places where a `return` can bring a wrapped value. -/
def Place.returning : Place → Bool
  | .statement | .branch | .body => true
  | _ => false

/-- The task may stand in a place that takes wrapped values, or that takes none. -/
def Task.Contained (returning : Bool) : Task → Prop
  | .expression expr _ => expr.contained returning = true
  | .block body _ => returning = true ∧ body.contained = true
  | .program statements _ => Stmt.containedAll statements = true
  | .call callee arguments =>
      callee.contained = true ∧ ∀ argument ∈ arguments, argument.contained = true

/-- A moment at which both the task and the machine are contained. -/
structure Moment.Contained (returning : Bool) (moment : Moment) : Prop where
  task : moment.task.Contained returning
  machine : moment.machine.Contained

/-- A task that is contained where nothing returns is so where something may. -/
theorem Task.Contained.mono {returning : Bool} {task : Task}
    (contained : task.Contained returning) : task.Contained true := by
  match task, returning with
  | .expression expr _, true => exact contained
  | .expression expr _, false => exact Expr.contained_whole contained
  | .block body _, _ => exact ⟨rfl, contained.2⟩
  | .program statements _, _ => exact contained
  | .call callee arguments, _ => exact contained

/-- A task ends with a value that its place takes. -/
theorem Task.Contained.carried {returning : Bool} {task : Task}
    (contained : task.Contained returning) (builtins : Builtins) (depth : Nat) :
    Keeps Machine.Contained (fun result => ∀ value ∈ result, value.Carried returning)
      (task.run builtins depth) := by
  have expressions := carried_expression builtins depth
  have some {computation : Evaluation Value}
      (keeps : Keeps Machine.Contained (Value.Carried returning) computation) :
      Keeps Machine.Contained (fun result => ∀ value ∈ result, value.Carried returning)
        (computation >>= fun value => pure (some value)) := by
    apply keeps.bind
    intro value valueCarried
    apply keeps_pure
    rintro _ ⟨⟩
    exact valueCarried
  match task with
  | .expression expr scope => exact some (expressions contained scope)
  | .block body scope =>
      apply some
      apply (carried_block expressions contained.2 scope).mono
      intro value valueCarried
      exact valueCarried.mono fun _ => contained.1
  | .program statements scope =>
      apply (contained_program expressions contained scope (by simp)).mono
      intro result resultContained value isResult
      exact .inl (resultContained value isResult)
  | .call callee arguments =>
      apply some
      apply (contained_call expressions contained.1 contained.2).mono
      intro value valueContained
      exact .inl valueContained

/-- Expressions in a row are contained when those in front and those behind are. -/
theorem containedEach_append (earlier later : List (Expr Nat)) :
    Expr.containedEach (earlier ++ later) =
      (Expr.containedEach earlier && Expr.containedEach later) := by
  induction earlier with
  | nil => rfl
  | cons first others inductionHypothesis =>
      simp [Expr.containedEach, inductionHypothesis, Bool.and_assoc]

/-- Statements in a row are contained when those in front and those behind are. -/
theorem containedAll_append (earlier later : List (Stmt Nat)) :
    Stmt.containedAll (earlier ++ later) =
      (Stmt.containedAll earlier && Stmt.containedAll later) := by
  induction earlier with
  | nil => rfl
  | cons first others inductionHypothesis =>
      simp [Stmt.containedAll, inductionHypothesis, Bool.and_assoc]

/-- The expression of a contained statement is contained at its place. -/
theorem contained_value {stmt : Stmt Nat} (contained : stmt.contained = true) :
    stmt.value.contained (Place.ofStmt stmt).returning = true := by
  cases stmt <;> exact contained

section

variable {builtins : Builtins} {depth scope : Nat} {machine reached : Machine}

/-- After an operand the machine is contained, and so is the value. -/
theorem contained_after {expr : Expr Nat} {value : Value} (contained : expr.contained false = true)
    (start : machine.Contained)
    (ends : expression builtins depth expr scope machine = some (.ok value, reached)) :
    reached.Contained ∧ value.contained = true := by
  obtain ⟨kept, yields⟩ := carried_expression builtins depth contained scope start ends
  exact ⟨kept, (yields value rfl).contained⟩

/-- After operands the machine is contained, and so are the values. -/
theorem contained_after_each {exprs : List (Expr Nat)} {values : List Value}
    (contained : Expr.containedEach exprs = true) (start : machine.Contained)
    (ends : each (expression builtins depth) scope exprs machine = some (.ok values, reached)) :
    reached.Contained ∧ ∀ value ∈ values, value.contained = true := by
  obtain ⟨kept, yields⟩ :=
    contained_each (carried_expression builtins depth) contained scope start ends
  exact ⟨kept, yields values rfl⟩

/-- The statements before one leave a machine where nothing that is bound is wrapped. -/
theorem contained_statement_part {earlier later : List (Stmt Nat)} {stmt : Stmt Nat} {value : Value}
    (contained : Stmt.containedAll (earlier ++ stmt :: later) = true) (start : machine.Contained)
    (before : statements (expression builtins depth) scope .void earlier machine =
      some (.ok value, reached)) :
    Moment.Contained (Place.ofStmt stmt).returning
      ⟨depth, .expression stmt.value scope, reached⟩ := by
  rw [containedAll_append, Bool.and_eq_true, Stmt.containedAll, Bool.and_eq_true] at contained
  obtain ⟨earlierContained, stmtContained, _⟩ := contained
  have kept := carried_statements (carried_expression builtins depth) earlierContained scope
    (show Value.void.contained = true from rfl) start before
  exact ⟨contained_value stmtContained, kept.1⟩

end

/-- Every part of a contained task may stand in its place. -/
theorem Part.contained {builtins : Builtins} {whole part : Moment} {place : Place}
    (isPart : Part builtins whole place part) (contained : whole.Contained true) :
    part.Contained place.returning := by
  obtain ⟨task, start⟩ := contained
  cases isPart with
  | operand => exact ⟨task, start⟩
  | left => exact ⟨(Bool.and_eq_true_iff.mp task).1, start⟩
  | right first =>
      obtain ⟨leftContained, rightContained⟩ := Bool.and_eq_true_iff.mp task
      exact ⟨rightContained, (contained_after leftContained start first).1⟩
  | collection => exact ⟨(Bool.and_eq_true_iff.mp task).1, start⟩
  | position first =>
      obtain ⟨collectionContained, positionContained⟩ := Bool.and_eq_true_iff.mp task
      exact ⟨positionContained, (contained_after collectionContained start first).1⟩
  | condition =>
      simp only [Task.Contained, Expr.contained, Bool.and_eq_true] at task
      exact ⟨task.2.1, start⟩
  | consequence first =>
      simp only [Task.Contained, Expr.contained, Bool.and_eq_true] at task
      exact ⟨⟨rfl, task.2.2.1⟩, (contained_after task.2.1 start first).1⟩
  | alternative first =>
      simp only [Task.Contained, Expr.contained, Bool.and_eq_true] at task
      exact ⟨⟨rfl, task.2.2.2⟩, (contained_after task.2.1 start first).1⟩
  | element before =>
      simp only [Task.Contained, Expr.contained, containedEach_append, Expr.containedEach,
        Bool.and_eq_true] at task
      obtain ⟨earlierContained, elementContained, _⟩ := task
      exact ⟨elementContained, (contained_after_each earlierContained start before).1⟩
  | callee => exact ⟨(Bool.and_eq_true_iff.mp task).1, start⟩
  | argument first before =>
      simp only [Task.Contained, Expr.contained, containedEach_append, Expr.containedEach,
        Bool.and_eq_true] at task
      obtain ⟨calleeContained, earlierContained, argumentContained, _⟩ := task
      have middle := (contained_after calleeContained start first).1
      exact ⟨argumentContained, (contained_after_each earlierContained middle before).1⟩
  | application first before =>
      obtain ⟨calleeContained, argumentsContained⟩ := Bool.and_eq_true_iff.mp task
      obtain ⟨middle, functionContained⟩ := contained_after calleeContained start first
      obtain ⟨reached, valuesContained⟩ := contained_after_each argumentsContained middle before
      exact ⟨⟨functionContained, valuesContained⟩, reached⟩
  | @body _ _ closure _ enough =>
      obtain ⟨closureContained, argumentsContained⟩ := task
      exact ⟨⟨rfl, closureContained⟩, start.create (callScope_all closure argumentsContained)⟩
  | statement before => exact contained_statement_part task.2 start before
  | outermost before => exact contained_statement_part task start before

/-- Every moment within a contained one is contained. -/
theorem Within.contained {builtins : Builtins} {whole moment : Moment}
    (isWithin : Within builtins whole moment) (contained : whole.Contained true) :
    moment.Contained true := by
  induction isWithin with
  | refl => exact contained
  | tail _ isPart inductionHypothesis =>
      obtain ⟨place, isPart⟩ := isPart
      have partContained := isPart.contained inductionHypothesis
      exact ⟨partContained.task.mono, partContained.machine⟩

/-- In the evaluation of a contained program nothing that is bound, passed on or put into an array
and no operand is wrapped at any depth, a wrapped value comes out of statements and blocks only and
in a single layer, and neither a call nor the program ends with one. -/
theorem returns_contained (builtins : Builtins) (depth scope : Nat) {stmts : List (Stmt Nat)}
    {machine : Machine} (contained : Stmt.containedAll stmts = true) (start : machine.Contained) :
    (∀ moment, Within builtins ⟨depth, .program stmts scope, machine⟩ moment →
      moment.Contained true ∧
      ∀ place part, Part builtins moment place part →
        ∀ outcome after, part.ends builtins = some (outcome, after) →
          after.Contained ∧
            ∀ value, outcome = .ok (some value) → value.Carried place.returning) ∧
    ∀ outcome after,
      program (expression builtins depth) scope none stmts machine = some (outcome, after) →
        after.Contained ∧ ∀ value, outcome = .ok (some value) → value.contained = true := by
  constructor
  · intro moment isWithin
    have momentContained := isWithin.contained ⟨contained, start⟩
    refine ⟨momentContained, ?_⟩
    intro place part isPart outcome after ends
    have partContained := isPart.contained momentContained
    have keeps := partContained.task.carried builtins part.depth
    obtain ⟨kept, yields⟩ := keeps partContained.machine ends
    exact ⟨kept, fun value succeeds => yields (some value) succeeds value rfl⟩
  · intro outcome after ends
    obtain ⟨kept, yields⟩ := contained_program (carried_expression builtins depth) contained scope
      (by simp) start ends
    exact ⟨kept, fun value succeeds => yields (some value) succeeds value rfl⟩

/-- The program `if (true) { return 1; }` ends with 1, although the value of its statement is
wrapped. -/
theorem returns_contained_early :
    ∃ (stmt : Stmt Nat) (machine : Machine) (part : Moment),
      Stmt.containedAll [stmt] = true ∧ machine.Contained ∧
      Part .standard ⟨2, .program [stmt] 0, machine⟩ .statement part ∧
      part.ends .standard = some (.ok (some (.returned (.integer 1))), machine) ∧
      (Value.returned (.integer 1)).Carried true ∧
      program (expression .standard 2) 0 none [stmt] machine =
        some (.ok (some (.integer 1)), machine) ∧
      (Value.integer 1).contained = true := by
  let body : Block Nat := .mk ⟨.leftBrace, "\x7b"⟩
    [.give ⟨.returnWord, "return"⟩ (.integer ⟨.int, "1"⟩ 1)]
  let condition : Expr Nat := .boolean ⟨.trueWord, "true"⟩ true
  let value : Expr Nat := .conditional ⟨.ifWord, "if"⟩ condition body none
  let stmt : Stmt Nat := .expression ⟨.ifWord, "if"⟩ value
  let machine : Machine := ⟨⟨#[⟨[], none⟩]⟩, .buffer ""⟩
  let part : Moment := ⟨2, .expression value 0, machine⟩
  have contained : Stmt.containedAll [stmt] = true := rfl
  have start : machine.Contained := by
    intro scope member name bound found
    obtain rfl : scope = ⟨[], none⟩ := by simpa [machine] using member
    cases found
  have isPart : Part .standard ⟨2, .program [stmt] 0, machine⟩ .statement part := by
    have before : statements (expression .standard 2) 0 .void [] machine =
        some (.ok .void, machine) := rfl
    exact @Part.outermost _ _ _ _ _ stmt [] [] _ before (by decide)
  have partEnds : part.ends .standard =
      some (.ok (some (.returned (.integer 1))), machine) := rfl
  have wholeEnds : program (expression .standard 2) 0 none [stmt] machine =
      some (.ok (some (.integer 1)), machine) := rfl
  obtain ⟨parts, final⟩ := returns_contained .standard 2 0 contained start
  have carried := ((parts _ .refl).2 _ _ isPart _ _ partEnds).2 _ rfl
  have plain := (final _ _ wholeEnds).2 _ rfl
  exact ⟨stmt, machine, part, contained, start, isPart, partEnds, carried, wholeEnds, plain⟩

end Evaluation

end Monkey
