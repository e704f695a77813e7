import Monkey.Evaluation
import Monkey.Proofs.Value.Alike

/-!
Evaluation in two heaps whose scopes are linked. The link says which scopes stand for each other,
those that are still to be created included; from linked scopes of heaps that agree along the link,
both evaluations end alike, and the heaps that they reach agree along the same link. How closely
linked scopes have to agree is left open: evaluation needs no more than that they show alike values
under every name.
-/

namespace Monkey

/-- Both bind one name to values that are alike. -/
def Binding.Alike (link : Nat → Nat → Prop) (first second : String × Value) : Prop :=
  first.1 = second.1 ∧ Value.Alike link first.2 second.2

/-- Both scopes have the same bindings in the same order, and lie in linked scopes. -/
structure Scope.Alike (link : Nat → Nat → Prop) (first second : Scope) : Prop where
  bindings : List.Forall₂ (Binding.Alike link) first.bindings second.bindings
  outer : Option.Rel link first.outer second.outer

/-- Both scopes show alike values under every name, whatever earlier bindings these hide, and lie in
linked scopes. -/
structure Scope.Similar (link : Nat → Nat → Prop) (first second : Scope) : Prop where
  bindings : ∀ name, Option.Rel (Value.Alike link) (first.bindings.lookup name)
    (second.bindings.lookup name)
  outer : Option.Rel link first.outer second.outer

/-- Linked scopes are related, and the scopes that will be created next are linked. -/
structure Heap.Alike (link : Nat → Nat → Prop) (scopes : Scope → Scope → Prop)
    (first second : Heap) : Prop where
  scopes : ∀ ⦃number other : Nat⦄, link number other →
    Option.Rel scopes first.scopes[number]? second.scopes[other]?
  fresh : ∀ count, link (first.size + count) (second.size + count)

/-- Two machines whose heaps are alike and whose outputs are related. -/
structure Machine.Alike (link : Nat → Nat → Prop) (scopes : Scope → Scope → Prop)
    (related : Output → Output → Prop) (first second : Machine) : Prop where
  heap : first.heap.Alike link scopes second.heap
  output : related first.output second.output

variable {link : Nat → Nat → Prop}

/-- A scope is like itself when each scope that it refers to is linked to itself. -/
theorem Scope.alike_self {scope : Scope} (outer : ∀ outer ∈ scope.outer, link outer outer)
    (bound : ∀ binding ∈ scope.bindings, ∀ captured ∈ binding.2.captured, link captured captured) :
    Scope.Alike link scope scope where
  bindings := List.forall₂_same.mpr fun binding member =>
    ⟨rfl, binding.2.alike_self (bound binding member)⟩
  outer := by
    generalize scope.outer = around at outer
    cases around with
    | none => exact .none
    | some number => exact .some (outer number rfl)

/-- Scopes stay alike when a name is bound to alike values. -/
theorem Scope.Alike.bind {first second : Scope} (alike : Scope.Alike link first second)
    (name : String) {left right : Value} (values : Value.Alike link left right) :
    Scope.Alike link (first.bind name left) (second.bind name right) :=
  ⟨.cons ⟨rfl, values⟩ alike.bindings, alike.outer⟩

/-- Alike bindings have alike values under each name. -/
theorem Binding.lookup_alike {firsts seconds : List (String × Value)}
    (all : List.Forall₂ (Binding.Alike link) firsts seconds) (name : String) :
    Option.Rel (Value.Alike link) (firsts.lookup name) (seconds.lookup name) := by
  induction all with
  | nil => exact .none
  | @cons left right lefts rights pair _ inductionHypothesis =>
      obtain ⟨leftName, leftValue⟩ := left
      obtain ⟨rightName, rightValue⟩ := right
      obtain ⟨rfl, values⟩ : leftName = rightName ∧ Value.Alike link leftValue rightValue := pair
      rw [List.lookup_cons, List.lookup_cons]
      split
      · exact .some values
      · exact inductionHypothesis

/-- Scopes that are alike in their bindings are so in what is found there. -/
theorem Scope.Alike.similar {first second : Scope} (alike : Scope.Alike link first second) :
    Scope.Similar link first second :=
  ⟨fun name => Binding.lookup_alike alike.bindings name, alike.outer⟩

/-- Scopes stay similar when a name is bound to alike values. -/
theorem Scope.Similar.bind {first second : Scope} (similar : Scope.Similar link first second)
    (name : String) {left right : Value} (values : Value.Alike link left right) :
    Scope.Similar link (first.bind name left) (second.bind name right) where
  bindings := by
    intro sought
    simp only [Scope.bind, List.lookup_cons]
    split
    · exact .some values
    · exact similar.bindings sought
  outer := similar.outer

/-- A relation that holds when scopes are created alike and as long as alike values are bound in
them, and that shows in alike values under every name. -/
structure Scope.Tracked (link : Nat → Nat → Prop) (scopes : Scope → Scope → Prop) : Prop where
  created : ∀ ⦃first second : Scope⦄, Scope.Alike link first second → scopes first second
  bound : ∀ ⦃first second : Scope⦄, scopes first second → ∀ (name : String) ⦃left right : Value⦄,
    Value.Alike link left right → scopes (first.bind name left) (second.bind name right)
  similar : ∀ ⦃first second : Scope⦄, scopes first second → Scope.Similar link first second

/-- Likeness of scopes keeps up with all that happens to them. -/
theorem Scope.tracked_alike : Scope.Tracked link (Scope.Alike link) :=
  ⟨fun _ _ alike => alike, fun _ _ alike name _ _ values => alike.bind name values,
    fun _ _ alike => alike.similar⟩

/-- Similarity of scopes keeps up with all that happens to them. -/
theorem Scope.tracked_similar : Scope.Tracked link (Scope.Similar link) :=
  ⟨fun _ _ alike => alike.similar, fun _ _ similar name _ _ values => similar.bind name values,
    fun _ _ similar => similar⟩

namespace Heap

variable {first second : Heap} {scopes : Scope → Scope → Prop}

/-- Heaps stay alike when related scopes are created. -/
theorem Alike.create (ordered : Ordered link) (alike : first.Alike link scopes second)
    {left right : Scope} (related : scopes left right) :
    (first.create left).2.Alike link scopes (second.create right).2 where
  scopes := by
    intro number other linked
    change Option.Rel _ (first.scopes.push left)[number]? (second.scopes.push right)[other]?
    have created : number = first.scopes.size ↔ other = second.scopes.size :=
      ordered.eq_iff linked (alike.fresh 0)
    rw [Array.getElem?_push, Array.getElem?_push]
    by_cases isCreated : number = first.scopes.size
    · rw [if_pos isCreated, if_pos (created.mp isCreated)]
      exact .some related
    · rw [if_neg isCreated, if_neg fun same => isCreated (created.mpr same)]
      exact alike.scopes linked
  fresh := by
    intro count
    have later := alike.fresh (count + 1)
    simpa [Heap.create, Heap.size, Nat.add_assoc, Nat.add_comm 1 count] using later

/-- Heaps stay alike when alike values are bound in linked scopes. -/
theorem Alike.bind (ordered : Ordered link) (tracked : Scope.Tracked link scopes)
    (alike : first.Alike link scopes second) {scope other : Nat} (linked : link scope other)
    (name : String) {left right : Value} (values : Value.Alike link left right) :
    (first.bind scope name left).Alike link scopes (second.bind other name right) where
  scopes := by
    intro number another alsoLinked
    have own : scope = number ↔ other = another := ordered.eq_iff linked alsoLinked
    have before := alike.scopes alsoLinked
    simp only [Heap.bind, Array.getElem?_modify]
    generalize first.scopes[number]? = leftFound at before
    generalize second.scopes[another]? = rightFound at before
    by_cases isOwn : scope = number
    · rw [if_pos isOwn, if_pos (own.mp isOwn)]
      cases before with
      | none => exact .none
      | some related => exact .some (tracked.bound related name values)
    · rw [if_neg isOwn, if_neg fun same => isOwn (own.mpr same)]
      exact before
  fresh := by
    intro count
    simpa [Heap.bind, Heap.size] using alike.fresh count

/-- The search for a name goes outward through linked scopes. -/
theorem Alike.lookup (ordered : Ordered link) (tracked : Scope.Tracked link scopes)
    (alike : first.Alike link scopes second) {number other : Nat} (linked : link number other)
    (name : String) :
    Option.Rel (Value.Alike link) (first.lookup number name) (second.lookup other name) := by
  induction number using Nat.strongRecOn generalizing other with
  | ind number inductionHypothesis =>
      have found := alike.scopes linked
      rw [Heap.lookup, Heap.lookup]
      generalize first.scopes[number]? = leftFound at found
      generalize second.scopes[other]? = rightFound at found
      cases found with
      | none => exact .none
      | @some left right related =>
          have bound := (tracked.similar related).bindings name
          have outer := (tracked.similar related).outer
          dsimp only
          generalize left.bindings.lookup name = leftBound at bound
          generalize right.bindings.lookup name = rightBound at bound
          generalize left.outer = leftOuter at outer
          generalize right.outer = rightOuter at outer
          cases bound with
          | some values => exact .some values
          | none =>
              cases outer with
              | none => exact .none
              | @some outer otherOuter outerLinked =>
                  have older := ordered outerLinked linked
                  by_cases isOlder : outer < number
                  · simp only [if_pos isOlder, if_pos (older.mp isOlder)]
                    exact inductionHypothesis outer isOlder outerLinked
                  · simp only [if_neg isOlder, if_neg fun less => isOlder (older.mpr less)]
                    exact .none

end Heap

namespace Evaluation

open Bounded

/-- Alike values are alike without their wrappers. -/
theorem unwrap_alike {first second : Value} (alike : Value.Alike link first second) :
    Value.Alike link (unwrap first) (unwrap second) := by
  have whole := alike
  cases alike with
  | returned alike => exact alike
  | _ => exact whole

/-- Calls of functions that are alike start in scopes that are alike. -/
theorem callScope_alike (closure : Closure) {scope : Nat} (linked : link closure.scope scope)
    {firsts seconds : List Value} (all : List.Forall₂ (Value.Alike link) firsts seconds) :
    Scope.Alike link (callScope closure firsts)
      (callScope { closure with scope } seconds) := by
  refine ⟨List.rel_reverse ?_, .some linked⟩
  change List.Forall₂ _ ((closure.parameters.map Ident.name).zip firsts)
    ((closure.parameters.map Ident.name).zip seconds)
  generalize closure.parameters.map Ident.name = names
  induction all generalizing names with
  | nil => simp
  | cons alike _ inductionHypothesis =>
      cases names with
      | nil => exact .nil
      | cons name names => exact .cons ⟨rfl, alike⟩ (inductionHypothesis names)

/-- The steps that touch a machine keep two machines related and have results that are alike, when
the scopes and values that they are given are. -/
structure Simulation (link : Nat → Nat → Prop) (states : Machine → Machine → Prop) : Prop where
  ordered : Ordered link
  lookup : ∀ ⦃scope other : Nat⦄, link scope other → ∀ name : String,
    InStep states (Option.Rel (Value.Alike link))
      (inspect fun machine => machine.heap.lookup scope name : Evaluation (Option Value))
      (inspect fun machine => machine.heap.lookup other name)
  bindName : ∀ ⦃scope other : Nat⦄, link scope other → ∀ (name : String) ⦃left right : Value⦄,
    Value.Alike link left right →
    InStep states (fun _ _ => True) (bindName scope name left) (bindName other name right)
  createScope : ∀ ⦃left right : Scope⦄, Scope.Alike link left right →
    InStep states link (createScope left) (createScope right)
  applyBuiltin : ∀ (function : Builtin) ⦃firsts seconds : List Value⦄,
    List.Forall₂ (Value.Alike link) firsts seconds →
    InStep states (Value.Alike link) (applyBuiltin function firsts) (applyBuiltin function seconds)

/-- Machines that are alike are a simulation, however closely their scopes are related. -/
theorem simulation_alike {related : Output → Output → Prop} {scopes : Scope → Scope → Prop}
    (ordered : Ordered link) (parallel : Output.Parallel related)
    (tracked : Scope.Tracked link scopes) :
    Simulation link (Machine.Alike link scopes related) where
  ordered := ordered
  lookup := by
    intro scope other linked name
    exact inStep_inspect fun _ _ alike => alike.heap.lookup ordered tracked linked name
  bindName := by
    intro scope other linked name left right values first second alike
    exact .some ⟨.ok trivial, ⟨alike.heap.bind ordered tracked linked name values, alike.output⟩⟩
  createScope := by
    intro left right created first second alike
    have heaps := alike.heap.create ordered (tracked.created created)
    exact .some ⟨.ok (alike.heap.fresh 0), ⟨heaps, alike.output⟩⟩
  applyBuiltin := by
    intro function firsts seconds all
    apply inStep_step
    intro first second alike
    obtain ⟨outcomes, outputs⟩ := Builtin.apply_alike parallel alike.output function all
    exact ⟨outcomes, ⟨alike.heap, outputs⟩⟩

/-- A name is looked up in step in linked scopes. -/
theorem inStep_ident {states : Machine → Machine → Prop} (simulation : Simulation link states)
    (builtins : Builtins) {scope other : Nat} (linked : link scope other) (name : String) :
    InStep states (Value.Alike link) (ident builtins scope name) (ident builtins other name) := by
  apply (simulation.lookup linked name).bind
  intro _ _ values
  cases values with
  | some values => exact inStep_pure values
  | none =>
      simp only [Builtins.lookup]
      cases builtins.entries.lookup name with
      | none => exact inStep_fail _
      | some function => exact inStep_pure (.builtin name function)

section

variable {states : Machine → Machine → Prop} (simulation : Simulation link states)
  {evaluate : Expr Nat → Nat → Evaluation Value}
  (inStep : ∀ ⦃scope other : Nat⦄, link scope other → ∀ expr,
    InStep states (Value.Alike link) (evaluate expr scope) (evaluate expr other))
  {scope other : Nat} (linked : link scope other)

include inStep linked

/-- Expressions one after the other are in step. -/
theorem inStep_each (exprs : List (Expr Nat)) :
    InStep states (List.Forall₂ (Value.Alike link)) (each evaluate scope exprs)
      (each evaluate other exprs) := by
  induction exprs with
  | nil => exact inStep_pure .nil
  | cons first others inductionHypothesis =>
      exact (inStep linked first).bind fun _ _ value =>
        inductionHypothesis.bind fun _ _ values => inStep_pure (.cons value values)

include simulation

/-- A statement is in step in linked scopes. -/
theorem inStep_statement (stmt : Stmt Nat) :
    InStep states (Option.Rel (Value.Alike link)) (statement evaluate scope stmt)
      (statement evaluate other stmt) := by
  cases stmt with
  | bind token name value =>
      apply (inStep linked value).bind
      intro _ _ values
      exact (simulation.bindName linked name.name values).bind fun _ _ _ => inStep_pure .none
  | give token value =>
      exact (inStep linked value).bind fun _ _ values => inStep_pure (.some (.returned values))
  | expression token value =>
      exact (inStep linked value).bind fun _ _ values => inStep_pure (.some values)

/-- Statements one after the other are in step. -/
theorem inStep_statements (stmts : List (Stmt Nat)) {left right : Value}
    (results : Value.Alike link left right) :
    InStep states (Value.Alike link) (statements evaluate scope left stmts)
      (statements evaluate other right stmts) := by
  induction stmts generalizing left right with
  | nil => exact inStep_pure results
  | cons first others inductionHypothesis =>
      apply (inStep_statement simulation inStep linked first).bind
      intro _ _ ends
      cases ends with
      | none => exact inductionHypothesis .void
      | some values =>
          have whole := values
          cases values with
          | returned values => exact inStep_pure (.returned values)
          | _ => exact inductionHypothesis whole

/-- A block is in step in linked scopes. -/
theorem inStep_block (body : Block Nat) :
    InStep states (Value.Alike link) (block evaluate scope body) (block evaluate other body) :=
  inStep_statements simulation inStep linked body.statements .void

/-- The statements of a program are in step in linked scopes. -/
theorem inStep_program (stmts : List (Stmt Nat)) {left right : Option Value}
    (results : Option.Rel (Value.Alike link) left right) :
    InStep states (Option.Rel (Value.Alike link)) (program evaluate scope left stmts)
      (program evaluate other right stmts) := by
  induction stmts generalizing left right with
  | nil => exact inStep_pure results
  | cons first others inductionHypothesis =>
      apply (inStep_statement simulation inStep linked first).bind
      intro _ _ ends
      cases ends with
      | none => exact inductionHypothesis .none
      | some values =>
          have whole := values
          cases values with
          | returned values => exact inStep_pure (.some values)
          | _ => exact inductionHypothesis (.some whole)

/-- An alternative is in step in linked scopes. -/
theorem inStep_alternative (otherwise : Option (Block Nat)) :
    InStep states (Value.Alike link) (alternative evaluate scope otherwise)
      (alternative evaluate other otherwise) := by
  cases otherwise with
  | none => exact inStep_pure .null
  | some body => exact inStep_block simulation inStep linked body

omit linked

/-- Functions that are alike, applied to arguments that are alike. -/
theorem inStep_call {callee function : Value} (callees : Value.Alike link callee function)
    {firsts seconds : List Value} (all : List.Forall₂ (Value.Alike link) firsts seconds) :
    InStep states (Value.Alike link) (call evaluate callee firsts)
      (call evaluate function seconds) := by
  have length := all.length_eq
  cases callees with
  | function closure scopesLinked =>
      simp only [call, length]
      split
      · exact inStep_fail _
      · have scopes := callScope_alike closure scopesLinked all
        apply (simulation.createScope scopes).bind
        intro _ _ created
        exact (inStep_block simulation inStep created closure.body).bind fun _ _ values =>
          inStep_pure (unwrap_alike values)
  | builtin name function => exact simulation.applyBuiltin function all
  | _ => exact inStep_fail _

include linked

/-- Each kind of expression is in step when its parts are. -/
theorem inStep_node (builtins : Builtins) (expr : Expr Nat) :
    InStep states (Value.Alike link) (node evaluate builtins scope expr)
      (node evaluate builtins other expr) := by
  cases expr with
  | ident name => exact inStep_ident simulation builtins linked name.name
  | integer token value => exact inStep_pure (.integer value)
  | text token value => exact inStep_pure (.text value)
  | boolean token value => exact inStep_pure (.boolean value)
  | array token elements =>
      exact (inStep_each inStep linked elements).bind fun _ _ values => inStep_pure (.array values)
  | unary token operator operand =>
      apply (inStep linked operand).bind
      intro _ _ values
      apply inStep_settle
      rw [Operator.unary_eq operator values]
      exact (Operator.plain_unary _ _).alike
  | binary token left operator right =>
      apply (inStep linked left).bind
      intro _ _ lefts
      apply (inStep linked right).bind
      intro _ _ rights
      apply inStep_settle
      rw [Operator.binary_eq simulation.ordered operator lefts rights]
      exact (Operator.plain_binary _ _ _).alike
  | index token collection position =>
      apply (inStep linked collection).bind
      intro _ _ collections
      exact (inStep linked position).bind fun _ _ positions =>
        inStep_settle (Operator.index_alike collections positions)
  | conditional token condition consequence otherwise =>
      apply (inStep linked condition).bind
      intro _ _ conditions
      rw [conditions.isTruthy_eq]
      split
      · exact inStep_block simulation inStep linked consequence
      · exact inStep_alternative simulation inStep linked otherwise
  | function token label parameters body =>
      exact inStep_pure (.function ⟨label, parameters, body, scope⟩ linked)
  | call token callee arguments =>
      apply (inStep linked callee).bind
      intro _ _ callees
      exact (inStep_each inStep linked arguments).bind fun _ _ values =>
        inStep_call simulation inStep callees values

end

/-- An expression is in step in linked scopes, by induction on the depth. -/
theorem inStep_expression {states : Machine → Machine → Prop}
    (simulation : Simulation link states) (builtins : Builtins) (depth : Nat) ⦃scope other : Nat⦄
    (linked : link scope other) (expr : Expr Nat) :
    InStep states (Value.Alike link) (expression builtins depth expr scope)
      (expression builtins depth expr other) := by
  induction depth generalizing expr scope other with
  | zero => exact inStep_exhausted
  | succ depth inductionHypothesis =>
      exact inStep_node simulation inductionHypothesis linked builtins expr

end Evaluation

end Monkey
