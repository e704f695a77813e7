import Monkey.Proofs.Evaluation.Containment
import Monkey.Session

/-!
What a session shows of a `return`. A program takes one layer of wrapping off its result. That is
all there is when every `return` of the text is contained, and then the answer of a fresh session is
plain. A `return` inside of the value of another one adds a second layer, and the answer has it.
-/

namespace Monkey

mutual

/-- A label says nothing about what a function does, so labelling keeps the `return`s. -/
theorem Expr.returns_label (expr : Expr Unit) (next : Nat) :
    (expr.label next).1.returns = expr.returns := by
  match expr with
  | .ident _ | .integer _ _ | .text _ _ | .boolean _ _ => rfl
  | .array _ elements => exact Expr.returnsAny_labelEach elements next
  | .unary _ _ operand => exact operand.returns_label next
  | .binary _ left _ right =>
      exact congrArg₂ or (left.returns_label next) (right.returns_label _)
  | .index _ collection position =>
      exact congrArg₂ or (collection.returns_label next) (position.returns_label _)
  | .conditional _ condition consequence alternative =>
      exact congrArg₂ or (condition.returns_label next)
        (congrArg₂ or (consequence.returns_label _) (Block.returnsElse_labelElse alternative _))
  | .function _ _ _ _ => rfl
  | .call _ callee arguments =>
      exact congrArg₂ or (callee.returns_label next) (Expr.returnsAny_labelEach arguments _)

theorem Expr.returnsAny_labelEach (exprs : List (Expr Unit)) (next : Nat) :
    Expr.returnsAny (Expr.labelEach exprs next).1 = Expr.returnsAny exprs := by
  match exprs with
  | [] => rfl
  | first :: others =>
      exact congrArg₂ or (first.returns_label next) (Expr.returnsAny_labelEach others _)

/-- Labels do not change whether a statement returns. -/
theorem Stmt.returns_label (stmt : Stmt Unit) (next : Nat) :
    (stmt.label next).1.returns = stmt.returns := by
  match stmt with
  | .bind _ _ value => exact value.returns_label next
  | .give _ _ => rfl
  | .expression _ value => exact value.returns_label next

theorem Stmt.returnsAny_labelEach (stmts : List (Stmt Unit)) (next : Nat) :
    Stmt.returnsAny (Stmt.labelEach stmts next).1 = Stmt.returnsAny stmts := by
  match stmts with
  | [] => rfl
  | first :: others =>
      exact congrArg₂ or (first.returns_label next) (Stmt.returnsAny_labelEach others _)

/-- Labels do not change whether a block returns. -/
theorem Block.returns_label (block : Block Unit) (next : Nat) :
    (block.label next).1.returns = block.returns := by
  match block with
  | .mk _ stmts => exact Stmt.returnsAny_labelEach stmts next

theorem Block.returnsElse_labelElse (otherwise : Option (Block Unit)) (next : Nat) :
    Block.returnsElse (Block.labelElse otherwise next).1 = Block.returnsElse otherwise := by
  match otherwise with
  | none => rfl
  | some block => exact block.returns_label next

end

mutual

/-- Labels do not change whether an expression is contained. -/
theorem Expr.contained_label (whole : Bool) (expr : Expr Unit) (next : Nat) :
    (expr.label next).1.contained whole = expr.contained whole := by
  match expr with
  | .ident _ | .integer _ _ | .text _ _ | .boolean _ _ => rfl
  | .array _ elements => exact Expr.containedEach_labelEach elements next
  | .unary _ _ operand => exact operand.contained_label false next
  | .binary _ left _ right =>
      exact congrArg₂ and (left.contained_label false next) (right.contained_label false _)
  | .index _ collection position =>
      exact congrArg₂ and (collection.contained_label false next)
        (position.contained_label false _)
  | .conditional _ condition consequence alternative =>
      -- the branches are labelled from the numbers that are free behind the condition
      have returns := congrArg₂ or (consequence.returns_label (condition.label next).2)
        (Block.returnsElse_labelElse alternative (consequence.label (condition.label next).2).2)
      have branches :=
        congrArg₂ and (consequence.contained_label (condition.label next).2)
          (Block.containedElse_labelElse alternative
            (consequence.label (condition.label next).2).2)
      exact congrArg₂ and (congrArg (fun returns => whole || !returns) returns)
        (congrArg₂ and (condition.contained_label false next) branches)
  | .function _ _ _ body => exact body.contained_label (next + 1)
  | .call _ callee arguments =>
      exact congrArg₂ and (callee.contained_label false next)
        (Expr.containedEach_labelEach arguments _)

theorem Expr.containedEach_labelEach (exprs : List (Expr Unit)) (next : Nat) :
    Expr.containedEach (Expr.labelEach exprs next).1 = Expr.containedEach exprs := by
  match exprs with
  | [] => rfl
  | first :: others =>
      exact congrArg₂ and (first.contained_label false next)
        (Expr.containedEach_labelEach others _)

/-- Labels do not change whether a statement is contained. -/
theorem Stmt.contained_label (stmt : Stmt Unit) (next : Nat) :
    (stmt.label next).1.contained = stmt.contained := by
  match stmt with
  | .bind _ _ value => exact value.contained_label false next
  | .give _ value => exact value.contained_label false next
  | .expression _ value => exact value.contained_label true next

theorem Stmt.containedAll_labelEach (stmts : List (Stmt Unit)) (next : Nat) :
    Stmt.containedAll (Stmt.labelEach stmts next).1 = Stmt.containedAll stmts := by
  match stmts with
  | [] => rfl
  | first :: others =>
      exact congrArg₂ and (first.contained_label next) (Stmt.containedAll_labelEach others _)

/-- Labels do not change whether a block is contained. -/
theorem Block.contained_label (block : Block Unit) (next : Nat) :
    (block.label next).1.contained = block.contained := by
  match block with
  | .mk _ stmts => exact Stmt.containedAll_labelEach stmts next

theorem Block.containedElse_labelElse (otherwise : Option (Block Unit)) (next : Nat) :
    Block.containedElse (Block.labelElse otherwise next).1 = Block.containedElse otherwise := by
  match otherwise with
  | none => rfl
  | some block => exact block.contained_label next

end

/-- Labels do not change whether a program is contained. -/
theorem Program.contained_label (program : Program Unit) (next : Nat) :
    (program.label next).1.contained = program.contained :=
  Stmt.containedAll_labelEach program.statements next

/-- What is contained is not wrapped. -/
theorem Value.kind_ne_returned {value : Value} (contained : value.contained = true) :
    value.kind ≠ .returned := by
  cases value with
  | returned inner => cases contained
  | _ => simp [kind]

namespace Session

/-- The session that a program of its own starts with: one scope, and nothing bound in it. -/
def fresh (output : Output) : Nat × Session :=
  (start .standard output).createScope none

/-- A fresh machine binds nothing, so everything holds of what it binds. -/
theorem fresh_all {holds : Value → Prop} (output : Output) :
    (fresh output).2.machine.All holds := by
  have scopeAll : Scope.All holds ⟨[], none⟩ := by
    intro name value bound
    cases bound
  exact Heap.all_empty.create scopeAll

/-- A fresh machine is contained. -/
theorem fresh_contained (output : Output) : (fresh output).2.machine.Contained :=
  fresh_all output

variable {session after : Session} {depth scope : Nat}

/-- Neither the bindings nor the value of a contained program are wrapped. An error, which is a
value here, is not wrapped either. -/
theorem evaluate_contained {program : Program Nat} {result : Option Value}
    (contained : program.contained = true) (start : session.machine.Contained)
    (ends : session.evaluate depth program scope = some (result, after)) :
    after.machine.Contained ∧ ∀ value ∈ result, value.contained = true := by
  have nothing : ∀ value ∈ (none : Option Value), value.contained = true := by simp
  have keeps := Evaluation.contained_program
    (Evaluation.carried_expression session.builtins depth) contained scope nothing
  simp only [evaluate] at ends
  split at ends
  · cases ends
  · next machine reached =>
      cases ends
      obtain ⟨kept, yields⟩ := keeps start reached
      exact ⟨kept, yields result rfl⟩
  · next error machine reached =>
      cases ends
      refine ⟨(keeps start reached).1, ?_⟩
      rintro _ ⟨⟩
      rfl

/-- A run of a contained source leaves a contained machine and a contained value. -/
theorem run_contained {source : String} {result : Option Value}
    (contained : (Program.read source).1.contained = true) (start : session.machine.Contained)
    (ends : session.run depth source scope = some (.ok result, after)) :
    after.machine.Contained ∧ ∀ value ∈ result, value.contained = true := by
  simp only [run] at ends
  split at ends
  · next program readsAll =>
      rw [readsAll] at contained
      have labelled : (session.load program).1.contained = true :=
        (program.contained_label session.nextLabel).trans contained
      have loaded : (session.load program).2.machine.Contained := start
      split at ends
      · cases ends
      · next evaluated =>
          cases ends
          exact evaluate_contained labelled loaded evaluated
  · cases ends

/-- A fresh session answers a text in which every `return` is contained with a plain value: not a
wrapped one, and none that has a wrapped one inside. -/
theorem run_plain (output : Output) (depth : Nat) {source : String} {value : Value}
    (contained : (Program.read source).1.contained = true)
    (ends : (fresh output).2.run depth source (fresh output).1 = some (.ok (some value), after)) :
    value.kind ≠ .returned ∧ value.contained = true := by
  have plain := (run_contained contained (fresh_contained output) ends).2 value rfl
  exact ⟨Value.kind_ne_returned plain, plain⟩

/-- The text `if (true) { return 1; }` is answered with 1. -/
theorem run_plain_early :
    ∃ after, (fresh (.buffer "")).2.run 3 "if (true) \x7b return 1; \x7d" (fresh (.buffer "")).1 =
        some (.ok (some (.integer 1)), after) ∧
      (Value.integer 1).kind ≠ .returned ∧ (Value.integer 1).contained = true := by
  have answered : ((fresh (.buffer "")).2.run 3 "if (true) \x7b return 1; \x7d"
      (fresh (.buffer "")).1).map Prod.fst = some (.ok (some (.integer 1))) := by
    with_unfolding_all rfl
  obtain ⟨⟨_, after⟩, ends, rfl⟩ := Option.map_eq_some_iff.mp answered
  have contained : (Program.read "if (true) \x7b return 1; \x7d").1.contained = true := by
    with_unfolding_all rfl
  exact ⟨after, ends, run_plain (.buffer "") 3 contained ends⟩

/-- The text `return if (true) { return 1; };` has no syntax errors, and is answered with a wrapped
1: the inner `return` is not contained, and only the wrapping of the outer one is taken off. -/
theorem run_return_of_return :
    ((fresh (.buffer "")).2.run 3 "return if (true) \x7b return 1; \x7d;"
      (fresh (.buffer "")).1).map Prod.fst =
        some (.ok (some (.returned (.integer 1)))) := by
  with_unfolding_all rfl

end Session

end Monkey
