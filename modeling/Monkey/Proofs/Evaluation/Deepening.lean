import Monkey.Evaluation
import Monkey.Proofs.Bounded

/-!
The bound on the depth only decides whether evaluation ends. Where it ends, it ends in the same way
under every larger bound.
-/

namespace Monkey.Evaluation

open Bounded

section

variable {first second : Expr Nat → Nat → Evaluation Value}
  (refines : ∀ expr scope, Refines (first expr scope) (second expr scope))

include refines

/-- Expressions one after the other refine when each evaluation does. -/
theorem refines_each (scope : Nat) (exprs : List (Expr Nat)) :
    Refines (each first scope exprs) (each second scope exprs) := by
  induction exprs with
  | nil => exact refines_refl _
  | cons expr others inductionHypothesis =>
      exact (refines expr scope).bind fun _ => inductionHypothesis.bind fun _ => refines_refl _

/-- A statement refines when the evaluation of its expression does. -/
theorem refines_statement (scope : Nat) (stmt : Stmt Nat) :
    Refines (statement first scope stmt) (statement second scope stmt) := by
  cases stmt with
  | bind token name value =>
      exact (refines value scope).bind fun _ => (refines_refl _).bind fun _ => refines_refl _
  | give token value => exact (refines value scope).bind fun _ => refines_refl _
  | expression token value => exact (refines value scope).bind fun _ => refines_refl _

/-- Statements refine when each of them does. -/
theorem refines_statements (scope : Nat) (result : Value) (stmts : List (Stmt Nat)) :
    Refines (statements first scope result stmts) (statements second scope result stmts) := by
  induction stmts generalizing result with
  | nil => exact refines_refl _
  | cons stmt others inductionHypothesis =>
      apply (refines_statement refines scope stmt).bind
      intro ends
      split
      · exact refines_refl _
      · exact inductionHypothesis _
      · exact inductionHypothesis _

/-- The statements of a program refine when each of them does. -/
theorem refines_program (scope : Nat) (result : Option Value) (stmts : List (Stmt Nat)) :
    Refines (program first scope result stmts) (program second scope result stmts) := by
  induction stmts generalizing result with
  | nil => exact refines_refl _
  | cons stmt others inductionHypothesis =>
      apply (refines_statement refines scope stmt).bind
      intro ends
      split
      · exact refines_refl _
      · exact inductionHypothesis _

/-- A block refines when its statements do. -/
theorem refines_block (scope : Nat) (body : Block Nat) :
    Refines (block first scope body) (block second scope body) :=
  refines_statements refines scope .void body.statements

/-- An alternative refines when its block does, if there is one. -/
theorem refines_alternative (scope : Nat) (otherwise : Option (Block Nat)) :
    Refines (alternative first scope otherwise) (alternative second scope otherwise) := by
  cases otherwise with
  | none => exact refines_refl _
  | some body => exact refines_block refines scope body

/-- A call refines when the evaluation of the body does. -/
theorem refines_call (callee : Value) (arguments : List Value) :
    Refines (call first callee arguments) (call second callee arguments) := by
  cases callee with
  | function closure =>
      unfold call
      dsimp only
      split
      · exact refines_refl _
      · exact (refines_refl _).bind fun scope => (refines_block refines scope closure.body).bind
          fun _ => refines_refl _
  | _ => exact refines_refl _

/-- Each kind of expression refines when the evaluation of its parts does. -/
theorem refines_node (builtins : Builtins) (scope : Nat) (expr : Expr Nat) :
    Refines (node first builtins scope expr) (node second builtins scope expr) := by
  cases expr with
  | array token elements => exact (refines_each refines scope elements).bind fun _ => refines_refl _
  | unary token operator operand => exact (refines operand scope).bind fun _ => refines_refl _
  | binary token left operator right =>
      exact (refines left scope).bind fun _ => (refines right scope).bind fun _ => refines_refl _
  | index token collection position =>
      exact (refines collection scope).bind fun _ => (refines position scope).bind fun _ =>
        refines_refl _
  | conditional token condition consequence otherwise =>
      apply (refines condition scope).bind
      intro value
      split
      · exact refines_block refines scope consequence
      · exact refines_alternative refines scope otherwise
  | call token callee arguments =>
      exact (refines callee scope).bind fun function =>
        (refines_each refines scope arguments).bind fun values =>
          refines_call refines function values
  | _ => exact refines_refl _

end

/-- An evaluation that ends within some depth ends alike within a larger one. -/
theorem refines_expression (builtins : Builtins) {depth larger : Nat} (le : depth ≤ larger)
    (expr : Expr Nat) (scope : Nat) :
    Refines (expression builtins depth expr scope) (expression builtins larger expr scope) := by
  induction depth generalizing larger expr scope with
  | zero => exact refines_exhausted _
  | succ depth inductionHypothesis =>
      obtain ⟨larger, rfl⟩ : ∃ smaller, larger = smaller + 1 := ⟨larger - 1, by omega⟩
      apply refines_node
      intro part inside
      exact inductionHypothesis (by omega) part inside

end Monkey.Evaluation
