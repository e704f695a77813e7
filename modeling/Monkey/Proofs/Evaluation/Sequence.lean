import Monkey.Evaluation
import Monkey.Proofs.Bounded

/-!
Evaluation in sequence. Statements that do not return are passed, and what stands behind them is
evaluated as if it stood alone, on the machine that they have left.
-/

namespace Monkey.Evaluation

open Bounded

variable {evaluate : Expr Nat → Nat → Evaluation Value} {scope : Nat}

/-- A name that the search finds has the value that is found, and nothing changes. -/
theorem expression_ident {builtins : Builtins} {depth scope : Nat} {machine : Machine}
    {ident : Ident} {value : Value} (found : machine.heap.lookup scope ident.name = some value) :
    expression builtins (depth + 1) (.ident ident) scope machine = some (.ok value, machine) := by
  rw [expression, node, Evaluation.ident, bind_of_ok (inspect_apply _ _), found]
  rfl

/-- A block of one expression has its value, wrapped or not. -/
theorem block_expression (evaluate : Expr Nat → Nat → Evaluation Value) (scope : Nat)
    (opening token : Token) (expr : Expr Nat) :
    block evaluate scope (.mk opening [.expression token expr]) = evaluate expr scope := by
  funext machine
  change statements evaluate scope .void [.expression token expr] machine = _
  rw [statements, statement]
  simp only [bind_apply]
  rcases evaluate expr scope machine with _ | ⟨_ | value, reached⟩
  · rfl
  · rfl
  · cases value with
    | _ => rfl

/-- Behind statements that do not return a block goes on. -/
theorem statements_append {stmts : List (Stmt Nat)} {start value : Value}
    {before after : Machine}
    (ends : statements evaluate scope start stmts before = some (.ok value, after))
    (goesOn : value.kind ≠ .returned) (more : List (Stmt Nat)) :
    statements evaluate scope start (stmts ++ more) before =
      statements evaluate scope value more after := by
  induction stmts generalizing start before with
  | nil =>
      obtain ⟨rfl, rfl⟩ : start = value ∧ before = after := by simpa [statements] using ends
      rfl
  | cons stmt others inductionHypothesis =>
      rw [statements, bind_eq_ok] at ends
      obtain ⟨item, middle, first, rest⟩ := ends
      simp only [List.cons_append, statements, bind_of_ok first]
      cases item with
      | none => exact inductionHypothesis rest
      | some found =>
          cases found with
          | returned inner =>
              obtain ⟨rfl, _⟩ : Value.returned inner = value ∧ _ := by simpa using rest
              exact absurd rfl goesOn
          | _ => exact inductionHypothesis rest

/-- Behind statements that do not return a program goes on. -/
theorem program_of_statements {stmts : List (Stmt Nat)} {start value : Value}
    {before after : Machine} (result : Option Value)
    (ends : statements evaluate scope start stmts before = some (.ok value, after))
    (goesOn : value.kind ≠ .returned) :
    ∃ reached, ∀ more, program evaluate scope result (stmts ++ more) before =
      program evaluate scope reached more after := by
  induction stmts generalizing start before result with
  | nil =>
      obtain ⟨_, rfl⟩ : start = value ∧ before = after := by simpa [statements] using ends
      exact ⟨result, fun more => rfl⟩
  | cons stmt others inductionHypothesis =>
      rw [statements, bind_eq_ok] at ends
      obtain ⟨item, middle, first, rest⟩ := ends
      simp only [List.cons_append, program, bind_of_ok first]
      cases item with
      | none => exact inductionHypothesis none rest
      | some found =>
          cases found with
          | returned inner =>
              obtain ⟨rfl, _⟩ : Value.returned inner = value ∧ _ := by simpa using rest
              exact absurd rfl goesOn
          | _ => exact inductionHypothesis (some _) rest

/-- The value before a program does not matter where the program has a statement. -/
theorem program_congr {stmts : List (Stmt Nat)} (more : stmts ≠ []) (first second : Option Value) :
    program evaluate scope first stmts = program evaluate scope second stmts := by
  cases stmts with
  | nil => exact absurd rfl more
  | cons stmt others => rfl

end Monkey.Evaluation
