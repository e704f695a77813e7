import Monkey.Syntax

/-!
Labels: before a program is evaluated every function literal in it gets a number of its own. The
numbers count up in reading order, an enclosing literal before those inside it.
-/

namespace Monkey

/-- Takes the next number. -/
def freshLabel : StateM Nat Nat :=
  fun next => (next, next + 1)

mutual

def Expr.label : Expr Unit → StateM Nat (Expr Nat)
  | .ident ident => pure (.ident ident)
  | .integer token value => pure (.integer token value)
  | .text token value => pure (.text token value)
  | .boolean token value => pure (.boolean token value)
  | .array token elements => do
      let elements ← Expr.labelEach elements
      pure (.array token elements)
  | .unary token operator operand => do
      let operand ← operand.label
      pure (.unary token operator operand)
  | .binary token left operator right => do
      let left ← left.label
      let right ← right.label
      pure (.binary token left operator right)
  | .index token collection position => do
      let collection ← collection.label
      let position ← position.label
      pure (.index token collection position)
  | .conditional token condition consequence alternative => do
      let condition ← condition.label
      let consequence ← consequence.label
      let alternative ← Block.labelElse alternative
      pure (.conditional token condition consequence alternative)
  | .function token _ parameters body => do
      let label ← freshLabel
      let body ← body.label
      pure (.function token label parameters body)
  | .call token callee arguments => do
      let callee ← callee.label
      let arguments ← Expr.labelEach arguments
      pure (.call token callee arguments)

def Expr.labelEach : List (Expr Unit) → StateM Nat (List (Expr Nat))
  | [] => pure []
  | first :: others => do
      let first ← first.label
      let others ← Expr.labelEach others
      pure (first :: others)

def Stmt.label : Stmt Unit → StateM Nat (Stmt Nat)
  | .bind token name value => do
      let value ← value.label
      pure (.bind token name value)
  | .give token value => do
      let value ← value.label
      pure (.give token value)
  | .expression token value => do
      let value ← value.label
      pure (.expression token value)

def Block.label : Block Unit → StateM Nat (Block Nat)
  | .mk token statements => do
      let statements ← Stmt.labelEach statements
      pure (.mk token statements)

def Block.labelElse : Option (Block Unit) → StateM Nat (Option (Block Nat))
  | none => pure none
  | some block => do
      let block ← block.label
      pure (some block)

def Stmt.labelEach : List (Stmt Unit) → StateM Nat (List (Stmt Nat))
  | [] => pure []
  | first :: others => do
      let first ← first.label
      let others ← Stmt.labelEach others
      pure (first :: others)

end

/-- Labels a program from the given number on, and gives the first number that is still free. -/
def Program.label (program : Program Unit) (next : Nat) : Program Nat × Nat :=
  let (statements, free) := (Stmt.labelEach program.statements).run next
  (⟨statements⟩, free)

end Monkey
