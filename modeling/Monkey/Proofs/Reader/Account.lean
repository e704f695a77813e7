import Mathlib.Algebra.GroupWithZero.Nat
import Monkey.Proofs.Reader.Success
import Monkey.Proofs.Syntax.Nodes
import Monkey.Reader.Bound

/-!
What reading costs. Every error that is recorded and every statement that is built, at whatever
depth, is paid for with a token of its own, so there are never more of them than there are tokens.
-/

namespace Monkey

section

variable {Mark : Type}

/-- The node is a statement. -/
def Node.isStatement : Node Mark → Bool
  | .statement _ => true
  | _ => false

/-- The number of statements among some nodes. -/
def Node.countStatements (nodes : List (Node Mark)) : Nat :=
  nodes.countP Node.isStatement

/-- The number of statements of a program, those in blocks and in functions included. -/
def Program.statementCount (program : Program Mark) : Nat :=
  Node.countStatements program.nodes

namespace Node

@[simp] theorem countStatements_nil : countStatements ([] : List (Node Mark)) = 0 := rfl

/-- Statements are counted part by part. -/
@[simp] theorem countStatements_append (first second : List (Node Mark)) :
    countStatements (first ++ second) = countStatements first + countStatements second :=
  List.countP_append

@[simp] theorem countStatements_statement (stmt : Stmt Mark) (nodes : List (Node Mark)) :
    countStatements (.statement stmt :: nodes) = countStatements nodes + 1 :=
  List.countP_cons_of_pos rfl

@[simp] theorem countStatements_expression (expr : Expr Mark) (nodes : List (Node Mark)) :
    countStatements (.expression expr :: nodes) = countStatements nodes :=
  List.countP_cons_of_neg Bool.false_ne_true

@[simp] theorem countStatements_block (block : Block Mark) (nodes : List (Node Mark)) :
    countStatements (.block block :: nodes) = countStatements nodes :=
  List.countP_cons_of_neg Bool.false_ne_true

@[simp] theorem countStatements_name (ident : Ident) (nodes : List (Node Mark)) :
    countStatements (.name ident :: nodes) = countStatements nodes :=
  List.countP_cons_of_neg Bool.false_ne_true

@[simp] theorem countStatements_names (idents : List Ident) :
    countStatements (idents.map .name : List (Node Mark)) = 0 := by
  induction idents with
  | nil => rfl
  | cons first others inductionHypothesis =>
      rw [List.map_cons, countStatements_name, inductionHypothesis]

/-- The statements in several expressions are those in each of them. -/
theorem countStatements_nodesEach (exprs : List (Expr Mark)) :
    countStatements (Expr.nodesEach exprs) =
      (exprs.map fun expr => countStatements expr.nodes).sum := by
  induction exprs with
  | nil => rfl
  | cons first others inductionHypothesis =>
      rw [Expr.nodesEach, countStatements_append, inductionHypothesis, List.map_cons, List.sum_cons]

/-- The statements in a list are counted part by part. -/
@[simp] theorem countStatements_nodesAll_append (first second : List (Stmt Mark)) :
    countStatements (Stmt.nodesAll (first ++ second)) =
      countStatements (Stmt.nodesAll first) + countStatements (Stmt.nodesAll second) := by
  induction first with
  | nil => simp [Stmt.nodesAll]
  | cons stmt others inductionHypothesis =>
      rw [List.cons_append, Stmt.nodesAll, Stmt.nodesAll, countStatements_append,
        countStatements_append, inductionHypothesis, Nat.add_assoc]

end Node

end

namespace Reader

/-- The errors that are recorded, and the tokens from the current one on: each of these can still
become an error or a statement. -/
def account (reader : Reader) : Nat :=
  reader.errors.size + reader.tokens.length

/-- Moving on costs nothing. -/
theorem account_advance_le (reader : Reader) : reader.advance.account ≤ reader.account := by
  simp only [account, advance_errors, advance_tokens, List.length_tail]
  omega

/-- A reader that goes past a token gives it up. -/
theorem account_of_inside {reader : Reader} (inside : reader.current.kind ≠ .eof) :
    reader.account = reader.advance.account + 1 := by
  have tokens := congrArg List.length (reader.tokens_eq inside)
  rw [List.length_cons] at tokens
  simp only [account, advance_errors, advance_tokens]
  omega

/-- A recorded error costs one. -/
theorem account_record (reader : Reader) (error : SyntaxError) :
    (reader.record error).account = reader.account + 1 := by
  simp only [account, record, Array.size_push]
  omega

end Reader

namespace Reading

open Bounded

/-- The token that the reading starts on is left for the statement which it belongs to. All that is
recorded, and all that is built beyond the credit, is paid for with the tokens behind it. -/
def Paid {Item : Type} (credit : Nat) (cost : Item → Nat) (reading : Reading Item) : Prop :=
  ∀ ⦃reader reached : Reader⦄ ⦃outcome : Except SyntaxError Item⦄,
    reading reader = some (outcome, reached) →
      reached.advance.account ≤ reader.advance.account ∧
        Yields (fun item => cost item + reached.advance.account ≤ reader.advance.account + credit)
          outcome

/-- Nothing is built that has to be paid for. -/
abbrev Free {Item : Type} (reading : Reading Item) : Prop :=
  Paid 0 (fun _ => 0) reading

section

variable {Item Next : Type} {credit : Nat} {cost : Item → Nat} {total : Next → Nat}

theorem paid_pure {item : Item} (covered : cost item ≤ credit) : Paid credit cost (pure item) := by
  rintro reader _ _ ⟨⟩
  refine ⟨Nat.le_refl _, yields_ok ?_⟩
  omega

theorem paid_fail (error : SyntaxError) :
    Paid credit cost (fail error : Reading Item) := by
  rintro reader _ _ ⟨⟩
  exact ⟨Nat.le_refl _, yields_error error⟩

theorem paid_exhausted : Paid credit cost (exhausted : Reading Item) :=
  fun _ _ _ ends => nomatch ends

/-- What the first step has built is credit for the second one. -/
theorem Paid.followed {first : Reading Item} {next : Item → Reading Next}
    (paid : Paid credit cost first) (rest : ∀ item, Paid (cost item) total (next item)) :
    Paid credit total (first >>= next) := by
  intro reader reached outcome ends
  rw [bind_apply] at ends
  match found : first reader with
  | none => simp [found] at ends
  | some (.error error, middle) =>
      simp only [found, Option.some.injEq, Prod.mk.injEq] at ends
      obtain ⟨rfl, rfl⟩ := ends
      exact ⟨(paid found).1, yields_error error⟩
  | some (.ok item, middle) =>
      simp only [found] at ends
      obtain ⟨fewer, yields⟩ := paid found
      obtain ⟨evenFewer, yieldsTotal⟩ := rest item ends
      have itemPaid := yields item rfl
      refine ⟨Nat.le_trans evenFewer fewer, fun result succeeds => ?_⟩
      exact Nat.le_trans (yieldsTotal result succeeds) (by omega)

/-- In a sequence the first item becomes credit for the second. -/
theorem Paid.bind {first : Reading Item} {next : Item → Reading Next} (paid : Paid 0 cost first)
    (rest : ∀ item, Paid (credit + cost item) total (next item)) :
    Paid credit total (first >>= next) := by
  have carried : Paid credit (fun item => credit + cost item) first := by
    intro reader reached outcome ends
    obtain ⟨fewer, yields⟩ := paid ends
    refine ⟨fewer, fun item succeeds => ?_⟩
    have itemPaid := yields item succeeds
    dsimp only at itemPaid ⊢
    omega
  exact carried.followed rest

theorem free_current : Free current := by
  rintro reader _ _ ⟨⟩
  exact ⟨Nat.le_refl _, yields_ok (by simp)⟩

theorem free_following : Free following := by
  rintro reader _ _ ⟨⟩
  exact ⟨Nat.le_refl _, yields_ok (by simp)⟩

theorem free_advance : Free advance := by
  rintro reader _ _ ⟨⟩
  have fewer := reader.advance.account_advance_le
  refine ⟨fewer, yields_ok ?_⟩
  simpa using fewer

theorem free_expect (kind : Token.Kind) : Free (expect kind) := by
  refine free_following.bind fun next => ?_
  split
  · exact free_advance
  · exact paid_fail _

theorem free_accept (kind : Token.Kind) : Free (accept kind) := by
  refine free_following.bind fun next => ?_
  split
  · exact free_advance
  · exact paid_pure (Nat.le_refl _)

theorem free_parameter : Free parameter := by
  refine free_current.bind fun token => ?_
  split
  · exact paid_pure (Nat.le_refl _)
  · exact paid_fail _

/-- Further items are paid when each of them is. -/
theorem paid_moreItems {item : Reading Item} (paid : Paid 0 cost item) (bound : Nat) :
    Paid 0 (fun items => (items.map cost).sum) (moreItems item bound) := by
  induction bound with
  | zero => exact paid_exhausted
  | succ bound inductionHypothesis =>
      refine free_following.bind fun next => ?_
      split
      · exact free_advance.bind fun _ => free_advance.bind fun _ => paid.bind fun first =>
          inductionHypothesis.bind fun others => paid_pure (by simp)
      · exact paid_pure (Nat.le_refl _)

/-- Items are paid when each of them is. -/
theorem paid_items {item : Reading Item} (paid : Paid 0 cost item) (closing : Token.Kind)
    (bound : Nat) : Paid 0 (fun items => (items.map cost).sum) (items item closing bound) := by
  refine free_following.bind fun next => free_advance.bind fun _ => ?_
  split
  · exact paid_pure (Nat.le_refl _)
  · exact paid.bind fun first => (paid_moreItems paid bound).bind fun others =>
      (free_expect closing).bind fun _ => paid_pure (by simp)

end

section

variable {expression : Precedence → Reading (Expr Unit)}
  (paid : ∀ level, Paid 0 (fun expr => Node.countStatements expr.nodes) (expression level))

include paid

/-- A statement itself is paid for with the token that it starts on. -/
theorem paid_statement :
    Paid 1 (fun stmt => Node.countStatements stmt.nodes) (statement expression) := by
  refine free_current.bind fun token => ?_
  split
  · refine (free_expect _).bind fun _ => free_current.bind fun _ => (free_expect _).bind fun _ =>
      free_advance.bind fun _ => (paid _).bind fun _ => (free_accept _).bind fun _ => paid_pure ?_
    simp only [Stmt.nodes, Node.countStatements_statement, Node.countStatements_name]
    omega
  · refine free_advance.bind fun _ => (paid _).bind fun _ => (free_accept _).bind fun _ =>
      paid_pure ?_
    simp only [Stmt.nodes, Node.countStatements_statement]
    omega
  · refine (paid _).bind fun _ => (free_accept _).bind fun _ => paid_pure ?_
    simp only [Stmt.nodes, Node.countStatements_statement]
    omega

/-- A statement or an error is paid for with the tokens up to the next statement. -/
theorem account_recorded {reader reached : Reader} {first : Option (Stmt Unit)}
    (inside : reader.current.kind ≠ .eof)
    (read : recorded (statement expression) reader = some (.ok first, reached)) :
    Node.countStatements (Stmt.nodesAll first.toList) + reached.advance.account ≤
      reader.account := by
  rw [reader.account_of_inside inside]
  obtain ⟨tree, rfl, readTree⟩ | ⟨error, before, readError, rfl⟩ := recorded_eq_ok read
  · have treePaid := (paid_statement paid readTree).2 tree rfl
    simpa [Stmt.nodesAll] using treePaid
  · have fewer := (paid_statement paid readError).1
    have oneMore := before.advance.account_record error
    have none : first = none := by
      simpa [recorded, attempt, bind_apply, readError, eq_comm] using read
    rw [none]
    change 0 + (before.advance.record error).account ≤ reader.advance.account + 1
    omega

/-- Each statement and each error costs a token. -/
theorem account_statements {closing : List Token.Kind} (closed : .eof ∈ closing) (bound : Nat)
    {reader reached : Reader} {trees : List (Stmt Unit)}
    (read : statements expression closing bound reader = some (.ok trees, reached)) :
    Node.countStatements (Stmt.nodesAll trees) + reached.account ≤ reader.account := by
  induction bound generalizing reader trees with
  | zero => cases read
  | succ bound inductionHypothesis =>
      simp only [statements, current_bind] at read
      split at read
      · obtain ⟨rfl, rfl⟩ := pure_eq_ok.mp read
        simp [Stmt.nodesAll]
      · next goesOn =>
          simp only [bind_eq_ok, advance_bind, pure_eq_ok] at read
          obtain ⟨first, middle, readFirst, others, _, readOthers, rfl, rfl⟩ := read
          have inside : reader.current.kind ≠ .eof := fun atEnd => goesOn (atEnd ▸ closed)
          have firstPaid := account_recorded paid inside readFirst
          have othersPaid := inductionHypothesis readOthers
          rw [Node.countStatements_nodesAll_append]
          omega

/-- The statements of a block are paid with tokens. -/
theorem paid_block (bound : Nat) :
    Paid 0 (fun block => Node.countStatements block.nodes) (block expression bound) := by
  intro reader reached outcome ends
  simp only [block, current_bind, advance_bind] at ends
  rw [bind_apply] at ends
  match found : statements expression [.rightBrace, .eof] bound reader.advance with
  | none => simp [found] at ends
  | some (.error error, middle) =>
      obtain ⟨_, impossible⟩ := statements_ok bound found
      cases impossible
  | some (.ok trees, middle) =>
      simp only [found, pure_apply, Option.some.injEq, Prod.mk.injEq] at ends
      obtain ⟨rfl, rfl⟩ := ends
      have treesPaid := account_statements paid (by simp) bound found
      have fewer := middle.account_advance_le
      refine ⟨by omega, yields_ok ?_⟩
      simp only [Block.nodes, Node.countStatements_block]
      omega

/-- The statements of an alternative are paid with tokens. -/
theorem paid_alternative (bound : Nat) :
    Paid 0 (fun otherwise => Node.countStatements (Block.nodesElse otherwise))
      (alternative expression bound) := by
  refine free_following.bind fun next => ?_
  split
  · exact free_advance.bind fun _ => (free_expect _).bind fun _ =>
      (paid_block paid bound).bind fun _ => paid_pure (by simp [Block.nodesElse])
  · exact paid_pure (Nat.le_refl _)

/-- The statements in several expressions are paid with tokens. -/
theorem paid_exprs (closing : Token.Kind) (bound : Nat) :
    Paid 0 (fun exprs => Node.countStatements (Expr.nodesEach exprs))
      (items (expression .lowest) closing bound) := by
  simpa only [Node.countStatements_nodesEach] using paid_items (paid .lowest) closing bound

/-- The statements in an operand are paid with tokens. -/
theorem paid_operandFrom (token : Token) (bound : Nat) :
    Paid 0 (fun expr => Node.countStatements expr.nodes) (operandFrom expression token bound) := by
  unfold operandFrom
  split
  · exact paid_pure (by simp [Expr.nodes])
  · unfold integer
    split
    · exact paid_pure (by simp [Expr.nodes])
    · exact paid_fail _
  · exact paid_pure (by simp [Expr.nodes])
  · exact paid_pure (by simp [Expr.nodes])
  · exact paid_pure (by simp [Expr.nodes])
  · exact free_advance.bind fun _ => (paid _).bind fun _ => paid_pure (by simp [Expr.nodes])
  · exact free_advance.bind fun _ => (paid _).bind fun _ => paid_pure (by simp [Expr.nodes])
  · exact free_advance.bind fun _ => (paid _).bind fun _ => (free_expect _).bind fun _ =>
      paid_pure (by simp)
  · exact (free_expect _).bind fun _ => free_advance.bind fun _ => (paid _).bind fun _ =>
      (free_expect _).bind fun _ => (free_expect _).bind fun _ =>
      (paid_block paid bound).bind fun _ => (paid_alternative paid bound).bind fun _ =>
      paid_pure (by simp [Expr.nodes]; omega)
  · exact (free_expect _).bind fun _ => (paid_items free_parameter _ bound).bind fun _ =>
      (free_expect _).bind fun _ => (paid_block paid bound).bind fun _ =>
      paid_pure (by simp [Expr.nodes])
  · exact (paid_exprs paid _ bound).bind fun _ => paid_pure (by simp [Expr.nodes])
  · exact paid_fail _

/-- What stands on the left is paid for already. -/
theorem paid_continuation (left : Expr Unit) (bound : Nat) :
    Paid (Node.countStatements left.nodes) (fun expr => Node.countStatements expr.nodes)
      (continuation expression left bound) := by
  refine free_current.bind fun token => ?_
  split
  · exact (paid_exprs paid _ bound).bind fun _ => paid_pure (by simp [Expr.nodes])
  · exact free_advance.bind fun _ => (paid _).bind fun _ => (free_expect _).bind fun _ =>
      paid_pure (by simp [Expr.nodes])
  · exact free_advance.bind fun _ => (paid _).bind fun _ => paid_pure (by simp [Expr.nodes])

/-- The statements in further operands are paid with tokens. -/
theorem paid_operators (level : Precedence) (bound : Nat) (left : Expr Unit) :
    Paid (Node.countStatements left.nodes) (fun expr => Node.countStatements expr.nodes)
      (operators expression level bound left) := by
  induction bound generalizing left with
  | zero => exact paid_exhausted
  | succ bound inductionHypothesis =>
      refine free_following.bind fun next => ?_
      split
      · exact free_advance.bind fun _ => (paid_continuation paid left bound).followed
          fun longer => inductionHypothesis longer
      · exact paid_pure (by simp)

end

/-- The statements in an expression are paid with tokens, by induction on the bound. -/
theorem paid_expression (bound : Nat) (level : Precedence) :
    Paid 0 (fun expr => Node.countStatements expr.nodes) (expression bound level) := by
  induction bound generalizing level with
  | zero => exact paid_exhausted
  | succ bound inductionHypothesis =>
      refine Paid.bind (free_current.bind fun token =>
        paid_operandFrom inductionHypothesis token bound) fun left => ?_
      simpa using paid_operators inductionHypothesis level (bound + 1) left

end Reading

/-- Errors and statements together are no more than the tokens of the source. -/
theorem Program.errors_add_statements_le (source : String) :
    (Program.read source).2.length + (Program.read source).1.statementCount ≤
      (Token.list source).length := by
  have read := (Reader.ofString source).program_eq
  have paid := Reading.account_statements (Reading.paid_expression _) (by simp) _ read
  have start : (Reader.ofString source).account = (Token.list source).length := by
    simp [Reader.account, Reader.ofString]
  rw [start, Reader.account] at paid
  have errors : (Program.read source).2.length = (Reader.ofString source).program.2.errors.size :=
    Array.length_toList
  have statements : (Program.read source).1.statementCount =
      Node.countStatements (Stmt.nodesAll (Reader.ofString source).program.1.statements) := rfl
  omega

end Monkey
