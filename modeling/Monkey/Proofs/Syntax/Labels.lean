import Mathlib.Data.List.Pairwise
import Monkey.Proofs.Syntax.Nodes

/-!
Labels and the literals that carry them. A label is the number of the body of a function literal,
and literals that share a body share its label. When a program is labelled from a number on, its
literals carry this number and those that follow it, each of them once. So among programs that are
labelled one after the other, a label stands for one literal, with one list of parameters and one
body.
-/

namespace Monkey

/-- The label of a function literal. -/
def Node.label? : Node Nat → Option Nat
  | .expression (.function _ label _ _) => some label
  | _ => none

/-- The literals among the nodes carry the numbers from the first on, up to the one that is still
free, in this order. -/
structure Node.Numbered (first free : Nat) (nodes : List (Node Nat)) : Prop where
  le : first ≤ free
  labels : nodes.filterMap Node.label? = List.range' first (free - first)

namespace Node

variable {first middle free : Nat} {nodes others : List (Node Nat)}

theorem numbered_nil (first : Nat) : Numbered first first [] := by
  refine ⟨Nat.le_refl first, ?_⟩
  simp

/-- Nodes in a row use the labels of those in front before those behind. -/
theorem Numbered.append (numbered : Numbered first middle nodes)
    (next : Numbered middle free others) : Numbered first free (nodes ++ others) := by
  obtain ⟨count, rfl⟩ := Nat.exists_eq_add_of_le numbered.le
  obtain ⟨further, rfl⟩ := Nat.exists_eq_add_of_le next.le
  refine ⟨by omega, ?_⟩
  calc (nodes ++ others).filterMap Node.label?
      = List.range' first count ++ List.range' (first + count) further := by
        rw [List.filterMap_append, numbered.labels, next.labels, Nat.add_sub_cancel_left,
          Nat.add_sub_cancel_left]
    _ = List.range' first (first + count + further - first) := by
        rw [List.range'_append_1, Nat.add_assoc, Nat.add_sub_cancel_left]

/-- A node without a label uses none. -/
theorem Numbered.cons {node : Node Nat} (unlabelled : node.label? = none)
    (numbered : Numbered first free nodes) : Numbered first free (node :: nodes) := by
  refine ⟨numbered.le, ?_⟩
  rw [List.filterMap_cons_none unlabelled]
  exact numbered.labels

/-- A function literal uses the first label. -/
theorem Numbered.literal {node : Node Nat} (labelled : node.label? = some first)
    (numbered : Numbered (first + 1) free nodes) : Numbered first free (node :: nodes) := by
  have le := numbered.le
  refine ⟨Nat.le_of_succ_le le, ?_⟩
  have count : free - first = free - (first + 1) + 1 := by omega
  rw [List.filterMap_cons_some labelled, numbered.labels, count, List.range'_succ]

theorem numbered_names (first : Nat) (names : List Ident) :
    Numbered first first (names.map .name) := by
  induction names with
  | nil => exact numbered_nil first
  | cons name others inductionHypothesis => exact inductionHypothesis.cons rfl

/-- No label stands for two literals. -/
theorem Numbered.eq_of_label (numbered : Numbered first free nodes) {left right : Node Nat}
    (isLeft : left ∈ nodes) (isRight : right ∈ nodes) {label : Nat}
    (leftLabel : left.label? = some label) (rightLabel : right.label? = some label) :
    left = right := by
  have distinct : (nodes.filterMap Node.label?).Nodup := by
    rw [numbered.labels]
    exact List.nodup_range'
  have symmetric : Std.Symm fun one another : Node Nat =>
      ∀ first, one.label? = some first → ∀ second, another.label? = some second →
        first ≠ second :=
    ⟨fun _ _ apart _ isFirst _ isSecond same => apart _ isSecond _ isFirst same.symm⟩
  by_contra differ
  have apart := (List.pairwise_filterMap.mp distinct).forall isLeft isRight differ
  exact apart label leftLabel label rightLabel rfl

/-- Literals with one label agree in a part of theirs. -/
def LabelsFix {Part : Type} (part : List Ident → Block Nat → Part) (nodes : List (Node Nat)) :
    Prop :=
  ∀ ⦃token another : Token⦄ ⦃label : Nat⦄ ⦃parameters others : List Ident⦄
    ⦃body second : Block Nat⦄,
    .expression (.function token label parameters body) ∈ nodes →
    .expression (.function another label others second) ∈ nodes →
    part parameters body = part others second

/-- A label stands for one body. -/
def OneBody : List (Node Nat) → Prop :=
  LabelsFix fun _ body => body

/-- Literals that share a body have one list of parameters. -/
def OneParameterList : List (Node Nat) → Prop :=
  LabelsFix fun parameters _ => parameters

/-- The labels that are in use lie below a number. -/
def LabelsBelow (free : Nat) (nodes : List (Node Nat)) : Prop :=
  ∀ label ∈ nodes.filterMap Node.label?, label < free

/-- The labels in use are those of the literals. -/
theorem mem_labels_iff {label : Nat} : label ∈ nodes.filterMap Node.label? ↔
    ∃ token parameters body, .expression (.function token label parameters body) ∈ nodes := by
  rw [List.mem_filterMap]
  constructor
  · rintro ⟨node, member, isLabel⟩
    unfold Node.label? at isLabel
    split at isLabel
    · cases isLabel
      exact ⟨_, _, _, member⟩
    · cases isLabel
  · rintro ⟨token, parameters, body, literal⟩
    exact ⟨_, literal, rfl⟩

/-- The label of a literal is one of those in use. -/
theorem mem_labels {token : Token} {label : Nat} {parameters : List Ident} {body : Block Nat}
    (literal : .expression (.function token label parameters body) ∈ nodes) :
    label ∈ nodes.filterMap Node.label? :=
  mem_labels_iff.mpr ⟨token, parameters, body, literal⟩

/-- The numbers of new literals lie between the old ones and those that are still free. -/
theorem Numbered.mem_bounds (numbered : Numbered first free nodes) {label : Nat}
    (used : label ∈ nodes.filterMap Node.label?) : first ≤ label ∧ label < free := by
  rw [numbered.labels, List.mem_range'_1] at used
  have le := numbered.le
  omega

/-- Programs whose labels lie below a number stay below it together. -/
theorem LabelsBelow.append (below : LabelsBelow first nodes) (le : first ≤ free)
    (new : LabelsBelow free others) : LabelsBelow free (nodes ++ others) := by
  intro label used
  rw [List.filterMap_append] at used
  rcases List.mem_append.mp used with old | added
  · exact Nat.lt_of_lt_of_le (below label old) le
  · exact new label added

/-- Labels that were never used before keep to what the old ones keep to. -/
theorem LabelsFix.append {Part : Type} {part : List Ident → Block Nat → Part}
    (fixed : LabelsFix part nodes) (below : LabelsBelow first nodes)
    (numbered : Numbered first free others) : LabelsFix part (nodes ++ others) := by
  intro token another label parameters list body second isLeft isRight
  rcases List.mem_append.mp isLeft with old | new
  · rcases List.mem_append.mp isRight with oldToo | newToo
    · exact fixed old oldToo
    · have small := below label (mem_labels old)
      have large := (numbered.mem_bounds (mem_labels newToo)).1
      omega
  · rcases List.mem_append.mp isRight with oldToo | newToo
    · have small := below label (mem_labels oldToo)
      have large := (numbered.mem_bounds (mem_labels new)).1
      omega
    · have literals := numbered.eq_of_label new newToo rfl rfl
      simp only [Node.expression.injEq, Expr.function.injEq] at literals
      obtain ⟨_, _, rfl, rfl⟩ := literals
      rfl

end Node

open Node (Numbered numbered_nil numbered_names)

mutual

/-- Labelling an expression uses the labels up to the next free one. -/
theorem Expr.numbered_label (expr : Expr Unit) (next : Nat) :
    Numbered next (expr.label next).2 (expr.label next).1.nodes := by
  match expr with
  | .ident _ => exact ((numbered_nil next).cons rfl).cons rfl
  | .integer _ _ | .text _ _ | .boolean _ _ => exact (numbered_nil next).cons rfl
  | .array _ elements => exact (Expr.numbered_labelEach elements next).cons rfl
  | .unary _ _ operand => exact (operand.numbered_label next).cons rfl
  | .binary _ left _ right =>
      exact ((left.numbered_label next).append (right.numbered_label _)).cons rfl
  | .index _ collection position =>
      exact ((collection.numbered_label next).append (position.numbered_label _)).cons rfl
  | .conditional _ condition consequence alternative =>
      exact ((condition.numbered_label next).append
        ((consequence.numbered_label _).append (Block.numbered_labelElse alternative _))).cons rfl
  | .function _ _ parameters body =>
      exact ((numbered_names (next + 1) parameters).append
        (body.numbered_label (next + 1))).literal rfl
  | .call _ callee arguments =>
      exact ((callee.numbered_label next).append (Expr.numbered_labelEach arguments _)).cons rfl

theorem Expr.numbered_labelEach (exprs : List (Expr Unit)) (next : Nat) :
    Numbered next (Expr.labelEach exprs next).2 (Expr.nodesEach (Expr.labelEach exprs next).1) := by
  match exprs with
  | [] => exact numbered_nil next
  | first :: others =>
      exact (first.numbered_label next).append (Expr.numbered_labelEach others _)

/-- Labelling a statement uses the labels up to the next free one. -/
theorem Stmt.numbered_label (stmt : Stmt Unit) (next : Nat) :
    Numbered next (stmt.label next).2 (stmt.label next).1.nodes := by
  match stmt with
  | .bind _ _ value => exact ((value.numbered_label next).cons rfl).cons rfl
  | .give _ value => exact (value.numbered_label next).cons rfl
  | .expression _ value => exact (value.numbered_label next).cons rfl

theorem Stmt.numbered_labelEach (stmts : List (Stmt Unit)) (next : Nat) :
    Numbered next (Stmt.labelEach stmts next).2 (Stmt.nodesAll (Stmt.labelEach stmts next).1) := by
  match stmts with
  | [] => exact numbered_nil next
  | first :: others =>
      exact (first.numbered_label next).append (Stmt.numbered_labelEach others _)

/-- Labelling a block uses the labels up to the next free one. -/
theorem Block.numbered_label (block : Block Unit) (next : Nat) :
    Numbered next (block.label next).2 (block.label next).1.nodes := by
  match block with
  | .mk _ stmts => exact (Stmt.numbered_labelEach stmts next).cons rfl

theorem Block.numbered_labelElse (otherwise : Option (Block Unit)) (next : Nat) :
    Numbered next (Block.labelElse otherwise next).2
      (Block.nodesElse (Block.labelElse otherwise next).1) := by
  match otherwise with
  | none => exact numbered_nil next
  | some block => exact block.numbered_label next

end

/-- Labelling a program uses the labels up to the next free one. -/
theorem Program.numbered_label (program : Program Unit) (next : Nat) :
    Numbered next (program.label next).2 (program.label next).1.nodes :=
  Stmt.numbered_labelEach program.statements next

end Monkey
