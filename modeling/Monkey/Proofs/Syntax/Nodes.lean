import Monkey.Syntax.Label

/-!
The nodes of a syntax tree, and properties that every one of them has. A property of nodes goes down
to the parts of a tree, and from a program to the labelled program that is evaluated.
-/

namespace Monkey

/-- A node of a syntax tree, with all that is below it. -/
inductive Node (Mark : Type) where
  | name (ident : Ident)
  | expression (expr : Expr Mark)
  | statement (stmt : Stmt Mark)
  | block (block : Block Mark)

section

variable {Mark : Type}

mutual

/-- All the nodes, those in function literals included, and each before those below it. -/
def Expr.nodes : Expr Mark → List (Node Mark)
  | .ident ident => [.expression (.ident ident), .name ident]
  | .integer token value => [.expression (.integer token value)]
  | .text token value => [.expression (.text token value)]
  | .boolean token value => [.expression (.boolean token value)]
  | .array token elements => .expression (.array token elements) :: Expr.nodesEach elements
  | .unary token operator operand => .expression (.unary token operator operand) :: operand.nodes
  | .binary token left operator right =>
      .expression (.binary token left operator right) :: (left.nodes ++ right.nodes)
  | .index token collection position =>
      .expression (.index token collection position) :: (collection.nodes ++ position.nodes)
  | .conditional token condition consequence alternative =>
      .expression (.conditional token condition consequence alternative) ::
        (condition.nodes ++ (consequence.nodes ++ Block.nodesElse alternative))
  | .function token mark parameters body =>
      .expression (.function token mark parameters body) :: (parameters.map .name ++ body.nodes)
  | .call token callee arguments =>
      .expression (.call token callee arguments) :: (callee.nodes ++ Expr.nodesEach arguments)

def Expr.nodesEach : List (Expr Mark) → List (Node Mark)
  | [] => []
  | first :: others => first.nodes ++ Expr.nodesEach others

def Stmt.nodes : Stmt Mark → List (Node Mark)
  | .bind token name value => .statement (.bind token name value) :: .name name :: value.nodes
  | .give token value => .statement (.give token value) :: value.nodes
  | .expression token value => .statement (.expression token value) :: value.nodes

def Stmt.nodesAll : List (Stmt Mark) → List (Node Mark)
  | [] => []
  | first :: others => first.nodes ++ Stmt.nodesAll others

def Block.nodes : Block Mark → List (Node Mark)
  | .mk token statements => .block (.mk token statements) :: Stmt.nodesAll statements

def Block.nodesElse : Option (Block Mark) → List (Node Mark)
  | none => []
  | some block => block.nodes

end

attribute [local simp] Expr.nodes Expr.nodesEach Stmt.nodes Stmt.nodesAll Block.nodes
  Block.nodesElse

/-- All nodes of a program. -/
def Program.nodes (program : Program Mark) : List (Node Mark) :=
  Stmt.nodesAll program.statements

/-- Every node of the expression has the property. -/
def Expr.Every (holds : Node Mark → Prop) (expr : Expr Mark) : Prop :=
  ∀ node ∈ expr.nodes, holds node

/-- All nodes of the statement have the property. -/
def Stmt.Every (holds : Node Mark → Prop) (stmt : Stmt Mark) : Prop :=
  ∀ node ∈ stmt.nodes, holds node

/-- All nodes of the block have the property. -/
def Block.Every (holds : Node Mark → Prop) (block : Block Mark) : Prop :=
  ∀ node ∈ block.nodes, holds node

variable {holds : Node Mark → Prop}

/-- The nodes of expressions are those of each of them. -/
theorem Expr.every_each {exprs : List (Expr Mark)} :
    (∀ node ∈ Expr.nodesEach exprs, holds node) ↔ ∀ expr ∈ exprs, expr.Every holds := by
  induction exprs with
  | nil => simp
  | cons first others inductionHypothesis =>
      rw [Expr.nodesEach, List.forall_mem_append, inductionHypothesis, List.forall_mem_cons]
      rfl

/-- The nodes of statements are those of each of them. -/
theorem Stmt.every_all {stmts : List (Stmt Mark)} :
    (∀ node ∈ Stmt.nodesAll stmts, holds node) ↔ ∀ stmt ∈ stmts, stmt.Every holds := by
  induction stmts with
  | nil => simp
  | cons first others inductionHypothesis =>
      rw [Stmt.nodesAll, List.forall_mem_append, inductionHypothesis, List.forall_mem_cons]
      rfl

/-- The nodes of a block are the block and those of its statements. -/
theorem Block.every_iff {block : Block Mark} :
    block.Every holds ↔ holds (.block block) ∧ ∀ stmt ∈ block.statements, stmt.Every holds := by
  cases block with
  | mk token statements =>
      rw [Block.Every, Block.nodes, List.forall_mem_cons, Stmt.every_all]
      rfl

/-- The nodes of an alternative are those of its block. -/
theorem Block.every_else {otherwise : Option (Block Mark)} :
    (∀ node ∈ Block.nodesElse otherwise, holds node) ↔
      ∀ block ∈ otherwise, block.Every holds := by
  cases otherwise with
  | none => simp
  | some block => simp [Block.Every]

namespace Stmt

variable {token : Token} {name : Ident} {value : Expr Mark}

/-- The nodes of a binding are the statement, its name and those of the value. -/
theorem every_bind : (Stmt.bind token name value).Every holds ↔
    holds (.statement (.bind token name value)) ∧ holds (.name name) ∧ value.Every holds := by
  rw [Every, nodes, List.forall_mem_cons, List.forall_mem_cons]
  rfl

theorem every_give : (Stmt.give token value).Every holds ↔
    holds (.statement (.give token value)) ∧ value.Every holds := by
  rw [Every, nodes, List.forall_mem_cons]
  rfl

theorem every_expression : (Stmt.expression token value).Every holds ↔
    holds (.statement (.expression token value)) ∧ value.Every holds := by
  rw [Every, nodes, List.forall_mem_cons]
  rfl

end Stmt

namespace Expr

variable {token : Token} {operator : String} {mark : Mark} {parameters : List Ident}
  {left right operand collection position condition callee : Expr Mark}
  {elements arguments : List (Expr Mark)} {consequence body : Block Mark}
  {alternative : Option (Block Mark)}

/-- The nodes of an array are the array and those of its elements. -/
theorem every_array : (Expr.array token elements).Every holds ↔
    holds (.expression (.array token elements)) ∧ ∀ element ∈ elements, element.Every holds := by
  rw [Every, nodes, List.forall_mem_cons, every_each]

theorem every_unary : (Expr.unary token operator operand).Every holds ↔
    holds (.expression (.unary token operator operand)) ∧ operand.Every holds := by
  rw [Every, nodes, List.forall_mem_cons]
  rfl

/-- The nodes of a binary operation are the operation and those of its operands. -/
theorem every_binary : (Expr.binary token left operator right).Every holds ↔
    holds (.expression (.binary token left operator right)) ∧ left.Every holds ∧
      right.Every holds := by
  rw [Every, nodes, List.forall_mem_cons, List.forall_mem_append]
  rfl

theorem every_index : (Expr.index token collection position).Every holds ↔
    holds (.expression (.index token collection position)) ∧ collection.Every holds ∧
      position.Every holds := by
  rw [Every, nodes, List.forall_mem_cons, List.forall_mem_append]
  rfl

/-- The nodes of a conditional are the conditional and those of its parts. -/
theorem every_conditional :
    (Expr.conditional token condition consequence alternative).Every holds ↔
      holds (.expression (.conditional token condition consequence alternative)) ∧
        condition.Every holds ∧ consequence.Every holds ∧
          ∀ block ∈ alternative, block.Every holds := by
  rw [Every, nodes, List.forall_mem_cons, List.forall_mem_append, List.forall_mem_append,
    Block.every_else]
  rfl

/-- The nodes of a function literal are the literal, its parameters and those of its body. -/
theorem every_function : (Expr.function token mark parameters body).Every holds ↔
    holds (.expression (.function token mark parameters body)) ∧
      (∀ parameter ∈ parameters, holds (.name parameter)) ∧ body.Every holds := by
  rw [Every, nodes, List.forall_mem_cons, List.forall_mem_append, List.forall_mem_map]
  rfl

/-- The nodes of a call are the call and those of the callee and the arguments. -/
theorem every_call : (Expr.call token callee arguments).Every holds ↔
    holds (.expression (.call token callee arguments)) ∧ callee.Every holds ∧
      ∀ argument ∈ arguments, argument.Every holds := by
  rw [Every, nodes, List.forall_mem_cons, List.forall_mem_append, every_each]
  rfl

end Expr

end

/-- Where a node has the first property, the node with labels has the second. -/
structure Node.Carries (holds : Node Unit → Prop) (kept : Node Nat → Prop) : Prop where
  name : ∀ ident, holds (.name ident) → kept (.name ident)
  expression : ∀ (expr : Expr Unit) (next : Nat),
    holds (.expression expr) → kept (.expression (expr.label next).1)
  statement : ∀ (stmt : Stmt Unit) (next : Nat),
    holds (.statement stmt) → kept (.statement (stmt.label next).1)
  block : ∀ (block : Block Unit) (next : Nat),
    holds (.block block) → kept (.block (block.label next).1)

section

variable {holds : Node Unit → Prop} {kept : Node Nat → Prop}

mutual

/-- Labels go to nodes that are there, and add none. -/
theorem Expr.every_label (carries : Node.Carries holds kept) (expr : Expr Unit) (next : Nat)
    (every : expr.Every holds) : (expr.label next).1.Every kept := by
  have root : kept (.expression (expr.label next).1) := by
    apply carries.expression expr next
    apply every
    cases expr <;> exact List.mem_cons_self
  match expr with
  | .ident ident =>
      have name := carries.name ident (every _ (by simp [Expr.nodes]))
      exact List.forall_mem_cons.mpr ⟨root, List.forall_mem_singleton.mpr name⟩
  | .integer _ _ | .text _ _ | .boolean _ _ => exact List.forall_mem_singleton.mpr root
  | .array _ elements =>
      obtain ⟨_, each⟩ := Expr.every_array.mp every
      exact Expr.every_array.mpr ⟨root, Expr.every_labelEach carries elements next each⟩
  | .unary _ _ operand =>
      obtain ⟨_, inner⟩ := Expr.every_unary.mp every
      exact Expr.every_unary.mpr ⟨root, operand.every_label carries next inner⟩
  | .binary _ left _ right =>
      obtain ⟨_, first, second⟩ := Expr.every_binary.mp every
      exact Expr.every_binary.mpr ⟨root, left.every_label carries next first,
        right.every_label carries _ second⟩
  | .index _ collection position =>
      obtain ⟨_, first, second⟩ := Expr.every_index.mp every
      exact Expr.every_index.mpr
        ⟨root, collection.every_label carries next first, position.every_label carries _ second⟩
  | .conditional _ condition consequence alternative =>
      obtain ⟨_, first, second, third⟩ := Expr.every_conditional.mp every
      exact Expr.every_conditional.mpr ⟨root, condition.every_label carries next first,
        consequence.every_label carries _ second, Block.every_labelElse carries alternative _ third⟩
  | .function _ _ parameters body =>
      obtain ⟨_, names, inner⟩ := Expr.every_function.mp every
      exact Expr.every_function.mpr ⟨root,
        fun parameter member => carries.name parameter (names parameter member),
        body.every_label carries (next + 1) inner⟩
  | .call _ callee arguments =>
      obtain ⟨_, first, each⟩ := Expr.every_call.mp every
      exact Expr.every_call.mpr
        ⟨root, callee.every_label carries next first, Expr.every_labelEach carries arguments _ each⟩

theorem Expr.every_labelEach (carries : Node.Carries holds kept) (exprs : List (Expr Unit))
    (next : Nat) (every : ∀ expr ∈ exprs, expr.Every holds) :
    ∀ expr ∈ (Expr.labelEach exprs next).1, expr.Every kept := by
  match exprs with
  | [] => exact fun _ member => nomatch member
  | first :: others =>
      obtain ⟨foremost, behind⟩ := List.forall_mem_cons.mp every
      exact List.forall_mem_cons.mpr
        ⟨first.every_label carries next foremost, Expr.every_labelEach carries others _ behind⟩

/-- What labelling carries over holds of a labelled statement. -/
theorem Stmt.every_label (carries : Node.Carries holds kept) (stmt : Stmt Unit) (next : Nat)
    (every : stmt.Every holds) : (stmt.label next).1.Every kept := by
  have root : kept (.statement (stmt.label next).1) := by
    apply carries.statement stmt next
    apply every
    cases stmt <;> exact List.mem_cons_self
  match stmt with
  | .bind _ name value =>
      obtain ⟨_, isName, inner⟩ := Stmt.every_bind.mp every
      exact Stmt.every_bind.mpr
        ⟨root, carries.name name isName, value.every_label carries next inner⟩
  | .give _ value =>
      obtain ⟨_, inner⟩ := Stmt.every_give.mp every
      exact Stmt.every_give.mpr ⟨root, value.every_label carries next inner⟩
  | .expression _ value =>
      obtain ⟨_, inner⟩ := Stmt.every_expression.mp every
      exact Stmt.every_expression.mpr ⟨root, value.every_label carries next inner⟩

theorem Stmt.every_labelEach (carries : Node.Carries holds kept) (stmts : List (Stmt Unit))
    (next : Nat) (every : ∀ stmt ∈ stmts, stmt.Every holds) :
    ∀ stmt ∈ (Stmt.labelEach stmts next).1, stmt.Every kept := by
  match stmts with
  | [] => exact fun _ member => nomatch member
  | first :: others =>
      obtain ⟨foremost, behind⟩ := List.forall_mem_cons.mp every
      exact List.forall_mem_cons.mpr
        ⟨first.every_label carries next foremost, Stmt.every_labelEach carries others _ behind⟩

/-- What labelling carries over holds of a labelled block. -/
theorem Block.every_label (carries : Node.Carries holds kept) (block : Block Unit) (next : Nat)
    (every : block.Every holds) : (block.label next).1.Every kept := by
  match block with
  | .mk _ stmts =>
      obtain ⟨root, inner⟩ := Block.every_iff.mp every
      exact Block.every_iff.mpr
        ⟨carries.block _ next root, Stmt.every_labelEach carries stmts next inner⟩

theorem Block.every_labelElse (carries : Node.Carries holds kept)
    (otherwise : Option (Block Unit)) (next : Nat)
    (every : ∀ block ∈ otherwise, block.Every holds) :
    ∀ block ∈ (Block.labelElse otherwise next).1, block.Every kept := by
  match otherwise with
  | none => exact fun _ member => nomatch member
  | some block =>
      rintro _ ⟨⟩
      exact block.every_label carries next (every block rfl)

end

/-- What labelling carries over holds of a labelled program. -/
theorem Program.every_label (carries : Node.Carries holds kept) (program : Program Unit)
    (next : Nat) (every : ∀ node ∈ program.nodes, holds node) :
    ∀ stmt ∈ (program.label next).1.statements, stmt.Every kept :=
  Stmt.every_labelEach carries program.statements next (Stmt.every_all.mp every)

end

end Monkey
