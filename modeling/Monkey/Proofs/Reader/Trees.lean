import Monkey.Proofs.Grammar.Unparsing

/-!
The trees that are read, with errors around them or without. Every node has a token of its own kind,
says what its token says, and its token is one of those that were read.
-/

namespace Monkey

mutual

/-- Every token that the nodes keep has the property. The token of an expression that is a statement
is left open. -/
def Expr.AllTokens (holds : Token → Prop) : Expr Unit → Prop
  | .ident ident => holds ident.token
  | .integer token _ | .text token _ | .boolean token _ => holds token
  | .array token elements => holds token ∧ Expr.AllTokensEach holds elements
  | .unary token _ operand => holds token ∧ operand.AllTokens holds
  | .binary token left _ right => holds token ∧ left.AllTokens holds ∧ right.AllTokens holds
  | .index token collection position =>
      holds token ∧ collection.AllTokens holds ∧ position.AllTokens holds
  | .conditional token condition consequence alternative =>
      holds token ∧ condition.AllTokens holds ∧ consequence.AllTokens holds ∧
        Block.AllTokensElse holds alternative
  | .function token _ parameters body =>
      holds token ∧ (∀ parameter ∈ parameters, holds parameter.token) ∧ body.AllTokens holds
  | .call token callee arguments =>
      holds token ∧ callee.AllTokens holds ∧ Expr.AllTokensEach holds arguments

def Expr.AllTokensEach (holds : Token → Prop) : List (Expr Unit) → Prop
  | [] => True
  | first :: others => first.AllTokens holds ∧ Expr.AllTokensEach holds others

def Stmt.AllTokens (holds : Token → Prop) : Stmt Unit → Prop
  | .bind token name value => holds token ∧ holds name.token ∧ value.AllTokens holds
  | .give token value => holds token ∧ value.AllTokens holds
  | .expression _ value => value.AllTokens holds

def Stmt.AllTokensEach (holds : Token → Prop) : List (Stmt Unit) → Prop
  | [] => True
  | first :: others => first.AllTokens holds ∧ Stmt.AllTokensEach holds others

def Block.AllTokens (holds : Token → Prop) : Block Unit → Prop
  | .mk token statements => holds token ∧ Stmt.AllTokensEach holds statements

def Block.AllTokensElse (holds : Token → Prop) : Option (Block Unit) → Prop
  | none => True
  | some block => block.AllTokens holds

end

variable {holds : Token → Prop}

/-- The tree is well formed, and its tokens have the property. -/
def Expr.Built (holds : Token → Prop) (tree : Expr Unit) : Prop :=
  tree.WellFormed ∧ tree.AllTokens holds

/-- A well-formed statement whose tokens all have the property. -/
def Stmt.Built (holds : Token → Prop) (tree : Stmt Unit) : Prop :=
  tree.WellFormed ∧ tree.AllTokens holds

/-- A well-formed block whose tokens all have the property. -/
def Block.Built (holds : Token → Prop) (tree : Block Unit) : Prop :=
  tree.WellFormed ∧ tree.AllTokens holds

/-- A well-formed name whose token has the property. -/
def Ident.Built (holds : Token → Prop) (ident : Ident) : Prop :=
  ident.WellFormed ∧ holds ident.token

/-- Expressions are built one by one. -/
theorem Expr.built_each {trees : List (Expr Unit)} (built : ∀ tree ∈ trees, tree.Built holds) :
    Expr.WellFormedEach trees ∧ Expr.AllTokensEach holds trees := by
  induction trees with
  | nil => exact ⟨trivial, trivial⟩
  | cons first others inductionHypothesis =>
      rw [List.forall_mem_cons] at built
      obtain ⟨⟨firstFormed, firstTokens⟩, behind⟩ := built
      obtain ⟨othersFormed, othersTokens⟩ := inductionHypothesis behind
      exact ⟨⟨firstFormed, othersFormed⟩, firstTokens, othersTokens⟩

/-- Statements are built one by one. -/
theorem Stmt.built_all {trees : List (Stmt Unit)} (built : ∀ tree ∈ trees, tree.Built holds) :
    Stmt.WellFormedAll trees ∧ Stmt.AllTokensEach holds trees := by
  induction trees with
  | nil => exact ⟨trivial, trivial⟩
  | cons first others inductionHypothesis =>
      rw [List.forall_mem_cons] at built
      obtain ⟨⟨firstFormed, firstTokens⟩, behind⟩ := built
      obtain ⟨othersFormed, othersTokens⟩ := inductionHypothesis behind
      exact ⟨⟨firstFormed, othersFormed⟩, firstTokens, othersTokens⟩

namespace Reader

variable {reader reached : Reader}

/-- Every token in front of the reader has the property. -/
def All (holds : Token → Prop) (reader : Reader) : Prop :=
  ∀ token ∈ reader.tokens, holds token

/-- What holds of the tokens of a reader holds of those that are left. -/
theorem Reaches.all (reaches : reader.Reaches reached) (all : reader.All holds) :
    reached.All holds :=
  fun token member => all token (reaches.tokens.subset member)

/-- What holds of the tokens of a reader holds of those behind the first one. -/
theorem All.advance (all : reader.All holds) : reader.advance.All holds :=
  reader.reaches_advance.all all

/-- The reader stands on a token with the property unless it stands on the end. -/
theorem All.current (all : reader.All holds) {kind : Token.Kind}
    (isKind : reader.current.kind = kind) (inside : kind ≠ .eof := by decide) :
    holds reader.current := by
  apply all
  rw [reader.tokens_eq (isKind ▸ inside)]
  exact List.mem_cons_self

end Reader

namespace Reading

open Bounded

/-- What is read from tokens with the property is built as it should be. -/
def Builds {Item : Type} (holds : Token → Prop) (good : Item → Prop) (reading : Reading Item) :
    Prop :=
  ∀ ⦃reader reached : Reader⦄ ⦃item : Item⦄, reading reader = some (.ok item, reached) →
    reader.All holds → good item

section

variable {Item : Type} {good : Item → Prop} {item : Reading Item}

/-- A recorded reading builds what the reading builds, if it builds anything. -/
theorem builds_recorded (builds : Builds holds good item) :
    Builds holds (fun found => ∀ one ∈ found, good one) (recorded item) := by
  intro reader reached found read all
  match outcome : item reader with
  | none => simp [recorded, attempt, bind_apply, outcome] at read
  | some (.ok one, _) =>
      simp only [recorded, attempt, bind_apply, outcome, pure_eq_ok] at read
      obtain ⟨rfl, _⟩ := read
      rintro _ ⟨⟩
      exact builds outcome all
  | some (.error error, _) =>
      simp only [recorded, attempt, bind_apply, outcome, change_apply, pure_eq_ok] at read
      obtain ⟨rfl, _⟩ := read
      simp

/-- Further items are built as each of them is. -/
theorem builds_moreItems (forward : Forward item) (builds : Builds holds good item) (bound : Nat) :
    Builds holds (fun found => ∀ one ∈ found, good one) (moreItems item bound) := by
  induction bound with
  | zero =>
      intro reader reached found read
      cases read
  | succ bound inductionHypothesis =>
      intro reader reached found read all
      simp only [moreItems, following_bind] at read
      split at read
      · simp only [advance_bind, bind_eq_ok, pure_eq_ok] at read
        obtain ⟨first, middle, readFirst, others, _, readOthers, rfl, _⟩ := read
        have firstGood := builds readFirst all.advance.advance
        have othersGood := inductionHypothesis readOthers
          ((forward readFirst).all all.advance.advance)
        exact List.forall_mem_cons.mpr ⟨firstGood, othersGood⟩
      · obtain ⟨rfl, _⟩ := pure_eq_ok.mp read
        simp

/-- Items are built as each of them is. -/
theorem builds_items (forward : Forward item) (builds : Builds holds good item)
    (closing : Token.Kind) (bound : Nat) :
    Builds holds (fun found => ∀ one ∈ found, good one) (items item closing bound) := by
  intro reader reached found read all
  simp only [items, following_bind, advance_bind] at read
  split at read
  · obtain ⟨rfl, _⟩ := pure_eq_ok.mp read
    simp
  · simp only [bind_eq_ok, pure_eq_ok] at read
    obtain ⟨first, middle, readFirst, others, _, readOthers, _, _, _, rfl, _⟩ := read
    have firstGood := builds readFirst all.advance
    have othersGood := builds_moreItems forward builds bound readOthers
      ((forward readFirst).all all.advance)
    exact List.forall_mem_cons.mpr ⟨firstGood, othersGood⟩

end

/-- A parameter is a built name. -/
theorem builds_parameter : Builds holds (Ident.Built holds) parameter := by
  intro reader reached name read all
  simp only [parameter, current_bind] at read
  split at read
  · next kind =>
      obtain ⟨rfl, _⟩ := pure_eq_ok.mp read
      exact ⟨⟨kind, rfl⟩, all.current kind⟩
  · cases read

/-- The reader of expressions goes forward and builds what it should. -/
structure Building (holds : Token → Prop) (expression : Precedence → Reading (Expr Unit)) :
    Prop where
  forward : ∀ level, Forward (expression level)
  builds : ∀ level, Builds holds (Expr.Built holds) (expression level)

section

variable {expression : Precedence → Reading (Expr Unit)} (building : Building holds expression)

include building

/-- The items of an array or a call are built. -/
theorem Building.items (closing : Token.Kind) (bound : Nat) :
    Builds holds (fun trees => Expr.WellFormedEach trees ∧ Expr.AllTokensEach holds trees)
      (items (expression .lowest) closing bound) := by
  intro reader reached trees read all
  apply Expr.built_each
  exact builds_items (building.forward _) (building.builds _) closing bound read all

/-- A statement is built from its expression. -/
theorem Building.statement : Builds holds (Stmt.Built holds) (statement expression) := by
  intro reader reached tree read all
  by_cases isLet : reader.current.kind = .letWord
  · rw [statement_of_let _ isLet] at read
    simp only [bind_eq_ok, current_bind, expect_eq_ok, advance_bind, pure_eq_ok] at read
    obtain ⟨_, _, ⟨named, rfl⟩, _, _, ⟨_, rfl⟩, value, _, readValue, _, _, _, rfl, _⟩ := read
    obtain ⟨formed, tokens⟩ := building.builds _ readValue all.advance.advance.advance
    exact ⟨⟨isLet, ⟨named, rfl⟩, formed⟩, all.current isLet, all.advance.current named, tokens⟩
  by_cases isReturn : reader.current.kind = .returnWord
  · rw [statement_of_return _ isReturn] at read
    simp only [bind_eq_ok, advance_bind, pure_eq_ok] at read
    obtain ⟨value, _, readValue, _, _, _, rfl, _⟩ := read
    obtain ⟨formed, tokens⟩ := building.builds _ readValue all.advance
    exact ⟨⟨isReturn, formed⟩, all.current isReturn, tokens⟩
  · rw [statement_of_other _ isLet isReturn] at read
    simp only [bind_eq_ok, pure_eq_ok] at read
    obtain ⟨value, _, readValue, _, _, _, rfl, _⟩ := read
    exact building.builds _ readValue all

/-- A statement with an error is left out, and the others are built. -/
theorem Building.statements (closing : List Token.Kind) (bound : Nat) :
    Builds holds (fun trees => ∀ tree ∈ trees, tree.Built holds)
      (statements expression closing bound) := by
  induction bound with
  | zero =>
      intro reader reached trees read
      cases read
  | succ bound inductionHypothesis =>
      intro reader reached trees read all
      simp only [Reading.statements, current_bind] at read
      split at read
      · obtain ⟨rfl, _⟩ := pure_eq_ok.mp read
        simp
      · simp only [bind_eq_ok, advance_bind, pure_eq_ok] at read
        obtain ⟨first, middle, readFirst, others, _, readOthers, rfl, _⟩ := read
        have reaches := forward_recorded (forward_statement building.forward) readFirst
        have firstBuilt := builds_recorded building.statement readFirst all
        have othersBuilt := inductionHypothesis readOthers (reaches.all all).advance
        simp only [List.mem_append, Option.mem_toList]
        rintro tree (isFirst | isOther)
        · exact firstBuilt tree isFirst
        · exact othersBuilt tree isOther

/-- A block is built from its statements. -/
theorem Building.block {reader reached : Reader} {tree : Block Unit} {bound : Nat}
    (read : block expression bound reader = some (.ok tree, reached))
    (braces : reader.current.kind = .leftBrace) (all : reader.All holds) : tree.Built holds := by
  simp only [Reading.block, current_bind, advance_bind, bind_eq_ok, pure_eq_ok] at read
  obtain ⟨trees, _, readTrees, rfl, _⟩ := read
  obtain ⟨formed, tokens⟩ := Stmt.built_all (building.statements _ _ readTrees all.advance)
  exact ⟨⟨braces, formed⟩, all.current braces, tokens⟩

/-- An alternative is built from its block. -/
theorem Building.alternative (bound : Nat) :
    Builds holds (fun tree => Block.WellFormedElse tree ∧ Block.AllTokensElse holds tree)
      (alternative expression bound) := by
  intro reader reached tree read all
  simp only [Reading.alternative, following_bind] at read
  split at read
  · simp only [advance_bind, bind_eq_ok, expect_eq_ok, pure_eq_ok] at read
    obtain ⟨_, _, ⟨braces, rfl⟩, block, _, readBlock, rfl, _⟩ := read
    exact building.block readBlock braces all.advance.advance
  · obtain ⟨rfl, _⟩ := pure_eq_ok.mp read
    exact ⟨trivial, trivial⟩

/-- A unary operation is built from its operand. -/
theorem Building.unary {reader reached : Reader} {tree : Expr Unit}
    (kind : reader.current.kind = .bang ∨ reader.current.kind = .minus)
    (read : unary expression reader.current reader = some (.ok tree, reached))
    (all : reader.All holds) : tree.Built holds := by
  simp only [Reading.unary, advance_bind, bind_eq_ok, pure_eq_ok] at read
  obtain ⟨operand, _, readOperand, rfl, _⟩ := read
  obtain ⟨formed, tokens⟩ := building.builds _ readOperand all.advance
  exact ⟨⟨kind, rfl, formed⟩, kind.elim (all.current ·) (all.current ·), tokens⟩

/-- A conditional is built from its condition and its blocks. -/
theorem Building.conditional {reader reached : Reader} {tree : Expr Unit} {bound : Nat}
    (kind : reader.current.kind = .ifWord)
    (read : conditional expression reader.current bound reader = some (.ok tree, reached))
    (all : reader.All holds) : tree.Built holds := by
  simp only [Reading.conditional, bind_eq_ok, expect_eq_ok, advance_bind, pure_eq_ok] at read
  obtain ⟨_, _, ⟨_, rfl⟩, condition, first, readCondition, _, _, ⟨_, rfl⟩, _, _, ⟨braces, rfl⟩,
    consequence, second, readConsequence, otherwise, third, readOtherwise, rfl, rfl⟩ := read
  have firstAll := (building.forward _ readCondition).all all.advance.advance
  have secondAll := (forward_block building.forward bound readConsequence).all
    firstAll.advance.advance
  obtain ⟨conditionFormed, conditionTokens⟩ := building.builds _ readCondition all.advance.advance
  obtain ⟨consequenceFormed, consequenceTokens⟩ := building.block readConsequence braces
    firstAll.advance.advance
  obtain ⟨otherwiseFormed, otherwiseTokens⟩ := building.alternative bound readOtherwise secondAll
  exact ⟨⟨kind, conditionFormed, consequenceFormed, otherwiseFormed⟩, all.current kind,
    conditionTokens, consequenceTokens, otherwiseTokens⟩

/-- A function literal is built from its parameters and its body. -/
theorem Building.function {reader reached : Reader} {tree : Expr Unit} {bound : Nat}
    (kind : reader.current.kind = .fnWord)
    (read : function expression reader.current bound reader = some (.ok tree, reached))
    (all : reader.All holds) : tree.Built holds := by
  simp only [Reading.function, bind_eq_ok, expect_eq_ok, pure_eq_ok] at read
  obtain ⟨_, _, ⟨_, rfl⟩, names, first, readNames, _, _, ⟨braces, rfl⟩, body, _, readBody, rfl,
    rfl⟩ := read
  have firstAll := (forward_items forward_parameter _ bound readNames).all all.advance
  have namesBuilt := builds_items forward_parameter builds_parameter _ bound readNames all.advance
  obtain ⟨bodyFormed, bodyTokens⟩ := building.block readBody braces firstAll.advance
  exact ⟨⟨kind, fun name member => (namesBuilt name member).1, bodyFormed⟩, all.current kind,
    fun name member => (namesBuilt name member).2, bodyTokens⟩

/-- An operand is built, whatever token it starts with. -/
theorem Building.operand (bound : Nat) :
    Builds holds (Expr.Built holds) (operand expression bound) := by
  intro reader reached tree read all
  simp only [Reading.operand, current_bind] at read
  cases kind : reader.current.kind <;> simp only [operandFrom, kind] at read
  case ident =>
    obtain ⟨rfl, _⟩ := pure_eq_ok.mp read
    exact ⟨⟨kind, rfl⟩, all.current kind⟩
  case int =>
    cases found : Integer.ofLiteral reader.current.literal with
    | none => simp [integer, found] at read
    | some value =>
        simp only [integer, found, pure_eq_ok] at read
        obtain ⟨rfl, _⟩ := read
        exact ⟨⟨kind, found⟩, all.current kind⟩
  case string =>
    obtain ⟨rfl, _⟩ := pure_eq_ok.mp read
    exact ⟨⟨kind, rfl⟩, all.current kind⟩
  case trueWord | falseWord =>
    obtain ⟨rfl, _⟩ := pure_eq_ok.mp read
    exact ⟨kind, all.current kind⟩
  case bang => exact building.unary (.inl kind) read all
  case minus => exact building.unary (.inr kind) read all
  case leftParen =>
    simp only [grouped, advance_bind, bind_eq_ok, pure_eq_ok] at read
    obtain ⟨inner, _, readInner, _, _, _, rfl, _⟩ := read
    exact building.builds _ readInner all.advance
  case leftBracket =>
    simp only [array, bind_eq_ok, pure_eq_ok] at read
    obtain ⟨elements, _, readElements, rfl, _⟩ := read
    obtain ⟨formed, tokens⟩ := building.items _ bound readElements all
    exact ⟨⟨kind, formed⟩, all.current kind, tokens⟩
  case ifWord => exact building.conditional kind read all
  case fnWord => exact building.function kind read all
  all_goals simp at read

/-- An operator builds a longer expression from a built one. -/
theorem Building.continuation {reader reached : Reader} {left tree : Expr Unit} {bound : Nat}
    (strong : Precedence.lowest.rank < (Precedence.ofKind reader.current.kind).rank)
    (read : continuation expression left bound reader = some (.ok tree, reached))
    (all : reader.All holds) (built : left.Built holds) : tree.Built holds := by
  obtain ⟨leftFormed, leftTokens⟩ := built
  have notEnd : reader.current.kind ≠ .eof := by
    intro atEnd
    rw [atEnd] at strong
    exact absurd strong (by decide)
  have inside : holds reader.current := all.current rfl notEnd
  simp only [Reading.continuation, current_bind] at read
  by_cases call : reader.current.kind = .leftParen
  · simp only [call, bind_eq_ok, pure_eq_ok] at read
    obtain ⟨arguments, _, readArguments, rfl, _⟩ := read
    obtain ⟨formed, tokens⟩ := building.items _ bound readArguments all
    exact ⟨⟨call, leftFormed, formed⟩, inside, leftTokens, tokens⟩
  by_cases index : reader.current.kind = .leftBracket
  · simp only [index, advance_bind, bind_eq_ok, pure_eq_ok] at read
    obtain ⟨position, _, readPosition, _, _, _, rfl, _⟩ := read
    obtain ⟨formed, tokens⟩ := building.builds _ readPosition all.advance
    exact ⟨⟨index, leftFormed, formed⟩, inside, leftTokens, tokens⟩
  · simp only [advance_bind, bind_eq_ok, pure_eq_ok] at read
    obtain ⟨right, _, readRight, rfl, _⟩ := read
    obtain ⟨formed, tokens⟩ := building.builds _ readRight all.advance
    have operator : reader.current.kind ∈ Token.operators := by
      generalize reader.current.kind = kind at strong call index
      revert strong call index
      cases kind <;> decide
    exact ⟨⟨operator, rfl, leftFormed, formed⟩, inside, leftTokens, tokens⟩

/-- Operators build on what stands in front of them. -/
theorem Building.operators {reader reached : Reader} {level : Precedence} {left tree : Expr Unit}
    {bound : Nat} (read : operators expression level bound left reader = some (.ok tree, reached))
    (all : reader.All holds) (built : left.Built holds) : tree.Built holds := by
  induction bound generalizing reader left with
  | zero => cases read
  | succ bound inductionHypothesis =>
      simp only [Reading.operators, following_bind] at read
      split at read
      · next stronger =>
          simp only [advance_bind, bind_eq_ok] at read
          obtain ⟨longer, middle, readLonger, readRest⟩ := read
          have lowest : Precedence.lowest.rank ≤ level.rank := by cases level <;> decide
          have reaches := forward_continuation building.forward left bound readLonger
          have longerBuilt := building.continuation
            (show _ < (Precedence.ofKind reader.following.kind).rank by omega) readLonger
            all.advance built
          exact inductionHypothesis readRest (reaches.all all.advance) longerBuilt
      · obtain ⟨rfl, _⟩ := pure_eq_ok.mp read
        exact built

end

/-- Expressions are built, by induction on the bound. -/
theorem building_expression (bound : Nat) : Building holds (expression bound) := by
  induction bound with
  | zero => exact ⟨forward_expression 0, fun _ _ _ _ read => nomatch read⟩
  | succ bound inductionHypothesis =>
      refine ⟨forward_expression (bound + 1), fun level reader reached tree read all => ?_⟩
      simp only [expression, bind_eq_ok] at read
      obtain ⟨left, middle, readLeft, readRest⟩ := read
      have reaches : reader.Reaches middle :=
        (forward_current.bind fun token =>
          forward_operandFrom inductionHypothesis.forward token bound) readLeft
      exact inductionHypothesis.operators readRest (reaches.all all)
        (inductionHypothesis.operand bound readLeft all)

end Reading

/-- Whatever is read is well formed, with or without errors, and every token that it keeps is well
formed. -/
theorem Program.built (source : String) :
    (Program.read source).1.WellFormed ∧
      Stmt.AllTokensEach Token.WellFormed (Program.read source).1.statements := by
  have all : (Reader.ofString source).All Token.WellFormed := by
    obtain ⟨lead, pieces, cutting, tokens⟩ := (Scanner.ofString source).cutting
    intro token member
    have listed : token ∈ pieces.map Piece.token := tokens ▸ member
    obtain ⟨piece, isPiece, rfl⟩ := List.mem_map.mp listed
    exact cutting.wellFormed piece isPiece
  have read := (Reader.ofString source).program_eq
  exact Stmt.built_all ((Reading.building_expression _).statements _ _ read all)

end Monkey
