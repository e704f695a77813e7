import Monkey.Proofs.Grammar.Rendering
import Monkey.Proofs.Reader.Trees
import Monkey.Proofs.Syntax.Nodes

/-!
What can be relied on at each node of a tree that was read, whether or not there were errors: the
names are words, the numbers are those of their digits, and the operators are those of the language.
-/

namespace Monkey

/-- The name is what its token says: a word of letters and underscores that is not reserved. -/
structure Ident.IsWord (ident : Ident) : Prop where
  kind : ident.token.kind = .ident
  literal : ident.name = ident.token.literal
  nonempty : ident.name ≠ ""
  letters : ∀ char ∈ ident.name.toList, char.isAlpha ∨ char = '_'
  free : ident.name ∉ Token.reserved.map Prod.fst

/-- The value of an integer literal is the one that its digits have in the decimal system. -/
structure Integer.IsLiteral (token : Token) (value : Int64) : Prop where
  kind : token.kind = .int
  digits : ∀ char ∈ token.literal.toList, char.isDigit
  nonempty : token.literal ≠ ""
  decimal : value.toInt = Nat.ofDigitChars 10 token.literal.toList 0
  nonnegative : 0 ≤ value.toInt
  bounded : value.toInt ≤ 9223372036854775807

/-- The operators that stand in front of an operand. -/
def Operator.unaries : List String := ["!", "-"]

/-- The operators that stand between two operands. -/
def Operator.binaries : List String := ["+", "-", "*", "/", "<", ">", "==", "!="]

/-- The token of the node is of the right kind and says what the node says. Nothing is said of the
nodes below it, nor of the token of an expression that is a statement. -/
def Node.WellFormed {Mark : Type} : Node Mark → Prop
  | .name ident => ident.IsWord
  | .expression (.ident ident) => ident.IsWord
  | .expression (.integer token value) => Integer.IsLiteral token value
  | .expression (.text token value) => token.kind = .string ∧ value = token.literal
  | .expression (.boolean token value) =>
      (token.kind = .trueWord ∨ token.kind = .falseWord) ∧ (value = true ↔ token.kind = .trueWord)
  | .expression (.array token _) => token.kind = .leftBracket
  | .expression (.unary token operator _) => operator = token.literal ∧ operator ∈ Operator.unaries
  | .expression (.binary token _ operator _) =>
      operator = token.literal ∧ operator ∈ Operator.binaries
  | .expression (.index token _ _) => token.kind = .leftBracket
  | .expression (.conditional token _ _ _) => token.kind = .ifWord
  | .expression (.function token _ _ _) => token.kind = .fnWord
  | .expression (.call token _ _) => token.kind = .leftParen
  | .statement (.bind token _ _) => token.kind = .letWord
  | .statement (.give token _) => token.kind = .returnWord
  | .statement (.expression _ _) => True
  | .block (.mk token _) => token.kind = .leftBrace

/-- A well-formed name is a word. -/
theorem Ident.WellFormed.isWord {ident : Ident} (formed : ident.WellFormed)
    (token : ident.token.WellFormed) : ident.IsWord := by
  obtain ⟨⟨kind, literal⟩, name⟩ := ident
  simp only [Ident.WellFormed] at formed
  obtain ⟨rfl, rfl⟩ := formed
  have reserved : ∀ word ∈ Token.reserved.map Prod.fst, Token.Kind.ofWord word ≠ .ident := by decide
  obtain ⟨nonempty, letters, isWord⟩ := (Token.wellFormed_word (by decide)).mp token
  refine ⟨rfl, rfl, ?_, ?_, fun isReserved => reserved _ isReserved isWord.symm⟩
  · rintro rfl
    exact nonempty rfl
  · intro char member
    simpa [Token.isLetter] using letters char member

/-- A token that was read as an integer is its literal. -/
theorem Integer.isLiteral {token : Token} {value : Int64} (formed : token.WellFormed)
    (kind : token.kind = .int) (literal : Integer.ofLiteral token.literal = some value) :
    Integer.IsLiteral token value := by
  simp only [Token.WellFormed, kind] at formed
  obtain ⟨nonempty, digits⟩ := formed
  have decimal := Integer.toInt_of_exact literal
  have bounded := value.toInt_lt
  refine ⟨kind, digits, ?_, decimal, by omega, by omega⟩
  intro isEmpty
  exact nonempty (by rw [isEmpty, String.toList_empty])

/-- A unary operation is well formed when its operator is the text of its token. -/
theorem Node.wellFormed_unary {token : Token} {operator : String} (operand : Expr Unit)
    (formed : token.WellFormed) (kind : token.kind = .bang ∨ token.kind = .minus)
    (literal : operator = token.literal) :
    (Node.expression (.unary token operator operand)).WellFormed := by
  refine ⟨literal, ?_⟩
  subst literal
  rcases kind with kind | kind <;> rw [formed.eq_symbol kind rfl] <;> decide

/-- A binary operation is well formed when its operator is the text of its token. -/
theorem Node.wellFormed_binary {token : Token} {operator : String} (left right : Expr Unit)
    (formed : token.WellFormed) (kind : token.kind ∈ Token.operators)
    (literal : operator = token.literal) :
    (Node.expression (.binary token left operator right)).WellFormed := by
  have symbols : ∀ kind ∈ Token.operators, ∃ text ∈ Operator.binaries,
      kind.symbol? = some text := by decide
  obtain ⟨text, isOperator, spelled⟩ := symbols _ kind
  have isText : token.literal = text := by rw [formed.eq_symbol rfl spelled]
  exact ⟨literal, literal ▸ isText ▸ isOperator⟩

/-- A boolean is well formed when its token is the word for it. -/
theorem Node.wellFormed_boolean {token : Token} {value : Bool}
    (kind : token.kind = bif value then .trueWord else .falseWord) :
    (Node.expression (.boolean token value : Expr Unit)).WellFormed := by
  cases value with
  | true => exact ⟨.inl kind, by simp [kind]⟩
  | false => exact ⟨.inr kind, by simp [kind]⟩

mutual

/-- In a well-formed tree with well-formed tokens all is well at every node. -/
theorem Expr.every_wellFormed (expr : Expr Unit) (formed : expr.WellFormed)
    (tokens : expr.AllTokens Token.WellFormed) : expr.Every Node.WellFormed := by
  match expr with
  | .ident ident =>
      have isWord := Ident.WellFormed.isWord formed tokens
      exact List.forall_mem_cons.mpr ⟨isWord, List.forall_mem_singleton.mpr isWord⟩
  | .integer _ _ =>
      exact List.forall_mem_singleton.mpr (Integer.isLiteral tokens formed.1 formed.2)
  | .text _ _ => exact List.forall_mem_singleton.mpr formed
  | .boolean _ _ => exact List.forall_mem_singleton.mpr (Node.wellFormed_boolean formed)
  | .array _ elements =>
      obtain ⟨kind, each⟩ := formed
      exact Expr.every_array.mpr ⟨kind, Expr.every_wellFormedEach elements each tokens.2⟩
  | .unary _ _ operand =>
      obtain ⟨kind, literal, inner⟩ := formed
      exact Expr.every_unary.mpr ⟨Node.wellFormed_unary operand tokens.1 kind literal,
        operand.every_wellFormed inner tokens.2⟩
  | .binary _ left _ right =>
      obtain ⟨kind, literal, first, second⟩ := formed
      obtain ⟨token, firstTokens, secondTokens⟩ := tokens
      exact Expr.every_binary.mpr ⟨Node.wellFormed_binary left right token kind literal,
        left.every_wellFormed first firstTokens, right.every_wellFormed second secondTokens⟩
  | .index _ collection position =>
      obtain ⟨kind, first, second⟩ := formed
      obtain ⟨_, firstTokens, secondTokens⟩ := tokens
      exact Expr.every_index.mpr ⟨kind, collection.every_wellFormed first firstTokens,
        position.every_wellFormed second secondTokens⟩
  | .conditional _ condition consequence alternative =>
      obtain ⟨kind, first, second, third⟩ := formed
      obtain ⟨_, firstTokens, secondTokens, thirdTokens⟩ := tokens
      exact Expr.every_conditional.mpr ⟨kind, condition.every_wellFormed first firstTokens,
        consequence.every_wellFormed second secondTokens,
        Block.every_wellFormedElse alternative third thirdTokens⟩
  | .function _ _ parameters body =>
      obtain ⟨kind, names, inner⟩ := formed
      obtain ⟨_, nameTokens, innerTokens⟩ := tokens
      exact Expr.every_function.mpr ⟨kind,
        fun parameter member => (names parameter member).isWord (nameTokens parameter member),
        body.every_wellFormed inner innerTokens⟩
  | .call _ callee arguments =>
      obtain ⟨kind, first, each⟩ := formed
      obtain ⟨_, firstTokens, eachTokens⟩ := tokens
      exact Expr.every_call.mpr ⟨kind, callee.every_wellFormed first firstTokens,
        Expr.every_wellFormedEach arguments each eachTokens⟩

theorem Expr.every_wellFormedEach (exprs : List (Expr Unit)) (formed : Expr.WellFormedEach exprs)
    (tokens : Expr.AllTokensEach Token.WellFormed exprs) :
    ∀ expr ∈ exprs, expr.Every Node.WellFormed := by
  match exprs with
  | [] => exact fun _ member => nomatch member
  | first :: others =>
      exact List.forall_mem_cons.mpr ⟨first.every_wellFormed formed.1 tokens.1,
        Expr.every_wellFormedEach others formed.2 tokens.2⟩

/-- All nodes of a well-formed statement are well formed. -/
theorem Stmt.every_wellFormed (stmt : Stmt Unit) (formed : stmt.WellFormed)
    (tokens : stmt.AllTokens Token.WellFormed) : stmt.Every Node.WellFormed := by
  match stmt with
  | .bind _ name value =>
      obtain ⟨kind, isName, inner⟩ := formed
      obtain ⟨_, nameToken, innerTokens⟩ := tokens
      exact Stmt.every_bind.mpr
        ⟨kind, isName.isWord nameToken, value.every_wellFormed inner innerTokens⟩
  | .give _ value =>
      exact Stmt.every_give.mpr ⟨formed.1, value.every_wellFormed formed.2 tokens.2⟩
  | .expression _ value =>
      exact Stmt.every_expression.mpr ⟨trivial, value.every_wellFormed formed tokens⟩

theorem Stmt.every_wellFormedAll (stmts : List (Stmt Unit)) (formed : Stmt.WellFormedAll stmts)
    (tokens : Stmt.AllTokensEach Token.WellFormed stmts) :
    ∀ stmt ∈ stmts, stmt.Every Node.WellFormed := by
  match stmts with
  | [] => exact fun _ member => nomatch member
  | first :: others =>
      exact List.forall_mem_cons.mpr ⟨first.every_wellFormed formed.1 tokens.1,
        Stmt.every_wellFormedAll others formed.2 tokens.2⟩

/-- All nodes of a well-formed block are well formed. -/
theorem Block.every_wellFormed (block : Block Unit) (formed : block.WellFormed)
    (tokens : block.AllTokens Token.WellFormed) : block.Every Node.WellFormed := by
  match block with
  | .mk _ stmts =>
      exact Block.every_iff.mpr ⟨formed.1, Stmt.every_wellFormedAll stmts formed.2 tokens.2⟩

theorem Block.every_wellFormedElse (otherwise : Option (Block Unit))
    (formed : Block.WellFormedElse otherwise)
    (tokens : Block.AllTokensElse Token.WellFormed otherwise) :
    ∀ block ∈ otherwise, block.Every Node.WellFormed := by
  match otherwise with
  | none => exact fun _ member => nomatch member
  | some block =>
      rintro _ ⟨⟩
      exact block.every_wellFormed formed tokens

end

/-- All nodes of a program that has been read are well formed, errors or none. -/
theorem Program.nodes_wellFormed (source : String) :
    ∀ node ∈ (Program.read source).1.nodes, node.WellFormed := by
  obtain ⟨formed, tokens⟩ := Program.built source
  exact Stmt.every_all.mpr (Stmt.every_wellFormedAll _ formed tokens)

/-- Labels change neither tokens nor operators. -/
theorem Node.carries_wellFormed : Node.Carries Node.WellFormed Node.WellFormed where
  name _ isWord := isWord
  expression expr _ formed := by cases expr <;> exact formed
  statement stmt _ formed := by cases stmt <;> exact formed
  block block _ formed := by cases block; exact formed

end Monkey
