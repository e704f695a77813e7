import Monkey.Proofs.Grammar.Programs

/-!
The tokens of a syntax tree, with parentheses only where the strength of operators asks for them.
Reading these tokens gives the tree back: the grammar derives it from them, whatever mixture of
operators, calls, indices, conditionals and functions it is.
-/

namespace Monkey

namespace Token

/-- The token between two items. -/
protected def comma : Token := ⟨.comma, ","⟩

/-- The token behind a statement. -/
protected def semicolon : Token := ⟨.semicolon, ";"⟩

/-- The token between a name and its value. -/
protected def assign : Token := ⟨.assign, "="⟩

/-- The token that opens a group. -/
protected def leftParen : Token := ⟨.leftParen, "("⟩

/-- The token that closes a group, arguments or parameters. -/
protected def rightParen : Token := ⟨.rightParen, ")"⟩

/-- The token that closes an array or an index. -/
protected def rightBracket : Token := ⟨.rightBracket, "]"⟩

/-- The token that closes a block. -/
protected def rightBrace : Token := ⟨.rightBrace, "\x7d"⟩

/-- The token in front of an alternative. -/
protected def elseWord : Token := ⟨.elseWord, "else"⟩

/-- The operators that stand between two operands. -/
def operators : List Token.Kind :=
  [.equal, .notEqual, .less, .greater, .plus, .minus, .asterisk, .slash]

end Token

/-- The token of a name is the name. -/
def Ident.WellFormed (ident : Ident) : Prop :=
  ident.token.kind = .ident ∧ ident.name = ident.token.literal

mutual

/-- Every node has a token of its own kind, and what the node says is what its token says. -/
def Expr.WellFormed : Expr Unit → Prop
  | .ident ident => ident.WellFormed
  | .integer token value => token.kind = .int ∧ Integer.ofLiteral token.literal = some value
  | .text token value => token.kind = .string ∧ value = token.literal
  | .boolean token value => token.kind = bif value then .trueWord else .falseWord
  | .array token elements => token.kind = .leftBracket ∧ Expr.WellFormedEach elements
  | .unary token operator operand =>
      (token.kind = .bang ∨ token.kind = .minus) ∧ operator = token.literal ∧ operand.WellFormed
  | .binary token left operator right =>
      token.kind ∈ Token.operators ∧ operator = token.literal ∧ left.WellFormed ∧ right.WellFormed
  | .index token collection position =>
      token.kind = .leftBracket ∧ collection.WellFormed ∧ position.WellFormed
  | .conditional token condition consequence alternative =>
      token.kind = .ifWord ∧ condition.WellFormed ∧ consequence.WellFormed ∧
        Block.WellFormedElse alternative
  | .function token _ parameters body =>
      token.kind = .fnWord ∧ (∀ parameter ∈ parameters, parameter.WellFormed) ∧ body.WellFormed
  | .call token callee arguments =>
      token.kind = .leftParen ∧ callee.WellFormed ∧ Expr.WellFormedEach arguments

def Expr.WellFormedEach : List (Expr Unit) → Prop
  | [] => True
  | first :: others => first.WellFormed ∧ Expr.WellFormedEach others

/-- The token of an expression that is a statement is left open. -/
def Stmt.WellFormed : Stmt Unit → Prop
  | .bind token name value => token.kind = .letWord ∧ name.WellFormed ∧ value.WellFormed
  | .give token value => token.kind = .returnWord ∧ value.WellFormed
  | .expression _ value => value.WellFormed

/-- Statements all of which are well formed. -/
def Stmt.WellFormedAll : List (Stmt Unit) → Prop
  | [] => True
  | first :: others => first.WellFormed ∧ Stmt.WellFormedAll others

/-- A block that starts with its brace and whose statements are well formed. -/
def Block.WellFormed : Block Unit → Prop
  | .mk token statements => token.kind = .leftBrace ∧ Stmt.WellFormedAll statements

def Block.WellFormedElse : Option (Block Unit) → Prop
  | none => True
  | some block => block.WellFormed

end

/-- A program all of whose statements are well formed. -/
def Program.WellFormed (program : Program Unit) : Prop :=
  Stmt.WellFormedAll program.statements

/-- The strength of the outermost operator; what is no operator holds together like a call. -/
def Expr.precedence : Expr Unit → Precedence
  | .binary token _ _ _ => .ofKind token.kind
  | .unary _ _ _ => .unary
  | _ => .call

/-- The tokens, in parentheses if these are needed. -/
def grouped (needed : Bool) (tokens : List Token) : List Token :=
  bif needed then .leftParen :: (tokens ++ [.rightParen]) else tokens

/-- The tokens of parameters behind the first one. -/
def Ident.unparseMore : List Ident → List Token
  | [] => []
  | first :: others => .comma :: first.token :: Ident.unparseMore others

/-- The tokens of names with commas between them. -/
def Ident.unparseEach : List Ident → List Token
  | [] => []
  | first :: others => first.token :: Ident.unparseMore others

mutual

/-- The tokens of an expression. Parentheses stand around a left operand that binds less than the
operator, a right operand that binds no more than it, an operand of a unary operator with an
operator between operands, and a callee or a collection with any operator. -/
def Expr.unparse : Expr Unit → List Token
  | .ident ident => [ident.token]
  | .integer token _ => [token]
  | .text token _ => [token]
  | .boolean token _ => [token]
  | .array token elements => token :: (Expr.unparseEach elements ++ [.rightBracket])
  | .unary token _ operand =>
      token :: grouped (operand.precedence.rank < Precedence.unary.rank) operand.unparse
  | .binary token left _ right =>
      grouped (left.precedence.rank < (Precedence.ofKind token.kind).rank) left.unparse ++
        token :: grouped (right.precedence.rank ≤ (Precedence.ofKind token.kind).rank) right.unparse
  | .index token collection position =>
      grouped (collection.precedence.rank < Precedence.call.rank) collection.unparse ++
        token :: (position.unparse ++ [.rightBracket])
  | .conditional token condition consequence alternative =>
      token :: .leftParen :: (condition.unparse ++
        .rightParen :: (consequence.unparse ++ Block.unparseElse alternative))
  | .function token _ parameters body =>
      token :: .leftParen :: (Ident.unparseEach parameters ++ .rightParen :: body.unparse)
  | .call token callee arguments =>
      grouped (callee.precedence.rank < Precedence.call.rank) callee.unparse ++
        token :: (Expr.unparseEach arguments ++ [.rightParen])

def Expr.unparseEach : List (Expr Unit) → List Token
  | [] => []
  | first :: others => first.unparse ++ Expr.unparseMore others

/-- The tokens of items behind the first one. -/
def Expr.unparseMore : List (Expr Unit) → List Token
  | [] => []
  | first :: others => .comma :: (first.unparse ++ Expr.unparseMore others)

/-- Every statement ends with a semicolon. -/
def Stmt.unparse : Stmt Unit → List Token
  | .bind token name value => token :: name.token :: .assign :: (value.unparse ++ [.semicolon])
  | .give token value => token :: (value.unparse ++ [.semicolon])
  | .expression _ value => value.unparse ++ [.semicolon]

/-- The tokens of statements in a row. -/
def Stmt.unparseAll : List (Stmt Unit) → List Token
  | [] => []
  | first :: others => first.unparse ++ Stmt.unparseAll others

/-- The tokens of a block, braces included. -/
def Block.unparse : Block Unit → List Token
  | .mk token statements => token :: (Stmt.unparseAll statements ++ [.rightBrace])

/-- The tokens of an alternative, none if there is none. -/
def Block.unparseElse : Option (Block Unit) → List Token
  | none => []
  | some block => .elseWord :: block.unparse

end

/-- The tokens of a program. -/
def Program.unparse (program : Program Unit) : List Token :=
  Stmt.unparseAll program.statements

/-- The token that an expression starts with. -/
def Expr.firstToken (expr : Expr Unit) : Token :=
  expr.unparse.headD .eof

mutual

/-- The tree in which every expression that is a statement carries the token that it starts with;
nothing else is different. -/
def Expr.anchored : Expr Unit → Expr Unit
  | .ident ident => .ident ident
  | .integer token value => .integer token value
  | .text token value => .text token value
  | .boolean token value => .boolean token value
  | .array token elements => .array token (Expr.anchoredEach elements)
  | .unary token operator operand => .unary token operator operand.anchored
  | .binary token left operator right => .binary token left.anchored operator right.anchored
  | .index token collection position => .index token collection.anchored position.anchored
  | .conditional token condition consequence alternative =>
      .conditional token condition.anchored consequence.anchored (Block.anchoredElse alternative)
  | .function token mark parameters body => .function token mark parameters body.anchored
  | .call token callee arguments => .call token callee.anchored (Expr.anchoredEach arguments)

def Expr.anchoredEach : List (Expr Unit) → List (Expr Unit)
  | [] => []
  | first :: others => first.anchored :: Expr.anchoredEach others

/-- The statement as it is read. -/
def Stmt.anchored : Stmt Unit → Stmt Unit
  | .bind token name value => .bind token name value.anchored
  | .give token value => .give token value.anchored
  | .expression _ value => .expression value.firstToken value.anchored

def Stmt.anchoredAll : List (Stmt Unit) → List (Stmt Unit)
  | [] => []
  | first :: others => first.anchored :: Stmt.anchoredAll others

/-- The block as it is read. -/
def Block.anchored : Block Unit → Block Unit
  | .mk token statements => .mk token (Stmt.anchoredAll statements)

def Block.anchoredElse : Option (Block Unit) → Option (Block Unit)
  | none => none
  | some block => some block.anchored

end

/-- The program as it is read, where each expression statement has its own first token. -/
def Program.anchored (program : Program Unit) : Program Unit :=
  ⟨Stmt.anchoredAll program.statements⟩

namespace Grammar

/-- A well-formed name is a parameter. -/
theorem parameter_of_wellFormed {ident : Ident} (wellFormed : ident.WellFormed)
    (rest : List Token) : Parameter ident (ident.token :: rest) rest := by
  obtain ⟨token, name⟩ := ident
  obtain ⟨kind, rfl⟩ : token.kind = .ident ∧ name = token.literal := wellFormed
  exact .name kind

/-- The tokens of further names are further parameters. -/
theorem moreParameters_unparse (names : List Ident)
    (wellFormed : ∀ name ∈ names, name.WellFormed) (rest : List Token) :
    MoreParameters names (Ident.unparseMore names ++ .rightParen :: rest) rest := by
  induction names with
  | nil => exact .close rfl
  | cons first others inductionHypothesis =>
      rw [List.forall_mem_cons] at wellFormed
      exact .comma rfl (parameter_of_wellFormed wellFormed.1 _) (inductionHypothesis wellFormed.2)

/-- The tokens of names are parameters. -/
theorem parameters_unparse (names : List Ident) (wellFormed : ∀ name ∈ names, name.WellFormed)
    (rest : List Token) :
    Parameters names (Ident.unparseEach names ++ .rightParen :: rest) rest := by
  cases names with
  | nil => exact .none rfl
  | cons first others =>
      rw [List.forall_mem_cons] at wellFormed
      exact .some (parameter_of_wellFormed wellFormed.1 _) (moreParameters_unparse _ wellFormed.2 _)

/-- Every operator belongs to a layer. -/
theorem layer_of_mem_operators {kind : Token.Kind} (operator : kind ∈ Token.operators) :
    ∃ layer : Layer, kind ∈ layer.operators := by
  apply operator_of_strong
  · revert operator
    cases kind <;> decide
  · rintro rfl
    revert operator
    decide
  · rintro rfl
    revert operator
    decide

/-- Above the operators of a layer stands the layer that it is built from. -/
theorem rank_inner_of_operator {layer : Layer} {kind : Token.Kind} {rank : Nat}
    (operator : kind ∈ layer.operators) (above : layer.rank < rank) : layer.inner.rank ≤ rank := by
  cases layer <;> simp_all [Layer.operators, Layer.rank, Layer.inner] <;> omega

/-- The tree is derived from the tokens in every layer up to the rank, whatever follows. -/
def Covers (rank : Nat) (tree : Expr Unit) (tokens : List Token) : Prop :=
  ∀ layer : Layer, layer.rank ≤ rank → ∀ rest,
    Derives (.expression layer tree) (tokens ++ rest) rest

/-- What is derived at a layer covers all ranks up to that of the layer. -/
theorem covers_of_layer {own : Layer} {rank : Nat} {tree : Expr Unit} {tokens : List Token}
    (reaches : rank ≤ own.rank)
    (derives : ∀ rest, Derives (.expression own tree) (tokens ++ rest) rest) :
    Covers rank tree tokens := by
  intro layer le rest
  exact (derives rest).widen (Nat.le_trans le reaches)

/-- A primary expression covers all ranks. -/
theorem covers_primary {tree : Expr Unit} {tokens : List Token}
    (derives : ∀ rest, Derives (.expression .primary tree) (tokens ++ rest) rest) :
    Covers Precedence.call.rank tree tokens :=
  covers_of_layer (by decide) derives

/-- A call or an index covers all ranks. -/
theorem covers_access {tree : Expr Unit} {tokens : List Token}
    (derives : ∀ rest, Derives (.expression .access tree) (tokens ++ rest) rest) :
    Covers Precedence.call.rank tree tokens :=
  covers_of_layer (by decide) derives

/-- With parentheses an expression is derived in every layer, and without them where it binds
enough. -/
theorem Covers.grouped {rank : Nat} {tree : Expr Unit} {tokens : List Token} {needed : Bool}
    {layer : Layer} (covers : Covers rank tree tokens) (least : Layer.equality.rank ≤ rank)
    (bare : needed = false → layer.rank ≤ rank) (rest : List Token) :
    Derives (.expression layer tree) (grouped needed tokens ++ rest) rest := by
  cases needed with
  | false => exact covers layer (bare rfl) rest
  | true =>
      have inner := covers .equality least (.rightParen :: rest)
      have group : Derives (.expression .primary tree)
          (.leftParen :: (tokens ++ .rightParen :: rest)) rest := .group rfl inner rfl
      have inLayer := group.widen (show layer.rank ≤ Layer.primary.rank by cases layer <;> decide)
      simpa [Monkey.grouped] using inLayer

/-- No well-formed expression is weaker than an equation. -/
theorem least_precedence {expr : Expr Unit} (wellFormed : expr.WellFormed) :
    Layer.equality.rank ≤ expr.precedence.rank := by
  cases expr with
  | binary token left operator right =>
      obtain ⟨layer, operator⟩ := layer_of_mem_operators wellFormed.1
      change _ ≤ (Precedence.ofKind token.kind).rank
      rw [rank_of_operator operator]
      cases layer <;> decide
  | unary => exact (by decide : Layer.equality.rank ≤ Precedence.unary.rank)
  | _ => exact (by decide : Layer.equality.rank ≤ Precedence.call.rank)

/-- In parentheses, between commas and as a whole statement an expression needs none of its own. -/
theorem Covers.outermost {expr : Expr Unit}
    (covers : Covers expr.precedence.rank expr.anchored expr.unparse)
    (wellFormed : expr.WellFormed) (rest : List Token) :
    Derives (.expression .equality expr.anchored) (expr.unparse ++ rest) rest :=
  covers .equality (least_precedence wellFormed) rest

/-- A binary operation covers the rank of its operator, when its operands are grouped as needed. -/
theorem covers_binary {token : Token} {left right : Expr Unit}
    (operator : token.kind ∈ Token.operators) (leftWellFormed : left.WellFormed)
    (rightWellFormed : right.WellFormed)
    (first : Covers left.precedence.rank left.anchored left.unparse)
    (second : Covers right.precedence.rank right.anchored right.unparse) :
    Covers (Precedence.ofKind token.kind).rank
      (.binary token left.anchored token.literal right.anchored)
      (Expr.binary token left token.literal right).unparse := by
  obtain ⟨own, isOwn⟩ := layer_of_mem_operators operator
  have rank : (Precedence.ofKind token.kind).rank = own.rank := rank_of_operator isOwn
  apply covers_of_layer (Nat.le_of_eq rank)
  intro rest
  rw [Expr.unparse, rank, List.append_assoc, List.cons_append]
  apply Derives.binary
  · apply first.grouped (least_precedence leftWellFormed)
    intro bare
    simpa using bare
  · exact isOwn
  · apply second.grouped (least_precedence rightWellFormed)
    intro bare
    exact rank_inner_of_operator isOwn (by simpa using bare)

/-- What stands in front of a call or an index binds like one or is in parentheses. -/
theorem derives_access {expr : Expr Unit} (wellFormed : expr.WellFormed)
    (covers : Covers expr.precedence.rank expr.anchored expr.unparse) (rest : List Token) :
    Derives (.expression .access expr.anchored)
      (grouped (expr.precedence.rank < Precedence.call.rank) expr.unparse ++ rest) rest := by
  apply covers.grouped (least_precedence wellFormed)
  intro bare
  exact Nat.not_lt.mp (of_decide_eq_false bare)

mutual

/-- The tokens of an expression cover its own rank, by induction on the tree. -/
theorem covers_unparse (expr : Expr Unit) (wellFormed : expr.WellFormed) :
    Covers expr.precedence.rank expr.anchored expr.unparse := by
  match expr with
  | .ident ⟨token, name⟩ =>
      obtain ⟨kind, rfl⟩ : token.kind = .ident ∧ name = token.literal := wellFormed
      exact covers_primary fun rest => .ident kind
  | .integer token value =>
      obtain ⟨kind, numeral⟩ := wellFormed
      obtain ⟨small, rfl⟩ := Integer.ofLiteral_eq_some.mp numeral
      exact covers_primary fun rest => .integer kind small
  | .text token value =>
      obtain ⟨kind, rfl⟩ := wellFormed
      exact covers_primary fun rest => .text kind
  | .boolean token value =>
      cases value with
      | true => exact covers_primary fun rest => .true wellFormed
      | false => exact covers_primary fun rest => .false wellFormed
  | .array token elements =>
      obtain ⟨kind, elementsWellFormed⟩ := wellFormed
      apply covers_primary
      intro rest
      have items := derives_unparseEach .rightBracket elements elementsWellFormed rest
      simpa [Expr.unparse, Expr.anchored] using Derives.array kind items
  | .unary token operator operand =>
      obtain ⟨kind, rfl, operandWellFormed⟩ := wellFormed
      apply covers_of_layer (show Precedence.unary.rank ≤ Layer.unary.rank by decide)
      intro rest
      apply Derives.unary kind
      apply (covers_unparse operand operandWellFormed).grouped (least_precedence operandWellFormed)
      intro bare
      exact Nat.not_lt.mp (of_decide_eq_false bare)
  | .binary token left operator right =>
      obtain ⟨kind, rfl, leftWellFormed, rightWellFormed⟩ := wellFormed
      exact covers_binary kind leftWellFormed rightWellFormed
        (covers_unparse left leftWellFormed) (covers_unparse right rightWellFormed)
  | .index token collection position =>
      obtain ⟨kind, collectionWellFormed, positionWellFormed⟩ := wellFormed
      apply covers_access
      intro rest
      have inside := (covers_unparse position positionWellFormed).outermost positionWellFormed
        (.rightBracket :: rest)
      have first := derives_access collectionWellFormed
        (covers_unparse collection collectionWellFormed)
        (token :: (position.unparse ++ .rightBracket :: rest))
      simpa [Expr.unparse, Expr.anchored] using Derives.index first kind inside rfl
  | .conditional token condition consequence alternative =>
      obtain ⟨kind, conditionWellFormed, consequenceWellFormed, alternativeWellFormed⟩ := wellFormed
      apply covers_primary
      intro rest
      have first := (covers_unparse condition conditionWellFormed).outermost conditionWellFormed
        (.rightParen :: (consequence.unparse ++ (Block.unparseElse alternative ++ rest)))
      have second := derives_unparse_block consequence consequenceWellFormed
        (Block.unparseElse alternative ++ rest)
      have third := derives_unparse_else alternative alternativeWellFormed rest
      simpa [Expr.unparse, Expr.anchored] using
        Derives.conditional kind (show Token.leftParen.kind = _ from rfl) first rfl second third
  | .function token () parameters body =>
      obtain ⟨kind, parametersWellFormed, bodyWellFormed⟩ := wellFormed
      apply covers_primary
      intro rest
      have names := parameters_unparse parameters parametersWellFormed (body.unparse ++ rest)
      have inside := derives_unparse_block body bodyWellFormed rest
      simpa [Expr.unparse, Expr.anchored] using
        Derives.function kind (show Token.leftParen.kind = _ from rfl) names inside
  | .call token callee arguments =>
      obtain ⟨kind, calleeWellFormed, argumentsWellFormed⟩ := wellFormed
      apply covers_access
      intro rest
      have items := derives_unparseEach .rightParen arguments argumentsWellFormed rest
      have first := derives_access calleeWellFormed (covers_unparse callee calleeWellFormed)
        (token :: (Expr.unparseEach arguments ++ .rightParen :: rest))
      simpa [Expr.unparse, Expr.anchored] using Derives.call first kind items

/-- The tokens of expressions with commas between them are items. -/
theorem derives_unparseEach (close : Token) (exprs : List (Expr Unit))
    (wellFormed : Expr.WellFormedEach exprs) (rest : List Token) :
    Derives (.items close.kind (Expr.anchoredEach exprs))
      (Expr.unparseEach exprs ++ close :: rest) rest := by
  match exprs with
  | [] => exact .noItems rfl
  | first :: others =>
      have inFront := (covers_unparse first wellFormed.1).outermost wellFormed.1
        (Expr.unparseMore others ++ close :: rest)
      have behind := derives_unparseMore close others wellFormed.2 rest
      simpa [Expr.unparseEach, Expr.anchoredEach] using Derives.someItems inFront behind

/-- The tokens of further expressions are further items. -/
theorem derives_unparseMore (close : Token) (exprs : List (Expr Unit))
    (wellFormed : Expr.WellFormedEach exprs) (rest : List Token) :
    Derives (.moreItems close.kind (Expr.anchoredEach exprs))
      (Expr.unparseMore exprs ++ close :: rest) rest := by
  match exprs with
  | [] => exact .close rfl
  | first :: others =>
      have inFront := (covers_unparse first wellFormed.1).outermost wellFormed.1
        (Expr.unparseMore others ++ close :: rest)
      have behind := derives_unparseMore close others wellFormed.2 rest
      simpa [Expr.unparseMore, Expr.anchoredEach] using
        Derives.comma (show Token.comma.kind = _ from rfl) inFront behind

/-- The tokens of a statement are read back as the statement. -/
theorem derives_unparse_statement (stmt : Stmt Unit) (wellFormed : stmt.WellFormed)
    (rest : List Token) : Derives (.statement stmt.anchored) (stmt.unparse ++ rest) rest := by
  have ending : Ending (.semicolon :: rest) rest := .semicolon rfl
  match stmt with
  | .bind token ⟨nameToken, name⟩ value =>
      obtain ⟨kind, nameWellFormed, valueWellFormed⟩ := wellFormed
      obtain ⟨named, rfl⟩ : nameToken.kind = .ident ∧ name = nameToken.literal := nameWellFormed
      have derives := (covers_unparse value valueWellFormed).outermost valueWellFormed
        (.semicolon :: rest)
      simpa [Stmt.unparse, Stmt.anchored] using
        Derives.bind kind named (show Token.assign.kind = _ from rfl) derives ending
  | .give token value =>
      obtain ⟨kind, valueWellFormed⟩ := wellFormed
      have derives := (covers_unparse value valueWellFormed).outermost valueWellFormed
        (.semicolon :: rest)
      simpa [Stmt.unparse, Stmt.anchored] using Derives.give kind derives ending
  | .expression token value =>
      have outermost := (covers_unparse value wellFormed).outermost wellFormed
      obtain ⟨first, others, tokens⟩ := (outermost []).exists_cons
      rw [List.append_nil] at tokens
      have derives := outermost (.semicolon :: rest)
      rw [tokens, List.cons_append] at derives
      simpa [Stmt.unparse, Stmt.anchored, Expr.firstToken, tokens] using
        Derives.expression derives ending

/-- The tokens of statements are read back as the statements. -/
theorem derives_unparseAll (stmts : List (Stmt Unit)) (wellFormed : Stmt.WellFormedAll stmts)
    (rest : List Token) :
    Derives (.statements (Stmt.anchoredAll stmts)) (Stmt.unparseAll stmts ++ rest) rest := by
  match stmts with
  | [] => exact .nothing
  | first :: others =>
      have inFront := derives_unparse_statement first wellFormed.1 (Stmt.unparseAll others ++ rest)
      have behind := derives_unparseAll others wellFormed.2 rest
      simpa [Stmt.unparseAll, Stmt.anchoredAll] using Derives.more inFront behind

/-- The tokens of a block are read back as the block. -/
theorem derives_unparse_block (block : Block Unit) (wellFormed : block.WellFormed)
    (rest : List Token) : Derives (.block block.anchored) (block.unparse ++ rest) rest := by
  match block with
  | .mk token statements =>
      have inside := derives_unparseAll statements wellFormed.2 (.rightBrace :: rest)
      simpa [Block.unparse, Block.anchored] using Derives.closed wellFormed.1 inside rfl

/-- The tokens of an alternative are read back as the alternative. -/
theorem derives_unparse_else (alternative : Option (Block Unit))
    (wellFormed : Block.WellFormedElse alternative) (rest : List Token) :
    Derives (.alternative (Block.anchoredElse alternative))
      (Block.unparseElse alternative ++ rest) rest := by
  match alternative with
  | none => exact .noElse
  | some block =>
      have inside := derives_unparse_block block wellFormed rest
      exact .someElse rfl inside

end

end Grammar

/-- The tokens of a well-formed program are read without an error, and what is read is the program;
only the first token of an expression that is a statement is taken from the tokens. -/
theorem Reader.program_unparse {program : Program Unit} (wellFormed : program.WellFormed) :
    (Reader.mk program.unparse #[]).program.1 = program.anchored ∧
      (Reader.mk program.unparse #[]).program.2.errors = #[] := by
  have derives : Grammar.Program program.anchored (program.unparse ++ []) :=
    Grammar.derives_unparseAll program.statements wellFormed []
  rw [List.append_nil] at derives
  exact Reader.program_of_derives derives

/-- The tree of `a - (b - -(c + c)[a]);` needs parentheses around a right operand of the same
strength and around a collection, but neither around the operand of the unary minus nor around a
left operand. -/
theorem Reader.program_unparse_nested :
    ∃ program : Program Unit,
      program.WellFormed ∧
      program.unparse.map Token.literal =
        ["a", "-", "(", "b", "-", "-", "(", "c", "+", "c", ")", "[", "a", "]", ")", ";"] ∧
      (Reader.mk program.unparse #[]).program.1 = program.anchored ∧
      (Reader.mk program.unparse #[]).program.2.errors = #[] := by
  let name (letter : String) : Expr Unit := .ident ⟨⟨.ident, letter⟩, letter⟩
  let minus : Token := ⟨.minus, "-"⟩
  let sum : Expr Unit := .binary ⟨.plus, "+"⟩ (name "c") "+" (name "c")
  let right : Expr Unit := .binary minus (name "b") "-"
    (.unary minus "-" (.index ⟨.leftBracket, "["⟩ sum (name "a")))
  let program : Program Unit := ⟨[.expression .eof (.binary minus (name "a") "-" right)]⟩
  have wellFormed : program.WellFormed := by
    simp [program, right, sum, minus, name, Program.WellFormed, Stmt.WellFormedAll, Stmt.WellFormed,
      Expr.WellFormed, Ident.WellFormed, Token.operators]
  exact ⟨program, wellFormed, rfl, Reader.program_unparse wellFormed⟩

end Monkey
