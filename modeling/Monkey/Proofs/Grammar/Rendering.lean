import Monkey.Proofs.Evaluation.Parts
import Monkey.Proofs.Grammar.Unparsing
import Monkey.Proofs.Reader.Trees
import Monkey.Proofs.Token.Joining
import Monkey.Syntax.Render

/-!
The canonical text of a program is read as the program. The text of an expression is read as tokens
that need no parentheses around them, so the parentheses that the text has added leave no trace in
the tree. Quoted texts lose their quotes and blocks their braces in the canonical text, and an
expression loses its semicolon: trees without them are read back.
-/

namespace Monkey

open Grammar

namespace Token

/-- What follows makes no token longer. -/
def Apart (rest : List Char) : Prop :=
  ∀ char ∈ rest.head?, ¬ isLetter char ∧ ¬ char.isDigit ∧ char ≠ '='

theorem apart_nil : Apart [] := by
  simp [Apart]

/-- The first character decides whether a token could go on. -/
theorem apart_cons {char : Char} {rest : List Char} :
    Apart (char :: rest) ↔ ¬ isLetter char ∧ ¬ char.isDigit ∧ char ≠ '=' := by
  simp [Apart]

/-- Texts that stand apart do so in a row. -/
theorem Apart.append {first second : List Char} (apart : Apart first) (behind : Apart second) :
    Apart (first ++ second) := by
  match first with
  | [] => exact behind
  | char :: rest => exact apart_cons.mpr (apart_cons.mp apart)

/-- What stands apart extends no token in front of it. -/
theorem Apart.not_extends {rest : List Char} (apart : Apart rest) (token : Token) :
    ∀ char ∈ rest.head?, ¬ token.Extends char := by
  intro char first
  obtain ⟨noLetter, noDigit, noEqual⟩ := apart char first
  exact token.not_extends noLetter noDigit noEqual

/-- In front of everything that makes no token longer, the text is read as the tokens. -/
def Spells (text : List Char) (tokens : List Token) : Prop :=
  ∀ rest, Apart rest → scan (text ++ rest) = tokens ++ scan rest

theorem spells_nil : Spells [] [] :=
  fun _ _ => rfl

/-- A text that stands apart spells its own tokens behind another one. -/
theorem Spells.append {first second : List Char} {tokens others : List Token}
    (spells : Spells first tokens) (apart : Apart second) (behind : Spells second others) :
    Spells (first ++ second) (tokens ++ others) := by
  intro rest restApart
  rw [List.append_assoc, spells _ (apart.append restApart), behind rest restApart,
    List.append_assoc]

/-- A blank in front spells nothing. -/
theorem Spells.blank {text : List Char} {tokens : List Token} (spells : Spells text tokens) :
    Spells (' ' :: text) tokens := by
  intro rest apart
  rw [List.cons_append, scan_blank (by decide)]
  exact spells rest apart

/-- One more token in front, which the text behind it does not make longer. -/
theorem Spells.cons {token : Token} {text : List Char} {tokens : List Token}
    (spells : Spells text tokens) (wellFormed : token.WellFormed)
    (seam : ∀ char ∈ text.head?, ¬ token.Extends char) :
    Spells (token.text ++ text) (token :: tokens) := by
  intro rest apart
  rw [List.append_assoc, scan_text wellFormed, spells rest apart, List.cons_append]
  match text with
  | [] => exact apart.not_extends token
  | char :: others => exact seam

/-- Nothing makes a symbol longer, except for the two that an equality sign makes longer. -/
theorem Spells.symbol {kind : Kind} {literal : String} {text : List Char} {tokens : List Token}
    (spells : Spells text tokens) (spelled : kind.symbol? = some literal)
    (single : kind ≠ .assign ∧ kind ≠ .bang) :
    Spells (literal.toList ++ text) (⟨kind, literal⟩ :: tokens) := by
  rw [← text_symbol spelled]
  apply spells.cons (wellFormed_symbol spelled)
  intro char _ longer
  obtain ⟨isAssign | isBang, _⟩ := extends_symbol spelled longer
  · exact single.1 isAssign
  · exact single.2 isBang

/-- Parentheses around a text are two tokens around its own. -/
theorem Spells.parenthesized {text : List Char} {tokens : List Token}
    (spells : Spells text tokens) :
    Spells ('(' :: (text ++ [')'])) (.leftParen :: (tokens ++ [.rightParen])) := by
  have closed : Spells [')'] [.rightParen] :=
    spells_nil.symbol (show Kind.rightParen.symbol? = _ from rfl) (by decide)
  exact (spells.append (apart_cons.mpr (by decide)) closed).symbol
    (show Kind.leftParen.symbol? = _ from rfl) (by decide)

/-- Brackets around a text are two tokens around its own. -/
theorem Spells.bracketed {text : List Char} {tokens : List Token} (spells : Spells text tokens) :
    Spells ('[' :: (text ++ [']'])) (⟨.leftBracket, "["⟩ :: (tokens ++ [.rightBracket])) := by
  have closed : Spells [']'] [.rightBracket] :=
    spells_nil.symbol (show Kind.rightBracket.symbol? = _ from rfl) (by decide)
  exact (spells.append (apart_cons.mpr (by decide)) closed).symbol
    (show Kind.leftBracket.symbol? = _ from rfl) (by decide)

/-- A token of a kind with a single spelling is known. -/
theorem WellFormed.eq_symbol {token : Token} {kind : Kind} {literal : String}
    (wellFormed : token.WellFormed) (isKind : token.kind = kind)
    (spelled : kind.symbol? = some literal) : token = ⟨kind, literal⟩ := by
  obtain ⟨tokenKind, text⟩ := token
  subst isKind
  cases tokenKind <;> simp_all [Kind.symbol?, WellFormed, Kind.words]

/-- The text of a token spells it, unless it needs quotes. -/
theorem spells_literal {token : Token} (wellFormed : token.WellFormed)
    (plain : token.kind ≠ .string) : Spells token.literal.toList [token] := by
  have spells := spells_nil.cons wellFormed (by simp)
  rwa [List.append_nil, text, if_neg plain] at spells

/-- A word or a number does not start with an equality sign. -/
theorem WellFormed.head_ne_equal {token : Token} (wellFormed : token.WellFormed)
    (plain : token.kind = .int ∨ token.kind ∈ Kind.words) :
    ∀ char ∈ token.literal.toList.head?, char ≠ '=' := by
  obtain ⟨kind, literal⟩ := token
  rintro char first rfl
  have member := List.mem_of_mem_head? first
  rcases plain with isNumber | isWord
  · subst isNumber
    exact absurd (wellFormed.2 _ member) (by decide)
  · obtain ⟨_, letters, _⟩ := (wellFormed_word isWord).mp wellFormed
    exact absurd (letters _ member) (by decide)

end Token

/-- The canonical text is read as tokens of the expression, which need no parentheses. -/
def Expr.ReadsBack (expr : Expr Unit) : Prop :=
  ∃ tokens, Token.Spells expr.render.toList tokens ∧ Covers Precedence.call.rank expr tokens ∧
    ∀ char ∈ expr.render.toList.head?, char ≠ '='

namespace Expr

/-- An expression of a single token reads back. -/
theorem readsBack_token {expr : Expr Unit} {token : Token} (renders : expr.render = token.literal)
    (wellFormed : token.WellFormed) (plain : token.kind = .int ∨ token.kind ∈ Token.Kind.words)
    (derives : ∀ rest, Derives (.expression .primary expr) (token :: rest) rest) :
    expr.ReadsBack := by
  have noText : token.kind ≠ .string := by
    intro isText
    rw [isText] at plain
    exact absurd plain (by decide)
  rw [ReadsBack, renders]
  exact ⟨[token], Token.spells_literal wellFormed noText, covers_primary derives,
    wellFormed.head_ne_equal plain⟩

/-- With parentheses around it an expression is read back. -/
theorem readsBack_grouped {expr : Expr Unit} {text : List Char} {tokens : List Token} {rank : Nat}
    (renders : expr.render.toList = '(' :: (text ++ [')']))
    (spells : Token.Spells text tokens) (covers : Covers rank expr tokens)
    (least : Layer.equality.rank ≤ rank) : expr.ReadsBack := by
  refine ⟨.leftParen :: (tokens ++ [.rightParen]), ?_, ?_, by simp [renders]⟩
  · rw [renders]
    exact spells.parenthesized
  · intro layer _ rest
    exact @Covers.grouped _ _ _ true layer covers least (by simp) rest

/-- A unary operation reads back when its operand does. -/
theorem readsBack_unary {token : Token} {operand : Expr Unit} (wellFormed : token.WellFormed)
    (kind : token.kind = .bang ∨ token.kind = .minus) (readsBack : operand.ReadsBack) :
    (Expr.unary token token.literal operand).ReadsBack := by
  obtain ⟨tokens, spells, covers, first⟩ := readsBack
  have text : token.text = token.literal.toList := by
    rcases kind with kind | kind <;> simp [Token.text, kind]
  have spelled := spells.cons wellFormed (by
    intro char isFirst
    rcases kind with kind | kind
    · simpa [Token.Extends, kind] using first char isFirst
    · simp [Token.Extends, kind, Token.Kind.words])
  rw [text] at spelled
  apply readsBack_grouped (by simp [Expr.render]) spelled
  · apply covers_of_layer (Nat.le_refl Layer.unary.rank)
    intro rest
    exact .unary kind (covers .unary (by decide) rest)
  · decide

/-- A binary operation reads back when its operands do. -/
theorem readsBack_binary {token : Token} {left right : Expr Unit} (wellFormed : token.WellFormed)
    (kind : token.kind ∈ Token.operators) (leftReadsBack : left.ReadsBack)
    (rightReadsBack : right.ReadsBack) :
    (Expr.binary token left token.literal right).ReadsBack := by
  obtain ⟨leftTokens, leftSpells, leftCovers, _⟩ := leftReadsBack
  obtain ⟨rightTokens, rightSpells, rightCovers, _⟩ := rightReadsBack
  obtain ⟨own, isOwn⟩ := layer_of_mem_operators kind
  have noText : token.kind ≠ .string := by
    intro isText
    rw [isText] at kind
    exact absurd kind (by decide)
  have blankApart (text : List Char) : Token.Apart (' ' :: text) :=
    Token.apart_cons.mpr (by decide)
  have spells := leftSpells.append (blankApart _) ((Token.spells_literal wellFormed noText).append
    (blankApart _) rightSpells.blank).blank
  apply readsBack_grouped (by simp [Expr.render]) spells
  · apply covers_of_layer (Nat.le_refl own.rank)
    intro rest
    have ownLayer : own.rank ≤ Precedence.call.rank ∧ own.inner.rank ≤ Precedence.call.rank := by
      cases own <;> simp [Layer.operators] at isOwn <;> decide
    have first := leftCovers own ownLayer.1 (token :: (rightTokens ++ rest))
    have second := rightCovers own.inner ownLayer.2 rest
    simpa using Derives.binary first isOwn second
  · cases own <;> decide

/-- The characters of items behind the first one. -/
def separated (items : List String) : List Char :=
  items.flatMap fun item => ',' :: ' ' :: item.toList

/-- What stands behind the first of several items stands apart. -/
theorem apart_separated (items : List String) : Token.Apart (separated items) := by
  match items with
  | [] => exact Token.apart_nil
  | first :: others => exact Token.apart_cons.mpr (by decide)

/-- The first of several items stands in front, the others behind commas. -/
theorem toList_commaSeparated (first : String) (others : List String) :
    (commaSeparated (first :: others)).toList = first.toList ++ separated others := by
  induction others generalizing first with
  | nil => simp [commaSeparated, separated]
  | cons second others inductionHypothesis =>
      rw [commaSeparated, String.intercalate_cons_cons, ← commaSeparated, String.toList_append,
        inductionHypothesis]
      simp [separated]

/-- Expressions are rendered one by one. -/
theorem renderEach_eq_map (exprs : List (Expr Unit)) :
    Expr.renderEach exprs = exprs.map Expr.render := by
  induction exprs with
  | nil => rfl
  | cons first others inductionHypothesis =>
      rw [Expr.renderEach, inductionHypothesis, List.map_cons]

/-- Items behind the first one are read back up to the delimiter that closes them. -/
theorem readsBack_moreItems {exprs : List (Expr Unit)}
    (readsBack : ∀ expr ∈ exprs, expr.ReadsBack) :
    ∃ tokens, Token.Spells (separated (exprs.map Expr.render)) tokens ∧
      ∀ (close : Token) (rest : List Token),
        Derives (.moreItems close.kind exprs) (tokens ++ close :: rest) rest := by
  induction exprs with
  | nil => exact ⟨[], Token.spells_nil, fun close rest => .close rfl⟩
  | cons first others inductionHypothesis =>
      rw [List.forall_mem_cons] at readsBack
      obtain ⟨⟨firstTokens, firstSpells, firstCovers, _⟩, behind⟩ := readsBack
      obtain ⟨otherTokens, otherSpells, othersDerive⟩ := inductionHypothesis behind
      have spells := (firstSpells.append (apart_separated _) otherSpells).blank.symbol
        (show Token.Kind.comma.symbol? = _ from rfl) (by decide)
      refine ⟨.comma :: (firstTokens ++ otherTokens), spells, fun close rest => ?_⟩
      have inFront := firstCovers .equality (by decide) (otherTokens ++ close :: rest)
      simpa using Derives.comma (show Token.comma.kind = _ from rfl) inFront
        (othersDerive close rest)

/-- Items between commas read back when each of them does. -/
theorem readsBack_items {exprs : List (Expr Unit)} (readsBack : ∀ expr ∈ exprs, expr.ReadsBack) :
    ∃ tokens, Token.Spells (commaSeparated (Expr.renderEach exprs)).toList tokens ∧
      ∀ (close : Token) (rest : List Token),
        Derives (.items close.kind exprs) (tokens ++ close :: rest) rest := by
  match exprs with
  | [] => exact ⟨[], Token.spells_nil, fun close rest => .noItems rfl⟩
  | first :: others =>
      rw [List.forall_mem_cons] at readsBack
      obtain ⟨⟨firstTokens, firstSpells, firstCovers, _⟩, behind⟩ := readsBack
      obtain ⟨otherTokens, otherSpells, othersDerive⟩ := readsBack_moreItems behind
      refine ⟨firstTokens ++ otherTokens, ?_, fun close rest => ?_⟩
      · rw [renderEach_eq_map, List.map_cons, toList_commaSeparated]
        exact firstSpells.append (apart_separated _) otherSpells
      · have inFront := firstCovers .equality (by decide) (otherTokens ++ close :: rest)
        simpa using Derives.someItems inFront (othersDerive close rest)

/-- An array reads back when its elements do. -/
theorem readsBack_array {token : Token} {elements : List (Expr Unit)}
    (wellFormed : token.WellFormed) (kind : token.kind = .leftBracket)
    (readsBack : ∀ expr ∈ elements, expr.ReadsBack) : (Expr.array token elements).ReadsBack := by
  obtain ⟨tokens, spells, derives⟩ := readsBack_items readsBack
  obtain rfl := wellFormed.eq_symbol kind rfl
  refine ⟨_, by simpa [Expr.render] using spells.bracketed, ?_, by simp [Expr.render]⟩
  apply covers_primary
  intro rest
  simpa using Derives.array kind (derives .rightBracket rest)

/-- An index reads back when its two parts do. -/
theorem readsBack_index {token : Token} {collection position : Expr Unit}
    (wellFormed : token.WellFormed) (kind : token.kind = .leftBracket)
    (first : collection.ReadsBack) (second : position.ReadsBack) :
    (Expr.index token collection position).ReadsBack := by
  obtain ⟨collectionTokens, collectionSpells, collectionCovers, _⟩ := first
  obtain ⟨positionTokens, positionSpells, positionCovers, _⟩ := second
  obtain rfl := wellFormed.eq_symbol kind rfl
  have spells := collectionSpells.append (Token.apart_cons.mpr (by decide))
    positionSpells.bracketed
  apply readsBack_grouped (by simp [Expr.render]) spells
  · apply covers_access
    intro rest
    have inFront := collectionCovers .access (by decide)
      (⟨.leftBracket, "["⟩ :: (positionTokens ++ .rightBracket :: rest))
    have inside := positionCovers .equality (by decide) (.rightBracket :: rest)
    simpa using Derives.index inFront kind inside rfl
  · decide

/-- A call reads back when the callee and the arguments do. -/
theorem readsBack_call {token : Token} {callee : Expr Unit} {arguments : List (Expr Unit)}
    (wellFormed : token.WellFormed) (kind : token.kind = .leftParen) (first : callee.ReadsBack)
    (readsBack : ∀ expr ∈ arguments, expr.ReadsBack) :
    (Expr.call token callee arguments).ReadsBack := by
  obtain ⟨calleeTokens, calleeSpells, calleeCovers, isFirst⟩ := first
  obtain ⟨tokens, spells, derives⟩ := readsBack_items readsBack
  have opens : token = .leftParen := wellFormed.eq_symbol kind rfl
  subst opens
  have whole := calleeSpells.append (Token.apart_cons.mpr (by decide)) spells.parenthesized
  refine ⟨_, by simpa [Expr.render] using whole, ?_, ?_⟩
  · apply covers_access
    intro rest
    have inFront := calleeCovers .access (by decide) (.leftParen :: (tokens ++ .rightParen :: rest))
    simpa using Derives.call inFront kind (derives .rightParen rest)
  · match text : callee.render.toList with
    | [] => simp [Expr.render, text]
    | char :: others => simpa [Expr.render, text] using isFirst

end Expr

mutual

/-- An expression without quoted texts, conditionals and functions. -/
def Expr.isSimple : Expr Unit → Bool
  | .ident _ | .integer _ _ | .boolean _ _ => true
  | .text _ _ | .conditional _ _ _ _ | .function _ _ _ _ => false
  | .array _ elements => Expr.isSimpleEach elements
  | .unary _ _ operand => operand.isSimple
  | .binary _ left _ right => left.isSimple && right.isSimple
  | .index _ collection position => collection.isSimple && position.isSimple
  | .call _ callee arguments => callee.isSimple && Expr.isSimpleEach arguments

def Expr.isSimpleEach : List (Expr Unit) → Bool
  | [] => true
  | first :: others => first.isSimple && Expr.isSimpleEach others

end

mutual

/-- The canonical text of a simple expression is read back. -/
theorem Expr.readsBack (expr : Expr Unit) (built : expr.Built Token.WellFormed)
    (simple : expr.isSimple) : expr.ReadsBack := by
  match expr with
  | .ident ⟨token, name⟩ =>
      obtain ⟨⟨kind, rfl⟩, spelled⟩ : (token.kind = .ident ∧ name = token.literal) ∧ _ := built
      exact readsBack_token rfl spelled (.inr (by simp [kind, Token.Kind.words]))
        fun rest => .ident kind
  | .integer token value =>
      obtain ⟨⟨kind, numeral⟩, spelled⟩ := built
      obtain ⟨small, rfl⟩ := Integer.ofLiteral_eq_some.mp numeral
      exact readsBack_token rfl spelled (.inl kind) fun rest => .integer kind small
  | .boolean token value =>
      obtain ⟨kind, spelled⟩ := built
      cases value with
      | true =>
          have kind : token.kind = .trueWord := kind
          exact readsBack_token rfl spelled (.inr (by simp [kind, Token.Kind.words]))
            fun rest => .true kind
      | false =>
          have kind : token.kind = .falseWord := kind
          exact readsBack_token rfl spelled (.inr (by simp [kind, Token.Kind.words]))
            fun rest => .false kind
  | .array token elements =>
      obtain ⟨⟨kind, formed⟩, spelled, tokens⟩ := built
      exact readsBack_array spelled kind (Expr.readsBack_each elements formed tokens simple)
  | .unary token operator operand =>
      obtain ⟨⟨kind, rfl, formed⟩, spelled, tokens⟩ := built
      exact readsBack_unary spelled kind (Expr.readsBack operand ⟨formed, tokens⟩ simple)
  | .binary token left operator right =>
      obtain ⟨⟨kind, rfl, leftFormed, rightFormed⟩, spelled, leftTokens, rightTokens⟩ := built
      obtain ⟨leftSimple, rightSimple⟩ := Bool.and_eq_true_iff.mp simple
      exact readsBack_binary spelled kind
        (Expr.readsBack left ⟨leftFormed, leftTokens⟩ leftSimple)
        (Expr.readsBack right ⟨rightFormed, rightTokens⟩ rightSimple)
  | .index token collection position =>
      obtain ⟨⟨kind, collectionFormed, positionFormed⟩, spelled, collectionTokens,
        positionTokens⟩ := built
      obtain ⟨collectionSimple, positionSimple⟩ := Bool.and_eq_true_iff.mp simple
      exact readsBack_index spelled kind
        (Expr.readsBack collection ⟨collectionFormed, collectionTokens⟩ collectionSimple)
        (Expr.readsBack position ⟨positionFormed, positionTokens⟩ positionSimple)
  | .call token callee arguments =>
      obtain ⟨⟨kind, calleeFormed, formed⟩, spelled, calleeTokens, tokens⟩ := built
      obtain ⟨calleeSimple, argumentsSimple⟩ := Bool.and_eq_true_iff.mp simple
      exact readsBack_call spelled kind
        (Expr.readsBack callee ⟨calleeFormed, calleeTokens⟩ calleeSimple)
        (Expr.readsBack_each arguments formed tokens argumentsSimple)

/-- Each of several simple expressions reads back. -/
theorem Expr.readsBack_each (exprs : List (Expr Unit)) (formed : Expr.WellFormedEach exprs)
    (tokens : Expr.AllTokensEach Token.WellFormed exprs) (simple : Expr.isSimpleEach exprs) :
    ∀ expr ∈ exprs, expr.ReadsBack := by
  match exprs with
  | [] => simp
  | first :: others =>
      obtain ⟨firstSimple, othersSimple⟩ := Bool.and_eq_true_iff.mp simple
      exact List.forall_mem_cons.mpr ⟨Expr.readsBack first ⟨formed.1, tokens.1⟩ firstSimple,
        Expr.readsBack_each others formed.2 tokens.2 othersSimple⟩

end

/-- The statement is an expression on its own. -/
def Stmt.isExpression : Stmt Unit → Bool
  | .expression _ _ => true
  | _ => false

/-- The statements with another first token in an expression that stands last. -/
def Stmt.anchorLast (token : Token) : List (Stmt Unit) → List (Stmt Unit)
  | [] => []
  | [.expression _ value] => [.expression token value]
  | first :: others => first :: Stmt.anchorLast token others

/-- A statement that is no expression keeps its token. -/
theorem Stmt.anchorLast_cons {first : Stmt Unit} (closed : first.isExpression = false)
    (token : Token) (others : List (Stmt Unit)) :
    Stmt.anchorLast token (first :: others) = first :: Stmt.anchorLast token others := by
  cases first with
  | expression => cases closed
  | bind | give => rw [Stmt.anchorLast]; simp

/-- What ends with a semicolon is read in front of anything. -/
theorem Token.Spells.semicolon {text : List Char} {tokens : List Token}
    (spells : Token.Spells text tokens) (rest : List Char) :
    Token.scan (text ++ ';' :: rest) = tokens ++ .semicolon :: Token.scan rest := by
  rw [spells _ (Token.apart_cons.mpr (by decide))]
  congr 1
  exact Token.scan_text (Token.wellFormed_symbol (show Token.Kind.semicolon.symbol? = _ from rfl))
    (by simp [Token.Extends, Token.Kind.words])

/-- The statements that bind and return are read back in front of anything. -/
theorem Stmt.readsBack {stmt : Stmt Unit} (built : stmt.Built Token.WellFormed)
    (simple : stmt.value.isSimple) (closed : stmt.isExpression = false) :
    ∃ tokens, (∀ rest, Token.scan (stmt.render.toList ++ rest) = tokens ++ Token.scan rest) ∧
      ∀ rest, Derives (.statement stmt) (tokens ++ rest) rest := by
  have ending (rest : List Token) : Ending (.semicolon :: rest) rest := .semicolon rfl
  have blankApart (text : List Char) : Token.Apart (' ' :: text) :=
    Token.apart_cons.mpr (by decide)
  match stmt with
  | .bind token ⟨nameToken, name⟩ value =>
      obtain ⟨⟨kind, ⟨named, isName⟩, formed⟩, spelled, nameSpelled, tokens⟩ := built
      obtain rfl : name = nameToken.literal := isName
      have named : nameToken.kind = .ident := named
      obtain ⟨valueTokens, valueSpells, covers, _⟩ := value.readsBack ⟨formed, tokens⟩ simple
      have sign : Token.assign.WellFormed :=
        Token.wellFormed_symbol (show Token.Kind.assign.symbol? = _ from rfl)
      have assigns : Token.Spells ('=' :: ' ' :: value.render.toList) (.assign :: valueTokens) :=
        valueSpells.blank.cons sign (by simp [Token.Extends, Token.assign])
      have spells := (Token.spells_literal spelled (by simp [kind])).append (blankApart _)
        ((Token.spells_literal nameSpelled (by simp [named])).append (blankApart _)
          assigns.blank).blank
      refine ⟨token :: nameToken :: .assign :: (valueTokens ++ [.semicolon]), fun rest => ?_,
        fun rest => ?_⟩
      · simpa [Stmt.render] using spells.semicolon rest
      · have derives := covers .equality (by decide) (.semicolon :: rest)
        simpa using Derives.bind kind named (show Token.assign.kind = _ from rfl) derives
          (ending rest)
  | .give token value =>
      obtain ⟨⟨kind, formed⟩, spelled, tokens⟩ := built
      obtain ⟨valueTokens, valueSpells, covers, _⟩ := value.readsBack ⟨formed, tokens⟩ simple
      have spells := (Token.spells_literal spelled (by simp [kind])).append (blankApart _)
        valueSpells.blank
      refine ⟨token :: (valueTokens ++ [.semicolon]), fun rest => ?_, fun rest => ?_⟩
      · simpa [Stmt.render] using spells.semicolon rest
      · have derives := covers .equality (by decide) (.semicolon :: rest)
        simpa using Derives.give kind derives (ending rest)

/-- An expression that stands last is read back with the first token of its text. -/
theorem Expr.ReadsBack.statement {expr : Expr Unit} (readsBack : expr.ReadsBack) :
    ∃ token, Derives (.statement (.expression token expr)) (Token.scan expr.render.toList) [] := by
  obtain ⟨tokens, spells, covers, _⟩ := readsBack
  have derives := covers .equality (by decide) []
  obtain ⟨token, others, isTokens⟩ := derives.exists_cons
  have whole := spells [] Token.apart_nil
  rw [List.append_nil, Token.scan_nil, isTokens] at whole
  rw [isTokens] at derives
  exact ⟨token, whole ▸ .expression derives (.bare (by simp))⟩

/-- Statements read back when none but the last one is an expression. -/
theorem Stmt.readsBack_all {stmts : List (Stmt Unit)} (formed : Stmt.WellFormedAll stmts)
    (tokens : Stmt.AllTokensEach Token.WellFormed stmts)
    (simple : ∀ stmt ∈ stmts, stmt.value.isSimple)
    (closed : ∀ stmt ∈ stmts.dropLast, stmt.isExpression = false) :
    ∃ token, Derives (.statements (Stmt.anchorLast token stmts))
      (Token.scan (Stmt.renderAll stmts).toList) [] := by
  induction stmts with
  | nil => exact ⟨.eof, Token.scan_nil ▸ .nothing⟩
  | cons first others inductionHypothesis =>
      rw [List.forall_mem_cons] at simple
      by_cases isClosed : first.isExpression = false
      · obtain ⟨firstTokens, scans, derives⟩ :=
          first.readsBack ⟨formed.1, tokens.1⟩ simple.1 isClosed
        have closedOthers : ∀ stmt ∈ others.dropLast, stmt.isExpression = false := by
          intro stmt member
          have more : others ≠ [] := by
            rintro rfl
            cases member
          apply closed
          rw [List.dropLast_cons_of_ne_nil more]
          exact List.mem_cons_of_mem first member
        obtain ⟨token, othersDerive⟩ := inductionHypothesis formed.2 tokens.2 simple.2 closedOthers
        refine ⟨token, ?_⟩
        rw [Stmt.anchorLast_cons isClosed, Stmt.renderAll, String.toList_append, scans]
        exact .more (derives _) othersDerive
      · match first, others with
        | .bind .., _ | .give .., _ => exact absurd rfl isClosed
        | .expression .., _ :: _ => exact absurd (closed _ List.mem_cons_self) isClosed
        | .expression _ value, [] =>
            have readsBack := value.readsBack ⟨formed.1, tokens.1⟩ simple.1
            obtain ⟨token, derives⟩ := readsBack.statement
            refine ⟨token, ?_⟩
            rw [Stmt.anchorLast, Stmt.renderAll, Stmt.render, Stmt.renderAll, String.append_empty]
            exact .more derives .nothing

/-- The token of a last expression does not show in the text. -/
theorem Stmt.renderAll_anchorLast (token : Token) (stmts : List (Stmt Unit)) :
    Stmt.renderAll (Stmt.anchorLast token stmts) = Stmt.renderAll stmts := by
  fun_induction Stmt.anchorLast token stmts with
  | case1 => rfl
  | case2 => rfl
  | case3 first others _ inductionHypothesis =>
      rw [Stmt.renderAll, Stmt.renderAll, inductionHypothesis]

/-- The program with another first token in an expression that stands last. -/
def Program.anchorLast (token : Token) (program : Program Unit) : Program Unit :=
  ⟨Stmt.anchorLast token program.statements⟩

/-- A program without quoted texts, conditionals and functions, in which only the last statement may
be an expression, is read back from its canonical text. Nothing else than the first token of that
last expression can be different, so the canonical text stays the same. -/
theorem Program.read_render {source : String} {program : Program Unit} {errors : List SyntaxError}
    (read : Program.read source = (program, errors))
    (simple : ∀ stmt ∈ program.statements, stmt.value.isSimple)
    (closed : ∀ stmt ∈ program.statements.dropLast, stmt.isExpression = false) :
    ∃ token, Program.read program.render = (program.anchorLast token, []) ∧
      (program.anchorLast token).render = program.render := by
  obtain ⟨formed, tokens⟩ := Program.built source
  rw [read] at formed tokens
  obtain ⟨token, derives⟩ := Stmt.readsBack_all formed tokens simple closed
  have derived : Grammar.Program (program.anchorLast token)
      (Reader.ofString program.render).tokens := derives
  obtain ⟨same, noErrors⟩ := Reader.program_of_derives derived
  refine ⟨token, ?_, Stmt.renderAll_anchorLast token program.statements⟩
  rw [Program.read_eq, same, noErrors]
  rfl

/-- The text of `let x=!(07-y);x[f(1)];` has parentheses around every operator and every index, and
keeps the leading zero. -/
theorem Program.read_render_nested :
    let program := (Program.read "let x=!(07-y);x[f(1)];").1
    program.render = "let x = (!(07 - y));(x[f(1)])" ∧
      ∃ token, Program.read program.render = (program.anchorLast token, []) ∧
        (program.anchorLast token).render = program.render := by
  intro program
  have read : Program.read "let x=!(07-y);x[f(1)];" = (program, []) := by with_unfolding_all rfl
  refine ⟨by with_unfolding_all rfl, Program.read_render read ?_ ?_⟩
  · exact List.all_eq_true.mp (by with_unfolding_all rfl)
  · intro stmt member
    have closed : (program.statements.dropLast.all fun stmt => !stmt.isExpression) = true := by
      with_unfolding_all rfl
    simpa using List.all_eq_true.mp closed stmt member

end Monkey
