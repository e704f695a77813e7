import Monkey.Syntax

/-!
The grammar of the language, said without a reader. A derivation leads from the tokens that a phrase
starts with to the tokens behind it. Operators stand in layers: the operators of one layer stand
between parts of the next layer, and more of them are read from the left.
-/

namespace Monkey.Grammar

/-- The layers of expressions, from the operators that bind least to the parts that need none. -/
inductive Layer where
  | equality
  | comparison
  | sum
  | product
  | unary
  | access
  | primary
  deriving DecidableEq

/-- The layer that a layer is built from. -/
def Layer.inner : Layer → Layer
  | .equality => .comparison
  | .comparison => .sum
  | .sum => .product
  | .product => .unary
  | .unary => .access
  | .access => .primary
  | .primary => .primary

/-- The operators that stand between two expressions of a layer. -/
def Layer.operators : Layer → List Token.Kind
  | .equality => [.equal, .notEqual]
  | .comparison => [.less, .greater]
  | .sum => [.plus, .minus]
  | .product => [.asterisk, .slash]
  | _ => []

/-- The tokens that make an expression in front of them longer. -/
def continuing : List Token.Kind :=
  [.equal, .notEqual, .less, .greater, .plus, .minus, .asterisk, .slash, .leftParen, .leftBracket]

/-- The number that decimal digits stand for. -/
def numeral (literal : String) : Nat :=
  Nat.ofDigitChars 10 literal.toList 0

/-- The largest integer, one less than the 63rd power of two. -/
def largest : Nat :=
  9223372036854775807

/-- The end of a statement: its expression cannot be made longer, and a semicolon belongs to it. -/
inductive Ending : List Token → List Token → Prop
  | semicolon {token : Token} {rest : List Token} (kind : token.kind = .semicolon) :
      Ending (token :: rest) rest
  | bare {rest : List Token}
      (stops : ∀ token ∈ rest.head?, token.kind ≠ .semicolon ∧ token.kind ∉ continuing) :
      Ending rest rest

/-- One parameter is one name. -/
inductive Parameter : Ident → List Token → List Token → Prop
  | name {token : Token} {rest : List Token} (kind : token.kind = .ident) :
      Parameter ⟨token, token.literal⟩ (token :: rest) rest

/-- The parameters behind the first one, with the closing parenthesis. -/
inductive MoreParameters : List Ident → List Token → List Token → Prop
  | close {token : Token} {rest : List Token} (kind : token.kind = .rightParen) :
      MoreParameters [] (token :: rest) rest
  | comma {token : Token} {name : Ident} {names : List Ident} {tokens middle rest : List Token}
      (kind : token.kind = .comma) (first : Parameter name tokens middle)
      (others : MoreParameters names middle rest) :
      MoreParameters (name :: names) (token :: tokens) rest

/-- Parameters with commas between them, with the closing parenthesis. -/
inductive Parameters : List Ident → List Token → List Token → Prop
  | none {token : Token} {rest : List Token} (kind : token.kind = .rightParen) :
      Parameters [] (token :: rest) rest
  | some {name : Ident} {names : List Ident} {tokens middle rest : List Token}
      (first : Parameter name tokens middle) (others : MoreParameters names middle rest) :
      Parameters (name :: names) tokens rest

/-- What can be derived, with its syntax tree. Items include the delimiter that closes them. -/
inductive Phrase where
  | expression (layer : Layer) (tree : Expr Unit)
  | items (closing : Token.Kind) (trees : List (Expr Unit))
  | moreItems (closing : Token.Kind) (trees : List (Expr Unit))
  | statement (tree : Stmt Unit)
  | statements (trees : List (Stmt Unit))
  | block (tree : Block Unit)
  | alternative (tree : Option (Block Unit))

/-- The tokens in front of the second list are the phrase. -/
inductive Derives : Phrase → List Token → List Token → Prop
  | inner {layer : Layer} {tree : Expr Unit} {tokens rest : List Token}
      (derives : Derives (.expression layer.inner tree) tokens rest) :
      Derives (.expression layer tree) tokens rest
  | binary {layer : Layer} {left right : Expr Unit} {token : Token}
      {tokens middle rest : List Token}
      (first : Derives (.expression layer left) tokens (token :: middle))
      (kind : token.kind ∈ layer.operators)
      (second : Derives (.expression layer.inner right) middle rest) :
      Derives (.expression layer (.binary token left token.literal right)) tokens rest
  | unary {operand : Expr Unit} {token : Token} {tokens rest : List Token}
      (kind : token.kind = .bang ∨ token.kind = .minus)
      (derives : Derives (.expression .unary operand) tokens rest) :
      Derives (.expression .unary (.unary token token.literal operand)) (token :: tokens) rest
  | call {callee : Expr Unit} {arguments : List (Expr Unit)} {token : Token}
      {tokens middle rest : List Token}
      (first : Derives (.expression .access callee) tokens (token :: middle))
      (kind : token.kind = .leftParen)
      (second : Derives (.items .rightParen arguments) middle rest) :
      Derives (.expression .access (.call token callee arguments)) tokens rest
  | index {collection position : Expr Unit} {token close : Token}
      {tokens middle rest : List Token}
      (first : Derives (.expression .access collection) tokens (token :: middle))
      (kind : token.kind = .leftBracket)
      (second : Derives (.expression .equality position) middle (close :: rest))
      (closing : close.kind = .rightBracket) :
      Derives (.expression .access (.index token collection position)) tokens rest
  | ident {token : Token} {rest : List Token} (kind : token.kind = .ident) :
      Derives (.expression .primary (.ident ⟨token, token.literal⟩)) (token :: rest) rest
  | integer {token : Token} {rest : List Token} (kind : token.kind = .int)
      (small : numeral token.literal ≤ largest) :
      Derives (.expression .primary (.integer token (Int64.ofNat (numeral token.literal))))
        (token :: rest) rest
  | text {token : Token} {rest : List Token} (kind : token.kind = .string) :
      Derives (.expression .primary (.text token token.literal)) (token :: rest) rest
  | true {token : Token} {rest : List Token} (kind : token.kind = .trueWord) :
      Derives (.expression .primary (.boolean token .true)) (token :: rest) rest
  | false {token : Token} {rest : List Token} (kind : token.kind = .falseWord) :
      Derives (.expression .primary (.boolean token .false)) (token :: rest) rest
  | group {tree : Expr Unit} {token close : Token} {tokens rest : List Token}
      (kind : token.kind = .leftParen)
      (derives : Derives (.expression .equality tree) tokens (close :: rest))
      (closing : close.kind = .rightParen) :
      Derives (.expression .primary tree) (token :: tokens) rest
  | array {elements : List (Expr Unit)} {token : Token} {tokens rest : List Token}
      (kind : token.kind = .leftBracket)
      (derives : Derives (.items .rightBracket elements) tokens rest) :
      Derives (.expression .primary (.array token elements)) (token :: tokens) rest
  | conditional {condition : Expr Unit} {consequence : Block Unit}
      {otherwise : Option (Block Unit)} {token opening close : Token}
      {tokens middle behind rest : List Token}
      (kind : token.kind = .ifWord) (opens : opening.kind = .leftParen)
      (first : Derives (.expression .equality condition) tokens (close :: middle))
      (closing : close.kind = .rightParen)
      (second : Derives (.block consequence) middle behind)
      (third : Derives (.alternative otherwise) behind rest) :
      Derives (.expression .primary (.conditional token condition consequence otherwise))
        (token :: opening :: tokens) rest
  | function {names : List Ident} {body : Block Unit} {token opening : Token}
      {tokens middle rest : List Token}
      (kind : token.kind = .fnWord) (opens : opening.kind = .leftParen)
      (first : Parameters names tokens middle)
      (second : Derives (.block body) middle rest) :
      Derives (.expression .primary (.function token () names body))
        (token :: opening :: tokens) rest
  | noItems {closing : Token.Kind} {token : Token} {rest : List Token}
      (kind : token.kind = closing) :
      Derives (.items closing []) (token :: rest) rest
  | someItems {closing : Token.Kind} {tree : Expr Unit} {trees : List (Expr Unit)}
      {tokens middle rest : List Token}
      (first : Derives (.expression .equality tree) tokens middle)
      (others : Derives (.moreItems closing trees) middle rest) :
      Derives (.items closing (tree :: trees)) tokens rest
  | close {closing : Token.Kind} {token : Token} {rest : List Token}
      (kind : token.kind = closing) :
      Derives (.moreItems closing []) (token :: rest) rest
  | comma {closing : Token.Kind} {tree : Expr Unit} {trees : List (Expr Unit)} {token : Token}
      {tokens middle rest : List Token}
      (kind : token.kind = .comma)
      (first : Derives (.expression .equality tree) tokens middle)
      (others : Derives (.moreItems closing trees) middle rest) :
      Derives (.moreItems closing (tree :: trees)) (token :: tokens) rest
  | bind {value : Expr Unit} {token name sign : Token} {tokens middle rest : List Token}
      (kind : token.kind = .letWord) (named : name.kind = .ident) (assigns : sign.kind = .assign)
      (derives : Derives (.expression .equality value) tokens middle)
      (ending : Ending middle rest) :
      Derives (.statement (.bind token ⟨name, name.literal⟩ value))
        (token :: name :: sign :: tokens) rest
  | give {value : Expr Unit} {token : Token} {tokens middle rest : List Token}
      (kind : token.kind = .returnWord)
      (derives : Derives (.expression .equality value) tokens middle)
      (ending : Ending middle rest) :
      Derives (.statement (.give token value)) (token :: tokens) rest
  | expression {value : Expr Unit} {token : Token} {tokens middle rest : List Token}
      (derives : Derives (.expression .equality value) (token :: tokens) middle)
      (ending : Ending middle rest) :
      Derives (.statement (.expression token value)) (token :: tokens) rest
  | nothing {rest : List Token} :
      Derives (.statements []) rest rest
  | more {tree : Stmt Unit} {trees : List (Stmt Unit)} {tokens middle rest : List Token}
      (first : Derives (.statement tree) tokens middle)
      (others : Derives (.statements trees) middle rest) :
      Derives (.statements (tree :: trees)) tokens rest
  | closed {trees : List (Stmt Unit)} {token close : Token} {tokens rest : List Token}
      (kind : token.kind = .leftBrace)
      (derives : Derives (.statements trees) tokens (close :: rest))
      (closing : close.kind = .rightBrace) :
      Derives (.block (.mk token trees)) (token :: tokens) rest
  | left {trees : List (Stmt Unit)} {token : Token} {tokens : List Token}
      (kind : token.kind = .leftBrace)
      (derives : Derives (.statements trees) tokens []) :
      Derives (.block (.mk token trees)) (token :: tokens) []
  | noElse {rest : List Token} :
      Derives (.alternative none) rest rest
  | someElse {tree : Block Unit} {token : Token} {tokens rest : List Token}
      (kind : token.kind = .elseWord)
      (derives : Derives (.block tree) tokens rest) :
      Derives (.alternative (some tree)) (token :: tokens) rest

/-- A program is a list of statements that takes up all tokens. -/
def Program (program : Monkey.Program Unit) (tokens : List Token) : Prop :=
  Derives (.statements program.statements) tokens []

end Monkey.Grammar
