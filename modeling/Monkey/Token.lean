/-!
Tokens of the language: their kinds, the names of the kinds, the reserved words and the symbols of
one character.
-/

namespace Monkey

/-- The kind of a token; `eof` stands for the end of the text and `illegal` for a character that
starts no other token. -/
inductive Token.Kind where
  | illegal
  | eof
  | ident
  | int
  | string
  | assign
  | plus
  | minus
  | bang
  | asterisk
  | slash
  | less
  | greater
  | equal
  | notEqual
  | comma
  | semicolon
  | leftParen
  | rightParen
  | leftBrace
  | rightBrace
  | leftBracket
  | rightBracket
  | fnWord
  | letWord
  | trueWord
  | falseWord
  | ifWord
  | elseWord
  | returnWord
  deriving DecidableEq

/-- The name under which a kind appears in messages. -/
def Token.Kind.name : Token.Kind → String
  | .illegal => "ILLEGAL"
  | .eof => "EOF"
  | .ident => "IDENT"
  | .int => "INT"
  | .string => "STRING"
  | .assign => "ASSIGN"
  | .plus => "PLUS"
  | .minus => "MINUS"
  | .bang => "BANG"
  | .asterisk => "ASTERISK"
  | .slash => "SLASH"
  | .less => "LT"
  | .greater => "GT"
  | .equal => "EQ"
  | .notEqual => "NOT_EQ"
  | .comma => "COMMA"
  | .semicolon => "SEMICOLON"
  | .leftParen => "LPAREN"
  | .rightParen => "RPAREN"
  | .leftBrace => "LBRACE"
  | .rightBrace => "RBRACE"
  | .leftBracket => "LBRACKET"
  | .rightBracket => "RBRACKET"
  | .fnWord => "FUNCTION"
  | .letWord => "LET"
  | .trueWord => "TRUE"
  | .falseWord => "FALSE"
  | .ifWord => "IF"
  | .elseWord => "ELSE"
  | .returnWord => "RETURN"

/-- A kind together with the text that the token stands for. -/
structure Token where
  kind : Token.Kind
  literal : String
  deriving DecidableEq

/-- The token at and after the end of a text. -/
def Token.eof : Token := ⟨.eof, ""⟩

/-- The words that are not identifiers. -/
def Token.reserved : List (String × Token.Kind) :=
  [("let", .letWord), ("fn", .fnWord), ("true", .trueWord), ("false", .falseWord),
    ("if", .ifWord), ("else", .elseWord), ("return", .returnWord)]

/-- A word is an identifier unless it is reserved. -/
def Token.Kind.ofWord (word : String) : Token.Kind :=
  (Token.reserved.lookup word).getD .ident

/-- The symbols that are one character long. -/
def Token.symbols : List (Char × Token.Kind) :=
  [('=', .assign), ('!', .bang), ('+', .plus), ('-', .minus), ('*', .asterisk), ('/', .slash),
    ('<', .less), ('>', .greater), ('(', .leftParen), (')', .rightParen), ('\x7b', .leftBrace),
    ('\x7d', .rightBrace), ('[', .leftBracket), (']', .rightBracket), (',', .comma),
    (';', .semicolon)]

/-- A character that is no symbol is illegal on its own. -/
def Token.Kind.ofSymbol (symbol : Char) : Token.Kind :=
  (Token.symbols.lookup symbol).getD .illegal

end Monkey
