import Monkey.Syntax

/-!
The canonical text of a syntax tree: operators are fully parenthesized and items are separated by a
comma and a space.
-/

namespace Monkey

/-- Items with a comma and a space between them. -/
def commaSeparated (items : List String) : String :=
  String.intercalate ", " items

variable {Mark : Type}

mutual

def Expr.render : Expr Mark → String
  | .ident ident => ident.name
  | .integer token _ => token.literal
  | .text _ value => value
  | .boolean token _ => token.literal
  | .array _ elements => "[" ++ commaSeparated (Expr.renderEach elements) ++ "]"
  | .unary _ operator operand => "(" ++ operator ++ operand.render ++ ")"
  | .binary _ left operator right =>
      "(" ++ left.render ++ " " ++ operator ++ " " ++ right.render ++ ")"
  | .index _ collection position => "(" ++ collection.render ++ "[" ++ position.render ++ "])"
  | .conditional _ condition consequence alternative =>
      "if (" ++ condition.render ++ ") " ++ consequence.render ++ Block.renderElse alternative
  | .function token _ parameters body =>
      token.literal ++ "(" ++ commaSeparated (parameters.map Ident.name) ++ ") " ++ body.render
  | .call _ callee arguments =>
      callee.render ++ "(" ++ commaSeparated (Expr.renderEach arguments) ++ ")"

def Expr.renderEach : List (Expr Mark) → List String
  | [] => []
  | first :: others => first.render :: Expr.renderEach others

def Stmt.render : Stmt Mark → String
  | .bind token name value => token.literal ++ " " ++ name.name ++ " = " ++ value.render ++ ";"
  | .give token value => token.literal ++ " " ++ value.render ++ ";"
  | .expression _ value => value.render

def Block.render : Block Mark → String
  | .mk _ statements => Stmt.renderAll statements

def Block.renderElse : Option (Block Mark) → String
  | none => ""
  | some block => " else " ++ block.render

def Stmt.renderAll : List (Stmt Mark) → String
  | [] => ""
  | first :: others => first.render ++ Stmt.renderAll others

end

/-- The text of a program is the text of its statements, one after the other. -/
def Program.render (program : Program Mark) : String :=
  Stmt.renderAll program.statements

end Monkey
