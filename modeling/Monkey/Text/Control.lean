/-!
Control characters spelled out in a text: a backslash and a letter stand for a line feed or a
carriage return.
-/

namespace Monkey.Text

/-- Puts `control` in the place of every backslash that `letter` follows. -/
def replacePair (letter control : Char) : List Char → List Char
  | [] => []
  | '\\' :: next :: rest =>
      if next = letter then control :: replacePair letter control rest
      else '\\' :: replacePair letter control (next :: rest)
  | char :: rest => char :: replacePair letter control rest

/-- First every carriage return and then every line feed that is spelled out becomes real. -/
def unescape (text : String) : String :=
  String.ofList (replacePair 'n' '\n' (replacePair 'r' '\r' text.toList))

end Monkey.Text
