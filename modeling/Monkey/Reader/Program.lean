import Monkey.Reader.Expression

/-!
Reading a whole program. The bound is one more than the number of tokens, which is always enough:
`Reader.expression_eq` and `Reader.program_eq` say that the fallback cases below do not arise.
-/

namespace Monkey

/-- Reads one expression in a context of the given strength. -/
def Reader.expression (reader : Reader) (level : Precedence) :
    Except SyntaxError (Expr Unit) × Reader :=
  match Reading.expression (reader.tokens.length + 1) level reader with
  | some answer => answer
  | none => (.error (.noOperand reader.current.kind), reader)

/-- Reads statements up to the end of the text. -/
def Reader.program (reader : Reader) : Program Unit × Reader :=
  let bound := reader.tokens.length + 1
  match Reading.statements (Reading.expression bound) [.eof] bound reader with
  | some (.ok statements, reached) => (⟨statements⟩, reached)
  | some (.error _, reached) => (⟨[]⟩, reached)
  | none => (⟨[]⟩, reader)

/-- The program in a text, as far as it could be read, and the errors in the order in which they
were found. -/
def Program.read (source : String) : Program Unit × List SyntaxError :=
  let (program, reached) := (Reader.ofString source).program
  (program, reached.errors.toList)

end Monkey
