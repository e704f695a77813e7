import Monkey.Evaluation
import Monkey.Reader.Program
import Monkey.Syntax.Label

/-!
A session evaluates one program after the other. Scopes, output and the labels of function literals
carry over from each to the next. Evaluation takes a bound on its depth and gives nothing when the
bound is used up.
-/

namespace Monkey

structure Session where
  builtins : Builtins
  machine : Machine
  nextLabel : Nat

namespace Session

/-- A session without any scope. -/
def start (builtins : Builtins) (output : Output) : Session :=
  { builtins, machine := ⟨.empty, output⟩, nextLabel := 0 }

/-- A new scope that binds nothing. -/
def createScope (session : Session) (outer : Option Nat) : Nat × Session :=
  let (number, heap) := session.machine.heap.create ⟨[], outer⟩
  (number, { session with machine := { session.machine with heap := heap } })

def bind (session : Session) (scope : Nat) (name : String) (value : Value) : Session :=
  { session with
    machine := { session.machine with heap := session.machine.heap.bind scope name value } }

/-- Built-in functions are not among the bindings of a scope. -/
def lookup (session : Session) (scope : Nat) (name : String) : Option Value :=
  session.machine.heap.lookup scope name

def output (session : Session) : Output :=
  session.machine.output

def setOutput (session : Session) (output : Output) : Session :=
  { session with machine := { session.machine with output := output } }

/-- The host writes to the output as the program does. -/
def write (session : Session) (text : String) : Except DeviceError Session := do
  let output ← session.output.write text
  pure (session.setOutput output)

/-- Gives the function literals of a program labels that no program before it had. -/
def load (session : Session) (program : Program Unit) : Program Nat × Session :=
  let (labelled, free) := program.label session.nextLabel
  (labelled, { session with nextLabel := free })

/-- The value of a program in a scope. An error is a value too, and a program whose last statement
is a binding has none. -/
def evaluate (session : Session) (depth : Nat) (program : Program Nat) (scope : Nat) :
    Option (Option Value × Session) :=
  let evaluator := Evaluation.expression session.builtins depth
  match Evaluation.program evaluator scope none program.statements session.machine with
  | none => none
  | some (.ok result, machine) => some (result, { session with machine := machine })
  | some (.error error, machine) => some (some (.error error), { session with machine := machine })

/-- Reads and evaluates a text; a text with syntax errors is not evaluated. -/
def run (session : Session) (depth : Nat) (source : String) (scope : Nat) :
    Option (Except (List SyntaxError) (Option Value) × Session) :=
  match Program.read source with
  | (program, []) =>
      let (labelled, session) := session.load program
      match session.evaluate depth labelled scope with
      | none => none
      | some (result, session) => some (.ok result, session)
  | (_, errors) => some (.error errors, session)

end Session

end Monkey
