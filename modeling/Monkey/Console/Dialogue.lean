import Monkey.Console.Report
import Monkey.Text.WhiteSpace

/-!
The dialogue with a user: a prompt, a line of input, what the line makes the program print, and the
reply. All lines are evaluated in one scope.
-/

namespace Monkey.Console

/-- What was shown on account of one line. -/
structure Exchange where
  printed : String
  reply : String

/-- The exchanges up to the end of the input, or up to a line that could not be read. -/
structure Dialogue where
  exchanges : List Exchange
  failure : Option DeviceError

namespace Dialogue

def prompt : String := ">> "

/-- A line ends behind each line feed, and what is left behind the last one is a line too unless it
is empty. The line feed itself is left out. -/
def lines : List UInt8 → List (List UInt8)
  | [] => []
  | byte :: rest =>
      if byte = 0x0a then [] :: lines rest
      else
        match lines rest with
        | [] => [[byte]]
        | line :: others => (byte :: line) :: others

/-- A line with syntax errors is answered with the errors, and leaves the session as it was. -/
def respond (session : Session) (depth : Nat) (scope : Nat) (line : String) :
    Option (Exchange × Session) :=
  match (session.setOutput (.stream "")).run depth (Text.trimEnd line) scope with
  | none => none
  | some (.error errors, _) => some (⟨"", listErrors errors⟩, session)
  | some (.ok result, reached) => some (⟨reached.output.sent, report result⟩, reached)

/-- Answers the lines one after the other, and stops at one that is not text. -/
def hold (session : Session) (depth : Nat) (scope : Nat) :
    List (Option String) → Option Dialogue
  | [] => some ⟨[], none⟩
  | none :: _ => some ⟨[], some .notText⟩
  | some line :: others =>
      match respond session depth scope line with
      | none => none
      | some (exchange, reached) =>
          match hold reached depth scope others with
          | none => none
          | some rest => some { rest with exchanges := exchange :: rest.exchanges }

/-- A session of its own with the built-in functions and one scope. -/
def opening : Nat × Session :=
  (Session.start .standard (.stream "")).createScope none

def ofInput (depth : Nat) (input : List UInt8) : Option Dialogue :=
  hold opening.2 depth opening.1 ((lines input).map decode)

/-- Prompts and replies, without what the programs printed. -/
def replies (dialogue : Dialogue) : String :=
  String.join (dialogue.exchanges.map fun exchange => prompt ++ exchange.reply) ++ prompt

/-- What the programs printed. -/
def printed (dialogue : Dialogue) : String :=
  String.join (dialogue.exchanges.map Exchange.printed)

/-- Everything in the order in which it was written. -/
def screen (dialogue : Dialogue) : String :=
  String.join (dialogue.exchanges.map fun exchange =>
    prompt ++ exchange.printed ++ exchange.reply) ++ prompt

end Dialogue

end Monkey.Console
