import Monkey.Console.Dialogue
import Monkey.Console.Invocation
import Monkey.Console.Script

/-!
The program as a command: from an invocation to what is written and the exit code.
-/

namespace Monkey.Console

def helpText : String :=
  String.join
    ["Tree-walking interpreter for a small Monkey-style expression language\n",
      "\n",
      "Usage: west [OPTIONS] [FILE]\n",
      "\n",
      "Arguments:\n",
      "  [FILE]  Source file to run\n",
      "\n",
      "Options:\n",
      "  -d, --repl     Start the interactive REPL even if a file is given\n",
      "  -h, --help     Print help\n",
      "  -V, --version  Print version\n"]

def versionText : String := "west 0.1.0\n"

/-- What a finished command leaves behind. -/
structure Completion where
  code : Nat
  stdout : String
  stderr : String

namespace Completion

def success (stdout : String) : Completion := ⟨0, stdout, ""⟩

def failure (stdout stderr : String) : Completion := ⟨1, stdout, stderr⟩

/-- Wrong usage is not an attempt to run anything. -/
def misuse : Completion := ⟨2, "", ""⟩

def couldNotRun (path : String) (error : DeviceError) : String :=
  "Error: could not run " ++ path ++ ": " ++ error.message ++ "\n"

/-- The result of a script goes to the output that the script itself has written to. -/
def ofScript (path : String) : Except Script.Failure String × Output → Completion
  | (.ok text, output) =>
      match output.write text with
      | .ok written => success written.sent
      | .error error => failure output.sent (couldNotRun path error)
  | (.error (.malformed errors), output) =>
      failure output.sent ("Parser errors:\n" ++ listErrors errors)
  | (.error (.device error), output) => failure output.sent (couldNotRun path error)

def ofDialogue (dialogue : Dialogue) : Completion :=
  match dialogue.failure with
  | none => success dialogue.screen
  | some error => failure dialogue.screen ("Error: " ++ error.message ++ "\n")

end Completion

/-- A text that cannot be shown is lost. -/
def Completion.ofText (text : String) (output : Output) : Completion :=
  match output.write text with
  | .ok written => .success written.sent
  | .error _ => .success ""

/-- Runs the command on standard input and files that are given as bytes. A dialogue on a device
that takes nothing fails at its first prompt. -/
def Invocation.complete (invocation : Invocation) (depth : Nat)
    (file : String → Except DeviceError (List UInt8)) (input : List UInt8) (output : Output) :
    Option Completion :=
  match invocation with
  | .help => some (.ofText helpText output)
  | .version => some (.ofText versionText output)
  | .misuse => some .misuse
  | .script path => (Script.run depth (file path) output).map (Completion.ofScript path)
  | .dialogue =>
      match output.write Dialogue.prompt with
      | .error error => some (.failure "" ("Error: " ++ error.message ++ "\n"))
      | .ok _ => (Dialogue.ofInput depth input).map Completion.ofDialogue

end Monkey.Console
