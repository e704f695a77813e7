import Monkey.Console.Command

/-!
The command itself: it reads files and lines, and writes what the library answers.
-/

namespace Monkey.Console

/-- Programs that nest more deeply do not fit on the stack. -/
def depthLimit : Nat := 10000000

def deviceError : IO.Error → DeviceError
  | .noFileOrDirectory .. => .missing
  | .inappropriateType .. => .directory
  | .resourceExhausted .. => .full
  | error => .other (toString error)

def readFile (path : String) : IO (Except DeviceError (List UInt8)) := do
  try
    let bytes ← IO.FS.readBinFile path
    return .ok bytes.toList
  catch error => return .error (deviceError error)

/-- The bytes up to and including the next line feed; none at the end of the input. -/
partial def readLine (passed : List UInt8) : IO (List UInt8) := do
  match (← (← IO.getStdin).read 1).toList with
  | [] => return passed.reverse
  | byte :: _ =>
      if byte = 0x0a then return (byte :: passed).reverse else readLine (byte :: passed)

/-- Writes at once, so that a device that takes nothing is noticed. -/
def present (text : String) : IO Unit := do
  IO.print text
  (← IO.getStdout).flush

def tooDeep : IO UInt32 := do
  IO.eprintln "Error: the program nests too deeply"
  return 1

def finish (completion : Completion) : IO UInt32 := do
  present completion.stdout
  IO.eprint completion.stderr
  return completion.code.toUInt32

partial def converse (session : Session) (scope : Nat) : IO UInt32 := do
  present Dialogue.prompt
  let bytes ← readLine []
  if bytes.isEmpty then return 0
  match decode bytes with
  | none =>
      IO.eprint ("Error: " ++ DeviceError.notText.message ++ "\n")
      return 1
  | some line =>
      match Dialogue.respond session depthLimit scope line with
      | none => tooDeep
      | some (exchange, reached) =>
          present (exchange.printed ++ exchange.reply)
          converse reached scope

def execute (invocation : Invocation) : IO UInt32 := do
  match invocation with
  | .dialogue => converse Dialogue.opening.2 Dialogue.opening.1
  | .misuse =>
      IO.eprint helpText
      return Completion.misuse.code.toUInt32
  | invocation => do
      let content ←
        match invocation with
        | .script path => readFile path
        | _ => pure (.ok [])
      match invocation.complete depthLimit (fun _ => content) [] (.stream "") with
      | none => tooDeep
      | some completion => finish completion

/-- What is left of a command whose text could not be written. -/
def unwritten (invocation : Invocation) (error : DeviceError) : Completion :=
  match invocation with
  | .help | .version => .success ""
  | .script path => .failure "" (Completion.couldNotRun path error)
  | _ => .failure "" ("Error: " ++ error.message ++ "\n")

def command (arguments : List String) : IO UInt32 := do
  let invocation := Invocation.ofArguments arguments
  try
    execute invocation
  catch error =>
    let completion := unwritten invocation (deviceError error)
    IO.eprint completion.stderr
    return completion.code.toUInt32

end Monkey.Console

def main (arguments : List String) : IO UInt32 :=
  Monkey.Console.command arguments
