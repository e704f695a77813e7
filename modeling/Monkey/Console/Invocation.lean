/-!
The command line: options, and at most one file.
-/

namespace Monkey.Console

/-- What the arguments ask for. -/
inductive Invocation where
  | help
  | version
  | misuse
  | script (path : String)
  | dialogue
  deriving DecidableEq

namespace Invocation

/-- What has been seen of the arguments so far. -/
structure Progress where
  dialogue : Bool
  file : Option String

/-- A file name is not empty. -/
def Progress.sound (progress : Progress) : Bool :=
  progress.file != some ""

def Progress.finish (progress : Progress) : Invocation :=
  if !progress.sound then .misuse
  else
    match progress.dialogue, progress.file with
    | false, some path => .script path
    | _, _ => .dialogue

/-- Only one file can be given. -/
def Progress.addFile (progress : Progress) (path : String) : Except Invocation Progress :=
  match progress.file with
  | none => .ok { progress with file := some path }
  | some _ => .error .misuse

/-- The option for the dialogue can be given once. -/
def Progress.addDialogue (progress : Progress) : Except Invocation Progress :=
  if progress.dialogue then .error .misuse else .ok { progress with dialogue := true }

/-- Letters behind one dash; help and version end the reading of the command line. -/
def Progress.addLetters (progress : Progress) : List Char → Except Invocation Progress
  | [] => .ok progress
  | 'd' :: others =>
      match progress.addDialogue with
      | .ok progress => progress.addLetters others
      | .error invocation => .error invocation
  | 'h' :: _ => .error .help
  | 'V' :: _ => .error .version
  | _ => .error .misuse

/-- An option, by what follows its first dash. The file before it must have a name by then. -/
def Progress.addOption (progress : Progress) (option : List Char) : Except Invocation Progress :=
  if !progress.sound then .error .misuse
  else
    match option with
    | '-' :: name =>
        if name = "repl".toList then progress.addDialogue
        else if name = "help".toList then .error .help
        else if name = "version".toList then .error .version
        else .error .misuse
    | letters => progress.addLetters letters

/-- Behind `--` every argument is a file. -/
def Progress.addFiles (progress : Progress) : List String → Except Invocation Progress
  | [] => .ok progress
  | path :: others =>
      match progress.addFile path with
      | .ok progress => progress.addFiles others
      | .error invocation => .error invocation

def Progress.add (progress : Progress) : List String → Except Invocation Progress
  | [] => .ok progress
  | "--" :: files => progress.addFiles files
  | argument :: others =>
      let added :=
        match argument.toList with
        | '-' :: first :: rest => progress.addOption (first :: rest)
        | _ => progress.addFile argument
      match added with
      | .ok progress => progress.add others
      | .error invocation => .error invocation

def ofArguments (arguments : List String) : Invocation :=
  match Progress.add ⟨false, none⟩ arguments with
  | .ok progress => progress.finish
  | .error invocation => invocation

end Invocation

end Monkey.Console
