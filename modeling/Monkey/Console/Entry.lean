import Monkey.DeviceError

/-!
Files in folders, and the paths that lead to them.
-/

namespace Monkey.Console

inductive Entry where
  | file (content : List UInt8)
  | folder (entries : List (String × Entry))

namespace Entry

/-- A name has at most 255 bytes. -/
def longestName : Nat := 255

/-- A path has at most 4095 bytes. -/
def longestPath : Nat := 4095

/-- One step along a path. The trail holds the entry that was reached and then the folders around
it, up to the root; the root lies in itself. -/
def step (trail : List Entry) (name : String) : Except DeviceError (List Entry) :=
  match trail with
  | folder entries :: around =>
      if name = "" ∨ name = "." then .ok trail
      else if name = ".." then .ok (if around.isEmpty then trail else around)
      else if longestName < name.utf8ByteSize then .error .longName
      else
        match entries.lookup name with
        | some entry => .ok (entry :: trail)
        | none => .error .missing
  | _ => .error .notDirectory

/-- A path that starts with a slash starts at the root, any other one where the trail ends. -/
def origin (trail : List Entry) (path : String) : List Entry :=
  if path.startsWith "/" then trail.getLast?.toList else trail

/-- The content of the file that a path leads to. -/
def read (trail : List Entry) (path : String) : Except DeviceError (List UInt8) :=
  if longestPath < path.utf8ByteSize then .error .longName
  else
    match (path.splitOn "/").foldlM step (origin trail path) with
    | .ok (file content :: _) => .ok content
    | .ok _ => .error .directory
    | .error error => .error error

/-- The folders that every system has at its root, with the null device and the standard input. -/
def system (input : List UInt8) : Entry :=
  folder
    (("dev", folder [("null", file []), ("stdin", file input)]) ::
      ["bin", "etc", "home", "lib", "proc", "sys", "tmp", "usr", "var"].map (·, folder []))

/-- The trail of a folder for temporary files that holds the given entries. -/
def workplace (entries : List (String × Entry)) (input : List UInt8) : List Entry :=
  [folder entries, folder [], system input]

end Entry

end Monkey.Console
