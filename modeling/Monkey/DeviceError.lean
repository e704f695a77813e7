/-!
What can go wrong when files and streams are read and written.
-/

namespace Monkey

inductive DeviceError where
  | notText
  | missing
  | notDirectory
  | directory
  | full
  | longName
  /-- Anything else, in the words of the system. -/
  | other (reason : String)
  deriving DecidableEq

def DeviceError.message : DeviceError → String
  | .notText => "stream did not contain valid UTF-8"
  | .missing => "No such file or directory (os error 2)"
  | .notDirectory => "Not a directory (os error 20)"
  | .directory => "Is a directory (os error 21)"
  | .full => "No space left on device (os error 28)"
  | .longName => "File name too long (os error 36)"
  | .other reason => reason

end Monkey
