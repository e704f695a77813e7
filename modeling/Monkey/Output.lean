import Monkey.DeviceError

/-!
Where a program writes its text.
-/

namespace Monkey

/-- A buffer can be read back and emptied, a stream keeps what has gone out, and a full device takes
nothing. -/
inductive Output where
  | buffer (text : String)
  | stream (written : String)
  | full

namespace Output

def write : Output → String → Except DeviceError Output
  | buffer text, added => .ok (buffer (text ++ added))
  | stream written, added => .ok (stream (written ++ added))
  | full, added => if added.isEmpty then .ok full else .error .full

/-- Only a buffer can be read back. -/
def contents : Output → String
  | buffer text => text
  | _ => ""

def clear : Output → Output
  | buffer _ => buffer ""
  | output => output

/-- What has gone out on a stream. -/
def sent : Output → String
  | stream written => written
  | _ => ""

end Output

end Monkey
