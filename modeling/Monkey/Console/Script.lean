import Monkey.Console.Report

/-!
Running the program in a file.
-/

namespace Monkey.Console

/-- Why there is no result. -/
inductive Script.Failure where
  | malformed (errors : List SyntaxError)
  | device (error : DeviceError)

/-- What happens to the bytes of a file: the text of the result, or a failure, and the output that
the program has written to. -/
def Script.run (depth : Nat) (content : Except DeviceError (List UInt8)) (output : Output) :
    Option (Except Script.Failure String × Output) :=
  match content with
  | .error error => some (.error (.device error), output)
  | .ok bytes =>
      match decode bytes with
      | none => some (.error (.device .notText), output)
      | some source =>
          let (scope, session) := (Session.start .standard output).createScope none
          match session.run depth source scope with
          | none => none
          | some (.error errors, reached) => some (.error (.malformed errors), reached.output)
          | some (.ok result, reached) => some (.ok (report result), reached.output)

end Monkey.Console
