import Monkey.RuntimeError

/-!
Functions of the host. Beside the standard functions a host can give programs functions of its own.
Such a function looks at its arguments, writes a text, and answers with plain values and with what
its arguments hold. It looks at nothing else, and it does not come to a scope: of a function it sees
no more than the text.
-/

namespace Monkey

/-- What a function of the host sees of a value. -/
inductive Sight where
  | integer (value : Int64)
  | boolean (value : Bool)
  | text (value : String)
  | array (elements : List Sight)
  | function (text : String)
  | builtin (name : String)
  | returned (value : Sight)
  | error (cause : RuntimeError)
  | null
  | void

/-- An answer of a function of the host, where the arguments and their elements stand for
themselves and are counted from 0. -/
inductive Reply where
  | integer (value : Int64)
  | boolean (value : Bool)
  | text (value : String)
  | array (elements : List Reply)
  | argument (position : Nat)
  | element (whole : Reply) (position : Nat)
  | null
  | void

/-- A function of the host: the text that it writes, and what it answers then. Their types say that
it keeps off the scopes and gives back only what its arguments hold. Operators are not its business,
and it does not complain about them. -/
structure HostFunction where
  prints : List Sight → String
  answer : List Sight → Except RuntimeError Reply
  sparesOperators : ∀ seen cause, answer seen = .error cause → cause.aboutOperator = false

end Monkey
