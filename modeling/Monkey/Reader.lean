import Monkey.Bounded
import Monkey.SyntaxError
import Monkey.Token.Scanner

/-!
The reader of a program stands on a token, sees the one that follows, and keeps the errors it has
come across.
-/

namespace Monkey

/-- The tokens from the current one on, and the errors recorded so far, oldest first. -/
structure Reader where
  tokens : List Token
  errors : Array SyntaxError

def Reader.ofString (source : String) : Reader :=
  ⟨Token.list source, #[]⟩

/-- Past the last token the reader stands on `eof`. -/
def Reader.current (reader : Reader) : Token :=
  reader.tokens.headD .eof

def Reader.following (reader : Reader) : Token :=
  reader.tokens.tail.headD .eof

def Reader.advance (reader : Reader) : Reader :=
  { reader with tokens := reader.tokens.tail }

def Reader.record (reader : Reader) (error : SyntaxError) : Reader :=
  { reader with errors := reader.errors.push error }

/-- A step of reading gives a piece of syntax or a syntax error. -/
abbrev Reading := Bounded Reader SyntaxError

namespace Reading

variable {Item : Type}

def current : Reading Token := Bounded.inspect Reader.current

def following : Reading Token := Bounded.inspect Reader.following

def advance : Reading Unit := Bounded.change Reader.advance

/-- Moves to the following token if it is of the kind, and complains otherwise. -/
def expect (kind : Token.Kind) : Reading Unit := do
  let next ← following
  if next.kind = kind then advance else Bounded.fail (.unexpected kind next.kind)

/-- Moves to the following token only if it is of the kind. -/
def accept (kind : Token.Kind) : Reading Unit := do
  let next ← following
  if next.kind = kind then advance else pure ()

/-- An error is recorded, and the reader stays where the error left it. -/
def recorded (item : Reading Item) : Reading (Option Item) := do
  match ← Bounded.attempt item with
  | .ok result => pure (some result)
  | .error error => do
      Bounded.change (·.record error)
      pure none

/-- The items after the first one, each behind a comma. -/
def moreItems (item : Reading Item) : Nat → Reading (List Item)
  | 0 => Bounded.exhausted
  | bound + 1 => do
      let next ← following
      if next.kind = .comma then
        advance
        advance
        let first ← item
        let others ← moreItems item bound
        pure (first :: others)
      else pure []

/-- Items with commas between them, from the opening delimiter to the closing one. -/
def items (item : Reading Item) (closing : Token.Kind) (bound : Nat) : Reading (List Item) := do
  let next ← following
  advance
  if next.kind = closing then pure []
  else
    let first ← item
    let others ← moreItems item bound
    expect closing
    pure (first :: others)

end Reading

end Monkey
