import Monkey.Token.Scanner

/-!
Scanning byte by byte. A cursor moves over the bytes of a text and cuts tokens out of it by the
places where they start and stop. A text can be cut between two characters only, so a cut may fail,
and reading a token with it.
-/

namespace Monkey

/-- The bytes of a text from one place up to another. -/
structure Span where
  start : Nat
  stop : Nat

/-- The ends are in their order, lie in the text, and stand between characters. -/
structure Span.Within (span : Span) (source : String) : Prop where
  ordered : span.start ≤ span.stop
  inside : span.stop ≤ source.utf8ByteSize
  startBoundary : (String.Pos.Raw.mk span.start).IsValid source
  stopBoundary : (String.Pos.Raw.mk span.stop).IsValid source

instance (span : Span) (source : String) : Decidable (span.Within source) :=
  decidable_of_iff
    (span.start ≤ span.stop ∧ span.stop ≤ source.utf8ByteSize ∧
      (String.Pos.Raw.mk span.start).IsValid source ∧ (String.Pos.Raw.mk span.stop).IsValid source)
    ⟨fun ⟨ordered, inside, start, stop⟩ => ⟨ordered, inside, start, stop⟩,
      fun ⟨ordered, inside, start, stop⟩ => ⟨ordered, inside, start, stop⟩⟩

/-- A span that is not within the text cannot be cut out of it. -/
def Span.text? (span : Span) (source : String) : Option String :=
  if within : span.Within source then
    some (source.extract ⟨⟨span.start⟩, within.startBoundary⟩ ⟨⟨span.stop⟩, within.stopBoundary⟩)
  else none

/-- A place in the bytes of a text, the byte there, and the place of the byte that is read next. -/
structure Cursor where
  position : Nat
  readPosition : Nat
  byte : UInt8

/-- A token, the place that its reading leads to, and the span that was cut out for its text. -/
structure Cursor.Step where
  token : Token
  after : Cursor
  cut : Option Span

namespace Cursor

/-- The byte taken for a character: those of a character beyond ASCII start no token. -/
def char (cursor : Cursor) : Char :=
  Char.ofUInt8 cursor.byte

section

variable (source : String)

/-- The byte that is read next, and zero behind the end. -/
def peek (cursor : Cursor) : UInt8 :=
  source.toByteArray[cursor.readPosition]?.getD 0

def advance (cursor : Cursor) : Cursor :=
  ⟨cursor.readPosition, cursor.readPosition + 1, cursor.peek source⟩

def start : Cursor :=
  advance source ⟨0, 0, 0⟩

/-- Moves over the bytes that pass a test. -/
def skipWhile (test : Char → Bool) (cursor : Cursor) : Cursor :=
  if _more : cursor.position < source.utf8ByteSize then
    if test cursor.char then (cursor.advance source).skipWhile test else cursor
  else cursor
-- For all that a cursor says, the place that is read next may lie before the present one.
termination_by
  source.utf8ByteSize - cursor.readPosition + min 1 (source.utf8ByteSize - cursor.position)
decreasing_by
  dsimp only [advance]
  omega

/-- Of the symbols, only `=` and `!` look at the byte after them. -/
def symbol (cursor : Cursor) (kind : Token.Kind) : Step :=
  match cursor.char, Char.ofUInt8 (cursor.peek source) with
  | '=', '=' => ⟨⟨.equal, "=="⟩, (cursor.advance source).advance source, none⟩
  | '!', '=' => ⟨⟨.notEqual, "!="⟩, (cursor.advance source).advance source, none⟩
  | char, _ => ⟨⟨kind, String.ofList [char]⟩, cursor.advance source, none⟩

/-- Cuts a span out of the text, from which the token and the place behind it are made. -/
def cut (span : Span) (make : String → Token × Cursor) : Option Step := do
  let text ← span.text? source
  let (token, after) := make text
  return ⟨token, after, some span⟩

/-- A word or a number goes on as long as its characters do. -/
def run (cursor : Cursor) (test : Char → Bool) (kind : String → Token.Kind) : Option Step :=
  let after := cursor.skipWhile source test
  cut source ⟨cursor.position, after.position⟩ fun text => (⟨kind text, text⟩, after)

/-- A quoted text stops at the closing quote or at the end, and the cursor moves behind either. -/
def quoted (cursor : Cursor) : Option Step :=
  let closing := (cursor.advance source).skipWhile source (· != '"')
  cut source ⟨cursor.position + 1, closing.position⟩ fun text =>
    (⟨.string, text⟩, closing.advance source)

/-- The first character of the rest of the text, which is passed byte by byte. -/
def illegal (cursor : Cursor) : Option Step :=
  cut source ⟨cursor.position, source.utf8ByteSize⟩ fun text =>
    let char := text.toList.head?.getD '\x00'
    let last := Nat.repeat (advance source) (char.utf8Size - 1) cursor
    (⟨.illegal, String.ofList [char]⟩, last.advance source)

/-- The token at a byte that is not blank. -/
def token? (cursor : Cursor) : Option Step :=
  match Token.symbols.lookup cursor.char with
  | some kind => some (cursor.symbol source kind)
  | none =>
      if cursor.char = '"' then cursor.quoted source
      else if Token.isLetter cursor.char then cursor.run source Token.isLetter .ofWord
      else if cursor.char.isDigit then cursor.run source Char.isDigit fun _ => .int
      else cursor.illegal source

/-- Blanks are passed over, and at the end of the text the token is `eof` again and again. -/
def next (cursor : Cursor) : Option Step :=
  let cursor := cursor.skipWhile source Token.isBlank
  if cursor.position < source.utf8ByteSize then cursor.token? source
  else some ⟨.eof, cursor, none⟩

/-- One turn of an iteration, which gives out the next token unless it is `eof`. -/
def item (cursor : Cursor) : Option (Option Token × Cursor) := do
  let step ← cursor.next source
  return (if step.token.kind = .eof then none else some step.token, step.after)

/-- The place that is reached by reading a number of tokens. -/
def after : Nat → Option Cursor
  | 0 => some (start source)
  | count + 1 => do
      let cursor ← after count
      let step ← cursor.next source
      return step.after

end

end Cursor

end Monkey
