import Monkey.Proofs.Reader.Forward

/-!
What a success of the smallest readings says about the reader before and after them.
-/

namespace Monkey

namespace Reader

variable {reader reached : Reader}

@[simp] theorem advance_tokens (reader : Reader) : reader.advance.tokens = reader.tokens.tail := rfl

@[simp] theorem advance_errors (reader : Reader) : reader.advance.errors = reader.errors := rfl

@[simp] theorem current_advance (reader : Reader) : reader.advance.current = reader.following := rfl

/-- A reader that does not stand on the end stands on a token. -/
theorem tokens_eq (inside : reader.current.kind ≠ .eof) :
    reader.tokens = reader.current :: reader.tokens.tail := by
  match tokens : reader.tokens with
  | [] => simp [Reader.current, tokens, Token.eof] at inside
  | first :: others => simp [Reader.current, tokens]

/-- A reader that sees a token sees the first one of the tokens behind it. -/
theorem tail_eq (inside : reader.following.kind ≠ .eof) :
    reader.tokens.tail = reader.following :: reader.advance.tokens.tail :=
  reader.advance.tokens_eq inside

theorem current_eq {token : Token} {rest : List Token} (tokens : reader.tokens = token :: rest) :
    reader.current = token := by
  simp [Reader.current, tokens]

theorem following_eq {token : Token} {rest : List Token}
    (tokens : reader.tokens.tail = token :: rest) : reader.following = token := by
  simp [Reader.following, tokens]

end Reader

namespace Reading

open Bounded

variable {Item Next : Type} {reader reached : Reader}

/-- A reading of nothing stays where it is. -/
@[simp] theorem pure_eq_ok {given item : Item} :
    (pure given : Reading Item) reader = some (.ok item, reached) ↔
      item = given ∧ reached = reader := by
  simp [eq_comm]

@[simp] theorem current_bind (next : Token → Reading Item) (reader : Reader) :
    (current >>= next) reader = next reader.current reader := rfl

@[simp] theorem following_bind (next : Token → Reading Item) (reader : Reader) :
    (following >>= next) reader = next reader.following reader := rfl

@[simp] theorem advance_bind (next : Unit → Reading Item) (reader : Reader) :
    (advance >>= next) reader = next () reader.advance := rfl

/-- An accepted token is passed if it is there. -/
theorem accept_bind (kind : Token.Kind) (next : Unit → Reading Item) (reader : Reader) :
    (accept kind >>= next) reader =
      next () (if reader.following.kind = kind then reader.advance else reader) := by
  by_cases found : reader.following.kind = kind <;>
    simp [accept, following, advance, found, bind_apply]

/-- An expected token that is there is passed. -/
theorem expect_bind {kind : Token.Kind} (next : Unit → Reading Item)
    (found : reader.following.kind = kind) :
    (expect kind >>= next) reader = next () reader.advance := by
  simp [expect, following, advance, found, bind_apply]

/-- An expected token is passed just when it is there. -/
theorem expect_eq_ok {kind : Token.Kind} {done : Unit} :
    expect kind reader = some (.ok done, reached) ↔
      reader.following.kind = kind ∧ reached = reader.advance := by
  by_cases found : reader.following.kind = kind
  · simp [expect, following, advance, found, bind_apply, eq_comm]
  · simp [expect, following, found, bind_apply]

/-- A reading that is recorded succeeds, or its error is the last one recorded. -/
theorem recorded_eq_ok {reading : Reading Item} {item : Option Item}
    (ends : recorded reading reader = some (.ok item, reached)) :
    (∃ found, item = some found ∧ reading reader = some (.ok found, reached)) ∨
      ∃ error before, reading reader = some (.error error, before) ∧
        reached = before.record error := by
  match outcome : reading reader with
  | none => simp [recorded, attempt, bind_apply, outcome] at ends
  | some (.ok found, after) =>
      simp only [recorded, attempt, bind_apply, outcome, pure_eq_ok] at ends
      exact .inl ⟨found, ends.1, by rw [ends.2]⟩
  | some (.error error, after) =>
      simp only [recorded, attempt, bind_apply, outcome, change_apply, pure_eq_ok] at ends
      exact .inr ⟨error, after, rfl, ends.2⟩

/-- A success is recorded as itself. -/
theorem recorded_ok {reading : Reading Item} {found : Item}
    (ends : reading reader = some (.ok found, reached)) :
    recorded reading reader = some (.ok (some found), reached) := by
  simp [recorded, attempt, bind_apply, ends]

section

variable {item : Reading Item} {first : Item} {others : List Item} {closing : Token.Kind}
  {steps : Nat} {middle : Reader}

/-- Without a comma there are no further items. -/
theorem moreItems_close (noComma : reader.following.kind ≠ .comma) (positive : 0 < steps) :
    moreItems item steps reader = some (.ok [], reader) := by
  match steps with
  | steps + 1 => simp [moreItems, noComma]

/-- Behind a comma there is an item, and there are the ones behind it. -/
theorem moreItems_comma (comma : reader.following.kind = .comma)
    (readFirst : item reader.advance.advance = some (.ok first, middle))
    (readOthers : moreItems item steps middle = some (.ok others, reached)) :
    moreItems item (steps + 1) reader = some (.ok (first :: others), reached) := by
  simp only [moreItems, following_bind, comma, if_true, advance_bind, bind_of_ok readFirst,
    bind_of_ok readOthers]
  rfl

/-- A closing token at once closes an empty list. -/
theorem items_none (closes : reader.following.kind = closing) :
    items item closing steps reader = some (.ok [], reader.advance) := by
  simp [items, closes]

/-- Otherwise there is a first item, and there are the ones behind it up to the closing token. -/
theorem items_some (more : reader.following.kind ≠ closing)
    (readFirst : item reader.advance = some (.ok first, middle))
    (readOthers : moreItems item steps middle = some (.ok others, reached))
    (closes : reached.following.kind = closing) :
    items item closing steps reader = some (.ok (first :: others), reached.advance) := by
  simp only [items, following_bind, advance_bind, more, if_false, bind_of_ok readFirst,
    bind_of_ok readOthers, expect_bind _ closes]
  rfl

end

section

variable (expression : Precedence → Reading (Expr Unit))

/-- A statement that starts with `let` is a binding. -/
theorem statement_of_let (kind : reader.current.kind = .letWord) :
    statement expression reader = (do
      expect .ident
      let name ← current
      expect .assign
      advance
      let value ← expression .lowest
      accept .semicolon
      pure (Stmt.bind reader.current ⟨name, name.literal⟩ value)) reader := by
  simp only [statement, current_bind, kind]

/-- A statement that starts with `return` gives a value back. -/
theorem statement_of_return (kind : reader.current.kind = .returnWord) :
    statement expression reader = (do
      advance
      let value ← expression .lowest
      accept .semicolon
      pure (Stmt.give reader.current value)) reader := by
  simp only [statement, current_bind, kind]

/-- Any other statement is an expression. -/
theorem statement_of_other (notLet : reader.current.kind ≠ .letWord)
    (notReturn : reader.current.kind ≠ .returnWord) :
    statement expression reader = (do
      let value ← expression .lowest
      accept .semicolon
      pure (Stmt.expression reader.current value)) reader := by
  simp only [statement, current_bind]

end

end Reading

end Monkey
