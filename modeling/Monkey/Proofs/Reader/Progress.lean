import Monkey.Proofs.Grammar.Programs
import Monkey.Proofs.Reader.Account

/-!
Reading comes to its end. Whatever the tokens are, every reader ends without going back, every turn
of a loop passes a token, and a program is read up to the end of its text.
-/

namespace Monkey

namespace Reading

open Bounded

/-- A loop is given by its condition, by one turn, and by what is done with the item of a turn.
Where the condition fails, the loop stops on the spot. However a turn ends, it has passed a
token. -/
structure Loop {Item Result : Type} (goesOn : Reader → Prop) (turn : Reading Item)
    (rest : Item → Reading Result) (loop : Reading Result) : Prop where
  stops : ∀ reader, ¬ goesOn reader → ∃ result, loop reader = some (.ok result, reader)
  turns : ∀ reader, goesOn reader → loop reader = (turn >>= rest) reader
  passes : ∀ reader reached outcome, goesOn reader → turn reader = some (outcome, reached) →
    reader.Reaches reached ∧ reached.tokens.length < reader.tokens.length

/-- A statement or its error, and the step behind it. -/
def statementTurn (expression : Precedence → Reading (Expr Unit)) :
    Reading (Option (Stmt Unit)) := do
  let first ← recorded (statement expression)
  advance
  pure first

/-- A comma and the item behind it. -/
def itemTurn {Item : Type} (item : Reading Item) : Reading Item := do
  advance
  advance
  item

/-- The step to an operator, and what it makes of the operand on its left. -/
def operatorTurn (expression : Precedence → Reading (Expr Unit)) (left : Expr Unit) (bound : Nat) :
    Reading (Expr Unit) := do
  advance
  continuation expression left bound

section

variable {Item : Type} {reader reached : Reader}

/-- What is read behind a step has passed the token of the step. -/
theorem passes_of_advance {reading : Reading Item} {outcome : Except SyntaxError Item}
    (forward : Forward reading) (inside : reader.tokens ≠ [])
    (ends : reading reader.advance = some (outcome, reached)) :
    reader.Reaches reached ∧ reached.tokens.length < reader.tokens.length := by
  have reaches := forward ends
  have shorter := reaches.tokens.length_le
  have some := List.length_pos_iff.mpr inside
  rw [Reader.advance_tokens, List.length_tail] at shorter
  exact ⟨Trans.trans reader.reaches_advance reaches, by omega⟩

/-- A reader with a token behind the current one is not at the end. -/
theorem tokens_ne_nil_of_following (inside : reader.following.kind ≠ .eof) :
    reader.tokens ≠ [] := by
  intro none
  simp [Reader.following, none, Token.eof] at inside

variable {expression : Precedence → Reading (Expr Unit)}

/-- The step at the end of a turn is made from where the statement or its error was found. -/
theorem statementTurn_ends {outcome : Except SyntaxError (Option (Stmt Unit))}
    (forward : ∀ level, Forward (expression level))
    (ends : statementTurn expression reader = some (outcome, reached)) :
    ∃ last, reader.Reaches last ∧ reached = last.advance := by
  match found : statement expression reader with
  | none => simp [statementTurn, recorded, attempt, bind_apply, found] at ends
  | some (.ok tree, last) =>
      have reaches := forward_statement forward found
      simp only [statementTurn, recorded, attempt, bind_apply, found, pure_apply, advance,
        change_apply, Option.some.injEq, Prod.mk.injEq] at ends
      exact ⟨last, reaches, ends.2.symm⟩
  | some (.error error, last) =>
      have reaches := forward_statement forward found
      simp only [statementTurn, recorded, attempt, bind_apply, found, pure_apply, advance,
        change_apply, Option.some.injEq, Prod.mk.injEq] at ends
      exact ⟨last.record error, Trans.trans reaches (last.reaches_record error), ends.2.symm⟩

/-- Reading statements is a loop with one statement a turn. -/
theorem loop_statements (forward : ∀ level, Forward (expression level))
    {closing : List Token.Kind} (closed : .eof ∈ closing) (steps : Nat) :
    Loop (fun reader => reader.current.kind ∉ closing) (statementTurn expression)
      (fun first => do
        let others ← statements expression closing steps
        pure (first.toList ++ others))
      (statements expression closing (steps + 1)) where
  stops := by
    intro reader closes
    refine ⟨[], ?_⟩
    simp [statements, Classical.not_not.mp closes]
  turns := by
    intro reader goesOn
    simp only [statements, current_bind, if_neg goesOn, statementTurn, bind_bind]
    rfl
  passes := by
    intro reader reached outcome goesOn ends
    have inside : reader.current.kind ≠ .eof := fun atEnd => goesOn (atEnd ▸ closed)
    have some := congrArg List.length (reader.tokens_eq inside)
    obtain ⟨last, reaches, rfl⟩ := statementTurn_ends forward ends
    have shorter := reaches.tokens.length_le
    refine ⟨Trans.trans reaches last.reaches_advance, ?_⟩
    rw [Reader.advance_tokens, List.length_tail]
    rw [List.length_cons] at some
    omega

/-- Reading further items is a loop with a comma and an item a turn. -/
theorem loop_moreItems {item : Reading Item} (forward : Forward item) (steps : Nat) :
    Loop (fun reader => reader.following.kind = .comma) (itemTurn item)
      (fun first => do
        let others ← moreItems item steps
        pure (first :: others))
      (moreItems item (steps + 1)) where
  stops := by
    intro reader noComma
    exact ⟨[], moreItems_close noComma (Nat.succ_pos steps)⟩
  turns := by
    intro reader comma
    simp only [moreItems, following_bind, if_pos comma, itemTurn, bind_bind]
  passes := by
    intro reader reached outcome comma ends
    have inside : reader.tokens ≠ [] := tokens_ne_nil_of_following (by simp [comma])
    exact passes_of_advance (forward_advance.bind fun _ => forward) inside ends

/-- Reading operators is a loop with one operator a turn. -/
theorem loop_operators (forward : ∀ level, Forward (expression level)) (level : Precedence)
    (left : Expr Unit) (steps : Nat) :
    Loop (fun reader => level.rank < (Precedence.ofKind reader.following.kind).rank)
      (operatorTurn expression left steps) (operators expression level steps)
      (operators expression level (steps + 1) left) where
  stops := by
    intro reader weak
    refine ⟨left, ?_⟩
    simp [operators, weak]
  turns := by
    intro reader strong
    simp only [operators, following_bind, if_pos strong, operatorTurn, bind_bind]
  passes := by
    intro reader reached outcome strong ends
    have inside : reader.tokens ≠ [] := by
      apply tokens_ne_nil_of_following
      intro atEnd
      rw [atEnd] at strong
      revert strong
      cases level <;> decide
    exact passes_of_advance (forward_continuation forward left steps) inside ends

/-- Statements are read up to a token that closes them. -/
theorem statements_closes {closing : List Token.Kind} {bound : Nat} {trees : List (Stmt Unit)}
    (read : statements expression closing bound reader = some (.ok trees, reached)) :
    reached.current.kind ∈ closing := by
  induction bound generalizing reader trees with
  | zero => cases read
  | succ bound inductionHypothesis =>
      simp only [statements, current_bind] at read
      split at read
      · next closes =>
          obtain ⟨_, rfl⟩ := pure_eq_ok.mp read
          exact closes
      · simp only [bind_eq_ok, advance_bind, pure_eq_ok] at read
        obtain ⟨_, _, _, others, _, readOthers, _, rfl⟩ := read
        exact inductionHypothesis readOthers

end

/-- Under a bound above the number of tokens, expressions, statements and blocks come to an end.
They do not go back under any bound, and every turn of a loop passes a token. -/
structure Progress (bound : Nat) : Prop where
  expression_ends : ∀ reader level, reader.tokens.length < bound →
    ∃ outcome reached, expression bound level reader = some (outcome, reached)
  statement_ends : ∀ reader, reader.tokens.length < bound →
    ∃ outcome reached, statement (expression bound) reader = some (outcome, reached)
  block_ends : ∀ reader, reader.tokens.length < bound →
    ∃ outcome reached, block (expression bound) bound reader = some (outcome, reached)
  expression_forward : ∀ level, Forward (expression bound level)
  statement_forward : Forward (statement (expression bound))
  block_forward : ∀ steps, Forward (block (expression bound) steps)
  statements_loop : ∀ closing steps, .eof ∈ closing →
    Loop (fun reader => reader.current.kind ∉ closing) (statementTurn (expression bound))
      (fun first => do
        let others ← statements (expression bound) closing steps
        pure (first.toList ++ others))
      (statements (expression bound) closing (steps + 1))
  expressions_loop : ∀ steps,
    Loop (fun reader => reader.following.kind = .comma) (itemTurn (expression bound .lowest))
      (fun first => do
        let others ← moreItems (expression bound .lowest) steps
        pure (first :: others))
      (moreItems (expression bound .lowest) (steps + 1))
  parameters_loop : ∀ steps,
    Loop (fun reader => reader.following.kind = .comma) (itemTurn parameter)
      (fun first => do
        let others ← moreItems parameter steps
        pure (first :: others))
      (moreItems parameter (steps + 1))
  operators_loop : ∀ level left steps,
    Loop (fun reader => level.rank < (Precedence.ofKind reader.following.kind).rank)
      (operatorTurn (expression bound) left steps) (operators (expression bound) level steps)
      (operators (expression bound) level (steps + 1) left)

/-- A reading within a limit ends on fewer tokens than the limit. -/
theorem Within.ends {Item : Type} {limit : Nat} {reading : Reading Item}
    (within : Within limit reading) (reader : Reader) (short : reader.tokens.length < limit) :
    ∃ outcome reached, reading reader = some (outcome, reached) := by
  obtain ⟨outcome, reached, read, _⟩ := within reader short
  exact ⟨outcome, reached, read⟩

/-- Reading makes progress within every bound, by induction on the bound. -/
theorem progress (bound : Nat) : Progress bound where
  expression_ends reader level := (within_expression bound level).ends reader
  statement_ends := (within_statement (within_expression bound)).ends
  block_ends := (within_block (within_expression bound)).ends
  expression_forward := forward_expression bound
  statement_forward := forward_statement (forward_expression bound)
  block_forward := forward_block (forward_expression bound)
  statements_loop _ steps closed := loop_statements (forward_expression bound) closed steps
  expressions_loop := loop_moreItems (forward_expression bound .lowest)
  parameters_loop := loop_moreItems forward_parameter
  operators_loop := loop_operators (forward_expression bound)

end Reading

/-- Whatever the source is, its program is read up to the end of the text, no reader goes back on
the way, every turn of a loop passes a token, and the errors and the statements that come of it,
those inside of others included, are together no more than the tokens of the source. -/
theorem Program.read_finishes (source : String) :
    (∃ reached,
      Reading.statements (Reading.expression ((Token.list source).length + 1)) [.eof]
          ((Token.list source).length + 1) (Reader.ofString source) =
        some (.ok (Program.read source).1.statements, reached) ∧
      reached.current = .eof ∧ reached.errors.toList = (Program.read source).2) ∧
    (∀ bound, Reading.Progress bound) ∧
    (Program.read source).2.length + (Program.read source).1.statementCount ≤
      (Token.list source).length := by
  have read := (Reader.ofString source).program_eq
  have reaches := Reading.forward_statements (Reading.forward_expression _) _ _ read
  have closes := List.mem_singleton.mp (Reading.statements_closes read)
  have done : (Reader.ofString source).program.2.tokens = [] :=
    (reaches.proper (Reader.proper_ofString source)).tokens_eq_nil closes
  have atEnd : (Reader.ofString source).program.2.current = .eof := by
    rw [Reader.current, done, List.headD_nil]
  exact ⟨⟨_, read, atEnd, rfl⟩, Reading.progress, Program.errors_add_statements_le source⟩

/-- Every token of `} 1` brings an error or a statement. -/
example : (Program.read "\x7d 1").2.length + (Program.read "\x7d 1").1.statementCount = 2 ∧
    (Token.list "\x7d 1").length = 2 := by
  cbv

end Monkey
