import Monkey.Reader.Program

/-!
The bound on reading is never used up: a bound above the number of tokens is enough for every
reader, because whatever is nested stands behind at least one token of what encloses it.
-/

namespace Monkey

/-- Fewer than `limit` tokens are enough of a bound, and no token is read twice. -/
def Reading.Within {Item : Type} (limit : Nat) (reading : Reading Item) : Prop :=
  ∀ reader : Reader, reader.tokens.length < limit →
    ∃ outcome reached, reading reader = some (outcome, reached) ∧
      reached.tokens.length ≤ reader.tokens.length

namespace Reading

variable {Item Next : Type} {limit : Nat}

theorem Within.mono {reading : Reading Item} {smaller : Nat} (within : Within limit reading)
    (le : smaller ≤ limit) : Within smaller reading :=
  fun reader short => within reader (Nat.lt_of_lt_of_le short le)

theorem within_pure (item : Item) : Within limit (pure item) :=
  fun reader _ => ⟨.ok item, reader, rfl, Nat.le_refl _⟩

theorem within_fail (error : SyntaxError) : Within limit (Bounded.fail error : Reading Item) :=
  fun reader _ => ⟨.error error, reader, rfl, Nat.le_refl _⟩

theorem within_current : Within limit current :=
  fun reader _ => ⟨.ok reader.current, reader, rfl, Nat.le_refl _⟩

theorem within_following : Within limit following :=
  fun reader _ => ⟨.ok reader.following, reader, rfl, Nat.le_refl _⟩

theorem advance_length (reader : Reader) :
    reader.advance.tokens.length = reader.tokens.length - 1 := by
  simp [Reader.advance]

theorem within_advance : Within limit advance :=
  fun reader _ => ⟨.ok (), reader.advance, rfl, by rw [advance_length]; omega⟩

/-- From one reader on, both steps together end no later than the second one does. -/
theorem bind_ends {first : Reading Item} {next : Item → Reading Next} {reader : Reader}
    (ends : ∃ outcome reached, first reader = some (outcome, reached) ∧
      reached.tokens.length ≤ reader.tokens.length)
    (goesOn : ∀ item reached, reached.tokens.length ≤ reader.tokens.length →
      ∃ outcome final, next item reached = some (outcome, final) ∧
        final.tokens.length ≤ reader.tokens.length) :
    ∃ outcome final, (first >>= next) reader = some (outcome, final) ∧
      final.tokens.length ≤ reader.tokens.length := by
  obtain ⟨outcome, reached, read, shorter⟩ := ends
  rw [Bounded.bind_apply, read]
  match outcome with
  | .error error => exact ⟨.error error, reached, rfl, shorter⟩
  | .ok item => exact goesOn item reached shorter

theorem Within.bind {first : Reading Item} {next : Item → Reading Next}
    (within : Within limit first) (rest : ∀ item, Within limit (next item)) :
    Within limit (first >>= next) := by
  intro reader short
  refine bind_ends (within reader short) ?_
  intro item reached shorter
  obtain ⟨outcome, final, read, less⟩ := rest item reached (by omega)
  exact ⟨outcome, final, read, by omega⟩

theorem within_expect (kind : Token.Kind) : Within limit (expect kind) := by
  refine within_following.bind fun next => ?_
  split
  · exact within_advance
  · exact within_fail _

theorem within_accept (kind : Token.Kind) : Within limit (accept kind) := by
  refine within_following.bind fun next => ?_
  split
  · exact within_advance
  · exact within_pure _

theorem within_recorded {item : Reading Item} (within : Within limit item) :
    Within limit (recorded item) := by
  refine Within.bind ?_ fun outcome => ?_
  · intro reader short
    obtain ⟨outcome, reached, read, shorter⟩ := within reader short
    exact ⟨.ok outcome, reached, by simp [Bounded.attempt, read], shorter⟩
  · split
    · exact within_pure _
    · exact Within.bind (fun reader _ => ⟨.ok (), _, rfl, Nat.le_refl _⟩) fun _ => within_pure _

theorem within_moreItems {item : Reading Item} (within : Within limit item) (bound : Nat)
    (le : bound ≤ limit) : Within bound (moreItems item bound) := by
  induction bound with
  | zero => exact fun reader short => absurd short (Nat.not_lt_zero _)
  | succ bound inductionHypothesis =>
      intro reader short
      unfold moreItems
      simp only [following, Bounded.bind_apply, Bounded.inspect_apply]
      by_cases comma : reader.following.kind = .comma
      · have two : 2 ≤ reader.tokens.length := by
          match tokens : reader.tokens with
          | [] | [_] => simp [Reader.following, tokens, Token.eof] at comma
          | _ :: _ :: _ => simp
        have rest : Within bound (item >>= fun first =>
            moreItems item bound >>= fun others => pure (first :: others)) :=
          (within.mono (by omega)).bind fun _ =>
            (inductionHypothesis (by omega)).bind fun _ => within_pure _
        obtain ⟨outcome, final, read, less⟩ := rest reader.advance.advance (by
          simp only [advance_length]; omega)
        refine ⟨outcome, final, ?_, ?_⟩
        · simpa [comma, advance, Bounded.bind_apply] using read
        · simp only [advance_length] at less; omega
      · exact ⟨.ok [], reader, by simp [comma], Nat.le_refl _⟩

theorem within_items {item : Reading Item} (within : Within limit item) (closing : Token.Kind) :
    Within limit (items item closing limit) := by
  refine within_following.bind fun next => within_advance.bind fun _ => ?_
  split
  · exact within_pure _
  · exact within.bind fun _ => (within_moreItems within limit (Nat.le_refl _)).bind fun _ =>
      (within_expect closing).bind fun _ => within_pure _

section

variable {expression : Precedence → Reading (Expr Unit)}

theorem within_statement (within : ∀ level, Within limit (expression level)) :
    Within limit (statement expression) := by
  refine within_current.bind fun token => ?_
  split
  · exact (within_expect _).bind fun _ => within_current.bind fun _ =>
      (within_expect _).bind fun _ => within_advance.bind fun _ => (within _).bind fun _ =>
      (within_accept _).bind fun _ => within_pure _
  · exact within_advance.bind fun _ => (within _).bind fun _ =>
      (within_accept _).bind fun _ => within_pure _
  · exact (within _).bind fun _ => (within_accept _).bind fun _ => within_pure _

theorem within_statements (within : ∀ level, Within limit (expression level))
    (closing : List Token.Kind) (closed : .eof ∈ closing) (bound : Nat) (le : bound ≤ limit) :
    Within bound (statements expression closing bound) := by
  induction bound with
  | zero => exact fun reader short => absurd short (Nat.not_lt_zero _)
  | succ bound inductionHypothesis =>
      intro reader short
      unfold statements
      simp only [current, Bounded.bind_apply, Bounded.inspect_apply]
      by_cases done : reader.current.kind ∈ closing
      · exact ⟨.ok [], reader, by simp [done], Nat.le_refl _⟩
      · have one : 1 ≤ reader.tokens.length := by
          match tokens : reader.tokens with
          | [] => simp [Reader.current, tokens, Token.eof, closed] at done
          | _ :: _ => simp
        simp only [done, if_false]
        refine bind_ends (within_recorded (within_statement within) reader (by omega)) ?_
        intro first reached shorter
        have rest : Within bound (statements expression closing bound >>= fun others =>
            pure (first.toList ++ others)) :=
          (inductionHypothesis (by omega)).bind fun _ => within_pure _
        obtain ⟨outcome, final, read, less⟩ := rest reached.advance (by
          rw [advance_length]; omega)
        refine ⟨outcome, final, ?_, ?_⟩
        · simpa [advance, Bounded.bind_apply] using read
        · rw [advance_length] at less; omega

theorem within_block (within : ∀ level, Within limit (expression level)) :
    Within limit (block expression limit) :=
  within_current.bind fun _ => within_advance.bind fun _ =>
    (within_statements within _ (by simp) limit (Nat.le_refl _)).bind fun _ => within_pure _

theorem within_parameter : Within limit parameter := by
  refine within_current.bind fun token => ?_
  split
  · exact within_pure _
  · exact within_fail _

theorem within_alternative (within : ∀ level, Within limit (expression level)) :
    Within limit (alternative expression limit) := by
  refine within_following.bind fun next => ?_
  split
  · exact within_advance.bind fun _ => (within_expect _).bind fun _ =>
      (within_block within).bind fun _ => within_pure _
  · exact within_pure _

theorem within_continuation (within : ∀ level, Within limit (expression level))
    (left : Expr Unit) : Within limit (continuation expression left limit) := by
  refine within_current.bind fun token => ?_
  split
  · exact (within_items (within _) _).bind fun _ => within_pure _
  · exact within_advance.bind fun _ => (within _).bind fun _ =>
      (within_expect _).bind fun _ => within_pure _
  · exact within_advance.bind fun _ => (within _).bind fun _ => within_pure _

theorem within_operators (within : ∀ level, Within limit (expression level)) (level : Precedence)
    (bound : Nat) (le : bound ≤ limit + 1) (left : Expr Unit) :
    Within bound (operators expression level bound left) := by
  induction bound generalizing left with
  | zero => exact fun reader short => absurd short (Nat.not_lt_zero _)
  | succ bound inductionHypothesis =>
      intro reader short
      unfold operators
      simp only [following, Bounded.bind_apply, Bounded.inspect_apply]
      by_cases stronger : level.rank < (Precedence.ofKind reader.following.kind).rank
      · have two : 2 ≤ reader.tokens.length := by
          have positive : 1 ≤ level.rank := by cases level <;> decide
          match tokens : reader.tokens with
          | [] | [_] =>
              simp [Reader.following, tokens, Token.eof, Precedence.ofKind,
                Precedence.rank.eq_def Precedence.lowest] at stronger
              omega
          | _ :: _ :: _ => simp
        have rest : Within bound (continuation expression left bound >>= fun longer =>
            operators expression level bound longer) :=
          (within_continuation (fun level => (within level).mono (by omega)) left).bind
            fun _ => inductionHypothesis (by omega) _
        obtain ⟨outcome, final, read, less⟩ := rest reader.advance (by
          rw [advance_length]; omega)
        refine ⟨outcome, final, ?_, ?_⟩
        · simpa [stronger, advance, Bounded.bind_apply] using read
        · rw [advance_length] at less; omega
      · exact ⟨.ok left, reader, by simp [stronger], Nat.le_refl _⟩

/-- The bound is enough for a reader that stands on a token, which is then not counted. -/
def Behind (limit : Nat) (reading : Reading Item) : Prop :=
  ∀ reader : Reader, 1 ≤ reader.tokens.length → reader.tokens.length < limit + 1 →
    ∃ outcome reached, reading reader = some (outcome, reached) ∧
      reached.tokens.length ≤ reader.tokens.length

theorem Within.behind {reading : Reading Item} (within : Within (limit + 1) reading) :
    Behind limit reading :=
  fun reader _ short => within reader short

theorem behind_advance {next : Unit → Reading Item} (within : ∀ done, Within limit (next done)) :
    Behind limit (advance >>= next) := by
  intro reader one short
  obtain ⟨outcome, final, read, less⟩ := within () reader.advance (by rw [advance_length]; omega)
  rw [advance_length] at less
  exact ⟨outcome, final, read, by omega⟩

theorem behind_expect {next : Unit → Reading Item} (kind : Token.Kind)
    (within : ∀ done, Within limit (next done)) : Behind limit (expect kind >>= next) := by
  intro reader one short
  by_cases found : reader.following.kind = kind
  · obtain ⟨outcome, final, read, less⟩ := behind_advance within reader one short
    refine ⟨outcome, final, ?_, less⟩
    simpa [expect, following, found, Bounded.bind_apply] using read
  · exact ⟨.error (.unexpected kind reader.following.kind), reader,
      by simp [expect, following, found, Bounded.bind_apply], Nat.le_refl _⟩

theorem behind_items {item : Reading Item} (closing : Token.Kind) (within : Within limit item) :
    Behind limit (items item closing limit) := by
  intro reader one short
  have unfolded : items item closing limit reader = (advance >>= fun _ =>
      if reader.following.kind = closing then pure []
      else item >>= fun first => moreItems item limit >>= fun others =>
        expect closing >>= fun _ => pure (first :: others)) reader := rfl
  rw [unfolded]
  refine behind_advance (fun _ => ?_) reader one short
  split
  · exact within_pure _
  · exact within.bind fun _ => (within_moreItems within limit (Nat.le_refl _)).bind fun _ =>
      (within_expect closing).bind fun _ => within_pure _

theorem behind_operandFrom (within : ∀ level, Within limit (expression level)) (token : Token) :
    Behind limit (operandFrom expression token limit) := by
  unfold operandFrom
  split
  · exact (within_pure _).behind
  · unfold integer
    split
    · exact (within_pure _).behind
    · exact (within_fail _).behind
  · exact (within_pure _).behind
  · exact (within_pure _).behind
  · exact (within_pure _).behind
  · exact behind_advance fun _ => (within _).bind fun _ => within_pure _
  · exact behind_advance fun _ => (within _).bind fun _ => within_pure _
  · exact behind_advance fun _ => (within _).bind fun _ =>
      (within_expect _).bind fun _ => within_pure _
  · exact behind_expect _ fun _ => within_advance.bind fun _ => (within _).bind fun _ =>
      (within_expect _).bind fun _ => (within_expect _).bind fun _ =>
      (within_block within).bind fun _ => (within_alternative within).bind fun _ =>
      within_pure _
  · exact behind_expect _ fun _ => (within_items within_parameter _).bind fun _ =>
      (within_expect _).bind fun _ => (within_block within).bind fun _ => within_pure _
  · intro reader one short
    exact bind_ends (behind_items _ (within _) reader one short)
      fun elements reached less => ⟨_, reached, rfl, less⟩
  · exact (within_fail _).behind

theorem within_operand (within : ∀ level, Within limit (expression level)) :
    Within (limit + 1) (operand expression limit) := by
  intro reader short
  by_cases empty : reader.tokens = []
  · refine ⟨.error (.noOperand .eof), reader, ?_, Nat.le_refl _⟩
    simp [operand, operandFrom, current, Bounded.bind_apply, Reader.current, empty, Token.eof]
  · exact behind_operandFrom within reader.current reader (List.length_pos_iff.mpr empty) short

end

theorem within_expression (bound : Nat) (level : Precedence) :
    Within bound (expression bound level) := by
  induction bound generalizing level with
  | zero => exact fun reader short => absurd short (Nat.not_lt_zero _)
  | succ bound inductionHypothesis =>
      exact (within_operand inductionHypothesis).bind fun left =>
        within_operators inductionHypothesis level (bound + 1) (Nat.le_refl _) left

end Reading

theorem Reading.statements_ok {expression : Precedence → Reading (Expr Unit)}
    {closing : List Token.Kind} (bound : Nat) {reader reached : Reader}
    {outcome : Except SyntaxError (List (Stmt Unit))}
    (read : Reading.statements expression closing bound reader = some (outcome, reached)) :
    ∃ statements, outcome = .ok statements := by
  induction bound generalizing reader reached outcome with
  | zero => simp [Reading.statements] at read
  | succ bound inductionHypothesis =>
      unfold Reading.statements at read
      simp only [Reading.current, Bounded.bind_apply, Bounded.inspect_apply] at read
      by_cases done : reader.current.kind ∈ closing
      · simp only [done, if_true, Bounded.pure_apply, Option.some.injEq, Prod.mk.injEq] at read
        exact ⟨[], read.1.symm⟩
      · simp only [done, if_false, Reading.recorded, Bounded.bind_apply, Bounded.attempt] at read
        match first : Reading.statement expression reader with
        | none => simp [first] at read
        | some (.ok statement, after) =>
            simp only [first, Bounded.pure_apply, Reading.advance, Bounded.change_apply] at read
            match others : Reading.statements expression closing bound after.advance with
            | none => simp [others] at read
            | some (outcome, final) =>
                obtain ⟨rest, rfl⟩ := inductionHypothesis others
                simp only [others, Option.some.injEq, Prod.mk.injEq] at read
                exact ⟨_, read.1.symm⟩
        | some (.error error, after) =>
            simp only [first, Bounded.bind_apply, Bounded.pure_apply, Reading.advance,
              Bounded.change_apply] at read
            match others : Reading.statements expression closing bound
                (after.record error).advance with
            | none => simp [others] at read
            | some (outcome, final) =>
                obtain ⟨rest, rfl⟩ := inductionHypothesis others
                simp only [others, Option.some.injEq, Prod.mk.injEq] at read
                exact ⟨_, read.1.symm⟩

theorem Reader.expression_eq (reader : Reader) (level : Precedence) :
    Reading.expression (reader.tokens.length + 1) level reader =
      some (reader.expression level) := by
  obtain ⟨outcome, reached, read, _⟩ :=
    Reading.within_expression (reader.tokens.length + 1) level reader (Nat.lt_succ_self _)
  simp [Reader.expression, read]

theorem Reader.program_eq (reader : Reader) :
    Reading.statements (Reading.expression (reader.tokens.length + 1)) [.eof]
        (reader.tokens.length + 1) reader =
      some (.ok reader.program.1.statements, reader.program.2) := by
  obtain ⟨outcome, reached, read, _⟩ :=
    Reading.within_statements (Reading.within_expression (reader.tokens.length + 1)) [.eof]
      (by simp) (reader.tokens.length + 1) (Nat.le_refl _) reader (Nat.lt_succ_self _)
  obtain ⟨statements, rfl⟩ := Reading.statements_ok _ read
  simp [Reader.program, read]

end Monkey
