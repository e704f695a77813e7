import Mathlib
import Monkey.Proofs.Reader.Success
import Monkey.Reader.Bound

/-!
One expression read in two contexts. Where the context binds more strongly, the loop over operators
stops earlier and does the same until then, so what is read is the left part of what is read in the
weaker context.
-/

namespace Monkey

/-- The first expression stands at the beginning of the second one: it is the second one, or it
stands at the beginning of its left operand, of its callee, or of the collection that it indexes. -/
inductive Expr.Begins {Mark : Type} (part : Expr Mark) : Expr Mark → Prop where
  | whole : Begins part part
  | left {left : Expr Mark} (token : Token) (operator : String) (right : Expr Mark)
      (begins : Begins part left) : Begins part (.binary token left operator right)
  | collection {collection : Expr Mark} (token : Token) (position : Expr Mark)
      (begins : Begins part collection) : Begins part (.index token collection position)
  | callee {callee : Expr Mark} (token : Token) (arguments : List (Expr Mark))
      (begins : Begins part callee) : Begins part (.call token callee arguments)

/-- The beginning of a beginning is a beginning. -/
theorem Expr.Begins.trans {Mark : Type} {first second third : Expr Mark}
    (begins : first.Begins second) (further : second.Begins third) : first.Begins third := by
  induction further with
  | whole => exact begins
  | left token operator right _ inductionHypothesis =>
      exact .left token operator right inductionHypothesis
  | collection token position _ inductionHypothesis =>
      exact .collection token position inductionHypothesis
  | callee token arguments _ inductionHypothesis =>
      exact .callee token arguments inductionHypothesis

namespace Reader

/-- From one start, a reader has stopped no later than another one. The tokens that it has read, the
current one included, are the first ones of those that the other one has read, and so are the errors
that it has recorded. -/
structure StopsBefore (start stopped reached : Reader) : Prop where
  tokens : ∃ read more, start.tokens = read ++ stopped.tokens.tail ∧
    start.tokens = read ++ more ++ reached.tokens.tail
  errors : ∃ recorded more, stopped.errors.toList = start.errors.toList ++ recorded ∧
    reached.errors.toList = start.errors.toList ++ recorded ++ more

/-- Without their first tokens the one list is still the end of the other. -/
theorem tail_suffix_tail {first second : List Token} (suffix : second <:+ first) :
    second.tail <:+ first.tail := by
  obtain ⟨passed, rfl⟩ := suffix
  cases passed with
  | nil => exact List.suffix_rfl
  | cons token others => exact (List.tail_suffix second).trans (List.suffix_append others second)

/-- A reader that goes on from where another one stops has stopped before it. -/
theorem StopsBefore.of_reaches {start stopped reached : Reader} (first : start.Reaches stopped)
    (second : stopped.Reaches reached) : start.StopsBefore stopped reached where
  tokens := by
    obtain ⟨read, isRead⟩ := (List.tail_suffix stopped.tokens).trans first.tokens
    obtain ⟨more, isMore⟩ := tail_suffix_tail second.tokens
    refine ⟨read, more, isRead.symm, ?_⟩
    rw [List.append_assoc, isMore, isRead]
  errors := by
    obtain ⟨recorded, isRecorded⟩ := first.errors
    obtain ⟨more, isMore⟩ := second.errors
    refine ⟨recorded, more, isRecorded.symm, ?_⟩
    rw [isRecorded, isMore]

end Reader

namespace Reading

open Bounded

section

variable {expression : Precedence → Reading (Expr Unit)} {reader reached : Reader}
  {left whole : Expr Unit}

/-- A continuation puts its left side at the beginning. -/
theorem begins_continuation {bound : Nat}
    (read : continuation expression left bound reader = some (.ok whole, reached)) :
    left.Begins whole := by
  simp only [continuation, current_bind] at read
  by_cases call : reader.current.kind = .leftParen
  · simp only [call, bind_eq_ok, pure_eq_ok] at read
    obtain ⟨arguments, _, _, rfl, _⟩ := read
    exact .callee _ _ .whole
  by_cases index : reader.current.kind = .leftBracket
  · simp only [index, advance_bind, bind_eq_ok, pure_eq_ok] at read
    obtain ⟨position, _, _, _, _, _, rfl, _⟩ := read
    exact .collection _ _ .whole
  · simp only [advance_bind, bind_eq_ok, pure_eq_ok] at read
    obtain ⟨right, _, _, rfl, _⟩ := read
    exact .left _ _ _ .whole

/-- And so does any number of continuations. -/
theorem begins_operators {level : Precedence} (bound : Nat)
    (read : operators expression level bound left reader = some (.ok whole, reached)) :
    left.Begins whole := by
  induction bound generalizing left reader with
  | zero => cases read
  | succ bound inductionHypothesis =>
      simp only [operators, following_bind] at read
      split at read
      · simp only [advance_bind, bind_eq_ok] at read
        obtain ⟨longer, middle, readLonger, readRest⟩ := read
        exact (begins_continuation readLonger).trans (inductionHypothesis readRest)
      · obtain ⟨rfl, _⟩ := pure_eq_ok.mp read
        exact .whole

/-- The loop of the stronger context makes the first turns of the loop of the weaker one. -/
theorem operators_stop_before (forward : ∀ level, Forward (expression level))
    {weaker stronger : Precedence} (le : weaker.rank ≤ stronger.rank) (bound : Nat)
    (read : operators expression weaker bound left reader = some (.ok whole, reached)) :
    ∃ part stopped, operators expression stronger bound left reader = some (.ok part, stopped) ∧
      part.Begins whole ∧ stopped.Reaches reached ∧
      (Precedence.ofKind stopped.following.kind).rank ≤ stronger.rank := by
  induction bound generalizing left reader with
  | zero => cases read
  | succ bound inductionHypothesis =>
      have reaches := forward_operators forward weaker (bound + 1) left read
      have begins := begins_operators (bound + 1) read
      simp only [operators, following_bind] at read ⊢
      by_cases goesOn : stronger.rank < (Precedence.ofKind reader.following.kind).rank
      · have goesOnToo : weaker.rank < (Precedence.ofKind reader.following.kind).rank := by omega
        simp only [goesOn, goesOnToo, if_true, advance_bind, bind_eq_ok] at read ⊢
        obtain ⟨longer, middle, readLonger, readRest⟩ := read
        obtain ⟨part, stopped, readPart, partBegins, partReaches, stops⟩ :=
          inductionHypothesis readRest
        exact ⟨part, stopped, ⟨longer, middle, readLonger, readPart⟩, partBegins, partReaches,
          stops⟩
      · rw [if_neg goesOn]
        exact ⟨left, reader, rfl, begins, reaches, Nat.le_of_not_lt goesOn⟩

end

end Reading

/-- A context that binds more strongly only cuts an expression short. What can be read in the weaker
context can be read from the same place in the stronger one, and what is read there stands at the
beginning of the other expression. It ends where the following token does not bind more strongly
than the context, as a `;` never does. -/
theorem Reader.expression_cut_short {reader reached : Reader} {weaker stronger : Precedence}
    {whole : Expr Unit} (le : weaker.rank ≤ stronger.rank)
    (read : reader.expression weaker = (.ok whole, reached)) :
    ∃ part stopped, reader.expression stronger = (.ok part, stopped) ∧ part.Begins whole ∧
      reader.StopsBefore stopped reached ∧
      (Precedence.ofKind stopped.following.kind).rank ≤ stronger.rank := by
  have readWhole := reader.expression_eq weaker
  rw [read] at readWhole
  simp only [Reading.expression, Bounded.bind_eq_ok] at readWhole
  obtain ⟨left, middle, readLeft, readRest⟩ := readWhole
  obtain ⟨part, stopped, readPart, begins, reaches, stops⟩ :=
    Reading.operators_stop_before (Reading.forward_expression _) le _ readRest
  have readShort : Reading.expression (reader.tokens.length + 1) stronger reader =
      some (.ok part, stopped) := by
    rw [Reading.expression, Bounded.bind_of_ok readLeft, readPart]
  have start := Reading.forward_expression _ _ readShort
  rw [reader.expression_eq stronger, Option.some.injEq] at readShort
  exact ⟨part, stopped, readShort, begins, .of_reaches start reaches, stops⟩

/-- Of `fn() { ) } (1) + 2 == 3` a context that takes no `==` reads `fn() { ) } (1) + 2`, with the
error that is in the function. -/
theorem Reader.expression_cut_short_sum :
    let reader := Reader.ofString "fn() \x7b ) \x7d (1) + 2 == 3"
    let sum : Expr Unit := .binary ⟨.plus, "+"⟩ (.call ⟨.leftParen, "("⟩
      (.function ⟨.fnWord, "fn"⟩ () [] (.mk ⟨.leftBrace, "\x7b"⟩ [])) [.integer ⟨.int, "1"⟩ 1])
      "+" (.integer ⟨.int, "2"⟩ 2)
    let whole : Expr Unit := .binary ⟨.equal, "=="⟩ sum "==" (.integer ⟨.int, "3"⟩ 3)
    let reached : Reader := ⟨[⟨.int, "3"⟩], #[.noOperand .rightParen]⟩
    Precedence.lowest.rank ≤ Precedence.equality.rank ∧
      reader.expression .lowest = (.ok whole, reached) ∧
      ∃ part stopped, reader.expression .equality = (.ok part, stopped) ∧ part.Begins whole ∧
        reader.StopsBefore stopped reached ∧
        (Precedence.ofKind stopped.following.kind).rank ≤ Precedence.equality.rank := by
  intro reader sum whole reached
  have le : Precedence.lowest.rank ≤ Precedence.equality.rank := by decide
  have read : reader.expression .lowest = (.ok whole, reached) := by cbv
  exact ⟨le, read, Reader.expression_cut_short le read⟩

end Monkey
