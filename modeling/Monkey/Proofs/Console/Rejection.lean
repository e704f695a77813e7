import Monkey.Proofs.Console.Lines
import Monkey.Proofs.Session.Answer

/-!
Lines that are rejected. A line with syntax errors is answered with its errors and leaves the
session as it was, so the answers to all other lines are the same without it.
-/

namespace Monkey.Console

/-- What a line with syntax errors is answered with. -/
def rejection (line : String) : Exchange :=
  ⟨"", listErrors (Program.read (Text.trimEnd line)).2⟩

namespace Dialogue

variable {session : Session} {depth scope : Nat} {line : String} {dialogue : Dialogue}

/-- A line with errors is answered with them and leaves the session as it was. -/
theorem respond_rejected (rejected : (Program.read (Text.trimEnd line)).2 ≠ []) :
    respond session depth scope line = some (rejection line, session) := by
  rw [respond, Session.run_of_errors rejected]
  rfl

/-- A rejected line adds its own answer at its own place, and changes no other answer. -/
theorem hold_insert (rejected : (Program.read (Text.trimEnd line)).2 ≠ []) {before : List String}
    {after : List (Option String)}
    (ends : hold session depth scope (before.map some ++ after) = some dialogue) :
    ∃ front back, front.length = before.length ∧ dialogue.exchanges = front ++ back ∧
      hold session depth scope (before.map some ++ some line :: after) =
        some ⟨front ++ rejection line :: back, dialogue.failure⟩ := by
  induction before generalizing session dialogue with
  | nil =>
      refine ⟨[], dialogue.exchanges, rfl, rfl, ?_⟩
      exact hold_cons_eq_some.mpr ⟨_, session, dialogue, respond_rejected rejected, ends, rfl⟩
  | cons first others inductionHypothesis =>
      obtain ⟨exchange, reached, rest, answered, goesOn, rfl⟩ := hold_cons_eq_some.mp ends
      obtain ⟨front, back, length, exchanges, longer⟩ := inductionHypothesis goesOn
      refine ⟨exchange :: front, back, ?_, ?_, ?_⟩
      · simp [length]
      · simp [exchanges]
      · exact hold_cons_eq_some.mpr ⟨exchange, reached, _, answered, longer, rfl⟩

/-- The prompts and replies of some exchanges. -/
def transcript (exchanges : List Exchange) : String :=
  String.join (exchanges.map fun exchange => prompt ++ exchange.reply)

/-- A line with syntax errors, put anywhere between the lines of a dialogue, is answered with its
errors, and everything else is answered and printed as it was. -/
theorem ofInput_insert {before after : List String}
    (noFeed : ∀ text ∈ before ++ line :: after, '\n' ∉ text.toList)
    (rejected : (Program.read (Text.trimEnd line)).2 ≠ [])
    (ends : ofInput depth (encode (unlines (before ++ after))) = some dialogue) :
    ∃ longer front back, front.length = before.length ∧ dialogue.exchanges = front ++ back ∧
      ofInput depth (encode (unlines (before ++ line :: after))) = some longer ∧
      longer.exchanges = front ++ rejection line :: back ∧ longer.failure = dialogue.failure ∧
      longer.printed = dialogue.printed ∧
      dialogue.replies = transcript front ++ (transcript back ++ prompt) ∧
      longer.replies = transcript front ++ (prompt ++ (rejection line).reply) ++
        (transcript back ++ prompt) := by
  have noFeedOthers : ∀ text ∈ before ++ after, '\n' ∉ text.toList := by
    intro text member
    apply noFeed
    grind
  rw [ofInput_unlines depth noFeedOthers, List.map_append] at ends
  obtain ⟨front, back, length, exchanges, longer⟩ := hold_insert rejected ends
  refine ⟨⟨front ++ rejection line :: back, dialogue.failure⟩, front, back, length, exchanges, ?_,
    rfl, rfl, ?_, ?_, ?_⟩
  · rw [ofInput_unlines depth noFeed, List.map_append, List.map_cons]
    exact longer
  · simp [printed, exchanges, rejection]
  · simp [replies, transcript, exchanges, String.append_assoc]
  · simp [replies, transcript, String.append_assoc]

/-- The binding of the first line is there for the last one, whatever stands between them. -/
theorem ofInput_insert_between :
    ∃ longer, ofInput 3 (encode (unlines ["let a = 5;", "let a 7", "a * 2"])) = some longer ∧
      longer.replies =
        ">> >> \texpected next token to be ASSIGN, got INT instead\n>> 10\n>> " := by
  have ends : ofInput 3 (encode (unlines ["let a = 5;", "a * 2"])) =
      some ⟨[⟨"", ""⟩, ⟨"", "10\n"⟩], none⟩ := by
    rw [ofInput_unlines 3 (by decide)]
    with_unfolding_all rfl
  have errors : (Program.read (Text.trimEnd "let a 7")).2 = [.unexpected .assign .int] := by
    with_unfolding_all rfl
  have rejected : (Program.read (Text.trimEnd "let a 7")).2 ≠ [] := by simp [errors]
  obtain ⟨longer, front, back, length, exchanges, found, _, _, _, _, replies⟩ :=
    @ofInput_insert 3 "let a 7" _ ["let a = 5;"] ["a * 2"] (by decide) rejected ends
  obtain ⟨first, rfl⟩ := List.length_eq_one_iff.mp length
  obtain ⟨rfl, rfl⟩ : first = ⟨"", ""⟩ ∧ back = [⟨"", "10\n"⟩] := by simpa [eq_comm] using exchanges
  refine ⟨longer, found, ?_⟩
  rw [replies, rejection, errors]
  with_unfolding_all rfl

end Dialogue

end Monkey.Console
