import Monkey.Console.Script
import Monkey.Proofs.Console.Sources
import Monkey.Proofs.Session.Passing

/-!
The dialogue and the running of files agree. Lines that are evaluated to their end leave the session
where the statements of one program would leave it, so the last line of a dialogue is answered with
the text that a file with the same lines is answered with, and both have printed the same.
-/

namespace Monkey.Console

namespace Dialogue

variable {session script : Session} {depth scope : Nat} {line : String} {program : Program Unit}

/-- A line without syntax errors is loaded and evaluated. -/
theorem respond_eq (read : Program.read (Text.trimEnd line) = (program, [])) :
    respond session depth scope line =
      (((session.load program).2.setOutput (.stream "")).evaluate depth (session.load program).1
        scope).map fun ends => (⟨ends.2.output.sent, report ends.1⟩, ends.2) := by
  have loaded : (session.setOutput (.stream "")).load program =
      ((session.load program).1, (session.load program).2.setOutput (.stream "")) := rfl
  simp only [respond, Session.run, read, loaded]
  cases ((session.load program).2.setOutput (.stream "")).evaluate depth (session.load program).1
    scope <;> rfl

/-- A line that is answered within some depth is answered alike within a larger one. -/
theorem respond_deepen {answer : Exchange × Session} {larger : Nat}
    (answered : respond session depth scope line = some answer) (le : depth ≤ larger) :
    respond session larger scope line = some answer := by
  unfold respond at answered ⊢
  match found : (session.setOutput (.stream "")).run depth (Text.trimEnd line) scope with
  | none => simp [found] at answered
  | some ends =>
      rw [Session.run_deepen found le]
      rwa [found] at answered

/-- A dialogue that ends within some depth ends alike within a larger one. -/
theorem hold_deepen {lines : List (Option String)} {dialogue : Dialogue} {larger : Nat}
    (ends : hold session depth scope lines = some dialogue) (le : depth ≤ larger) :
    hold session larger scope lines = some dialogue := by
  induction lines generalizing session dialogue with
  | nil => exact ends
  | cons line others inductionHypothesis =>
      cases line with
      | none => exact ends
      | some line =>
          obtain ⟨exchange, reached, rest, answered, goesOn, rfl⟩ := hold_cons_eq_some.mp ends
          exact hold_cons_eq_some.mpr ⟨exchange, reached, rest, respond_deepen answered le,
            inductionHypothesis goesOn, rfl⟩

/-- The last line was answered with the result, and the output has taken what was printed. -/
structure Answers (output : Output) (dialogue : Dialogue) (ends : Option Value × Session) :
    Prop where
  reply : dialogue.exchanges.getLast?.map Exchange.reply = some (report ends.1)
  printed : output.write dialogue.printed = .ok ends.2.output

/-- One more line in front, with what it has printed. -/
theorem Answers.cons {output written : Output} {rest : Dialogue} {ends : Option Value × Session}
    (answers : Answers written rest ends) (exchange : Exchange)
    (printed : output.write exchange.printed = .ok written) :
    Answers output ⟨exchange :: rest.exchanges, rest.failure⟩ ends where
  reply := by
    have reply := answers.reply
    match exchanges : rest.exchanges with
    | [] => simp [exchanges] at reply
    | first :: others =>
        rw [exchanges] at reply
        simpa using reply
  printed := by
    have behind := answers.printed
    rw [Output.write_write printed] at behind
    simpa [Dialogue.printed] using behind

/-- The session of a line is a twin of the script, whatever program is loaded. -/
theorem twin_stream (program : Program Unit) (twin : session.Twin script) :
    ((session.load program).2.setOutput (.stream "")).Twin script :=
  ⟨twin.builtins, twin.heap, Output.noConfusion, twin.alsoTakes⟩

/-- What is written to a stream is what has gone out on it. -/
theorem sent_of_write {added : String} {written : Output}
    (ends : (Output.stream "").write added = .ok written) : written = .stream added := by
  cases ends
  simp

/-- The last line is answered as the rest of the script is. -/
theorem hold_last (read : Program.read (Text.trimEnd line) = (program, []))
    (twin : session.Twin script) :
    Option.Rel (Answers script.output) (hold session depth scope [some line])
      (script.evaluate depth (program.label session.nextLabel).1 scope) := by
  have both := (twin_stream program twin).evaluate depth scope (session.load program).1
  rw [hold, respond_eq read]
  change Option.Rel _ _ (script.evaluate depth (session.load program).1 scope)
  generalize ((session.load program).2.setOutput (.stream "")).evaluate depth
    (session.load program).1 scope = ends at both
  generalize script.evaluate depth (session.load program).1 scope = others at both
  cases both with
  | none => exact .none
  | @some ends others related =>
      obtain ⟨same, added, sent, written⟩ := related
      have stream := sent_of_write sent
      apply Option.Rel.some
      constructor
      · simp [same]
      · simpa [Dialogue.printed, stream, Output.sent] using written

/-- A line that is evaluated to its end is answered, and the program in a file that has come to the
same place writes the same text and goes on behind the statements of the line. -/
theorem respond_of_completes {machine : Machine}
    (read : Program.read (Text.trimEnd line) = (program, []))
    (completes : (session.load program).2.Completes depth scope (session.load program).1 machine)
    (twin : session.Twin script) :
    ∃ exchange written,
      respond session depth scope line = some (exchange,
        { (session.load program).2 with machine := ⟨machine.heap, .stream exchange.printed⟩ }) ∧
      script.output.write exchange.printed = .ok written ∧
      script.Completes depth scope (session.load program).1 ⟨machine.heap, written⟩ := by
  -- from the output of the line before to an empty stream, and from there to that of the file
  have toStream : (session.load program).2.Twin
      ((session.load program).2.setOutput (.stream "")) :=
    ⟨rfl, rfl, twin.takes, Output.noConfusion⟩
  obtain ⟨added, _, _, sent, onStream⟩ := completes.twin toStream
  obtain rfl := sent_of_write sent
  obtain ⟨again, written, sentAgain, taken, inScript⟩ := onStream.twin (twin_stream program twin)
  obtain rfl : added = again := Output.stream.inj (sent_of_write sentAgain)
  obtain ⟨result, evaluated⟩ := onStream.evaluate
  refine ⟨⟨added, report result⟩, written, ?_, taken, inScript⟩
  rw [respond_eq read, evaluated]
  rfl

/-- Behind a line that is evaluated to its end the dialogue goes on, and so does the program. -/
theorem hold_next {others : List (Option String)} {rest : List (Stmt Nat)} {machine : Machine}
    (read : Program.read (Text.trimEnd line) = (program, []))
    (completes : (session.load program).2.Completes depth scope (session.load program).1 machine)
    (twin : session.Twin script) (more : rest ≠ [])
    (goesOn : ∀ output written, output ≠ .full → written ≠ .full →
      Option.Rel (Answers written)
        (hold { (session.load program).2 with machine := ⟨machine.heap, output⟩ } depth scope
          others)
        ({ script with machine := ⟨machine.heap, written⟩ }.evaluate depth ⟨rest⟩ scope)) :
    Option.Rel (Answers script.output) (hold session depth scope (some line :: others))
      (script.evaluate depth ⟨(session.load program).1.statements ++ rest⟩ scope) := by
  obtain ⟨exchange, written, answered, taken, inScript⟩ :=
    respond_of_completes read completes twin
  have both := goesOn (.stream exchange.printed) written Output.noConfusion
    (Output.ne_full_of_write twin.alsoTakes taken)
  rw [hold, answered, inScript.evaluate_append more]
  dsimp only
  generalize hold _ depth scope others = dialogue at both
  generalize Session.evaluate _ depth ⟨rest⟩ scope = ends at both ⊢
  cases both with
  | none => exact .none
  | some answers => exact .some (answers.cons exchange taken)

/-- A dialogue is answered as the script of all its lines is, by induction on the lines. -/
theorem hold_answers {lines : List String} {last : String} {reached : Session}
    (read : ∀ line ∈ lines ++ [last],
      Program.read (Text.trimEnd line) = ((Program.read line).1, []))
    (more : (Program.read last).1.statements ≠ [])
    (passes : session.Passes depth scope lines reached) (twin : session.Twin script) :
    Option.Rel (Answers script.output) (hold session depth scope ((lines ++ [last]).map some))
      (script.evaluate depth
        (Program.label ⟨(lines.flatMap fun line => (Program.read line).1.statements) ++
          (Program.read last).1.statements⟩ session.nextLabel).1 scope) := by
  induction lines generalizing session script reached with
  | nil => exact hold_last (read last (by simp)) twin
  | cons line others inductionHypothesis =>
      cases passes with
      | @next _ _ machine _ _ completes rest =>
          rw [List.cons_append, List.forall_mem_cons] at read
          rw [List.flatMap_cons, List.append_assoc, Program.label_append]
          apply hold_next read.1 completes twin
          · apply Program.label_ne_nil
            exact List.append_ne_nil_of_right_ne_nil _ more
          · intro output written takes alsoTakes
            obtain ⟨final, passesOthers⟩ := @Session.Passes.twin _ _ _
              { (session.load (Program.read line).1).2 with machine := ⟨machine.heap, output⟩ } _ _
              rest ⟨rfl, rfl, completes.takes twin.takes, takes⟩ rfl
            exact @inductionHypothesis _ { script with machine := ⟨machine.heap, written⟩ } _ read.2
              passesOthers ⟨twin.builtins, rfl, takes, alsoTakes⟩

end Dialogue

namespace Script

variable {depth : Nat} {output : Output} {source : String} {program : Program Unit}

/-- The session in which the program of a file is evaluated. -/
def opening (output : Output) : Session :=
  Dialogue.opening.2.setOutput output

/-- The opening of a dialogue is a twin of the start of a script. -/
theorem twin_opening (program : Program Unit) (takes : output ≠ .full) :
    Dialogue.opening.2.Twin ((opening output).load program).2 :=
  ⟨rfl, rfl, Output.noConfusion, takes⟩

/-- A file that can be read is run as the script it holds. -/
theorem run_encode (read : Program.read source = (program, [])) :
    run depth (.ok (encode source)) output =
      (((opening output).load program).2.evaluate depth ((opening output).load program).1
        Dialogue.opening.1).map fun ends => (.ok (report ends.1), ends.2.output) := by
  have start : (Session.start .standard output).createScope none =
      (Dialogue.opening.1, opening output) := rfl
  simp only [run, decode_encode, start, Session.run, read]
  cases ((opening output).load program).2.evaluate depth ((opening output).load program).1
    Dialogue.opening.1 <;> rfl

/-- A file that ends within some depth ends alike within a larger one. -/
theorem run_deepen {content : Except DeviceError (List UInt8)} {larger : Nat}
    {ends : Except Failure String × Output} (found : run depth content output = some ends)
    (le : depth ≤ larger) : run larger content output = some ends := by
  unfold run at found ⊢
  split at found
  · exact found
  · split at found
    · exact found
    · next source _ =>
        match reached : ((Session.start .standard output).createScope none).2.run depth source
            ((Session.start .standard output).createScope none).1 with
        | none => simp [reached] at found
        | some answer =>
            dsimp only at found ⊢
            rw [Session.run_deepen reached le]
            rwa [reached] at found

end Script

/-- The last line of the dialogue was answered with what the file was answered with, and to the
output of the file was written what the dialogue has printed. -/
def Agrees (output : Output) (dialogue : Dialogue)
    (ends : Except Script.Failure String × Output) : Prop :=
  ∃ exchange ∈ dialogue.exchanges.getLast?, ends.1 = .ok exchange.reply ∧
    output.write dialogue.printed = .ok ends.2

/-- A dialogue that is answered as a script agrees with it. -/
theorem Dialogue.Answers.agrees {output : Output} {dialogue : Dialogue}
    {ends : Option Value × Session} (answers : Dialogue.Answers output dialogue ends) :
    Agrees output dialogue (.ok (report ends.1), ends.2.output) := by
  obtain ⟨exchange, isLast, reply⟩ := Option.map_eq_some_iff.mp answers.reply
  exact ⟨exchange, isLast, by rw [reply], answers.printed⟩

/-- A function that carries the relation over may be applied to the second of two results. -/
theorem rel_map {First Second Third : Type} {related : First → Second → Prop}
    {others : First → Third → Prop} {image : Second → Third} {first : Option First}
    {second : Option Second} (rel : Option.Rel related first second)
    (carries : ∀ item other, related item other → others item (image other)) :
    Option.Rel others first (second.map image) := by
  cases rel with
  | none => exact .none
  | some holds => exact .some (carries _ _ holds)

/-- Of two related results there are both or none. -/
theorem isSome_eq_of_rel {First Second : Type} {related : First → Second → Prop}
    {first : Option First} {second : Option Second} (rel : Option.Rel related first second) :
    first.isSome = second.isSome := by
  cases rel <;> rfl

/-- Under a bound that is enough for all lines but the last one, the dialogue and the file end
together. -/
theorem agrees_of_passes {lines : List String} {last : String} {depth : Nat} {reached : Session}
    (noFeed : ∀ line ∈ lines ++ [last], '\n' ∉ line.toList)
    (clean : ∀ line ∈ lines ++ [last], (Program.read line).2 = [])
    (more : (Program.read last).1.statements ≠ [])
    (isSealed : ∀ line ∈ lines, Token.Sealed (Token.list line))
    (paired : Even (last.toList.count '"'))
    (passes : Dialogue.opening.2.Passes depth Dialogue.opening.1 lines reached)
    {output : Output} (takes : output ≠ .full) :
    Option.Rel (Agrees output) (Dialogue.ofInput depth (encode (unlines (lines ++ [last]))))
      (Script.run depth (.ok (encode (unlines (lines ++ [last])))) output) := by
  have cleanLines : ∀ line ∈ lines, (Program.read line).2 = [] :=
    fun line member => clean line (List.mem_append_left _ member)
  have trimmed : ∀ line ∈ lines ++ [last],
      Program.read (Text.trimEnd line) = ((Program.read line).1, []) := by
    intro line member
    have even : Even (line.toList.count '"') := by
      rcases List.mem_append.mp member with inFront | isLast
      · exact (isSealed line inFront).even_quotes
      · rwa [List.mem_singleton.mp isLast]
    rw [Program.read_trimEnd (clean line member) even, ← clean line member]
  have whole := read_unlines cleanLines isSealed paired
  rw [clean last (by simp)] at whole
  rw [Dialogue.ofInput_unlines depth noFeed, Script.run_encode whole]
  apply rel_map
  · exact Dialogue.hold_answers trimmed more passes (Script.twin_opening _ takes)
  · intro dialogue ends answers
    exact answers.agrees

/-- Lines that have no syntax errors, all but the last one sealed and evaluated to their end without
an error or a return, are answered in the end as the file that is made of them is answered. The
dialogue ends under some bound exactly if the file does, and whatever bounds they end under, the
last line is answered with the text of the result of the file, and both have printed the same
text. -/
theorem dialogue_agrees_with_script {lines : List String} {last : String}
    (noFeed : ∀ line ∈ lines ++ [last], '\n' ∉ line.toList)
    (clean : ∀ line ∈ lines ++ [last], (Program.read line).2 = [])
    (more : (Program.read last).1.statements ≠ [])
    (isSealed : ∀ line ∈ lines, Token.Sealed (Token.list line))
    (paired : Even (last.toList.count '"'))
    (passes : ∃ depth reached, Dialogue.opening.2.Passes depth Dialogue.opening.1 lines reached)
    {output : Output} (takes : output ≠ .full) :
    let input := encode (unlines (lines ++ [last]))
    ((∃ depth, (Dialogue.ofInput depth input).isSome) ↔
        ∃ depth, (Script.run depth (.ok input) output).isSome) ∧
      ∀ depth other dialogue ends, Dialogue.ofInput depth input = some dialogue →
        Script.run other (.ok input) output = some ends →
        dialogue.exchanges.length = (lines ++ [last]).length ∧ Agrees output dialogue ends := by
  intro input
  obtain ⟨least, reached, passes⟩ := passes
  -- the bounds may be different ones, so both runs are compared under the largest of them
  have both (depth : Nat) (le : least ≤ depth) :
      Option.Rel (Agrees output) (Dialogue.ofInput depth input)
        (Script.run depth (.ok input) output) :=
    agrees_of_passes noFeed clean more isSealed paired (passes.deepen le) takes
  have deepen {depth larger : Nat} {dialogue : Dialogue}
      (ends : Dialogue.ofInput depth input = some dialogue) (le : depth ≤ larger) :
      Dialogue.ofInput larger input = some dialogue :=
    Dialogue.hold_deepen ends le
  refine ⟨⟨?_, ?_⟩, ?_⟩
  · rintro ⟨depth, ends⟩
    obtain ⟨dialogue, found⟩ := Option.isSome_iff_exists.mp ends
    refine ⟨max least depth, ?_⟩
    rw [← isSome_eq_of_rel (both _ (by omega)), deepen found (by omega), Option.isSome_some]
  · rintro ⟨depth, ends⟩
    obtain ⟨answer, found⟩ := Option.isSome_iff_exists.mp ends
    refine ⟨max least depth, ?_⟩
    rw [isSome_eq_of_rel (both _ (by omega)), Script.run_deepen found (by omega),
      Option.isSome_some]
  · intro depth other dialogue ends found foundScript
    have rel := both (max least (max depth other)) (by omega)
    rw [deepen found (by omega), Script.run_deepen foundScript (by omega)] at rel
    rw [Dialogue.ofInput_unlines depth noFeed] at found
    refine ⟨(Dialogue.hold_length found).1, ?_⟩
    cases rel with
    | some agrees => exact agrees

/-- The function of the first line prints when the second one calls it, in the dialogue as well as
in the file, and both answer the second line with `true`. -/
theorem dialogue_agrees_with_script_printing :
    let input := encode (unlines ["let f=fn(x)\x7bprintln(x); x\x7d;", "f(f==f) "])
    let dialogue : Dialogue := ⟨[⟨"", ""⟩, ⟨"true\n", "true\n"⟩], none⟩
    let answer : Except Script.Failure String × Output := (.ok "true\n", .buffer "true\n")
    Dialogue.ofInput 9 input = some dialogue ∧ dialogue.printed = "true\n" ∧
      (∃ depth, Script.run depth (.ok input) (.buffer "") = some answer) ∧
      Agrees (.buffer "") dialogue answer := by
  intro input dialogue answer
  have clean : ∀ line ∈ ["let f=fn(x)\x7bprintln(x); x\x7d;", "f(f==f) "],
      (Program.read line).2 = [] := by
    simp only [List.forall_mem_cons]
    refine ⟨?_, ?_, by simp⟩ <;> with_unfolding_all rfl
  have isSealed : ∀ line ∈ ["let f=fn(x)\x7bprintln(x); x\x7d;"],
      Token.Sealed (Token.list line) := by
    intro line member
    rw [List.mem_singleton.mp member]
    constructor <;> with_unfolding_all rfl
  have passes : ∃ depth reached, Dialogue.opening.2.Passes depth Dialogue.opening.1
      ["let f=fn(x)\x7bprintln(x); x\x7d;"] reached :=
    ⟨2, _, .next ⟨.void, by with_unfolding_all rfl, by decide⟩ .done⟩
  have more : (Program.read "f(f==f) ").1.statements ≠ [] := by
    have one : (Program.read "f(f==f) ").1.statements.length = 1 := by with_unfolding_all rfl
    exact List.ne_nil_of_length_pos (by omega)
  have found : Dialogue.ofInput 9 input = some dialogue := by
    rw [Dialogue.ofInput_unlines 9 (by decide)]
    with_unfolding_all rfl
  obtain ⟨together, agree⟩ := dialogue_agrees_with_script (by decide) clean more isSealed
    (by decide) passes (show Output.buffer "" ≠ .full from Output.noConfusion)
  obtain ⟨depth, ends⟩ := together.mp ⟨9, Option.isSome_iff_exists.mpr ⟨_, found⟩⟩
  obtain ⟨given, foundGiven⟩ := Option.isSome_iff_exists.mp ends
  have agrees := (agree _ _ _ _ found foundGiven).2
  obtain rfl : given = answer := by
    obtain ⟨exchange, isLast, reply, written⟩ := agrees
    cases isLast
    exact Prod.ext reply (Except.ok.inj written).symm
  exact ⟨found, rfl, ⟨depth, foundGiven⟩, agrees⟩

end Monkey.Console
