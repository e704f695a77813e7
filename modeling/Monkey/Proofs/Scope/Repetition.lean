import Mathlib.Order.Monotone.Basic
import Monkey.Proofs.Scope.Alike
import Monkey.Proofs.Scope.Frame

/-!
A call that has ended can be made again. The first call has left the scopes that it found, so the
second one starts from the same ones and goes the same way; only the scopes that it creates get
higher numbers.
-/

namespace Monkey

/-- Every scope that a value has captured exists. -/
def Value.LivesIn (value : Value) (heap : Heap) : Prop :=
  ∀ scope ∈ value.captured, scope < heap.size

/-- Every scope that lies around another one or that a bound value has captured exists. -/
structure Heap.WellFormed (heap : Heap) : Prop where
  outer : ∀ scope ∈ heap.scopes, ∀ outer ∈ scope.outer, outer < heap.size
  bound : ∀ scope ∈ heap.scopes, ∀ binding ∈ scope.bindings, binding.2.LivesIn heap

/-- The number of a scope after `count` scopes were put behind the first `size` ones. -/
def renumber (size count number : Nat) : Nat :=
  if number < size then number else number + count

section

variable {size count : Nat}

/-- Old scopes keep their numbers. -/
theorem renumber_old {number : Nat} (old : number < size) : renumber size count number = number :=
  if_pos old

/-- New scopes get numbers behind those of the first run. -/
theorem renumber_new {number : Nat} (new : size ≤ number) :
    renumber size count number = number + count :=
  if_neg (Nat.not_lt.mpr new)

/-- Renumbering keeps the order of the scopes. -/
theorem renumber_strictMono : StrictMono (renumber size count) := by
  intro first second less
  unfold renumber
  split <;> split <;> omega

/-- Renumbering links the scopes in order. -/
theorem ordered_renumber : Ordered fun number other => other = renumber size count number := by
  rintro first _ second _ rfl rfl
  exact renumber_strictMono.lt_iff_lt.symm

end

/-- A value of the old heap is not changed by renumbering. -/
theorem Value.LivesIn.alike {heap : Heap} {value : Value} (lives : value.LivesIn heap)
    (count : Nat) :
    Value.Alike (fun number other => other = renumber heap.size count number) value value :=
  value.alike_self fun scope member => (renumber_old (lives scope member)).symm

/-- A heap is like every heap that only adds scopes to it. -/
theorem Heap.Frame.alike {before after : Heap} (frame : Heap.Frame none before after)
    (wellFormed : before.WellFormed) :
    let link := fun number other =>
      other = renumber before.size (after.size - before.size) number
    before.Alike link (Scope.Alike link) after where
  scopes := by
    rintro number _ rfl
    by_cases old : number < before.size
    · have inside : number < before.scopes.size := old
      have member := Array.getElem_mem inside
      rw [renumber_old old, frame.same number old, Array.getElem?_eq_getElem inside]
      apply Option.Rel.some
      apply Scope.alike_self
      · intro outer around
        exact (renumber_old (wellFormed.outer _ member outer around)).symm
      · intro binding bound captured isCaptured
        exact (renumber_old (wellFormed.bound _ member binding bound captured isCaptured)).symm
    · have new : before.size ≤ number := Nat.not_lt.mp old
      have grows := frame.size
      have none : before.scopes[number]? = none := Array.getElem?_eq_none new
      rw [none, renumber_new new, Array.getElem?_eq_none]
      · exact .none
      · change after.size ≤ _
        omega
  fresh := by
    intro count
    have grows := frame.size
    rw [renumber_new (Nat.le_add_right _ _)]
    omega

/-- Two buffers to which the same text was added. -/
def Output.Buffers (first second : String) (left right : Output) : Prop :=
  ∃ added, left = .buffer (first ++ added) ∧ right = .buffer (second ++ added)

/-- Buffers take a text together, whatever is in them. -/
theorem Output.parallel_buffers (first second : String) :
    Output.Parallel (Output.Buffers first second) := by
  rintro _ _ ⟨added, rfl, rfl⟩ text
  refine .ok ⟨added ++ text, ?_, ?_⟩ <;> rw [String.append_assoc]

namespace Evaluation

/-- The scopes of the first heap keep their numbers, and those that one call has created get the
numbers of those that the next one creates. -/
structure Renaming (heap reached final : Heap) (moved : Nat → Nat) : Prop where
  injective : Function.Injective moved
  old : ∀ number < heap.size, moved number = number
  created : ∀ number, heap.size ≤ number → number < reached.size →
    reached.size ≤ moved number ∧ moved number < final.size
  scopes : ∀ number, Option.Rel (Scope.Alike fun first second => second = moved first)
    reached.scopes[number]? final.scopes[moved number]?

/-- What is alike up to renumbering is a renaming of the new scopes. -/
theorem renaming_of_alike {heap reached final : Heap} (grows : heap.size ≤ reached.size)
    (alike : reached.Alike
      (fun number other => other = renumber heap.size (reached.size - heap.size) number)
      (Scope.Alike fun number other =>
        other = renumber heap.size (reached.size - heap.size) number) final) :
    Renaming heap reached final (renumber heap.size (reached.size - heap.size)) where
  injective := renumber_strictMono.injective
  old _ isOld := renumber_old isOld
  created := by
    intro number new isCreated
    have ends : final.size = renumber heap.size (reached.size - heap.size) reached.size :=
      alike.fresh 0
    rw [ends, renumber_new new, renumber_new grows]
    omega
  scopes _ := alike.scopes rfl

section

variable {builtins : Builtins} {depth : Nat} {heap : Heap} {callee : Value}
  {arguments : List Value} {text : String} {outcome : Except RuntimeError Value} {reached : Machine}

/-- The second call goes along with the first one. -/
theorem goes_again (wellFormed : heap.WellFormed) (calleeLives : callee.LivesIn heap)
    (argumentsLive : ∀ argument ∈ arguments, argument.LivesIn heap)
    (ends : call (expression builtins depth) callee arguments ⟨heap, .buffer text⟩ =
      some (outcome, reached)) (start : String) :
    let link := fun number other =>
      other = renumber heap.size (reached.heap.size - heap.size) number
    ∃ again final,
      call (expression builtins depth) callee arguments ⟨reached.heap, .buffer start⟩ =
        some (again, final) ∧
      Bounded.Alike (Value.Alike link) outcome again ∧
      Machine.Alike link (Scope.Alike link) (Output.Buffers text start) reached final := by
  intro link
  have framed := frame_expression builtins depth
  have frame : Heap.Frame none heap reached.heap := frame_call framed callee arguments ends
  have simulation : Simulation link
      (Machine.Alike link (Scope.Alike link) (Output.Buffers text start)) :=
    simulation_alike ordered_renumber (Output.parallel_buffers text start) Scope.tracked_alike
  have inStep := inStep_call simulation (inStep_expression simulation builtins depth)
    (calleeLives.alike _)
    (List.forall₂_same.mpr fun argument member => (argumentsLive argument member).alike _)
  have machines : Machine.Alike link (Scope.Alike link) (Output.Buffers text start)
      ⟨heap, .buffer text⟩ ⟨reached.heap, .buffer start⟩ :=
    ⟨frame.alike wellFormed, "", by simp, by simp⟩
  have both := inStep machines
  rw [ends] at both
  generalize call (expression builtins depth) callee arguments
    ⟨reached.heap, .buffer start⟩ = second at both ⊢
  cases both with
  | @some _ found alike => exact ⟨found.1, found.2, rfl, alike.1, alike.2⟩

/-- A call made again has the outcome that it had, up to the numbers of the scopes it creates, and
adds the text that it added. -/
theorem call_again (wellFormed : heap.WellFormed) (calleeLives : callee.LivesIn heap)
    (argumentsLive : ∀ argument ∈ arguments, argument.LivesIn heap)
    (ends : call (expression builtins depth) callee arguments ⟨heap, .buffer text⟩ =
      some (outcome, reached)) :
    ∃ added, reached.output = .buffer (text ++ added) ∧
      ∀ start, ∃ again final moved,
        call (expression builtins depth) callee arguments ⟨reached.heap, .buffer start⟩ =
          some (again, final) ∧
        final.output = .buffer (start ++ added) ∧
        Renaming heap reached.heap final.heap moved ∧
        Bounded.Alike (Value.Alike fun number other => other = moved number) outcome again ∧
        Value.kind <$> outcome = Value.kind <$> again ∧
        Value.inspect <$> outcome = Value.inspect <$> again ∧
        Value.isTruthy <$> outcome = Value.isTruthy <$> again := by
  have goesAgain := goes_again wellFormed calleeLives argumentsLive ends
  obtain ⟨_, _, _, _, machines⟩ := goesAgain ""
  obtain ⟨added, output, _⟩ := machines.output
  refine ⟨added, output, fun start => ?_⟩
  obtain ⟨again, final, endsAgain, alike, machines⟩ := goesAgain start
  obtain ⟨otherAdded, sameOutput, finalOutput⟩ := machines.output
  have same : added = otherAdded := by
    have texts := Output.buffer.inj (output.symm.trans sameOutput)
    exact String.append_right_inj text |>.mp texts
  have grows : heap.size ≤ reached.heap.size :=
    (frame_call (frame_expression builtins depth) callee arguments ends).size
  refine ⟨again, final, _, endsAgain, same ▸ finalOutput, renaming_of_alike grows machines.heap,
    alike, ?_, ?_, ?_⟩
  · exact alike.map_eq fun _ _ values => values.kind_eq
  · exact alike.map_eq fun _ _ values => values.inspect_eq
  · exact alike.map_eq fun _ _ values => values.isTruthy_eq

end

/-- The function `fn(p) { p("hi"); fn() {} }` prints a line and returns a function that has captured
the scope of the call; called again, it prints the line again and returns one in a new scope. -/
theorem call_again_printing :
    ∃ (callee : Value) (closure : Closure) (heap : Heap) (reached : Machine),
      call (expression .standard 2) callee [.builtin "println" .println] ⟨heap, .buffer ""⟩ =
        some (.ok (.function closure), reached) ∧
      reached.output = .buffer "hi\n" ∧
      ∃ scope final,
        call (expression .standard 2) callee [.builtin "println" .println]
            ⟨reached.heap, .buffer "hi\n"⟩ =
          some (.ok (.function { closure with scope }), final) ∧
        final.output = .buffer "hi\nhi\n" ∧ closure.scope < scope := by
  let name : Ident := ⟨⟨.ident, "p"⟩, "p"⟩
  let body : Block Nat := .mk ⟨.leftBrace, "\x7b"⟩ []
  let callee : Value := .function ⟨0, [name], .mk ⟨.leftBrace, "\x7b"⟩
    [.expression name.token
      (.call ⟨.leftParen, "("⟩ (.ident name) [.text ⟨.string, "hi"⟩ "hi"]),
      .expression ⟨.fnWord, "fn"⟩ (.function ⟨.fnWord, "fn"⟩ 1 [] body)], 0⟩
  let closure : Closure := ⟨1, [], body, 1⟩
  let heap : Heap := ⟨#[⟨[], none⟩]⟩
  let reached : Machine :=
    ⟨⟨#[⟨[], none⟩, ⟨[("p", .builtin "println" .println)], some 0⟩]⟩, .buffer "hi\n"⟩
  have ends : call (expression .standard 2) callee [.builtin "println" .println]
      ⟨heap, .buffer ""⟩ = some (.ok (.function closure), reached) := by
    with_unfolding_all rfl
  have wellFormed : heap.WellFormed := ⟨by simp [heap], by simp [heap]⟩
  have calleeLives : callee.LivesIn heap := by
    simp [callee, heap, Value.LivesIn, Value.captured, Heap.size]
  obtain ⟨added, output, again⟩ :=
    call_again wellFormed calleeLives (by simp [Value.LivesIn, Value.captured]) ends
  obtain ⟨_, final, moved, endsAgain, finalOutput, renamed, alike, _⟩ := again "hi\n"
  have isAdded : "hi\n" = added := by simpa using Output.buffer.inj output
  subst isAdded
  have created := renamed.created 1 (by decide) (by decide)
  cases alike with
  | ok values =>
      cases values with
      | @function _ scope linked =>
          have higher : closure.scope < scope := by
            rw [linked]
            exact created.1
          exact ⟨callee, closure, heap, reached, ends, rfl, scope, final, endsAgain, finalOutput,
            higher⟩

end Evaluation

end Monkey
