import Monkey.Bounded

/-!
How computations compose. A success of two steps is a success of each of them, what every step may
do to the state is what their sequence may do to it, an invariant of every step is one of their
sequence, a sequence of steps that end ends, two computations stay in step when their steps do, and
a computation ends as another one does when its steps do.
-/

namespace Monkey.Bounded

variable {State Failure First Second Result : Type}

/-- A sequence gives a result when both parts do, the second one from where the first one ends. -/
theorem bind_eq_ok {first : Bounded State Failure First}
    {next : First → Bounded State Failure Second} {before after : State} {result : Second} :
    (first >>= next) before = some (.ok result, after) ↔
      ∃ item reached, first before = some (.ok item, reached) ∧
        next item reached = some (.ok result, after) := by
  rw [bind_apply]
  constructor
  · intro ends
    match outcome : first before with
    | none => simp [outcome] at ends
    | some (.error _, _) => simp [outcome] at ends
    | some (.ok item, reached) => exact ⟨item, reached, rfl, by simpa [outcome] using ends⟩
  · rintro ⟨item, reached, ends, goesOn⟩
    rw [ends]
    exact goesOn

/-- After a result the sequence is what comes next. -/
theorem bind_of_ok {first : Bounded State Failure First}
    {next : First → Bounded State Failure Second} {before reached : State} {item : First}
    (ends : first before = some (.ok item, reached)) :
    (first >>= next) before = next item reached := by
  rw [bind_apply, ends]

theorem bind_of_eq {first other : Bounded State Failure First}
    {next : First → Bounded State Failure Second} {before state : State}
    (same : first before = other state) : (first >>= next) before = (other >>= next) state := by
  rw [bind_apply, bind_apply, same]

/-- A sequence fails when its first part does, or when the second one does after a result. -/
theorem bind_eq_error {first : Bounded State Failure First}
    {next : First → Bounded State Failure Second} {before after : State} {failure : Failure} :
    (first >>= next) before = some (.error failure, after) ↔
      first before = some (.error failure, after) ∨
        ∃ item reached, first before = some (.ok item, reached) ∧
          next item reached = some (.error failure, after) := by
  rw [bind_apply]
  match outcome : first before with
  | none => simp
  | some (.error _, _) => simp
  | some (.ok item, reached) =>
      constructor
      · intro goesOn
        exact .inr ⟨item, reached, rfl, goesOn⟩
      · rintro (fails | ⟨_, _, ends, goesOn⟩)
        · cases fails
        · cases ends
          exact goesOn

/-- After a failure nothing comes next. -/
theorem bind_of_error {first : Bounded State Failure First}
    {next : First → Bounded State Failure Second} {before after : State} {failure : Failure}
    (fails : first before = some (.error failure, after)) :
    (first >>= next) before = some (.error failure, after) := by
  rw [bind_apply, fails]

/-- The grouping of three computations in a row does not matter. -/
theorem bind_bind (first : Bounded State Failure First)
    (next : First → Bounded State Failure Second) (last : Second → Bounded State Failure Result) :
    (first >>= next) >>= last = first >>= fun item => next item >>= last := by
  funext state
  simp only [bind_apply]
  match first state with
  | none | some (.error _, _) | some (.ok _, _) => rfl

/-- Outcomes that do not touch the state can be put in sequence first. -/
theorem settle_bind_settle (first : Except Failure First) (next : First → Except Failure Second) :
    ((settle first >>= fun item => settle (next item)) : Bounded State Failure Second) =
      settle (first >>= next) := by
  cases first with
  | ok item => rfl
  | error failure => rfl

/-- However the computation ends, it moves the state only as the relation allows. -/
def Moves (allowed : State → State → Prop) (computation : Bounded State Failure Result) : Prop :=
  ∀ ⦃before after : State⦄ ⦃outcome : Except Failure Result⦄,
    computation before = some (outcome, after) → allowed before after

section

variable {allowed : State → State → Prop}

theorem moves_exhausted : Moves allowed (exhausted : Bounded State Failure Result) :=
  fun _ _ _ ends => nomatch ends

/-- A step moves the state as it says. -/
theorem moves_step {step : State → Except Failure Result × State}
    (allows : ∀ state, allowed state (step state).2) : Moves allowed (Bounded.step step) := by
  intro before after outcome ends
  rw [step_apply, Option.some.injEq] at ends
  have reached := allows before
  rw [ends] at reached
  exact reached

/-- A change moves the state as it says. -/
theorem moves_change {step : State → State} (allows : ∀ state, allowed state (step state)) :
    Moves allowed (change step : Bounded State Failure Unit) := by
  change Moves allowed (Bounded.step fun state => (.ok (), step state))
  exact moves_step allows

/-- An attempt moves the state as the computation does that is attempted. -/
theorem Moves.attempt {computation : Bounded State Failure Result}
    (moves : Moves allowed computation) : Moves allowed (Bounded.attempt computation) := by
  intro before after outcome ends
  unfold Bounded.attempt at ends
  split at ends
  · cases ends
  · next reached found =>
      cases ends
      exact moves found

/-- Where less is allowed, more is. -/
theorem Moves.mono {permitted : State → State → Prop} {computation : Bounded State Failure Result}
    (moves : Moves allowed computation)
    (implies : ∀ before after, allowed before after → permitted before after) :
    Moves permitted computation :=
  fun before after _ ends => implies before after (moves ends)

section

variable [Std.Refl allowed]

theorem moves_settle (settled : Except Failure Result) :
    Moves allowed (settle settled : Bounded State Failure Result) := by
  change Moves allowed (Bounded.step fun state => (settled, state))
  exact moves_step fun state => Std.Refl.refl state

theorem moves_pure (result : Result) :
    Moves allowed (pure result : Bounded State Failure Result) :=
  moves_settle (.ok result)

theorem moves_fail (failure : Failure) :
    Moves allowed (fail failure : Bounded State Failure Result) :=
  moves_settle (.error failure)

/-- A look at the state moves nothing. -/
theorem moves_inspect (view : State → Result) :
    Moves allowed (inspect view : Bounded State Failure Result) := by
  change Moves allowed (Bounded.step fun state => (.ok (view state), state))
  exact moves_step fun state => Std.Refl.refl state

end

/-- A sequence moves as both parts do, one after the other. -/
theorem Moves.bind [Trans allowed allowed allowed] {first : Bounded State Failure First}
    {next : First → Bounded State Failure Second} (moves : Moves allowed first)
    (rest : ∀ item, Moves allowed (next item)) : Moves allowed (first >>= next) := by
  intro before after outcome ends
  rw [bind_apply] at ends
  match found : first before with
  | none => simp [found] at ends
  | some (.error failure, reached) =>
      simp only [found, Option.some.injEq, Prod.mk.injEq] at ends
      exact ends.2 ▸ moves found
  | some (.ok item, reached) =>
      simp only [found] at ends
      exact Trans.trans (moves found) (rest item ends)

end

/-- The result, if there is one, has the property. -/
def Yields (results : Result → Prop) (outcome : Except Failure Result) : Prop :=
  ∀ result, outcome = .ok result → results result

theorem yields_ok {results : Result → Prop} {result : Result} (holds : results result) :
    Yields results (.ok result : Except Failure Result) := by
  rintro _ ⟨⟩
  exact holds

theorem yields_error {results : Result → Prop} (failure : Failure) :
    Yields results (.error failure) :=
  fun _ fails => nomatch fails

/-- In a sequence the results of the first part lead to those of the second. -/
theorem Yields.bind {results : First → Prop} {others : Second → Prop}
    {first : Except Failure First} {next : First → Except Failure Second}
    (yields : Yields results first) (rest : ∀ item, results item → Yields others (next item)) :
    Yields others (first >>= next) := by
  match first with
  | .ok item => exact rest item (yields item rfl)
  | .error failure => exact yields_error failure

/-- A function that takes the one property to the other takes the results along. -/
theorem Yields.map {results : First → Prop} {others : Second → Prop}
    {first : Except Failure First} {next : First → Second} (yields : Yields results first)
    (rest : ∀ item, results item → others (next item)) : Yields others (next <$> first) := by
  match first with
  | .ok item => exact yields_ok (rest item (yields item rfl))
  | .error failure => exact yields_error failure

/-- The failure, if there is one, has the property. -/
def Raises (failures : Failure → Prop) (outcome : Except Failure Result) : Prop :=
  ∀ failure, outcome = .error failure → failures failure

theorem raises_ok {failures : Failure → Prop} (result : Result) :
    Raises failures (.ok result) :=
  fun _ fails => nomatch fails

theorem raises_error {failures : Failure → Prop} {failure : Failure} (holds : failures failure) :
    Raises failures (.error failure : Except Failure Result) := by
  rintro _ ⟨⟩
  exact holds

/-- A sequence raises what one of its parts raises. -/
theorem Raises.bind {failures : Failure → Prop} {first : Except Failure First}
    {next : First → Except Failure Second} (raises : Raises failures first)
    (rest : ∀ item, Raises failures (next item)) : Raises failures (first >>= next) := by
  match first with
  | .ok item => exact rest item
  | .error failure => exact raises_error (raises failure rfl)

/-- A function of the result raises nothing new. -/
theorem Raises.map {failures : Failure → Prop} {first : Except Failure First}
    (raises : Raises failures first) (next : First → Second) :
    Raises failures (next <$> first) := by
  match first with
  | .ok item => exact raises_ok _
  | .error failure => exact raises_error (raises failure rfl)

/-- The computation leads from states with the invariant to states with it, and a result has the
property. -/
def Keeps (invariant : State → Prop) (results : Result → Prop)
    (computation : Bounded State Failure Result) : Prop :=
  ∀ ⦃before after : State⦄ ⦃outcome : Except Failure Result⦄, invariant before →
    computation before = some (outcome, after) → invariant after ∧ Yields results outcome

section

variable {invariant : State → Prop} {results : Result → Prop}

theorem keeps_exhausted : Keeps invariant results (exhausted : Bounded State Failure Result) :=
  fun _ _ _ _ ends => nomatch ends

/-- A step keeps the invariant when each of its states does. -/
theorem keeps_step {step : State → Except Failure Result × State}
    (keeps : ∀ state, invariant state → invariant (step state).2 ∧ Yields results (step state).1) :
    Keeps invariant results (Bounded.step step) := by
  intro before after outcome start ends
  rw [step_apply, Option.some.injEq] at ends
  have reached := keeps before start
  rw [ends] at reached
  exact reached

/-- An outcome alone leaves the invariant as it is. -/
theorem keeps_settle {settled : Except Failure Result} (yields : Yields results settled) :
    Keeps invariant results (settle settled : Bounded State Failure Result) := by
  change Keeps invariant results (Bounded.step fun state => (settled, state))
  exact keeps_step fun state start => ⟨start, yields⟩

theorem keeps_pure {result : Result} (holds : results result) :
    Keeps invariant results (pure result : Bounded State Failure Result) :=
  keeps_settle (yields_ok holds)

theorem keeps_fail (failure : Failure) :
    Keeps invariant results (fail failure : Bounded State Failure Result) :=
  keeps_settle (yields_error failure)

/-- A look at the state may use the invariant for its result. -/
theorem keeps_inspect {view : State → Result}
    (holds : ∀ state, invariant state → results (view state)) :
    Keeps invariant results (inspect view : Bounded State Failure Result) := by
  change Keeps invariant results (Bounded.step fun state => (.ok (view state), state))
  exact keeps_step fun state start => ⟨start, yields_ok (holds state start)⟩

/-- More can hold of the results than is asked for. -/
theorem Keeps.mono {others : Result → Prop} {computation : Bounded State Failure Result}
    (keeps : Keeps invariant results computation)
    (implies : ∀ result, results result → others result) :
    Keeps invariant others computation := by
  intro before after outcome start ends
  obtain ⟨reached, yields⟩ := keeps start ends
  exact ⟨reached, fun result succeeds => implies result (yields result succeeds)⟩

/-- A sequence keeps the invariant, and the second part may use what the first one gives. -/
theorem Keeps.bind {items : First → Prop} {others : Second → Prop}
    {first : Bounded State Failure First} {next : First → Bounded State Failure Second}
    (keeps : Keeps invariant items first)
    (rest : ∀ item, items item → Keeps invariant others (next item)) :
    Keeps invariant others (first >>= next) := by
  intro before after outcome start ends
  rw [bind_apply] at ends
  match found : first before with
  | none => simp [found] at ends
  | some (.error failure, reached) =>
      simp only [found, Option.some.injEq, Prod.mk.injEq] at ends
      obtain ⟨rfl, rfl⟩ := ends
      exact ⟨(keeps start found).1, yields_error failure⟩
  | some (.ok item, reached) =>
      simp only [found] at ends
      obtain ⟨middle, yields⟩ := keeps start found
      exact rest item (yields item rfl) middle ends

end

/-- From every state with the invariant the computation ends. It leads to a state with the invariant
again, and a result has the property. -/
def Finishes (invariant : State → Prop) (results : Result → Prop)
    (computation : Bounded State Failure Result) : Prop :=
  ∀ ⦃before : State⦄, invariant before → ∃ outcome after,
    computation before = some (outcome, after) ∧ invariant after ∧ Yields results outcome

section

variable {invariant : State → Prop} {results : Result → Prop}

/-- A computation that needs no bound ends from every state. -/
theorem Keeps.finishes {computation : Bounded State Failure Result}
    (keeps : Keeps invariant results computation) (ends : ∀ state, (computation state).isSome) :
    Finishes invariant results computation := by
  intro before start
  obtain ⟨⟨outcome, after⟩, found⟩ := Option.isSome_iff_exists.mp (ends before)
  exact ⟨outcome, after, found, keeps start found⟩

/-- A sequence finishes when its parts do. -/
theorem Finishes.bind {items : First → Prop} {others : Second → Prop}
    {first : Bounded State Failure First} {next : First → Bounded State Failure Second}
    (finishes : Finishes invariant items first)
    (rest : ∀ item, items item → Finishes invariant others (next item)) :
    Finishes invariant others (first >>= next) := by
  intro before start
  obtain ⟨outcome, middle, ends, kept, yields⟩ := finishes start
  cases outcome with
  | error failure => exact ⟨_, _, bind_of_error ends, kept, yields_error failure⟩
  | ok item =>
      rw [bind_of_ok ends]
      exact rest item (yields item rfl) kept

end

/-- Two outcomes with related results, or with the same failure. -/
inductive Alike (results : First → Second → Prop) :
    Except Failure First → Except Failure Second → Prop
  | ok {first : First} {second : Second} (related : results first second) :
      Alike results (.ok first) (.ok second)
  | error (failure : Failure) : Alike results (.error failure) (.error failure)

/-- Functions that take related results to related ones keep outcomes alike. -/
theorem Alike.map {Other Another : Type} {results : First → Second → Prop}
    {others : Other → Another → Prop} {first : Except Failure First}
    {second : Except Failure Second} {left : First → Other} {right : Second → Another}
    (alike : Alike results first second)
    (related : ∀ item other, results item other → others (left item) (right other)) :
    Alike others (left <$> first) (right <$> second) := by
  cases alike with
  | ok items => exact .ok (related _ _ items)
  | error failure => exact .error failure

/-- Outcomes are equal when only equal results are related. -/
theorem Alike.eq_of_forall {results : Result → Result → Prop} {first second : Except Failure Result}
    (alike : Alike results first second)
    (same : ∀ item other, results item other → item = other) : first = second := by
  cases alike with
  | ok items => rw [same _ _ items]
  | error failure => rfl

/-- Functions that do not tell related results apart make outcomes equal. -/
theorem Alike.map_eq {results : First → Second → Prop} {first : Except Failure First}
    {second : Except Failure Second} {left : First → Result} {right : Second → Result}
    (alike : Alike results first second)
    (same : ∀ item other, results item other → left item = right other) :
    left <$> first = right <$> second := by
  cases alike with
  | ok items => exact congrArg Except.ok (same _ _ items)
  | error failure => rfl

/-- Outcomes stay alike when they are followed by alike ones. -/
theorem Alike.bind {Other Another : Type} {results : First → Second → Prop}
    {others : Other → Another → Prop} {first : Except Failure First}
    {second : Except Failure Second} {left : First → Except Failure Other}
    {right : Second → Except Failure Another} (alike : Alike results first second)
    (related : ∀ item other, results item other → Alike others (left item) (right other)) :
    Alike others (first >>= left) (second >>= right) := by
  cases alike with
  | ok items => exact related _ _ items
  | error failure => exact .error failure

/-- From related states, either both computations use up their bound, or they have outcomes that are
alike and reach related states. -/
def InStep (states : State → State → Prop) (results : First → Second → Prop)
    (first : Bounded State Failure First) (second : Bounded State Failure Second) : Prop :=
  ∀ ⦃left right : State⦄, states left right →
    Option.Rel (fun ends others => Alike results ends.1 others.1 ∧ states ends.2 others.2)
      (first left) (second right)

section

variable {states : State → State → Prop} {results : First → Second → Prop}

theorem inStep_exhausted :
    InStep states results (exhausted : Bounded State Failure First) exhausted :=
  fun _ _ _ => .none

/-- Alike outcomes are in step. -/
theorem inStep_settle {first : Except Failure First} {second : Except Failure Second}
    (alike : Alike results first second) : InStep states results (settle first) (settle second) :=
  fun _ _ related => .some ⟨alike, related⟩

theorem inStep_pure {first : First} {second : Second} (related : results first second) :
    InStep states results (pure first : Bounded State Failure First) (pure second) :=
  inStep_settle (.ok related)

theorem inStep_fail (failure : Failure) :
    InStep states results (fail failure : Bounded State Failure First) (fail failure) :=
  inStep_settle (.error failure)

/-- Steps with alike outcomes and related states are in step. -/
theorem inStep_step {first : State → Except Failure First × State}
    {second : State → Except Failure Second × State}
    (related : ∀ left right, states left right →
      Alike results (first left).1 (second right).1 ∧ states (first left).2 (second right).2) :
    InStep states results (Bounded.step first) (Bounded.step second) :=
  fun left right start => .some (related left right start)

/-- Looks at related states are in step when they find related results. -/
theorem inStep_inspect {first : State → First} {second : State → Second}
    (related : ∀ left right, states left right → results (first left) (second right)) :
    InStep states results (inspect first : Bounded State Failure First) (inspect second) :=
  inStep_step fun left right start => ⟨.ok (related left right start), start⟩

/-- Sequences are in step when their parts are. -/
theorem InStep.bind {Other Another : Type} {others : Other → Another → Prop}
    {first : Bounded State Failure First} {second : Bounded State Failure Second}
    {next : First → Bounded State Failure Other}
    {following : Second → Bounded State Failure Another}
    (inStep : InStep states results first second)
    (rest : ∀ item other, results item other →
      InStep states others (next item) (following other)) :
    InStep states others (first >>= next) (second >>= following) := by
  intro left right start
  rw [bind_apply, bind_apply]
  have ends := inStep start
  generalize first left = firstEnds at ends
  generalize second right = secondEnds at ends
  cases ends with
  | none => exact .none
  | @some reached found ends =>
      obtain ⟨outcome, reached⟩ := reached
      obtain ⟨other, found⟩ := found
      obtain ⟨alike, related⟩ := ends
      cases alike with
      | ok items => exact rest _ _ items related
      | error failure => exact .some ⟨.error failure, related⟩

end

/-- Where the first computation ends, the second one ends with the same outcome in the same state;
it may end elsewhere too. -/
def Refines (first second : Bounded State Failure Result) : Prop :=
  ∀ ⦃before : State⦄ ⦃ends : Except Failure Result × State⦄,
    first before = some ends → second before = some ends

theorem refines_refl (computation : Bounded State Failure Result) :
    Refines computation computation :=
  fun _ _ ends => ends

theorem refines_exhausted (computation : Bounded State Failure Result) :
    Refines exhausted computation :=
  fun _ _ ends => nomatch ends

/-- Sequences refine each other part by part. -/
theorem Refines.bind {first second : Bounded State Failure First}
    {next following : First → Bounded State Failure Second} (refines : Refines first second)
    (rest : ∀ item, Refines (next item) (following item)) :
    Refines (first >>= next) (second >>= following) := by
  intro before ends reached
  rw [bind_apply] at reached ⊢
  match found : first before with
  | none => simp [found] at reached
  | some (.error failure, middle) =>
      rw [refines found]
      simpa [found] using reached
  | some (.ok item, middle) =>
      rw [refines found]
      simp only [found] at reached
      exact rest item reached

/-- Attempts refine each other when what is attempted does. -/
theorem Refines.attempt {first second : Bounded State Failure Result}
    (refines : Refines first second) : Refines (attempt first) (attempt second) := by
  intro before ends reached
  unfold Bounded.attempt at reached ⊢
  match found : first before with
  | none => simp [found] at reached
  | some (outcome, middle) =>
      rw [refines found]
      simpa [found] using reached

end Monkey.Bounded
