/-!
Computations that work on a state, may fail, and run under a bound on their depth. A failure keeps
the state that was reached, and using up the bound is neither a result nor a failure.
-/

namespace Monkey

/-- From a state to an outcome and the state reached, or to nothing when the bound is used up. -/
def Bounded (State Failure Result : Type) : Type :=
  State → Option (Except Failure Result × State)

namespace Bounded

variable {State Failure First Second Result : Type}

@[inline] protected def pure (result : Result) : Bounded State Failure Result :=
  fun state => some (.ok result, state)

/-- The second computation starts where the first one succeeds. -/
@[inline] protected def bind (first : Bounded State Failure First)
    (next : First → Bounded State Failure Second) : Bounded State Failure Second :=
  fun state =>
    match first state with
    | none => none
    | some (.error failure, reached) => some (.error failure, reached)
    | some (.ok result, reached) => next result reached

instance : Monad (Bounded State Failure) where
  pure := Bounded.pure
  bind := Bounded.bind

/-- The bound is used up. -/
def exhausted : Bounded State Failure Result :=
  fun _ => none

@[inline] def fail (failure : Failure) : Bounded State Failure Result :=
  fun state => some (.error failure, state)

/-- Looks at the state. -/
@[inline] def inspect (view : State → Result) : Bounded State Failure Result :=
  fun state => some (.ok (view state), state)

/-- Changes the state. -/
@[inline] def change (step : State → State) : Bounded State Failure Unit :=
  fun state => some (.ok (), step state)

/-- A step that needs no bound. -/
@[inline] def step (step : State → Except Failure Result × State) :
    Bounded State Failure Result :=
  fun state => some (step state)

/-- An outcome that does not depend on the state. -/
@[inline] def settle (outcome : Except Failure Result) : Bounded State Failure Result :=
  fun state => some (outcome, state)

/-- The computation always succeeds, and says how the given one ended. -/
@[inline] def attempt (computation : Bounded State Failure Result) :
    Bounded State Failure (Except Failure Result) :=
  fun state =>
    match computation state with
    | none => none
    | some (outcome, reached) => some (.ok outcome, reached)

@[simp] theorem pure_apply (result : Result) (state : State) :
    (pure result : Bounded State Failure Result) state = some (.ok result, state) := rfl

theorem bind_apply (first : Bounded State Failure First)
    (next : First → Bounded State Failure Second) (state : State) :
    (first >>= next) state =
      match first state with
      | none => none
      | some (.error failure, reached) => some (.error failure, reached)
      | some (.ok result, reached) => next result reached := rfl

@[simp] theorem exhausted_apply (state : State) :
    (exhausted : Bounded State Failure Result) state = none := rfl

@[simp] theorem fail_apply (failure : Failure) (state : State) :
    (fail failure : Bounded State Failure Result) state = some (.error failure, state) := rfl

@[simp] theorem inspect_apply (view : State → Result) (state : State) :
    (inspect view : Bounded State Failure Result) state = some (.ok (view state), state) := rfl

@[simp] theorem change_apply (step : State → State) (state : State) :
    (change step : Bounded State Failure Unit) state = some (.ok (), step state) := rfl

@[simp] theorem step_apply (step : State → Except Failure Result × State) (state : State) :
    (Bounded.step step : Bounded State Failure Result) state = some (step state) := rfl

@[simp] theorem settle_apply (outcome : Except Failure Result) (state : State) :
    (settle outcome : Bounded State Failure Result) state = some (outcome, state) := rfl

end Bounded

end Monkey
