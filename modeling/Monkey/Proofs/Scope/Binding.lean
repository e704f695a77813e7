import Monkey.Proofs.Evaluation.Sequence
import Monkey.Proofs.Scope.Frame

/-!
What a new binding shows, and where. A name that is bound in one scope is found there and in the
scopes inside of it from which the search comes that far; every other search ends as it did. The
parameters of a call are bound in a scope that nothing else has seen.
-/

namespace Monkey

namespace Heap

/-- Each scope lies only in scopes that are older than itself. -/
structure Layered (heap : Heap) : Prop where
  older : ∀ (number : Nat) (scope : Scope), heap.scopes[number]? = some scope →
    ∀ outer ∈ scope.outer, outer < number

/-- The way outward to the scope `goal` from another one, with the scopes that it leaves behind. -/
inductive Way (heap : Heap) (goal : Nat) : Nat → List Nat → Prop where
  | here : Way heap goal goal []
  | outward {number outer : Nat} {scope : Scope} {passed : List Nat}
      (found : heap.scopes[number]? = some scope) (around : scope.outer = some outer)
      (further : Way heap goal outer passed) : Way heap goal number (number :: passed)

/-- A search for the name that begins in the scope `number` comes to the scope `own`, which lies on
the way outward, behind scopes that do not bind the name. -/
def Visible (heap : Heap) (own : Nat) (name : String) (number : Nat) : Prop :=
  ∃ passed, heap.Way own number passed ∧ ∀ before ∈ passed, ¬ heap.Binds before name

variable {heap : Heap} {own number : Nat} {name : String} {value : Value}

/-- A scope does not bind a name just when the name is not among its bindings. -/
theorem not_binds_iff {scope : Scope} (found : heap.scopes[number]? = some scope) :
    ¬ heap.Binds number name ↔ scope.bindings.lookup name = none := by
  simp only [Binds, found, Option.some.injEq, exists_eq_left', List.mem_map, not_exists, not_and,
    List.lookup_eq_none_iff, bne_iff_ne]
  constructor
  · intro unbound binding member same
    exact unbound binding member same.symm
  · intro unbound binding member same
    exact unbound binding member same.symm

/-- Nothing is found from a scope that there is not. -/
theorem lookup_of_none (missing : heap.scopes[number]? = none) (name : String) :
    heap.lookup number name = none := by
  rw [Heap.lookup]
  simp only [missing]

/-- Binding a name changes the scope in which it is bound. -/
theorem scopes_bind_own (heap : Heap) (own : Nat) (name : String) (value : Value) :
    (heap.bind own name value).scopes[own]? = (heap.scopes[own]?).map (·.bind name value) := by
  simp [Heap.bind, Array.getElem?_modify]

/-- Binding a name changes no other scope. -/
theorem scopes_bind_other (heap : Heap) (other : number ≠ own) (name : String) (value : Value) :
    (heap.bind own name value).scopes[number]? = heap.scopes[number]? := by
  simp [Heap.bind, Array.getElem?_modify, other.symm]

/-- Binding a name changes what its own scope says about that name, and nothing else. -/
theorem exists_bind_scope {scope : Scope} (found : heap.scopes[number]? = some scope) (own : Nat)
    (name : String) (value : Value) :
    ∃ after, (heap.bind own name value).scopes[number]? = some after ∧
      after.outer = scope.outer ∧
      ∀ sought, number ≠ own ∨ sought ≠ name →
        after.bindings.lookup sought = scope.bindings.lookup sought := by
  by_cases same : number = own
  · subst same
    have foundAfter := heap.scopes_bind_own number name value
    rw [found, Option.map_some] at foundAfter
    refine ⟨scope.bind name value, foundAfter, rfl, ?_⟩
    intro sought untouched
    have different : (sought == name) = false := by simpa using untouched
    simp [Scope.bind, List.lookup_cons, different]
  · exact ⟨scope, (heap.scopes_bind_other same name value).trans found, rfl, fun _ _ => rfl⟩

/-- Where a scope lies does not depend on what is bound in it. -/
theorem Layered.bind (layered : heap.Layered) (own : Nat) (name : String) (value : Value) :
    (heap.bind own name value).Layered := by
  constructor
  intro number scope found
  by_cases same : number = own
  · subst same
    rw [scopes_bind_own] at found
    obtain ⟨before, isBefore, rfl⟩ := Option.map_eq_some_iff.mp found
    exact layered.older number before isBefore
  · rw [scopes_bind_other heap same] at found
    exact layered.older number scope found

/-- The new scope lies in one that is there already. -/
theorem Layered.create (layered : heap.Layered) {scope : Scope}
    (around : ∀ outer ∈ scope.outer, outer < heap.size) :
    (heap.create scope).2.Layered := by
  constructor
  intro number found isFound
  change (heap.scopes.push scope)[number]? = some found at isFound
  rw [Array.getElem?_push] at isFound
  split at isFound
  · next isNew =>
      cases isFound
      exact isNew ▸ around
  · exact layered.older number found isFound

/-- A way outward leads to older scopes only. -/
theorem Layered.way_le (layered : heap.Layered) {goal : Nat} {passed : List Nat}
    (way : heap.Way goal number passed) : goal ≤ number := by
  induction way with
  | here => omega
  | @outward number outer scope passed found around _ inductionHypothesis =>
      have older := layered.older number scope found outer around
      omega

/-- A way that leaves a scope behind does not come back to it. -/
theorem Layered.ne_of_outward (layered : heap.Layered) {outer goal : Nat} {scope : Scope}
    {passed : List Nat} (found : heap.scopes[number]? = some scope)
    (around : scope.outer = some outer) (further : heap.Way goal outer passed) :
    number ≠ goal := by
  have older := layered.older number scope found outer around
  have le := layered.way_le further
  omega

/-- The search comes to the new binding. -/
theorem Layered.lookup_bind_visible (layered : heap.Layered) (present : own < heap.size)
    (visible : heap.Visible own name number) :
    (heap.bind own name value).lookup number name = some value := by
  obtain ⟨passed, way, unbound⟩ := visible
  have layeredAfter := layered.bind own name value
  induction way with
  | here =>
      have found := heap.scopes_bind_own own name value
      rw [Array.getElem?_eq_getElem present, Option.map_some] at found
      rw [lookup_eq found (layeredAfter.older own _ found)]
      simp [Scope.bind]
  | @outward number outer scope passed found around further inductionHypothesis =>
      have other := layered.ne_of_outward found around further
      have foundAfter := (heap.scopes_bind_other other name value).trans found
      have nothing := (not_binds_iff found).mp (unbound number List.mem_cons_self)
      rw [lookup_eq foundAfter (layeredAfter.older number scope foundAfter), nothing, around]
      exact inductionHypothesis fun before member => unbound before (List.mem_cons_of_mem _ member)

/-- A search that does not come to the new binding ends as it did before. -/
theorem Layered.lookup_bind_hidden (layered : heap.Layered) (value : Value) {sought : String}
    (hidden : ¬ (sought = name ∧ heap.Visible own name number)) :
    (heap.bind own name value).lookup number sought = heap.lookup number sought := by
  induction number using Nat.strongRecOn with
  | ind number inductionHypothesis =>
      have untouched : number ≠ own ∨ sought ≠ name := by
        by_cases same : number = own
        · subst same
          exact .inr fun equal => hidden ⟨equal, [], .here, by simp⟩
        · exact .inl same
      cases found : heap.scopes[number]? with
      | none =>
          have missing : (heap.bind own name value).scopes[number]? = none := by
            simp [Heap.bind, Array.getElem?_modify, found]
          rw [lookup_of_none missing, lookup_of_none found]
      | some scope =>
          obtain ⟨after, foundAfter, sameOuter, sameBindings⟩ :=
            exists_bind_scope found own name value
          have olderAfter := (layered.bind own name value).older number after foundAfter
          rw [lookup_eq foundAfter olderAfter, lookup_eq found (layered.older number scope found),
            sameOuter, sameBindings sought untouched]
          cases bound : scope.bindings.lookup sought with
          | some result => rfl
          | none =>
              cases around : scope.outer with
              | none => rfl
              | some outer =>
                  -- What is visible from the outer scope would be visible from this one.
                  apply inductionHypothesis outer (layered.older number scope found outer around)
                  rintro ⟨rfl, passed, way, unbound⟩
                  apply hidden
                  refine ⟨rfl, number :: passed, .outward found around way, ?_⟩
                  intro before member
                  rcases List.mem_cons.mp member with rfl | further
                  · exact (not_binds_iff found).mpr bound
                  · exact unbound before further

end Heap

/-- A binding shows in its own scope and in those scopes inside of it from which no nearer binding
is found, and it changes no other search. So it shows in no scope around its own one, and in no
other scope that lies where its own one lies. -/
theorem Heap.lookup_bind {heap : Heap} (layered : heap.Layered) {own : Nat}
    (present : own < heap.size) (name : String) (value : Value) :
    (∀ number sought, sought = name ∧ heap.Visible own name number →
      (heap.bind own name value).lookup number sought = some value) ∧
    (∀ number sought, ¬ (sought = name ∧ heap.Visible own name number) →
      (heap.bind own name value).lookup number sought = heap.lookup number sought) ∧
    (∀ outer passed sought, heap.Way outer own passed → outer ≠ own →
      (heap.bind own name value).lookup outer sought = heap.lookup outer sought) ∧
    (∀ sibling sought, sibling ≠ own →
      (heap.scopes[sibling]?).map Scope.outer = (heap.scopes[own]?).map Scope.outer →
      (heap.bind own name value).lookup sibling sought = heap.lookup sibling sought) := by
  refine ⟨?_, ?_, ?_, ?_⟩
  · rintro number _ ⟨rfl, visible⟩
    exact layered.lookup_bind_visible present visible
  · intro number sought hidden
    exact layered.lookup_bind_hidden value hidden
  · intro outer passed sought way other
    apply layered.lookup_bind_hidden value
    rintro ⟨_, _, back, _⟩
    have out := layered.way_le way
    have inward := layered.way_le back
    omega
  · intro sibling sought other beside
    apply layered.lookup_bind_hidden value
    rintro ⟨_, _, way, _⟩
    cases way with
    | here => exact other rfl
    | @outward _ outer scope _ found around further =>
        rw [found, Array.getElem?_eq_getElem present, Option.map_some, Option.map_some, around,
          Option.some.injEq] at beside
        have older := layered.older own _ (Array.getElem?_eq_getElem present) outer beside.symm
        have le := layered.way_le further
        omega

/-- Of the scopes 0, 1 around 0, and 2 and 3 inside of 1, the scope 2 has an `x` of its own. To bind
`x` in 1 shows in 1 and 3, and neither in 2 nor in 0, nor in the scope 4 that lies beside 1. -/
theorem Heap.lookup_bind_nearest :
    let heap : Heap := ⟨#[⟨[("x", .integer 1)], none⟩, ⟨[], some 0⟩,
      ⟨[("x", .integer 2)], some 1⟩, ⟨[], some 1⟩, ⟨[], some 0⟩]⟩
    let after := heap.bind 1 "x" (.integer 3)
    heap.Layered ∧ 1 < heap.size ∧ heap.Visible 1 "x" 3 ∧ ¬ heap.Visible 1 "x" 2 ∧
      after.lookup 3 "x" = some (.integer 3) ∧
      after.lookup 2 "x" = heap.lookup 2 "x" ∧ after.lookup 0 "x" = heap.lookup 0 "x" ∧
      after.lookup 4 "x" = heap.lookup 4 "x" := by
  intro heap after
  have layered : heap.Layered := by
    constructor
    intro number scope found outer around
    match number with
    | 0 =>
        cases found
        cases around
    | 1 | 2 | 3 | 4 =>
        cases found
        cases around
        decide
    | number + 5 => cases found
  have present : 1 < heap.size := by decide
  have visible : heap.Visible 1 "x" 3 := by
    refine ⟨[3], .outward rfl rfl .here, ?_⟩
    intro before member
    rw [List.mem_singleton.mp member]
    have found : heap.scopes[3]? = some ⟨[], some 1⟩ := rfl
    exact (Heap.not_binds_iff found).mpr rfl
  have hidden : ¬ heap.Visible 1 "x" 2 := by
    rintro ⟨passed, way, unbound⟩
    cases way with
    | outward found around further =>
        exact unbound 2 List.mem_cons_self ⟨⟨[("x", .integer 2)], some 1⟩, rfl, by simp⟩
  obtain ⟨shows, hides, around, beside⟩ := Heap.lookup_bind layered present "x" (.integer 3)
  refine ⟨layered, present, visible, hidden, shows 3 "x" ⟨rfl, visible⟩,
    hides 2 "x" fun shown => hidden shown.2, ?_, ?_⟩
  · exact around 0 [1] "x" (.outward rfl rfl .here) (by decide)
  · exact beside 4 "x" (by decide) rfl

namespace Evaluation

/-- The machine that runs the body of a call is the one before the call with one scope more. The
search for a name that begins there goes by the last parameter of that name, and by the captured
scope where there is none. It does so in every heap that holds the new scope as it is, whatever has
been bound in the other scopes since. -/
structure Entered (closure : Closure) (arguments : List Value) (before entered : Machine) :
    Prop where
  output : entered.output = before.output
  size : entered.heap.size = before.heap.size + 1
  others : ∀ number < before.heap.size,
    entered.heap.scopes[number]? = before.heap.scopes[number]?
  parameter : ∀ later : Heap,
    later.scopes[before.heap.size]? = entered.heap.scopes[before.heap.size]? →
    ∀ (position : Nat) (parameter : Ident) (argument : Value),
      closure.parameters[position]? = some parameter → arguments[position]? = some argument →
      (∀ further ∈ closure.parameters.drop (position + 1), further.name ≠ parameter.name) →
      later.lookup before.heap.size parameter.name = some argument
  captured : ∀ later : Heap,
    later.scopes[before.heap.size]? = entered.heap.scopes[before.heap.size]? →
    ∀ name, (∀ parameter ∈ closure.parameters, parameter.name ≠ name) →
      later.lookup before.heap.size name = later.lookup closure.scope name

/-- A call binds no name but those of its parameters. -/
theorem lookup_zip_of_not_mem {names : List String} {name : String} (missing : name ∉ names)
    (arguments : List Value) : (names.zip arguments).reverse.lookup name = none := by
  rw [List.lookup_eq_none_iff]
  intro binding member
  rw [bne_iff_ne]
  rintro rfl
  exact missing (List.of_mem_zip (List.mem_reverse.mp member)).1

/-- Of the places of a name the last one counts. -/
theorem lookup_zip_of_last {names : List String} {arguments : List Value} {position : Nat}
    {name : String} {argument : Value} (isName : names[position]? = some name)
    (isArgument : arguments[position]? = some argument)
    (last : name ∉ names.drop (position + 1)) :
    (names.zip arguments).reverse.lookup name = some argument := by
  induction names generalizing arguments position with
  | nil => simp at isName
  | cons first others inductionHypothesis =>
      match arguments, position with
      | [], _ => simp at isArgument
      | value :: values, 0 =>
          cases isName
          cases isArgument
          have missing : name ∉ others := last
          rw [List.zip_cons_cons, List.reverse_cons, List.lookup_append,
            lookup_zip_of_not_mem missing, Option.none_or, List.lookup_cons_self]
      | value :: values, position + 1 =>
          rw [List.zip_cons_cons, List.reverse_cons, List.lookup_append,
            inductionHypothesis isName isArgument last, Option.some_or]

/-- The scope of a call shows its bindings, and else what the captured scope shows. -/
theorem lookup_callScope {heap : Heap} {closure : Closure} {arguments : List Value} {scope : Nat}
    (found : heap.scopes[scope]? = some (callScope closure arguments))
    (older : closure.scope < scope) (name : String) :
    heap.lookup scope name =
      ((callScope closure arguments).bindings.lookup name).or (heap.lookup closure.scope name) :=
  Heap.lookup_eq found (by simpa [callScope] using older) name

/-- Creating the scope of a call enters the call. -/
theorem entered_create (closure : Closure) (arguments : List Value) {machine : Machine}
    (present : closure.scope < machine.heap.size) :
    Entered closure arguments machine
      { machine with heap := (machine.heap.create (callScope closure arguments)).2 } := by
  have frame : Heap.Frame none machine.heap
      (machine.heap.create (callScope closure arguments)).2 := machine.heap.frame_create _
  have created : (machine.heap.create (callScope closure arguments)).2.scopes[machine.heap.size]? =
      some (callScope closure arguments) := by
    simp [Heap.create, Heap.size]
  refine ⟨rfl, machine.heap.size_create _, frame.same, ?_, ?_⟩
  · intro later still position parameter argument isParameter isArgument last
    have isName : (closure.parameters.map Ident.name)[position]? = some parameter.name := by
      rw [List.getElem?_map, isParameter, Option.map_some]
    have bound : (callScope closure arguments).bindings.lookup parameter.name = some argument := by
      apply lookup_zip_of_last isName isArgument
      rw [← List.map_drop]
      intro again
      obtain ⟨further, member, same⟩ := List.mem_map.mp again
      exact last further member same
    rw [lookup_callScope (still.trans created) present, bound, Option.some_or]
  · intro later still name missing
    have unbound : (callScope closure arguments).bindings.lookup name = none := by
      apply lookup_zip_of_not_mem
      intro isName
      obtain ⟨parameter, member, same⟩ := List.mem_map.mp isName
      exact missing parameter member same
    rw [lookup_callScope (still.trans created) present, unbound, Option.none_or]

/-- Surplus arguments go with no parameter. -/
theorem zip_append_of_le {names : List String} {arguments : List Value}
    (enough : names.length ≤ arguments.length) (surplus : List Value) :
    names.zip (arguments ++ surplus) = names.zip arguments := by
  induction names generalizing arguments with
  | nil => rfl
  | cons first others inductionHypothesis =>
      match arguments with
      | [] => simp at enough
      | value :: values =>
          have enoughOthers : others.length ≤ values.length := by simpa using enough
          rw [List.cons_append, List.zip_cons_cons, List.zip_cons_cons,
            inductionHypothesis enoughOthers]

/-- The scope of a call does not depend on arguments for which there is no parameter. -/
theorem callScope_append {closure : Closure} {arguments : List Value}
    (enough : closure.parameters.length ≤ arguments.length) (surplus : List Value) :
    callScope closure (arguments ++ surplus) = callScope closure arguments := by
  rw [callScope, callScope, zip_append_of_le (by simpa using enough)]

end Evaluation

/-- A call with too few arguments fails and changes nothing. Any other call runs the body of the
function in a new scope. There each parameter name stands for the argument at its last place, every
other name for what the captured scope shows at the time, and arguments without a parameter for
nothing at all. -/
theorem Evaluation.call_binds_parameters (evaluate : Expr Nat → Nat → Evaluation Value)
    (closure : Closure) (arguments : List Value) (machine : Machine)
    (present : closure.scope < machine.heap.size) :
    (arguments.length < closure.parameters.length →
      call evaluate (.function closure) arguments machine =
        some (.error (.argumentCount arguments.length closure.parameters.length), machine)) ∧
    (closure.parameters.length ≤ arguments.length →
      ∃ entered, Entered closure arguments machine entered ∧
        call evaluate (.function closure) arguments machine = (do
          let value ← block evaluate machine.heap.size closure.body
          pure (unwrap value)) entered ∧
        ∀ surplus, call evaluate (.function closure) (arguments ++ surplus) machine =
          call evaluate (.function closure) arguments machine) := by
  constructor
  · intro few
    rw [call, if_pos few, Bounded.fail_apply]
  · intro enough
    refine ⟨_, entered_create closure arguments present, ?_, ?_⟩
    · rw [call, if_neg (Nat.not_lt.mpr enough)]
      rfl
    · intro surplus
      have more : closure.parameters.length ≤ (arguments ++ surplus).length := by
        rw [List.length_append]
        omega
      simp only [call, if_neg (Nat.not_lt.mpr more), if_neg (Nat.not_lt.mpr enough),
        callScope_append enough]

/-- A function with the parameters `x`, `y` and `x` again, called with one, three and four
arguments. -/
theorem Evaluation.call_binds_parameters_repeated :
    let ident (name : String) : Ident := ⟨⟨.ident, name⟩, name⟩
    let closure : Closure := ⟨0, [ident "x", ident "y", ident "x"],
      .mk ⟨.leftBrace, "\x7b"⟩ [.expression ⟨.ident, "x"⟩ (.ident (ident "x"))], 0⟩
    let machine : Machine := ⟨⟨#[⟨[("z", .integer 7)], none⟩]⟩, .buffer ""⟩
    let called (arguments : List Value) :=
      call (expression .standard 1) (.function closure) arguments machine
    closure.scope < machine.heap.size ∧
      called [.integer 1] = some (.error (.argumentCount 1 3), machine) ∧
      ∃ entered : Machine, Entered closure [.integer 1, .integer 2, .integer 3] machine entered ∧
        called [.integer 1, .integer 2, .integer 3] = some (.ok (.integer 3), entered) ∧
        called [.integer 1, .integer 2, .integer 3, .integer 4] =
          some (.ok (.integer 3), entered) ∧
        entered.heap.lookup 1 "x" = some (.integer 3) ∧
        entered.heap.lookup 1 "y" = some (.integer 2) ∧
        entered.heap.lookup 1 "z" = entered.heap.lookup 0 "z" := by
  intro ident closure machine called
  have present : closure.scope < machine.heap.size := by decide
  have few := (call_binds_parameters (expression .standard 1) closure [.integer 1] machine
    present).1 (by decide)
  obtain ⟨entered, isEntered, runs, surplus⟩ := (call_binds_parameters (expression .standard 1)
    closure [.integer 1, .integer 2, .integer 3] machine present).2 (by decide)
  have isX := isEntered.parameter entered.heap rfl 2 (ident "x") (.integer 3) rfl rfl (by decide)
  -- The body is the name `x`, and its value is what the search for `x` gives in the new scope.
  have value : block (expression .standard 1) machine.heap.size closure.body entered =
      some (.ok (.integer 3), entered) := by
    rw [block_expression, expression_ident isX]
  have three : called [.integer 1, .integer 2, .integer 3] = some (.ok (.integer 3), entered) :=
    runs.trans (Bounded.bind_of_ok value)
  refine ⟨present, few, entered, isEntered, three, (surplus [.integer 4]).trans three, isX, ?_, ?_⟩
  · exact isEntered.parameter entered.heap rfl 1 (ident "y") (.integer 2) rfl rfl (by decide)
  · exact isEntered.captured entered.heap rfl "z" (by decide)

end Monkey
