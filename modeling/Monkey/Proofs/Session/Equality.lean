import Monkey.Proofs.Scope.Stored
import Monkey.Proofs.Session.Answer
import Monkey.Proofs.Value.Equality

/-!
Equality in a session. Equality looks at the body of a function and not at its parameters. A session
gives each literal of a text that it reads a body of its own, and evaluation takes functions from
literals only. A host that makes a program itself may let two literals share a body, and then
functions with different parameters can be equal. Where literals that share a body have one list of
parameters, values that are equal cannot be told apart, whatever a host does with the session: they
show the same texts and can be called with the same outcome.
-/

namespace Monkey

open Evaluation

/-- A value that is at hand at a moment of an evaluation: bound in a scope, called or passed to a
call, or come out in the end. -/
inductive Evaluation.Moment.Shows (builtins : Builtins) (moment : Moment) : Value → Prop where
  | bound {scope : Scope} {name : String} {value : Value}
      (member : scope ∈ moment.machine.heap.scopes)
      (isBound : scope.bindings.lookup name = some value) : Shows builtins moment value
  | callee {value : Value} {arguments : List Value} (calls : moment.task = .call value arguments) :
      Shows builtins moment value
  | argument {callee value : Value} {arguments : List Value}
      (calls : moment.task = .call callee arguments) (member : value ∈ arguments) :
      Shows builtins moment value
  | result {value : Value} {after : Machine}
      (ends : moment.ends builtins = some (.ok (some value), after)) : Shows builtins moment value

/-- A session with the programs that it has loaded and the values that have been kept. -/
structure Host where
  session : Session
  programs : List (Program Nat)
  values : List Value

namespace Host

/-- A host that has no programs and no values yet. -/
def start (builtins : Builtins) (output : Output) : Host :=
  ⟨.start builtins output, [], []⟩

/-- All that has been loaded. -/
def nodes (host : Host) : List (Node Nat) :=
  host.programs.flatMap Program.nodes

/-- Takes in a program whose labels, and all those before, lie below a number. -/
def hold (host : Host) (program : Program Nat) (free : Nat) : Host :=
  { host with
    session := { host.session with nextLabel := free }
    programs := host.programs ++ [program] }

/-- Takes in a program with a new label for each literal. -/
def load (host : Host) (program : Program Unit) : Host :=
  let (labelled, session) := host.session.load program
  host.hold labelled session.nextLabel

/-- The session goes on, and the value, if there is one, is kept. -/
def proceed (host : Host) (session : Session) (result : Option Value) : Host :=
  { host with session, values := host.values ++ result.toList }

/-- The values that there are: those that were kept, those in the scopes and in the table of
built-in functions, those that an evaluation comes to, plain ones, and what can be put together and
taken apart of them. -/
inductive Present (host : Host) : Value → Prop where
  | kept {value : Value} (member : value ∈ host.values) : Present host value
  | bound {scope : Scope} {name : String} {value : Value}
      (member : scope ∈ host.session.machine.heap.scopes)
      (isBound : scope.bindings.lookup name = some value) : Present host value
  | known {name : String} {value : Value} (found : host.session.builtins.lookup name = some value) :
      Present host value
  | during {depth scope : Nat} {program : Program Nat} {moment : Moment} {value : Value}
      (loaded : program ∈ host.programs)
      (isWithin : Within host.session.builtins (host.session.beginning depth program scope) moment)
      (shows : moment.Shows host.session.builtins value) : Present host value
  | integer (value : Int64) : Present host (.integer value)
  | boolean (value : Bool) : Present host (.boolean value)
  | text (value : String) : Present host (.text value)
  | error (cause : RuntimeError) : Present host (.error cause)
  | null : Present host .null
  | void : Present host .void
  | array {elements : List Value} (each : ∀ element ∈ elements, Present host element) :
      Present host (.array elements)
  | element {elements : List Value} {value : Value} (whole : Present host (.array elements))
      (member : value ∈ elements) : Present host value
  | returned {inner : Value} (present : Present host inner) : Present host (.returned inner)
  | inner {inner : Value} (whole : Present host (.returned inner)) : Present host inner

/-- What a host does: it loads programs, read or made by itself, evaluates those that it has loaded,
runs texts, creates scopes, binds and keeps values that there are, and changes the output. In a
program that it makes itself literals may share a body, with each other and with literals that were
loaded before. -/
inductive Step : Host → Host → Prop where
  | load (host : Host) (program : Program Unit) : Step host (host.load program)
  | make {host : Host} {program : Program Nat} {free : Nat} (le : host.session.nextLabel ≤ free)
      (below : Node.LabelsBelow free program.nodes)
      (bodies : Node.OneBody (host.nodes ++ program.nodes)) : Step host (host.hold program free)
  | evaluate {host : Host} {depth scope : Nat} {program : Program Nat} {result : Option Value}
      {after : Session} (loaded : program ∈ host.programs)
      (ends : host.session.evaluate depth program scope = some (result, after)) :
      Step host (host.proceed after result)
  | run {host : Host} {depth scope : Nat} {source : String} {result : Option Value}
      {after : Session} (ends : host.session.run depth source scope = some (.ok result, after)) :
      Step host ((host.load (Program.read source).1).proceed after result)
  | create (host : Host) (outer : Option Nat) :
      Step host (host.proceed (host.session.createScope outer).2 none)
  | bind {host : Host} (scope : Nat) (name : String) {value : Value}
      (present : host.Present value) :
      Step host (host.proceed (host.session.bind scope name value) none)
  | keep {host : Host} {value : Value} (present : host.Present value) :
      Step host (host.proceed host.session (some value))
  | setOutput (host : Host) (output : Output) :
      Step host (host.proceed (host.session.setOutput output) none)

/-- Each label stands for one body, those that were not given out are free, and all values come
from the literals that were loaded and from the table. -/
structure Sound (host : Host) : Prop where
  bodies : Node.OneBody host.nodes
  below : Node.LabelsBelow host.session.nextLabel host.nodes
  values : ∀ value ∈ host.values, value.Genuine host.nodes host.session.builtins
  heap : host.session.machine.heap.All (Value.Genuine host.nodes host.session.builtins)

end Host

/-- Evaluation takes functions from the literals that it comes to. -/
def Evaluation.Invariant.genuine (nodes : List (Node Nat)) (builtins : Builtins) :
    Invariant builtins where
  node node := node ∈ nodes
  heap := Heap.All (Value.Genuine nodes builtins)
  value _ := Value.Genuine nodes builtins
  scope _ _ := True
  error _ := True
  hereditary _ := Value.hereditary_genuine nodes builtins
  builtin known := Value.genuine_of_lookup known
  returned := by
    intro size inner
    rw [Value.Genuine]
  value_mono _ holds := holds
  scope_mono _ inside := inside
  lookup start found := start.lookup found
  bind number name := fun start holds => start.bind number name holds
  create start _ each := ⟨start.create (callScope_all _ each), trivial⟩
  function := by
    intro size number label token parameters body every _
    obtain ⟨literal, _, code⟩ := Expr.every_function.mp every
    rw [Value.Genuine]
    exact ⟨⟨token, literal⟩, code⟩
  body := by
    intro size closure holds
    rw [Value.Genuine] at holds
    exact holds.2
  unary _ _ := fun _ _ => trivial
  binary _ _ _ := fun _ _ => trivial
  others _ := trivial

/-- Every value that a sound moment shows is genuine. -/
theorem Evaluation.Moment.Shows.genuine {nodes : List (Node Nat)} {builtins : Builtins}
    {moment : Moment} {value : Value} (shows : moment.Shows builtins value)
    (holds : (Invariant.genuine nodes builtins).Holds moment) : value.Genuine nodes builtins := by
  cases shows with
  | bound member isBound => exact holds.heap _ member _ _ isBound
  | callee calls =>
      have admits := holds.task
      rw [calls] at admits
      exact admits.1
  | argument calls member =>
      have admits := holds.task
      rw [calls] at admits
      exact admits.2 value member
  | result ends => exact (holds.ends ends).yields _ rfl value rfl

namespace Host

variable {host after : Host}

/-- The evaluation of a program that the host has starts soundly. -/
theorem Sound.beginning (sound : host.Sound) {program : Program Nat}
    (loaded : program ∈ host.programs) (depth scope : Nat) :
    (Invariant.genuine host.nodes host.session.builtins).Holds
      (host.session.beginning depth program scope) := by
  have every : ∀ node ∈ program.nodes, node ∈ host.nodes := by
    intro node member
    exact List.mem_flatMap.mpr ⟨program, loaded, member⟩
  exact ⟨⟨Stmt.every_all.mp every, trivial⟩, sound.heap⟩

/-- All values that there are at one time are genuine. -/
theorem Sound.present (sound : host.Sound) {value : Value} (present : host.Present value) :
    value.Genuine host.nodes host.session.builtins := by
  have hereditary := Value.hereditary_genuine host.nodes host.session.builtins
  induction present with
  | kept member => exact sound.values _ member
  | bound member isBound => exact sound.heap _ member _ _ isBound
  | known found => exact Value.genuine_of_lookup found
  | during loaded isWithin shows =>
      exact shows.genuine ((sound.beginning loaded _ _).within isWithin)
  | integer _ | boolean _ | text _ | error _ | null | void => simp [Value.Genuine]
  | array _ each => exact (hereditary.array _).mpr each
  | element _ member whole => exact (hereditary.array _).mp whole _ member
  | returned _ genuine =>
      rw [Value.Genuine]
      exact genuine
  | inner _ whole =>
      rw [Value.Genuine] at whole
      exact whole

/-- The nodes of a new program come behind the old ones. -/
theorem nodes_hold (host : Host) (program : Program Nat) (free : Nat) :
    (host.hold program free).nodes = host.nodes ++ program.nodes := by
  simp [nodes, hold]

/-- The literals of a loaded program carry on where the numbers of the old ones end. -/
theorem numbered_load (host : Host) (program : Program Unit) :
    Node.Numbered host.session.nextLabel (host.load program).session.nextLabel
      (host.session.load program).1.nodes :=
  program.numbered_label host.session.nextLabel

/-- What comes from the old literals comes from all of them. -/
theorem Sound.hold (sound : host.Sound) {program : Program Nat} {free : Nat}
    (le : host.session.nextLabel ≤ free) (below : Node.LabelsBelow free program.nodes)
    (bodies : Node.OneBody (host.nodes ++ program.nodes)) : (host.hold program free).Sound := by
  have more : host.nodes ⊆ (host.hold program free).nodes := by
    rw [nodes_hold]
    exact List.subset_append_left _ _
  constructor
  · rw [nodes_hold]
    exact bodies
  · rw [nodes_hold]
    exact sound.below.append le below
  · intro value member
    exact (sound.values value member).mono more
  · intro scope member name value isBound
    exact (sound.heap scope member name value isBound).mono more

/-- New labels stand for one body each. -/
theorem Sound.load (sound : host.Sound) (program : Program Unit) : (host.load program).Sound := by
  have numbered := host.numbered_load program
  apply sound.hold numbered.le
  · intro label used
    exact (numbered.mem_bounds used).2
  · exact sound.bodies.append sound.below numbered

/-- Loading a program makes no literals share a body. -/
theorem Sound.oneParameterList_load (sound : host.Sound)
    (lists : Node.OneParameterList host.nodes) (program : Program Unit) :
    Node.OneParameterList (host.load program).nodes := by
  have appended : Node.OneParameterList (host.nodes ++ (host.session.load program).1.nodes) :=
    lists.append sound.below (host.numbered_load program)
  rw [← nodes_hold host _ (host.session.load program).2.nextLabel] at appended
  exact appended

/-- What else a host does changes only the machine. -/
theorem Sound.proceed (sound : host.Sound) {machine : Machine} {result : Option Value}
    (heap : machine.heap.All (Value.Genuine host.nodes host.session.builtins))
    (given : ∀ value ∈ result, value.Genuine host.nodes host.session.builtins) :
    (host.proceed { host.session with machine } result).Sound := by
  refine ⟨sound.bodies, sound.below, ?_, heap⟩
  intro value member
  rcases List.mem_append.mp member with old | new
  · exact sound.values value old
  · exact given value (Option.mem_toList.mp new)

/-- Evaluating a program that the host has keeps it sound. -/
theorem Sound.evaluate (sound : host.Sound) {depth scope : Nat} {program : Program Nat}
    {result : Option Value} {session : Session} (loaded : program ∈ host.programs)
    (ends : host.session.evaluate depth program scope = some (result, session)) :
    (host.proceed session result).Sound := by
  obtain ⟨outcome, machine, programEnds, rfl, rfl⟩ := Session.evaluate_eq_some.mp ends
  have kept := (sound.beginning loaded depth scope).ends programEnds
  apply sound.proceed kept.heap
  cases outcome with
  | ok found => exact kept.yields found rfl
  | error cause =>
      rintro _ ⟨⟩
      simp [Value.Genuine]

/-- Every step keeps a host sound. -/
theorem Step.sound (step : Step host after) (sound : host.Sound) : after.Sound := by
  have nothing : ∀ value ∈ (none : Option Value),
      value.Genuine host.nodes host.session.builtins := fun _ member => nomatch member
  cases step with
  | load program => exact sound.load program
  | make le below bodies => exact sound.hold le below bodies
  | evaluate loaded ends => exact sound.evaluate loaded ends
  | @run _ _ source _ _ ends =>
      have loaded := sound.load (Program.read source).1
      exact loaded.evaluate (List.mem_append_right _ (List.mem_singleton_self _))
        (Session.run_eq_ok.mp ends).2
  | create outer =>
      have empty : (Scope.mk [] outer).All (Value.Genuine host.nodes host.session.builtins) :=
        fun _ _ isBound => nomatch isBound
      exact sound.proceed (sound.heap.create empty) nothing
  | bind scope name present =>
      exact sound.proceed (sound.heap.bind scope name (sound.present present)) nothing
  | keep present =>
      apply sound.proceed sound.heap
      rintro _ ⟨⟩
      exact sound.present present
  | setOutput output => exact sound.proceed sound.heap nothing

/-- Every host that is reached is sound. -/
theorem sound_of_reached {builtins : Builtins} {output : Output}
    (reached : Relation.ReflTransGen Step (start builtins output) host) : host.Sound := by
  induction reached with
  | refl =>
      have nothing : (start builtins output).nodes = [] := rfl
      refine ⟨?_, ?_, (fun _ member => nomatch member), Heap.all_empty⟩
      · intro token another label parameters others body second literal
        rw [nothing] at literal
        cases literal
      · intro label used
        rw [nothing] at used
        cases used
  | tail _ step inductionHypothesis => exact step.sound inductionHypothesis

/-- Equality is an equivalence. Two values that there are at one time in a session and that are
equal are of one kind and count alike as true or false. Where literals that share a body have one
list of parameters, one can stand for the other: they show the same texts, and a call of the one
ends as a call of the other does. That condition is one on the programs that a host makes itself,
and loading a program keeps it. -/
theorem equal_values_alike (builtins : Builtins) (output : Output)
    (reached : Relation.ReflTransGen Step (start builtins output) host) :
    (Equivalence fun left right : Value => left.same right = true) ∧
    (∀ left right, host.Present left → host.Present right → left.same right = true →
      left.kind = right.kind ∧ left.isTruthy = right.isTruthy ∧
      (Node.OneParameterList host.nodes →
        left.inspect = right.inspect ∧ left.debug = right.debug ∧
        ∀ depth arguments machine,
          call (expression host.session.builtins depth) left arguments machine =
            call (expression host.session.builtins depth) right arguments machine)) ∧
    (Node.OneParameterList host.nodes →
      ∀ program, Node.OneParameterList (host.load program).nodes) := by
  have sound := sound_of_reached reached
  refine ⟨Value.same_equivalence, ?_, sound.oneParameterList_load⟩
  intro left right isLeft isRight equal
  have identities := (Value.same_iff left right).mp equal
  refine ⟨?_, ?_, ?_⟩
  · rw [← Value.kind_identity, identities, Value.kind_identity]
  · rw [← Value.isTruthy_identity, identities, Value.isTruthy_identity]
  · intro lists
    obtain rfl : left = right := (sound.present isLeft).eq_of_identity sound.bodies lists
      (sound.present isRight) identities
    simp

/-- The block `{ 1 }`. -/
def twinBody : Block Nat :=
  .mk ⟨.leftBrace, "\x7b"⟩ [.expression ⟨.int, "1"⟩ (.integer ⟨.int, "1"⟩ 1)]

/-- The program `[fn(x) { 1 }, fn() { 1 }]` with parameters in the second literal, too. A host has
made it, and both literals share the body, whose number is 0. -/
def twins (parameters : List Ident) : Program Nat :=
  ⟨[.expression ⟨.leftBracket, "["⟩ (.array ⟨.leftBracket, "["⟩
    [.function ⟨.fnWord, "fn"⟩ 0 [⟨⟨.ident, "x"⟩, "x"⟩] twinBody,
      .function ⟨.fnWord, "fn"⟩ 0 parameters twinBody])]⟩

/-- One of the two functions that the program gives in the scope 0. -/
def twin (parameters : List Ident) : Value :=
  .function ⟨0, parameters, twinBody, 0⟩

/-- The host that has made the program and evaluated it in a new scope. -/
def twinHost (parameters : List Ident) : Host :=
  { session := ⟨.standard, ⟨⟨#[⟨[], none⟩]⟩, .buffer ""⟩, 1⟩
    programs := [twins parameters]
    values := [.array [twin [⟨⟨.ident, "x"⟩, "x"⟩], twin parameters]] }

/-- The literals of the program are the two that it shows. -/
theorem twins_literals {parameters list : List Ident} {token : Token} {label : Nat}
    {body : Block Nat}
    (literal : .expression (.function token label list body) ∈ (twins parameters).nodes) :
    label = 0 ∧ body = twinBody ∧ (list = [⟨⟨.ident, "x"⟩, "x"⟩] ∨ list = parameters) := by
  simp only [Program.nodes, twins, twinBody, Stmt.nodesAll, Stmt.nodes, Expr.nodes, Expr.nodesEach,
    Block.nodes, List.append_nil, List.mem_cons, List.mem_append, List.mem_map, List.not_mem_nil,
    Node.expression.injEq, Expr.function.injEq, reduceCtorEq, and_false, or_false, false_or,
    exists_false] at literal
  rcases literal with ⟨_, rfl, rfl, rfl⟩ | ⟨_, rfl, rfl, rfl⟩
  · exact ⟨rfl, rfl, .inl rfl⟩
  · exact ⟨rfl, rfl, .inr rfl⟩

/-- A session comes to that host: the program is made, a scope is created, and the program is
evaluated there. -/
theorem twinHost_reached (parameters : List Ident) :
    Relation.ReflTransGen Step (start .standard (.buffer "")) (twinHost parameters) := by
  have below : Node.LabelsBelow 1 (twins parameters).nodes := by
    intro label used
    obtain ⟨token, list, body, literal⟩ := Node.mem_labels_iff.mp used
    have isZero := (twins_literals literal).1
    omega
  have bodies :
      Node.OneBody ((start .standard (.buffer "")).nodes ++ (twins parameters).nodes) := by
    intro token another label list others body second first next
    rw [(twins_literals first).2.1, (twins_literals next).2.1]
  let ready : Host := { twinHost parameters with values := [] }
  have made : Step (start .standard (.buffer ""))
      ((start .standard (.buffer "")).hold (twins parameters) 1) :=
    .make (Nat.zero_le 1) below bodies
  have created : Step ((start .standard (.buffer "")).hold (twins parameters) 1) ready :=
    .create _ none
  have ends : ready.session.evaluate 2 (twins parameters) 0 =
      some (some (.array [twin [⟨⟨.ident, "x"⟩, "x"⟩], twin parameters]), ready.session) := rfl
  have evaluated : Step ready (twinHost parameters) := .evaluate (List.mem_singleton_self _) ends
  exact ((Relation.ReflTransGen.single made).tail created).tail evaluated

/-- Both functions are among the values that there are. -/
theorem present_twin {parameters list : List Ident}
    (isList : list = [⟨⟨.ident, "x"⟩, "x"⟩] ∨ list = parameters) :
    (twinHost parameters).Present (twin list) := by
  have kept : (twinHost parameters).Present
      (.array [twin [⟨⟨.ident, "x"⟩, "x"⟩], twin parameters]) := .kept (List.mem_singleton_self _)
  apply Present.element kept
  rcases isList with rfl | rfl
  · exact List.mem_cons_self
  · exact List.mem_cons_of_mem _ (List.mem_singleton_self _)

/-- Two literals `fn(x) { 1 }` that share the body give functions that are equal and show the same
texts. -/
theorem equal_values_alike_twins :
    ∃ (host : Host) (left right : Value),
      Relation.ReflTransGen Step (start .standard (.buffer "")) host ∧
      Node.OneParameterList host.nodes ∧ host.values = [.array [left, right]] ∧
      left.kind = .function ∧ left.same right = true ∧
      left.inspect = right.inspect ∧ left.debug = right.debug := by
  let parameters : List Ident := [⟨⟨.ident, "x"⟩, "x"⟩]
  have lists : Node.OneParameterList (twinHost parameters).nodes := by
    have all : (twinHost parameters).nodes = (twins parameters).nodes := List.append_nil _
    rw [all]
    intro token another label list others body second first next
    have isList := or_self_iff.mp (twins_literals first).2.2
    have isListToo := or_self_iff.mp (twins_literals next).2.2
    exact isList.trans isListToo.symm
  have reached := twinHost_reached parameters
  have equal : (twin parameters).same (twin parameters) = true := by decide
  obtain ⟨_, alike, _⟩ := equal_values_alike .standard (.buffer "") reached
  obtain ⟨_, _, shows⟩ := alike _ _ (present_twin (.inl rfl)) (present_twin (.inr rfl)) equal
  obtain ⟨inspects, debugs, _⟩ := shows lists
  exact ⟨twinHost parameters, twin parameters, twin parameters, reached, lists, rfl, rfl, equal,
    inspects, debugs⟩

/-- A literal `fn(x) { 1 }` and a literal `fn() { 1 }` that share the body give equal functions, but
these show different texts, and only the second one can be called without an argument. -/
theorem equal_values_differ_shared :
    let host := twinHost []
    let left := twin [⟨⟨.ident, "x"⟩, "x"⟩]
    let right := twin []
    Relation.ReflTransGen Step (start .standard (.buffer "")) host ∧
      host.Present left ∧ host.Present right ∧ left.same right = true ∧
      left.inspect ≠ right.inspect ∧ left.debug ≠ right.debug ∧
      call (expression host.session.builtins 1) left [] host.session.machine ≠
        call (expression host.session.builtins 1) right [] host.session.machine := by
  refine ⟨twinHost_reached [], present_twin (.inl rfl), present_twin (.inr rfl), by decide,
    by decide, by decide, ?_⟩
  intro same
  cases same

end Host

end Monkey
