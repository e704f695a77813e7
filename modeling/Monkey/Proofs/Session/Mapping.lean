import Mathlib
import Monkey.Proofs.Evaluation.Deepening
import Monkey.Proofs.Evaluation.Exposure
import Monkey.Proofs.Evaluation.Failure
import Monkey.Proofs.Session.Answer
import Monkey.Proofs.Session.Rounds

/-!
A function that maps. A program binds `map` to a function that takes an array and another function.
It has no loop: inside it a function `iter` finds itself through the scope that it has captured, and
calls itself with what is left of the array and what is done of the result. Each of these calls is a
round. A round with elements left applies the given function to the first of them, so `map` applies
it to all elements from left to right, until one of them fails.
-/

namespace Monkey.Mapping

open Evaluation Bounded

/-- The program that defines the function. -/
def definition : String :=
  "
        let map = fn(arr, f) \x7b
            let iter = fn(arr, acc) \x7b
                if (len(arr) == 0) \x7b acc \x7d else \x7b iter(pop(arr), push(acc, f(first(arr)))) \x7d
            \x7d;
            iter(arr, []);
        \x7d;"

section

variable {Mark : Type}

/-- A name with its token. -/
def ident (text : String) : Ident :=
  ⟨⟨.ident, text⟩, text⟩

/-- A name as an expression. -/
def name (text : String) : Expr Mark :=
  .ident (ident text)

/-- A call of a function that has a name. -/
def calling (callee : String) (arguments : List (Expr Mark)) : Expr Mark :=
  .call ⟨.leftParen, "("⟩ (name callee) arguments

/-- A block with its brace. -/
def braces (statements : List (Stmt Mark)) : Block Mark :=
  .mk ⟨.leftBrace, "\x7b"⟩ statements

/-- `len(arr) == 0` -/
def condition : Expr Mark :=
  .binary ⟨.equal, "=="⟩ (calling "len" [name "arr"]) "==" (.integer ⟨.int, "0"⟩ 0)

/-- `iter(pop(arr), push(acc, f(first(arr))))` -/
def recursion : Expr Mark :=
  calling "iter" [calling "pop" [name "arr"],
    calling "push" [name "acc", calling "f" [calling "first" [name "arr"]]]]

/-- `if (len(arr) == 0) { acc } else { iter(pop(arr), push(acc, f(first(arr)))) }` -/
def round : Expr Mark :=
  .conditional ⟨.ifWord, "if"⟩ condition (braces [.expression ⟨.ident, "acc"⟩ (name "acc")])
    (some (braces [.expression ⟨.ident, "iter"⟩ recursion]))

/-- `fn(arr, acc) { ... }` -/
def loop (mark : Mark) : Expr Mark :=
  .function ⟨.fnWord, "fn"⟩ mark [ident "arr", ident "acc"]
    (braces [.expression ⟨.ifWord, "if"⟩ round])

/-- `iter(arr, [])` -/
def start : Expr Mark :=
  calling "iter" [name "arr", .array ⟨.leftBracket, "["⟩ []]

/-- `let iter = fn(arr, acc) { ... }; iter(arr, []);` -/
def body (mark : Mark) : Block Mark :=
  braces [.bind ⟨.letWord, "let"⟩ (ident "iter") (loop mark), .expression ⟨.ident, "iter"⟩ start]

end

/-- The function that `map` is bound to. -/
def map : Closure :=
  ⟨0, [ident "arr", ident "f"], body 1, 0⟩

/-- The function that `iter` is bound to in a call of `map`. -/
def iter (home : Nat) : Closure :=
  ⟨1, [ident "arr", ident "acc"], braces [.expression ⟨.ifWord, "if"⟩ round], home⟩

/-- The session that the definition leaves. -/
def defined (output : Output) : Session :=
  ⟨.standard, ⟨⟨#[⟨[("map", .function map)], none⟩]⟩, output⟩, 2⟩

/-- The definition is read as a binding of a function literal. -/
theorem read_definition :
    Program.read definition =
      (⟨[.bind ⟨.letWord, "let"⟩ (ident "map") (.function ⟨.fnWord, "fn"⟩ ()
        [ident "arr", ident "f"] (body ()))]⟩, []) := by
  cbv

/-- The definition binds the name in a fresh session and answers nothing. -/
theorem run_definition (output : Output) (depth : Nat) :
    (Session.fresh output).2.run (depth + 1) definition (Session.fresh output).1 =
      some (.ok none, defined output) :=
  Session.run_of_read read_definition rfl rfl

/-- The machine that the first round starts on: there is a scope for the call of `map`, and `iter`
is bound in it. -/
def opening (elements : List Value) (function : Value) (machine : Machine) : Machine :=
  { machine with
    heap := (machine.heap.create ⟨[("iter", .function (iter machine.heap.size)), ("f", function),
      ("arr", .array elements)], some 0⟩).2 }

section

variable {builtins : Builtins} {depth scope : Nat} {machine : Machine}

/-- A name comes to the value that is found under it. -/
theorem expression_name {text : String} {value : Value}
    (found : machine.heap.lookup scope text = some value) :
    expression builtins (depth + 1) (name text) scope machine = some (.ok value, machine) :=
  @expression_ident _ _ _ _ (ident text) _ found

/-- A name that is not bound comes to the built-in function under it. -/
theorem expression_builtin {text : String} {value : Value}
    (unbound : machine.heap.lookup scope text = none) (known : builtins.lookup text = some value) :
    expression builtins (depth + 1) (name text) scope machine = some (.ok value, machine) := by
  change Evaluation.ident builtins scope text machine = _
  rw [Evaluation.ident, bind_of_ok (inspect_apply _ _), unbound]
  dsimp only
  rw [known]
  rfl

/-- The callee is evaluated first, and then the arguments are. -/
theorem expression_calling {callee : String} {function : Value} {arguments : List (Expr Nat)}
    (found : expression builtins depth (name callee) scope machine = some (.ok function, machine)) :
    expression builtins (depth + 1) (calling callee arguments) scope machine =
      (each (expression builtins depth) scope arguments >>=
        call (expression builtins depth) function) machine :=
  bind_of_ok found

/-- Braces around one expression have its value, wrapped or not. -/
theorem block_braces (evaluate : Expr Nat → Nat → Evaluation Value) (scope : Nat) (token : Token)
    (expr : Expr Nat) :
    block evaluate scope (braces [.expression token expr]) = evaluate expr scope :=
  block_expression evaluate scope _ token expr

/-- Of two parts the first one has its value already, and the second one is a computation. -/
theorem each_pair {evaluate : Expr Nat → Nat → Evaluation Value} {first second : Expr Nat}
    {value : Value} {computation : Evaluation Value}
    (firstEnds : evaluate first scope machine = some (.ok value, machine))
    (secondIs : evaluate second scope machine = computation machine) :
    each evaluate scope [first, second] machine =
      (computation >>= fun other => pure [value, other]) machine := by
  rw [each, bind_of_ok firstEnds, each, bind_bind, bind_of_eq secondIs]
  rfl

end

/-- The built-in functions that the program calls. -/
def used : List String :=
  ["len", "pop", "push", "first"]

/-- What the names of the program that no round binds mean in a scope. -/
structure Sees (scope home : Nat) (function : Value) (machine : Machine) : Prop where
  recursive : machine.heap.lookup scope "iter" = some (.function (iter home))
  function : machine.heap.lookup scope "f" = some function
  builtins : ∀ name ∈ used, machine.heap.lookup scope name = none

/-- The scope of the call of `map` is there, and a round can start in it. -/
structure Ready (home : Nat) (function : Value) (machine : Machine) : Prop
    extends Sees home home function machine where
  old : home < machine.heap.size

/-- A round has started in the scope. -/
structure Inside (scope home : Nat) (function : Value) (left done : List Value)
    (machine : Machine) : Prop extends Sees scope home function machine where
  left : machine.heap.lookup scope "arr" = some (.array left)
  done : machine.heap.lookup scope "acc" = some (.array done)

variable {home : Nat} {function : Value} {before after machine : Machine} {left done : List Value}

/-- What a scope shows is all that counts. -/
theorem Sees.congr {scope other : Nat} (sees : Sees scope home function before)
    (same : ∀ name ∈ "iter" :: "f" :: used,
      after.heap.lookup other name = before.heap.lookup scope name) :
    Sees other home function after where
  recursive := (same "iter" (by decide)).trans sees.recursive
  function := (same "f" (by decide)).trans sees.function
  builtins name member :=
    (same name (List.mem_cons_of_mem _ (List.mem_cons_of_mem _ member))).trans
      (sees.builtins name member)

/-- No call changes what the names mean. -/
theorem Ready.frame (ready : Ready home function before)
    (frame : Machine.Frame none before after) : Ready home function after where
  toSees := ready.congr fun name _ => Heap.Frame.lookup frame ready.old name
  old := Nat.lt_of_lt_of_le ready.old frame.size

/-- In a round `arr` and `acc` are those of the round, which hide what is called so in the call of
`map`, and all else is seen through the captured scope. -/
theorem Ready.inside (ready : Ready home function machine) (left done : List Value) :
    Inside machine.heap.size home function left done (enter home left done machine) := by
  have found (name : String) := machine.heap.lookup_create
    [("acc", .array done), ("arr", .array left)] ready.old name
  refine ⟨ready.congr fun name member => (found name).trans ?_, found "arr", found "acc"⟩
  simp only [used, List.mem_cons, List.not_mem_nil, or_false] at member
  rcases member with rfl | rfl | rfl | rfl | rfl | rfl <;> rfl

namespace Inside

variable {depth scope : Nat} (inside : Inside scope home function left done machine)

include inside

/-- A built-in function that writes nothing, applied to what is left. -/
theorem apply {word : String} {builtin : Builtin} {result : Value}
    (member : word ∈ used)
    (known : Builtins.standard.lookup word = some (.builtin word builtin))
    (applies : builtin.apply [.array left] machine.output = (.ok result, machine.output)) :
    expression .standard (depth + 2) (calling word [name "arr"]) scope machine =
      some (.ok result, machine) := by
  have callee := @expression_builtin _ depth _ _ _ _ (inside.builtins word member) known
  have argument := @expression_name .standard depth _ _ _ _ inside.left
  rw [expression_calling callee, bind_of_ok (each_singleton argument)]
  change some _ = _
  simp only [applies]

/-- The condition asks whether an element is left. -/
theorem condition :
    expression .standard (depth + 3) condition scope machine =
      some (.ok (.boolean (Int64.ofNat left.length == 0)), machine) := by
  have length : expression .standard (depth + 2) (calling "len" [name "arr"]) scope machine =
      some (.ok (.integer (Int64.ofNat left.length)), machine) :=
    inside.apply (by decide) rfl rfl
  have zero : expression .standard (depth + 2) (.integer ⟨.int, "0"⟩ 0) scope machine =
      some (.ok (.integer 0), machine) := rfl
  rw [Mapping.condition, expression, node, bind_of_ok length, bind_of_ok zero]
  rfl

end Inside

/-- The function is applied to the first element that is left, and its value is put behind what is
done. -/
theorem Inside.recursion {depth scope : Nat} {first : Value} {others : List Value}
    (inside : Inside scope home function (first :: others) done machine) :
    expression .standard (depth + 5) recursion scope machine =
      (call (expression .standard (depth + 2)) function [first] >>= fun value =>
        call (expression .standard (depth + 4)) (.function (Mapping.iter home))
          [.array others, .array (done ++ [value])]) machine := by
  have foremost : expression .standard (depth + 2) (calling "first" [name "arr"]) scope machine =
      some (.ok first, machine) :=
    inside.apply (by decide) rfl rfl
  have behind : expression .standard (depth + 4) (calling "pop" [name "arr"]) scope machine =
      some (.ok (.array others), machine) :=
    inside.apply (by decide) rfl rfl
  have applied : expression .standard (depth + 3) (calling "f" [calling "first" [name "arr"]])
      scope machine = call (expression .standard (depth + 2)) function [first] machine := by
    rw [expression_calling (expression_name inside.function), bind_of_ok (each_singleton foremost)]
  have accumulated := @expression_name .standard (depth + 2) _ _ _ _ inside.done
  have push : expression .standard (depth + 3) (name "push") scope machine =
      some (.ok (.builtin "push" .push), machine) :=
    expression_builtin (inside.builtins "push" (by decide)) rfl
  have pushed : expression .standard (depth + 4)
      (calling "push" [name "acc", calling "f" [calling "first" [name "arr"]]]) scope machine =
        (call (expression .standard (depth + 2)) function [first] >>= fun value =>
          pure (.array (done ++ [value]))) machine := by
    rw [expression_calling push, bind_of_eq (each_pair accumulated applied), bind_bind]
    rfl
  rw [Mapping.recursion, expression_calling (expression_name inside.recursive),
    bind_of_eq (each_pair behind pushed), bind_bind, bind_bind]
  rfl

/-- A call of `iter` is a round in a new scope. -/
theorem call_iter (evaluate : Expr Nat → Nat → Evaluation Value) (home : Nat)
    (left done : List Value) (machine : Machine) :
    call evaluate (.function (iter home)) [.array left, .array done] machine =
      (evaluate round machine.heap.size >>= fun value => pure (unwrap value))
        (enter home left done machine) := by
  rw [← block_braces evaluate machine.heap.size ⟨.ifWord, "if"⟩ round]
  rfl

/-- Without an element left the inner function gives back what is done. -/
theorem Ready.finish (ready : Ready home function machine) (done : List Value) (depth : Nat) :
    call (expression .standard (depth + 4)) (.function (iter home)) [.array [], .array done]
      machine = some (.ok (.array done), enter home [] done machine) := by
  have inside := ready.inside [] done
  have ends : expression .standard (depth + 4) round machine.heap.size
      (enter home [] done machine) = some (.ok (.array done), enter home [] done machine) := by
    rw [round, expression, node, bind_of_ok inside.condition]
    change block _ _ _ _ = _
    rw [block_braces, expression_name inside.done]
  rw [call_iter, bind_of_ok ends]
  rfl

/-- The length of an array is seen not to be zero, as long as it fits into a word. -/
theorem ofNat_ne_zero {length : Nat} (positive : 0 < length) (countable : length < 2 ^ 64) :
    (Int64.ofNat length == 0) = false := by
  rw [beq_eq_false_iff_ne, ne_eq, ← Int64.toInt_inj, Int64.toInt_ofNat', Int64.toInt_zero,
    ← Int.dvd_iff_bmod_eq_zero]
  change ¬ ((2 ^ 64 : Nat) : Int) ∣ length
  omega

/-- With an element left the function is called with it, and then the rest is done. -/
theorem Ready.pass (ready : Ready home function machine) {first : Value} {others : List Value}
    (countable : (first :: others).length < 2 ^ 64) (done : List Value) (depth : Nat) :
    call (expression .standard (depth + 6)) (.function (iter home))
        [.array (first :: others), .array done] machine =
      (call (expression .standard (depth + 2)) function [first] >>= fun value =>
        call (expression .standard (depth + 4)) (.function (iter home))
          [.array others, .array (done ++ [value])] >>= fun result => pure (unwrap result))
        (enter home (first :: others) done machine) := by
  have inside := ready.inside (first :: others) done
  have more : (Int64.ofNat (first :: others).length == 0) = false :=
    ofNat_ne_zero (by simp) countable
  have ends : expression .standard (depth + 6) round machine.heap.size
      (enter home (first :: others) done machine) =
        (call (expression .standard (depth + 2)) function [first] >>= fun value =>
          call (expression .standard (depth + 4)) (.function (iter home))
            [.array others, .array (done ++ [value])])
          (enter home (first :: others) done machine) := by
    rw [round, expression, node, bind_of_ok inside.condition, more]
    change block _ _ _ _ = _
    rw [block_braces, inside.recursion]
  rw [call_iter, bind_of_eq ends, bind_bind]

/-- A call that ends within some depth ends alike within a larger one. -/
theorem call_deepen {depth larger : Nat} (le : depth ≤ larger) {callee : Value}
    {arguments : List Value} {ends : Except RuntimeError Value × Machine}
    (reached : call (expression .standard depth) callee arguments machine = some ends) :
    call (expression .standard larger) callee arguments machine = some ends :=
  refines_call (refines_expression .standard le) callee arguments reached

/-- A call takes no wrapping off an array, nor off an error. -/
theorem unwrap_array {computation : Evaluation Value} {result : Except RuntimeError (List Value)}
    (ends : computation before = some (Value.array <$> result, after)) :
    (computation >>= fun value => pure (unwrap value)) before =
      some (Value.array <$> result, after) := by
  cases result with
  | ok values =>
      rw [bind_of_ok ends]
      rfl
  | error cause => exact bind_of_error ends

/-- What ends without its wrapper ends with it. -/
theorem ends_of_unwrap {computation : Evaluation Value} {outcome : Except RuntimeError Value}
    (ends : (computation >>= fun value => pure (unwrap value)) before = some (outcome, after)) :
    ∃ answer, computation before = some (answer, after) := by
  rw [bind_apply] at ends
  match found : computation before with
  | none => simp [found] at ends
  | some (.error cause, reached) =>
      simp only [found, Option.some.injEq, Prod.mk.injEq] at ends
      exact ⟨.error cause, by rw [ends.2]⟩
  | some (.ok value, reached) =>
      simp only [found, pure_apply, Option.some.injEq, Prod.mk.injEq] at ends
      exact ⟨.ok value, by rw [ends.2]⟩

/-- Where a call of `iter` ends, it has gone through rounds. -/
theorem Ready.rounds (ready : Ready home function machine) (countable : left.length < 2 ^ 64)
    {depth : Nat} {outcome : Except RuntimeError Value}
    (ends : call (expression .standard depth) (.function (iter home))
      [.array left, .array done] machine = some (outcome, after)) :
    ∃ applications result, Rounds function home left done machine applications result after ∧
      outcome = Value.array <$> result := by
  induction left generalizing depth done machine outcome with
  | nil =>
      have deeper := call_deepen (Nat.le_add_right depth 4) ends
      rw [ready.finish] at deeper
      cases deeper
      exact ⟨[], .ok done, .finish, rfl⟩
  | cons first others inductionHypothesis =>
      have deeper := call_deepen (Nat.le_add_right depth 6) ends
      rw [ready.pass countable] at deeper
      match applied : call (expression .standard (depth + 2)) function [first]
          (enter home (first :: others) done machine) with
      | none => simp [bind_apply, applied] at deeper
      | some (.error cause, reached) =>
          rw [bind_of_error applied] at deeper
          cases deeper
          exact ⟨_, .error cause, .stop ⟨_, applied⟩, rfl⟩
      | some (.ok value, reached) =>
          rw [bind_of_ok applied] at deeper
          have stillReady := (ready.frame (frame_enter _ _ _ _)).frame (frame_applied applied)
          obtain ⟨answer, goesOn⟩ := ends_of_unwrap deeper
          obtain ⟨applications, result, rounds, rfl⟩ :=
            inductionHypothesis stillReady (Nat.lt_of_succ_lt countable) goesOn
          rw [unwrap_array goesOn] at deeper
          cases deeper
          exact ⟨_, result, .pass ⟨_, applied⟩ rounds, rfl⟩

/-- Where rounds end, so does the call of `iter`. -/
theorem Rounds.ends {applications : List Application} {result : Except RuntimeError (List Value)}
    (rounds : Rounds function home left done machine applications result after)
    (ready : Ready home function machine) (countable : left.length < 2 ^ 64) :
    ∃ depth, call (expression .standard depth) (.function (iter home))
      [.array left, .array done] machine = some (Value.array <$> result, after) := by
  induction rounds with
  | finish => exact ⟨4, ready.finish _ 0⟩
  | stop happens =>
      obtain ⟨depth, applied⟩ := happens
      refine ⟨depth + 6, ?_⟩
      rw [ready.pass countable, bind_of_error (call_deepen (Nat.le_add_right depth 2) applied)]
      rfl
  | pass happens _ inductionHypothesis =>
      obtain ⟨depth, applied⟩ := happens
      have stillReady := (ready.frame (frame_enter _ _ _ _)).frame (frame_applied applied)
      obtain ⟨further, ends⟩ := inductionHypothesis stillReady (Nat.lt_of_succ_lt countable)
      refine ⟨depth + further + 6, ?_⟩
      rw [ready.pass countable, bind_of_ok (call_deepen (by omega) applied)]
      exact unwrap_array (call_deepen (by omega) ends)

/-- Entering the function changes no old scope. -/
theorem frame_opening (elements : List Value) (function : Value) (machine : Machine) :
    Machine.Frame none machine (opening elements function machine) :=
  machine.heap.frame_create _

section

variable {elements : List Value} (isMap : machine.heap.lookup 0 "map" = some (.function map))

include isMap

theorem size_pos : 0 < machine.heap.size := by
  rw [Heap.lookup] at isMap
  cases found : machine.heap.scopes[0]? with
  | none => simp [found] at isMap
  | some scope => exact (Array.getElem?_eq_some_iff.mp found).1

/-- Inside, the parameters and the inner function come before what is bound outside. -/
theorem lookup_opening (name : String) :
    (opening elements function machine).heap.lookup machine.heap.size name =
      ([("iter", .function (iter machine.heap.size)), ("f", function),
        ("arr", .array elements)].lookup name).or (machine.heap.lookup 0 name) :=
  machine.heap.lookup_create _ (size_pos isMap) name

/-- The first round may begin once the function is entered. -/
theorem ready_opening (unbound : ∀ name ∈ used, machine.heap.lookup 0 name = none) :
    Ready machine.heap.size function (opening elements function machine) where
  recursive := lookup_opening isMap "iter"
  function := lookup_opening isMap "f"
  builtins := by
    intro word member
    rw [lookup_opening isMap, unbound word member]
    simp only [used, List.mem_cons, List.not_mem_nil, or_false] at member
    rcases member with rfl | rfl | rfl | rfl <;> rfl
  old := by
    rw [opening, Heap.size_create]
    exact Nat.lt_succ_self _

/-- The last statement starts the rounds with all elements and nothing done. -/
theorem expression_start (depth : Nat) :
    expression .standard (depth + 2) start machine.heap.size (opening elements function machine) =
      call (expression .standard (depth + 1)) (.function (iter machine.heap.size))
        [.array elements, .array []] (opening elements function machine) := by
  have found (text : String) := @lookup_opening function machine elements isMap text
  have nothing : expression .standard (depth + 1) (.array ⟨.leftBracket, "["⟩ [])
      machine.heap.size (opening elements function machine) =
        (pure (.array []) : Evaluation Value) (opening elements function machine) := rfl
  rw [start, expression_calling (expression_name (found "iter")),
    bind_of_eq (each_pair (expression_name (found "arr")) nothing)]
  rfl

/-- A call of `map` binds `iter` and calls it with nothing done. -/
theorem call_map (depth : Nat) :
    call (expression .standard (depth + 2)) (.function map) [.array elements, function] machine =
      (call (expression .standard (depth + 1)) (.function (iter machine.heap.size))
        [.array elements, .array []] >>= fun value => pure (unwrap value))
          (opening elements function machine) := by
  let created : Machine := { machine with
    heap := (machine.heap.create ⟨[("f", function), ("arr", .array elements)], some 0⟩).2 }
  have bound : bindName machine.heap.size "iter" (.function (iter machine.heap.size)) created =
      some (.ok (), opening elements function machine) := by
    rw [bindName, change_apply, Heap.bind_create]
    rfl
  have first : statement (expression .standard (depth + 2)) machine.heap.size
      (.bind ⟨.letWord, "let"⟩ (ident "iter") (loop 1)) created =
        some (.ok none, opening elements function machine) := by
    have literal : expression .standard (depth + 2) (loop 1) machine.heap.size created =
        some (.ok (.function (iter machine.heap.size)), created) := rfl
    rw [statement, bind_of_ok literal]
    exact bind_of_ok bound
  have whole : block (expression .standard (depth + 2)) machine.heap.size (body 1) created =
      call (expression .standard (depth + 1)) (.function (iter machine.heap.size))
        [.array elements, .array []] (opening elements function machine) := by
    have last := block_braces (expression .standard (depth + 2)) machine.heap.size
      ⟨.ident, "iter"⟩ start
    rw [← expression_start isMap, ← last]
    exact bind_of_ok first
  exact bind_of_eq whole

end

/-- A call of the function ends just as its rounds do, and with the array of the results. -/
theorem map_iff {elements : List Value} {collection callback : Ident}
    (isMap : machine.heap.lookup 0 "map" = some (.function map))
    (unbound : ∀ name ∈ used, machine.heap.lookup 0 name = none)
    (isCollection : machine.heap.lookup 0 collection.name = some (.array elements))
    (isCallback : machine.heap.lookup 0 callback.name = some function)
    (countable : elements.length < 2 ^ 64) (token word : Token)
    (outcome : Except RuntimeError Value) :
    (∃ depth, expression .standard depth (.call token (.ident ⟨word, "map"⟩)
        [.ident collection, .ident callback]) 0 machine = some (outcome, after)) ↔
      ∃ applications result, Rounds function machine.heap.size elements []
        (opening elements function machine) applications result after ∧
          outcome = Value.array <$> result := by
  have ready := @ready_opening function machine elements isMap unbound
  have unfolded (depth : Nat) : expression .standard (depth + 3)
      (.call token (.ident ⟨word, "map"⟩) [.ident collection, .ident callback]) 0 machine =
        (call (expression .standard (depth + 1)) (.function (iter machine.heap.size))
          [.array elements, .array []] >>= fun value => pure (unwrap value))
            (opening elements function machine) := by
    have callee := @expression_ident .standard (depth + 1) 0 machine ⟨word, "map"⟩ _ isMap
    have first := @expression_ident .standard (depth + 1) _ _ _ _ isCollection
    have second := @expression_ident .standard (depth + 1) _ _ _ _ isCallback
    have arguments : each (expression .standard (depth + 2)) 0
        [.ident collection, .ident callback] machine =
          some (.ok [.array elements, function], machine) := by
      rw [each, bind_of_ok first, bind_of_ok (each_singleton second), pure_apply]
    rw [expression, node, bind_of_ok callee, bind_of_ok arguments, call_map isMap]
  constructor
  · rintro ⟨depth, ends⟩
    have deeper := refines_expression .standard (Nat.le_add_right depth 3) _ _ ends
    rw [unfolded] at deeper
    obtain ⟨answer, goesOn⟩ := ends_of_unwrap deeper
    obtain ⟨applications, result, rounds, rfl⟩ := ready.rounds countable goesOn
    rw [unwrap_array goesOn] at deeper
    cases deeper
    exact ⟨applications, result, rounds, rfl⟩
  · rintro ⟨applications, result, rounds, rfl⟩
    obtain ⟨depth, ends⟩ := rounds.ends ready countable
    refine ⟨depth + 3, ?_⟩
    rw [unfolded]
    exact unwrap_array (call_deepen (Nat.le_succ depth) ends)

/-- The program defines `map`, and wherever the names that `map` uses mean in the outermost scope
what they mean then, an application of `map` to an array and a function, which other names stand
for, ends just as rounds end that apply the function to one element after the other. Where all
applications end with values, each element has been an argument once, from left to right, and the
result has their values; where one fails, the result is its error, and no element behind has been
an argument. The output is what the applications have written, one behind the other, and no binding
that was there has changed. The length of an array is a word, so there are fewer than `2 ^ 64`
elements. -/
theorem applies_in_turn (output : Output) {machine : Machine} {elements : List Value}
    {function : Value} {collection callback : Ident}
    (named : ∀ name ∈ ["map", "len", "pop", "push", "first"],
      machine.heap.lookup 0 name = (defined output).lookup 0 name)
    (isCollection : machine.heap.lookup 0 collection.name = some (.array elements))
    (isCallback : machine.heap.lookup 0 callback.name = some function)
    (countable : elements.length < 2 ^ 64) (token word : Token) :
    (∀ depth, 0 < depth →
      (Session.fresh output).2.run depth definition (Session.fresh output).1 =
        some (.ok none, defined output)) ∧
    (∀ outcome after,
      (∃ depth, expression .standard depth
        (.call token (.ident ⟨word, "map"⟩) [.ident collection, .ident callback]) 0 machine =
          some (outcome, after)) ↔
      ∃ applications result,
        Rounds function machine.heap.size elements [] (opening elements function machine)
          applications result after ∧ outcome = Value.array <$> result) ∧
    ∀ applications result after,
      Rounds function machine.heap.size elements [] (opening elements function machine)
        applications result after →
      Account function elements machine applications result after ∧
        after.heap.lookup 0 collection.name = some (.array elements) := by
  have isMap : machine.heap.lookup 0 "map" = some (.function map) :=
    (named "map" (by decide)).trans (by with_unfolding_all rfl)
  have unbound : ∀ name ∈ used, machine.heap.lookup 0 name = none := by
    intro name member
    rw [named name (List.mem_cons_of_mem _ member)]
    simp only [used, List.mem_cons, List.not_mem_nil, or_false] at member
    rcases member with rfl | rfl | rfl | rfl <;> with_unfolding_all rfl
  refine ⟨fun depth positive => ?_, fun outcome after => ?_, ?_⟩
  · obtain ⟨depth, rfl⟩ := Nat.exists_eq_add_one_of_ne_zero (Nat.ne_of_gt positive)
    exact run_definition output depth
  · exact map_iff isMap unbound isCollection isCallback countable token word outcome
  · intro applications result after rounds
    have account := rounds.account (frame_opening elements function machine) rfl
    refine ⟨account, ?_⟩
    rw [Heap.Frame.lookup account.scopes (size_pos isMap)]
    exact isCollection

/-- The machine behind the definition, with two more names bound by the host. -/
def given (elements : List Value) (function : Value) : Machine :=
  (((defined (.buffer "")).bind 0 "xs" (.array elements)).bind 0 "g" function).machine

section

variable (elements : List Value) (function : Value)

theorem named_given : ∀ name ∈ ["map", "len", "pop", "push", "first"],
    (given elements function).heap.lookup 0 name = (defined (.buffer "")).lookup 0 name := by
  intro name member
  simp only [List.mem_cons, List.not_mem_nil, or_false] at member
  rcases member with rfl | rfl | rfl | rfl | rfl <;> with_unfolding_all rfl

theorem collection_given :
    (given elements function).heap.lookup 0 "xs" = some (.array elements) := by
  with_unfolding_all rfl

theorem callback_given : (given elements function).heap.lookup 0 "g" = some function := by
  with_unfolding_all rfl

end

/-- With `print` the numbers of an array are written one behind the other. With `first` an array of
arrays ends at the element that is none, and the one behind it is no argument. -/
theorem applies_in_turn_builtins :
    (∃ depth after, expression .standard depth (calling "map" [name "xs", name "g"]) 0
      (given [.integer 1, .integer 2, .integer 3] (.builtin "print" .print)) =
        some (.ok (.array [.void, .void, .void]), after) ∧ after.output = .buffer "123") ∧
    ∃ depth after applications, expression .standard depth
      (calling "map" [name "xs", name "g"]) 0
        (given [.array [.integer 1], .integer 5, .array []] (.builtin "first" .first)) =
          some (.error (.wrongArgument "first" .array .integer), after) ∧
      applications.map Application.argument = [.array [.integer 1], .integer 5] ∧
      Account (.builtin "first" .first) [.array [.integer 1], .integer 5, .array []]
        (given [.array [.integer 1], .integer 5, .array []] (.builtin "first" .first))
        applications (.error (.wrongArgument "first" .array .integer)) after := by
  have mapped (elements : List Value) (function : Value) (countable : elements.length < 2 ^ 64) :=
    (@applies_in_turn (.buffer "") _ elements function (ident "xs") (ident "g")
      (named_given elements function) (collection_given elements function)
      (callback_given elements function) countable ⟨.leftParen, "("⟩ ⟨.ident, "map"⟩).2
  have prints (argument : Value) (heap : Heap) (text : String) :
      Application.Happens (.builtin "print" .print) ⟨argument, ⟨heap, .buffer text⟩, .ok .void,
        ⟨heap, .buffer (text ++ Text.unescape (Builtin.inspectAll [argument]))⟩⟩ := ⟨0, rfl⟩
  have finds (element : Value) (before : Machine) : Application.Happens (.builtin "first" .first)
      ⟨.array [element], before, .ok element, before⟩ := ⟨0, rfl⟩
  have fails (number : Int64) (before : Machine) : Application.Happens (.builtin "first" .first)
      ⟨.integer number, before, .error (.wrongArgument "first" .array .integer), before⟩ := ⟨0, rfl⟩
  constructor
  · let elements : List Value := [.integer 1, .integer 2, .integer 3]
    let print : Value := .builtin "print" .print
    have rounds : Rounds print (given elements print).heap.size elements []
        (opening elements print (given elements print)) _ (.ok [.void, .void, .void]) _ :=
      .pass (prints _ _ _) (.pass (prints _ _ _) (.pass (prints _ _ _) .finish))
    obtain ⟨depth, ends⟩ := ((mapped elements print (by decide)).1 _ _).mpr ⟨_, _, rounds, rfl⟩
    exact ⟨depth, _, ends, by with_unfolding_all rfl⟩
  · let elements : List Value := [.array [.integer 1], .integer 5, .array []]
    let first : Value := .builtin "first" .first
    have rounds : Rounds first (given elements first).heap.size elements []
        (opening elements first (given elements first)) _
        (.error (.wrongArgument "first" .array .integer)) _ :=
      .pass (finds _ _) (.stop (fails _ _))
    obtain ⟨depth, ends⟩ := ((mapped elements first (by decide)).1 _ _).mpr ⟨_, _, rounds, rfl⟩
    exact ⟨depth, _, _, ends, rfl, ((mapped elements first (by decide)).2 _ _ _ rounds).1⟩

end Monkey.Mapping
