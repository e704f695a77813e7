import Monkey.Proofs.Evaluation.Exposure
import Monkey.Proofs.Reader.WellFormed
import Monkey.Proofs.Session.Errors

/-!
Operators that a session meets. A text can only spell operators of the language, and functions keep
the code that they were read with, wherever they are bound and however deep in arrays; so no
evaluation of a text complains about an operator that the language does not have.
-/

namespace Monkey

open Bounded

/-- All the code in the value is as if it had been read. -/
def Value.CodeWellFormed (value : Value) : Prop :=
  ∀ closure ∈ value.closures, closure.body.Every Node.WellFormed

namespace Value

/-- An array holds well-formed code only when its elements do. -/
theorem hereditary_codeWellFormed : Hereditary CodeWellFormed :=
  hereditary_closures _

/-- A function holds well-formed code when its body is well formed. -/
theorem codeWellFormed_function {closure : Closure} :
    (Value.function closure).CodeWellFormed ↔ closure.body.Every Node.WellFormed :=
  List.forall_mem_singleton

/-- A value of the kind of integers is an integer. -/
theorem eq_integer {value : Value} (isInteger : value.kind = .integer) :
    ∃ integer, value = .integer integer := by
  cases value with
  | integer integer => exact ⟨integer, rfl⟩
  | _ => cases isInteger

end Value

/-- If the error says that an operator is not known, the language has the operator, but not for such
operands: a minus sign in front of something else than an integer, or an operator between operands
that are no integers. -/
def RuntimeError.AboutKnown : RuntimeError → Prop
  | .unknownUnary operator _ => operator = "-"
  | .unknownBinary left _ right => left ≠ .integer ∧ right ≠ .integer
  | _ => True

/-- An error that is not about operators is not about unknown ones. -/
theorem RuntimeError.aboutKnown_of_other {cause : RuntimeError}
    (other : cause.aboutOperator = false) : cause.AboutKnown := by
  cases cause with
  | unknownUnary _ _ | unknownBinary _ _ _ => cases other
  | _ => exact trivial

namespace Operator

/-- A negation complains about no unknown operator. -/
theorem negate_raises (operand : Int64) : Raises RuntimeError.AboutKnown (negate operand) := by
  unfold negate
  split
  · exact raises_ok _
  · exact raises_error trivial

/-- A known unary operator complains about its operand at most. -/
theorem unary_raises {operator : String} (known : operator ∈ unaries) (operand : Value) :
    Raises RuntimeError.AboutKnown (unary operator operand) := by
  unfold unary
  split
  · exact raises_ok _
  · exact negate_raises _
  · next noBang _ =>
      apply raises_error
      rcases List.mem_pair.mp known with isBang | isMinus
      · exact absurd isBang noBang
      · exact isMinus

/-- Arithmetic complains about no unknown operator. -/
theorem arithmetic_raises (left : Int64) (operator : String) (right : Int64) (result : Int) :
    Raises RuntimeError.AboutKnown (arithmetic left operator right result) := by
  unfold arithmetic
  split
  · exact raises_ok _
  · exact raises_error trivial

/-- All operators between operands are known for integers. -/
theorem onIntegers_raises {operator : String} (known : operator ∈ binaries) (left right : Int64) :
    Raises RuntimeError.AboutKnown (onIntegers operator left right) := by
  unfold onIntegers
  split
  · exact arithmetic_raises _ _ _ _
  · exact arithmetic_raises _ _ _ _
  · exact arithmetic_raises _ _ _ _
  · split
    · exact raises_error trivial
    · exact arithmetic_raises _ _ _ _
  · exact raises_ok _
  · exact raises_ok _
  · exact raises_ok _
  · exact raises_ok _
  · simp_all [binaries]

/-- An operator on texts complains about its operands at most. -/
theorem onTexts_raises (operator left right : String) :
    Raises RuntimeError.AboutKnown (onTexts operator left right) := by
  unfold onTexts
  split
  · exact raises_ok _
  · exact raises_error ⟨by decide, by decide⟩

/-- An operator on other values complains about its operands at most. -/
theorem onOthers_raises (operator : String) {left right : Value} (same : left.kind = right.kind)
    (noInteger : left.kind ≠ .integer) :
    Raises RuntimeError.AboutKnown (onOthers operator left right) := by
  unfold onOthers
  split
  · exact raises_ok _
  · exact raises_ok _
  · exact raises_error ⟨noInteger, same ▸ noInteger⟩

/-- A known binary operator complains about its operands at most. -/
theorem binary_raises {operator : String} (known : operator ∈ binaries) (left right : Value) :
    Raises RuntimeError.AboutKnown (binary operator left right) := by
  unfold binary
  split
  · exact raises_error trivial
  · next same =>
      split
      · exact onIntegers_raises known _ _
      · exact onTexts_raises _ _ _
      · next noIntegers _ =>
          apply onOthers_raises operator (not_not.mp same)
          intro isInteger
          obtain ⟨_, rfl⟩ := Value.eq_integer isInteger
          obtain ⟨_, rfl⟩ := Value.eq_integer (not_not.mp same ▸ isInteger)
          exact noIntegers _ _ rfl rfl

end Operator

/-- The code that evaluation comes to, and that it puts into functions, is what was read. -/
def Evaluation.Invariant.wellFormed (builtins : Builtins) : Invariant builtins where
  node := Node.WellFormed
  heap := Heap.All Value.CodeWellFormed
  value _ := Value.CodeWellFormed
  scope _ _ := True
  error := RuntimeError.AboutKnown
  hereditary _ := Value.hereditary_codeWellFormed
  builtin known := by
    obtain ⟨_, rfl⟩ := Builtins.exists_of_lookup known
    simp [Value.CodeWellFormed, Value.closures]
  returned := Iff.rfl
  value_mono _ holds := holds
  scope_mono _ inside := inside
  lookup start found := start.lookup found
  bind number name := fun start holds => start.bind number name holds
  create start _ each := ⟨start.create (callScope_all _ each), trivial⟩
  function every _ := Value.codeWellFormed_function.mpr (Expr.every_function.mp every).2.2
  body := Value.codeWellFormed_function.mp
  unary item formed := Operator.unary_raises formed.2 item
  binary first second formed := Operator.binary_raises formed.2 first second
  others := RuntimeError.aboutKnown_of_other

namespace Session

open Evaluation

/-- A run that ends with an error about an operator names a known one. -/
theorem run_aboutKnown {session after : Session} {depth scope : Nat} {source : String}
    {cause : RuntimeError} (start : session.machine.All Value.CodeWellFormed)
    (errorFree : session.machine.ErrorFree)
    (ends : session.run depth source scope = some (.ok (some (.error cause)), after)) :
    cause.AboutKnown := by
  obtain ⟨outcome, machine, programEnds, isAnswer, _⟩ :=
    evaluate_eq_some.mp (run_eq_ok.mp ends).2
  have every := Program.every_label Node.carries_wellFormed (Program.read source).1
    session.nextLabel (Program.nodes_wellFormed source)
  have holds : (Invariant.wellFormed session.builtins).Holds
      ((session.load (Program.read source).1).2.beginning depth
        (session.load (Program.read source).1).1 scope) := ⟨⟨every, trivial⟩, start⟩
  cases outcome with
  | error raised =>
      cases isAnswer
      exact (holds.ends programEnds).raises cause rfl
  | ok result =>
      -- A value that was computed is no error, so this error would have come from nowhere.
      have kept := (errorFree_beginning errorFree depth scope _).ends programEnds
      cases kept.yields result rfl _ isAnswer.symm

/-- Every node of what is read is well formed, also when there are errors. So no text that is run in
a fresh session is answered with the error that some other operator than the minus sign is not known
for an operand, or that an operator is not known for integers. -/
theorem operators_known (source : String) :
    (∀ node ∈ (Program.read source).1.nodes, node.WellFormed) ∧
    ∀ output depth cause after,
      (fresh output).2.run depth source (fresh output).1 =
        some (.ok (some (.error cause)), after) →
      (∀ operator operand, cause = .unknownUnary operator operand → operator = "-") ∧
      ∀ left operator right, cause = .unknownBinary left operator right →
        left ≠ .integer ∧ right ≠ .integer := by
  refine ⟨Program.nodes_wellFormed source, fun output depth cause after ends => ?_⟩
  have known := run_aboutKnown (fresh_all output) (fresh_all output) ends
  constructor
  · rintro operator operand rfl
    exact known
  · rintro left operator right rfl
    exact known

/-- The text `fn(x) { -x }(true)` is answered with the error that the minus sign is not known for
truth values. -/
theorem operators_known_in_function :
    ∃ after, (fresh (.buffer "")).2.run 4 "fn(x) \x7b -x \x7d(true)" (fresh (.buffer "")).1 =
        some (.ok (some (.error (.unknownUnary "-" .boolean))), after) ∧
      ∀ operator operand, RuntimeError.unknownUnary "-" .boolean = .unknownUnary operator operand →
        operator = "-" := by
  have answered : ((fresh (.buffer "")).2.run 4 "fn(x) \x7b -x \x7d(true)"
      (fresh (.buffer "")).1).map Prod.fst =
        some (.ok (some (.error (.unknownUnary "-" .boolean)))) := by
    with_unfolding_all rfl
  obtain ⟨⟨_, after⟩, ends, rfl⟩ := Option.map_eq_some_iff.mp answered
  exact ⟨after, ends, ((operators_known _).2 _ _ _ after ends).1⟩

end Session

end Monkey
