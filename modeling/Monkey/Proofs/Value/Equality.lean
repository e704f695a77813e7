import Mathlib.Logic.Basic
import Monkey.Proofs.Syntax.Labels
import Monkey.Proofs.Value.Hereditary

/-!
Equality of values. Values are equal when they have the same identity, which keeps of a function the
label and the scope, and of a built-in function the name. So equality is an equivalence, and equal
values are of one kind. Where every function comes from one of the given literals, whose labels
stand for one body and one list of parameters each, and every built-in function from one table,
nothing is lost in the identity, and only a value itself is equal to it.
-/

namespace Monkey.Value

mutual

/-- What equality looks at. -/
def identity : Value → Value
  | array elements => array (identityEach elements)
  | function closure => function ⟨closure.label, [], .mk ⟨.eof, ""⟩ [], closure.scope⟩
  | builtin name _ => builtin name .len
  | returned inner => returned inner.identity
  | other => other

def identityEach : List Value → List Value
  | [] => []
  | first :: others => first.identity :: identityEach others

end

mutual

/-- Values are equal just when their identities are. -/
theorem same_iff (left right : Value) :
    left.same right = true ↔ left.identity = right.identity := by
  match left with
  | array lefts =>
      cases right with
      | array rights => simp [same, identity, sameEach_iff lefts rights]
      | _ => simp [same, identity]
  | returned leftInner =>
      cases right with
      | returned rightInner => simp [same, identity, same_iff leftInner rightInner]
      | _ => simp [same, identity]
  | integer _ | boolean _ | text _ | function _ | builtin _ _ | error _ | null | void =>
      cases right <;> simp [same, identity]

theorem sameEach_iff (lefts rights : List Value) :
    sameEach lefts rights = true ↔ identityEach lefts = identityEach rights := by
  match lefts, rights with
  | [], [] => simp [sameEach]
  | [], _ :: _ => simp [sameEach, identityEach]
  | _ :: _, [] => simp [sameEach, identityEach]
  | left :: lefts, right :: rights =>
      simp [sameEach, identityEach, same_iff left right, sameEach_iff lefts rights]

end

/-- The kind is part of the identity. -/
theorem kind_identity (value : Value) : value.identity.kind = value.kind := by
  cases value <;> rfl

/-- What counts as true is so by its identity. -/
theorem isTruthy_identity (value : Value) : value.identity.isTruthy = value.isTruthy := by
  cases value <;> rfl

/-- Equality is reflexive, symmetric and transitive. -/
theorem same_equivalence : Equivalence fun left right : Value => left.same right = true := by
  constructor
  · intro value
    rw [same_iff]
  · intro left right equal
    rw [same_iff] at equal ⊢
    exact equal.symm
  · intro left middle right first second
    rw [same_iff] at first second ⊢
    exact first.trans second

mutual

/-- Every function in the value comes from a literal among the nodes, and so does all its code;
every built-in function comes from the table. -/
def Genuine (nodes : List (Node Nat)) (builtins : Builtins) : Value → Prop
  | array elements => GenuineEach nodes builtins elements
  | function closure =>
      (∃ token, Node.expression (.function token closure.label closure.parameters closure.body) ∈
        nodes) ∧ closure.body.Every (· ∈ nodes)
  | builtin name native => builtins.lookup name = some (builtin name native)
  | returned inner => Genuine nodes builtins inner
  | _ => True

def GenuineEach (nodes : List (Node Nat)) (builtins : Builtins) : List Value → Prop
  | [] => True
  | first :: others => Genuine nodes builtins first ∧ GenuineEach nodes builtins others

end

variable {nodes : List (Node Nat)} {builtins : Builtins}

/-- Values are genuine together when each of them is. -/
theorem genuineEach_iff {values : List Value} :
    GenuineEach nodes builtins values ↔ ∀ value ∈ values, value.Genuine nodes builtins := by
  induction values with
  | nil => simp [GenuineEach]
  | cons first others inductionHypothesis => simp [GenuineEach, inductionHypothesis]

/-- An array is genuine when all its elements are. -/
theorem hereditary_genuine (nodes : List (Node Nat)) (builtins : Builtins) :
    Hereditary (Genuine nodes builtins) where
  integer _ := by simp [Genuine]
  boolean _ := by simp [Genuine]
  text _ := by simp [Genuine]
  null := by simp [Genuine]
  void := by simp [Genuine]
  array elements := by
    rw [Genuine]
    exact genuineEach_iff

/-- What a table gives under a name is genuine. -/
theorem genuine_of_lookup {name : String} {value : Value}
    (known : builtins.lookup name = some value) : value.Genuine nodes builtins := by
  obtain ⟨native, rfl⟩ := Builtins.exists_of_lookup known
  rw [Genuine]
  exact known

mutual

/-- A value stays genuine when there are more nodes. -/
theorem Genuine.mono {more : List (Node Nat)} (le : nodes ⊆ more) {value : Value}
    (genuine : value.Genuine nodes builtins) : value.Genuine more builtins := by
  match value with
  | array elements =>
      rw [Genuine] at genuine ⊢
      exact GenuineEach.mono le genuine
  | function closure =>
      rw [Genuine] at genuine ⊢
      obtain ⟨⟨token, literal⟩, code⟩ := genuine
      exact ⟨⟨token, le literal⟩, fun node member => le (code node member)⟩
  | builtin _ _ =>
      rw [Genuine] at genuine ⊢
      exact genuine
  | returned inner =>
      rw [Genuine] at genuine ⊢
      exact Genuine.mono le genuine
  | integer _ | boolean _ | text _ | error _ | null | void => simp [Genuine]

theorem GenuineEach.mono {more : List (Node Nat)} (le : nodes ⊆ more) {values : List Value}
    (genuine : GenuineEach nodes builtins values) : GenuineEach more builtins values := by
  match values with
  | [] => simp [GenuineEach]
  | first :: others =>
      rw [GenuineEach] at genuine ⊢
      exact ⟨Genuine.mono le genuine.1, GenuineEach.mono le genuine.2⟩

end

/-- Functions with one label and one scope are one function. -/
theorem Genuine.closure_eq (bodies : Node.OneBody nodes) (lists : Node.OneParameterList nodes)
    {left right : Closure} (leftGenuine : (function left).Genuine nodes builtins)
    (rightGenuine : (function right).Genuine nodes builtins) (labels : left.label = right.label)
    (scopes : left.scope = right.scope) : left = right := by
  rw [Genuine] at leftGenuine rightGenuine
  obtain ⟨⟨leftToken, leftLiteral⟩, _⟩ := leftGenuine
  obtain ⟨⟨rightToken, rightLiteral⟩, _⟩ := rightGenuine
  rw [← labels] at rightLiteral
  have sameList : left.parameters = right.parameters := lists leftLiteral rightLiteral
  have sameBody : left.body = right.body := bodies leftLiteral rightLiteral
  cases left
  cases right
  simp_all

mutual

/-- Genuine values with one identity are one value, when a body has one list of parameters. -/
theorem Genuine.eq_of_identity (bodies : Node.OneBody nodes)
    (lists : Node.OneParameterList nodes) {left right : Value}
    (leftGenuine : left.Genuine nodes builtins) (rightGenuine : right.Genuine nodes builtins)
    (identities : left.identity = right.identity) : left = right := by
  match left with
  | array lefts =>
      cases right with
      | array rights =>
          simp only [identity, array.injEq] at identities
          rw [Genuine] at leftGenuine rightGenuine
          rw [GenuineEach.eq_of_identity bodies lists leftGenuine rightGenuine identities]
      | _ => simp [identity] at identities
  | function closure =>
      cases right with
      | function other =>
          simp only [identity, function.injEq, Closure.mk.injEq, true_and] at identities
          rw [leftGenuine.closure_eq bodies lists rightGenuine identities.1 identities.2]
      | _ => simp [identity] at identities
  | builtin name native =>
      cases right with
      | builtin other otherNative =>
          simp only [identity, builtin.injEq, and_true] at identities
          rw [Genuine] at leftGenuine rightGenuine
          rw [identities, rightGenuine] at leftGenuine
          simp_all
      | _ => simp [identity] at identities
  | returned inner =>
      cases right with
      | returned other =>
          simp only [identity, returned.injEq] at identities
          rw [Genuine] at leftGenuine rightGenuine
          rw [Genuine.eq_of_identity bodies lists leftGenuine rightGenuine identities]
      | _ => simp [identity] at identities
  | integer _ | boolean _ | text _ | error _ | null | void =>
      cases right <;> simp_all [identity]

theorem GenuineEach.eq_of_identity (bodies : Node.OneBody nodes)
    (lists : Node.OneParameterList nodes) {lefts rights : List Value}
    (leftsGenuine : GenuineEach nodes builtins lefts)
    (rightsGenuine : GenuineEach nodes builtins rights)
    (identities : identityEach lefts = identityEach rights) : lefts = rights := by
  match lefts, rights with
  | [], [] => rfl
  | [], _ :: _ => simp [identityEach] at identities
  | _ :: _, [] => simp [identityEach] at identities
  | left :: lefts, right :: rights =>
      rw [GenuineEach] at leftsGenuine rightsGenuine
      simp only [identityEach, List.cons.injEq] at identities
      rw [Genuine.eq_of_identity bodies lists leftsGenuine.1 rightsGenuine.1 identities.1,
        GenuineEach.eq_of_identity bodies lists leftsGenuine.2 rightsGenuine.2 identities.2]

end

end Monkey.Value
