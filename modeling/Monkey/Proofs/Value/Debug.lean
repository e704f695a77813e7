import Mathlib
import Monkey.Proofs.Evaluation.Termination
import Monkey.Proofs.Text.Form
import Monkey.Proofs.Value.Equality

/-!
What the debugging text of a value says. The texts of errors and of values without functions have a
form. The form can be read off the text, and it says just what equality looks at. So two such values
are the same if and only if they have the same debugging text.
-/

namespace Monkey

open Text

/-- The decimal digits of an integer, with its sign. -/
def Text.Word.decimal (value : Int) : Word where
  text := toString value
  nonempty := by
    change value.repr.toList ≠ []
    rw [Int.repr_eq_if]
    split
    · rw [Nat.toList_repr]
      exact Nat.toDigits_ne_nil
    · simp
  plain := by
    have digits (size : Nat) : size.repr.toList.all inWords := by
      rw [List.all_eq_true, Nat.toList_repr]
      intro char member
      have digit := Nat.isDigit_of_mem_toDigits (by decide) (by decide) member
      simp [inWords, Char.isAlphanum, digit]
    change value.repr.toList.all inWords
    rw [Int.repr_eq_if]
    split
    · exact digits _
    · rw [String.toList_append, List.all_append, digits]
      decide

/-- Integers are told apart by their digits. -/
@[simp] theorem Text.Word.decimal_inj {value another : Int} :
    decimal value = decimal another ↔ value = another := by
  rw [Word.ext_iff]
  exact Int.repr_inj

/-- The word for a boolean. -/
def Text.Word.boolean (value : Bool) : Word :=
  if value then .mk "true" else .mk "false"

@[simp] theorem Text.Word.boolean_inj {value another : Bool} :
    boolean value = boolean another ↔ value = another := by
  cases value <;> cases another <;> simp [boolean]

/-- The word for a kind. -/
def Value.Kind.word (kind : Value.Kind) : Word where
  text := kind.debug
  nonempty := by cases kind <;> decide
  plain := by cases kind <;> decide

@[simp] theorem Value.Kind.word_text (kind : Value.Kind) : kind.word.text = kind.debug := rfl

@[simp] theorem Value.Kind.word_inj {kind another : Value.Kind} :
    kind.word = another.word ↔ kind = another := by
  rw [Word.ext_iff, word_text, word_text]
  cases kind <;> cases another <;> decide

namespace RuntimeError

/-- The word for an error. -/
def word (error : RuntimeError) : Word where
  text := error.name
  nonempty := by cases error <;> simp only [name] <;> decide
  plain := by cases error <;> simp only [name] <;> decide

@[simp] theorem word_text (error : RuntimeError) : error.word.text = error.name := rfl

/-- Errors have one word just when they have one name. -/
theorem word_inj {error another : RuntimeError} :
    error.word = another.word ↔ error.name = another.name :=
  Word.ext_iff

/-- The form of the debugging text: the name of the cause with what is known besides. -/
def form (error : RuntimeError) : Form :=
  match error with
  | typeMismatch left operator right | unknownBinary left operator right =>
      .record error.word [⟨.mk "left", .word left.word⟩, ⟨.mk "operator", .quoted operator⟩,
        ⟨.mk "right", .word right.word⟩]
  | unknownUnary operator operand =>
      .record error.word [⟨.mk "operator", .quoted operator⟩, ⟨.mk "right", .word operand.word⟩]
  | divisionByZero => .leaf (.word error.word)
  | overflow left operator right =>
      .record error.word [⟨.mk "left", .word (.decimal left.toInt)⟩,
        ⟨.mk "operator", .quoted operator⟩, ⟨.mk "right", .word (.decimal right.toInt)⟩]
  | unbound name => .wrapped error.word (.leaf (.quoted name))
  | notCallable found | notIndexable found => .wrapped error.word (.leaf (.word found.word))
  | argumentCount found wanted =>
      .record error.word [⟨.mk "got", .word (.decimal found)⟩,
        ⟨.mk "want", .word (.decimal wanted)⟩]
  | unsupportedArgument function found =>
      .record error.word [⟨.mk "name", .quoted function⟩, ⟨.mk "got", .word found.word⟩]
  | wrongArgument function wanted found =>
      .record error.word [⟨.mk "name", .quoted function⟩, ⟨.mk "expected", .word wanted.word⟩,
        ⟨.mk "got", .word found.word⟩]
  | output reason => .wrapped error.word (.leaf (.quoted reason))

/-- The debugging text of an error is that of its form. -/
theorem debug_eq (error : RuntimeError) : error.debug = error.form.text := by
  rw [debug, ← word_text]
  unfold details form
  cases error <;>
    simp only [Form.text, Leaf.text, Field.text, commaSeparated, String.intercalate_cons_cons,
      String.intercalate_singleton, Word.decimal, Integer.decimal, Value.Kind.word_text,
      List.map_cons, List.map_nil, String.append_assoc]
  all_goals rfl

/-- The form of an error starts with its name. -/
theorem front_form (error : RuntimeError) : error.form.front = error.name.toList := by
  cases error <;> rfl

/-- Errors are told apart by their forms. -/
theorem form_inj {error another : RuntimeError} (same : error.form = another.form) :
    error = another := by
  have sameName : error.name = another.name := by
    apply String.toList_inj.mp
    rw [← front_form, same, front_form]
  -- The name tells the causes apart, and the leaves tell the errors of one cause apart.
  unfold form at same
  cases error <;> cases another <;> simp [name] at sameName
  case divisionByZero.divisionByZero => rfl
  all_goals simpa [word_inj, name, Int64.toInt_inj] using same

end RuntimeError

namespace Value

mutual

/-- The form of the debugging text, where the text of a function is left out. -/
def form : Value → Form
  | integer value => .wrapped (.mk "Integer") (.leaf (.word (.decimal value.toInt)))
  | boolean value => .wrapped (.mk "Boolean") (.leaf (.word (.boolean value)))
  | text value => .wrapped (.mk "Str") (.leaf (.quoted value))
  | array elements => .wrapped (.mk "Array") (.listed (formEach elements))
  | function _ => .leaf (.word (.mk "Function"))
  | builtin name _ => .wrapped (.mk "Builtin") (.leaf (.quoted name))
  | returned value => .wrapped (.mk "Return") value.form
  | error cause => .wrapped (.mk "Error") cause.form
  | null => .leaf (.word (.mk "Null"))
  | void => .leaf (.word (.mk "Void"))

def formEach : List Value → List Form
  | [] => []
  | first :: others => first.form :: formEach others

end

mutual

/-- The debugging text of a value without functions is that of its form. -/
theorem debug_eq (value : Value) (free : value.FunctionFree) : value.debug = value.form.text := by
  match value with
  | array elements =>
      rw [hereditary_functionFree.array] at free
      rw [debug, form, Form.text, Form.text, debugEach_eq elements free]
      simp only [String.append_assoc]
      rfl
  | function closure => cases free
  | returned inner =>
      rw [debug, form, Form.text, debug_eq inner free]
      rfl
  | error cause =>
      rw [debug, form, Form.text, cause.debug_eq]
      rfl
  | boolean value => cases value <;> rfl
  | integer _ | text _ | builtin _ _ | null | void => rfl

theorem debugEach_eq (values : List Value) (free : ∀ value ∈ values, value.FunctionFree) :
    debugEach values = Form.textEach (formEach values) := by
  match values with
  | [] => rfl
  | first :: others =>
      rw [List.forall_mem_cons] at free
      rw [debugEach, formEach, Form.textEach, debug_eq first free.1, debugEach_eq others free.2]

end

mutual

/-- The form of a value shows no more than its identity. -/
theorem form_identity (value : Value) : value.identity.form = value.form := by
  match value with
  | array elements => rw [identity, form, form, formEach_identityEach elements]
  | returned inner => rw [identity, form, form, form_identity inner]
  | integer _ | boolean _ | text _ | function _ | builtin _ _ | error _ | null | void => rfl

theorem formEach_identityEach (values : List Value) :
    formEach (identityEach values) = formEach values := by
  match values with
  | [] => rfl
  | first :: others =>
      rw [identityEach, formEach, formEach, form_identity first, formEach_identityEach others]

end

mutual

/-- The form says all that equality looks at. -/
theorem identity_of_form (left right : Value) (free : left.FunctionFree)
    (same : left.form = right.form) : left.identity = right.identity := by
  match left with
  | array lefts =>
      cases right with
      | array rights =>
          rw [hereditary_functionFree.array] at free
          simp only [form, Form.wrapped.injEq, Form.listed.injEq, true_and] at same
          rw [identity, identity, identityEach_of_form lefts rights free same]
      | _ => simp [form] at same
  | function closure => cases free
  | returned leftInner =>
      cases right with
      | returned rightInner =>
          simp only [form, Form.wrapped.injEq, true_and] at same
          rw [identity, identity, identity_of_form leftInner rightInner free same]
      | _ => simp [form] at same
  | error cause =>
      cases right with
      | error another =>
          simp only [form, Form.wrapped.injEq, true_and] at same
          rw [RuntimeError.form_inj same]
      | _ => simp [form] at same
  | integer _ | boolean _ | text _ | builtin _ _ =>
      cases right <;> simp [form, Int64.toInt_inj] at same
      simp [identity, same]
  | null | void =>
      cases right <;> simp [form] at same
      rfl

theorem identityEach_of_form (lefts rights : List Value)
    (free : ∀ left ∈ lefts, left.FunctionFree) (same : formEach lefts = formEach rights) :
    identityEach lefts = identityEach rights := by
  match lefts, rights with
  | [], [] => rfl
  | [], _ :: _ | _ :: _, [] => simp [formEach] at same
  | left :: lefts, right :: rights =>
      rw [List.forall_mem_cons] at free
      obtain ⟨sameFirst, sameOthers⟩ := List.cons.inj same
      rw [identityEach, identityEach, identity_of_form left right free.1 sameFirst,
        identityEach_of_form lefts rights free.2 sameOthers]

end

/-- Values without functions are the same just when they have the same debugging text. -/
theorem debug_eq_iff_same {left right : Value} (leftFree : left.FunctionFree)
    (rightFree : right.FunctionFree) : left.debug = right.debug ↔ left.same right = true := by
  rw [debug_eq left leftFree, debug_eq right rightFree, same_iff]
  constructor
  · intro sameText
    exact identity_of_form left right leftFree (Form.text_inj sameText)
  · intro sameIdentity
    rw [← form_identity left, sameIdentity, form_identity]

/-- A text that imitates the end of one item and the beginning of the next one, and two built-in
functions of one name. -/
theorem debug_eq_iff_same_imitation :
    let imitating := array [text "a\"), Str(\"b", builtin "len" .len]
    let imitated := array [text "a", text "b", builtin "len" .len]
    let namesake := array [text "a\"), Str(\"b", builtin "len" .first]
    imitating.FunctionFree ∧ imitated.FunctionFree ∧ namesake.FunctionFree ∧
      imitating.debug ≠ imitated.debug ∧ imitating.debug = namesake.debug ∧
      imitating.same namesake = true := by
  intro imitating imitated namesake
  have free : imitating.FunctionFree := rfl
  have imitatedFree : imitated.FunctionFree := rfl
  have namesakeFree : namesake.FunctionFree := rfl
  have equalText : imitating.debug = namesake.debug := rfl
  have different : imitating.debug ≠ imitated.debug := by
    rw [ne_eq, debug_eq_iff_same free imitatedFree]
    simp [imitating, imitated, same, sameEach]
  exact ⟨free, imitatedFree, namesakeFree, different, equalText,
    (debug_eq_iff_same free namesakeFree).mp equalText⟩

end Value

end Monkey
