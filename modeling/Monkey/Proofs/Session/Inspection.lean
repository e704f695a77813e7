import Monkey.Proofs.Evaluation.Exposure
import Monkey.Proofs.Grammar.Joining
import Monkey.Proofs.Grammar.Rendering
import Monkey.Proofs.Session.Answer
import Monkey.Proofs.Value.Alike

/-!
The text of a value is a program for the value. What integers, booleans and arrays are made of is
written as it is read: an array in brackets, and a negative integer as the negation of a number. One
integer has no such text. The number in the text of the least integer is larger than all integers,
so a text with it is refused.
-/

namespace Monkey

open Grammar

/-- A value made of integers, booleans and arrays alone. -/
inductive Value.Literal : Value → Prop
  | integer (value : Int64) : Literal (.integer value)
  | boolean (value : Bool) : Literal (.boolean value)
  | array {elements : List Value} (each : ∀ element ∈ elements, Literal element) :
      Literal (.array elements)

/-- The integer is in the value, at any depth. -/
inductive Value.Contains (number : Int64) : Value → Prop
  | integer : Contains number (.integer number)
  | array {elements : List Value} {element : Value} (member : element ∈ elements)
      (inside : Contains number element) : Contains number (.array elements)

/-- An integer contains itself alone. -/
theorem Value.contains_integer {number value : Int64} :
    (Value.integer value).Contains number ↔ value = number := by
  constructor
  · intro contains
    cases contains
    rfl
  · rintro rfl
    exact .integer

/-- An array contains what one of its elements does. -/
theorem Value.contains_array {number : Int64} {elements : List Value} :
    (Value.array elements).Contains number ↔ ∃ element ∈ elements, element.Contains number := by
  constructor
  · intro contains
    cases contains with
    | array member inside => exact ⟨_, member, inside⟩
  · rintro ⟨element, member, inside⟩
    exact .array member inside

/-- Wherever the expression is evaluated, within enough depth, it has the value and changes nothing.
No function literal in it needs a label. -/
def Expr.Denotes (expr : Expr Unit) (value : Value) : Prop :=
  ∃ labelled enough, (∀ next, expr.label next = (labelled, next)) ∧
    ∀ builtins depth scope machine, enough ≤ depth →
      Evaluation.expression builtins depth labelled scope machine = some (.ok value, machine)

namespace Expr

/-- An integer literal denotes its integer. -/
theorem denotes_integer (token : Token) (value : Int64) :
    (Expr.integer token value).Denotes (.integer value) := by
  refine ⟨.integer token value, 1, fun next => rfl, fun builtins depth scope machine enough => ?_⟩
  obtain ⟨depth, rfl⟩ := Nat.exists_eq_add_of_le' enough
  rfl

/-- A boolean literal denotes its boolean. -/
theorem denotes_boolean (token : Token) (value : Bool) :
    (Expr.boolean token value).Denotes (.boolean value) := by
  refine ⟨.boolean token value, 1, fun next => rfl, fun builtins depth scope machine enough => ?_⟩
  obtain ⟨depth, rfl⟩ := Nat.exists_eq_add_of_le' enough
  rfl

/-- An operation denotes what it makes of the value of its operand. -/
theorem Denotes.unary {operand : Expr Unit} {value result : Value} {operator : String}
    (denotes : operand.Denotes value) (token : Token)
    (applies : Operator.unary operator value = .ok result) :
    (Expr.unary token operator operand).Denotes result := by
  obtain ⟨labelled, enough, labels, evaluates⟩ := denotes
  refine ⟨.unary token operator labelled, enough + 1, fun next => ?_,
    fun builtins depth scope machine deep => ?_⟩
  · simp only [Expr.label, bind, StateT.bind, labels]
    rfl
  · obtain ⟨depth, rfl⟩ := Nat.exists_eq_add_of_le' deep
    have evaluated := evaluates builtins (depth + enough) scope machine (Nat.le_add_left _ _)
    have whole : Evaluation.expression builtins (depth + enough + 1)
        (.unary token operator labelled) scope machine =
          Bounded.settle (Operator.unary operator value) machine :=
      Bounded.bind_of_ok evaluated
    rw [← Nat.add_assoc, whole, applies, Bounded.settle_apply]

/-- The elements of an array are evaluated on one machine, which none of them changes. -/
theorem denotesEach {exprs : List (Expr Unit)} {values : List Value}
    (denotes : List.Forall₂ Expr.Denotes exprs values) :
    ∃ labelled enough, (∀ next, Expr.labelEach exprs next = (labelled, next)) ∧
      ∀ builtins depth scope machine, enough ≤ depth →
        Evaluation.each (Evaluation.expression builtins depth) scope labelled machine =
          some (.ok values, machine) := by
  induction denotes with
  | nil => exact ⟨[], 0, fun next => rfl, fun builtins depth scope machine _ => rfl⟩
  | cons first _ inductionHypothesis =>
      obtain ⟨labelled, enough, labels, evaluates⟩ := first
      obtain ⟨others, more, labelsOthers, evaluatesOthers⟩ := inductionHypothesis
      refine ⟨labelled :: others, max enough more, fun next => ?_,
        fun builtins depth scope machine deep => ?_⟩
      · simp only [Expr.labelEach, bind, StateT.bind, labels, labelsOthers]
        rfl
      · have evaluated := evaluates builtins depth scope machine (by omega)
        have behind := evaluatesOthers builtins depth scope machine (by omega)
        rw [Evaluation.each, Bounded.bind_of_ok evaluated, Bounded.bind_of_ok behind,
          Bounded.pure_apply]

/-- An array denotes the values of its elements. -/
theorem denotes_array {exprs : List (Expr Unit)} {values : List Value}
    (denotes : List.Forall₂ Expr.Denotes exprs values) (token : Token) :
    (Expr.array token exprs).Denotes (.array values) := by
  obtain ⟨labelled, enough, labels, evaluates⟩ := denotesEach denotes
  refine ⟨.array token labelled, enough + 1, fun next => ?_,
    fun builtins depth scope machine deep => ?_⟩
  · simp only [Expr.label, bind, StateT.bind, labels]
    rfl
  · obtain ⟨depth, rfl⟩ := Nat.exists_eq_add_of_le' deep
    have evaluated := evaluates builtins (depth + enough) scope machine (Nat.le_add_left _ _)
    exact Bounded.bind_of_ok evaluated

end Expr

/-- There is a number larger than all integers among the tokens. -/
def Token.TooLarge (tokens : List Token) : Prop :=
  ∃ token ∈ tokens, token.kind = .int ∧ largest < numeral token.literal

/-- A number that is too large stays so among more tokens. -/
theorem Token.TooLarge.mono {tokens others : List Token} (tooLarge : Token.TooLarge tokens)
    (subset : tokens ⊆ others) : Token.TooLarge others := by
  obtain ⟨token, member, number⟩ := tooLarge
  exact ⟨token, subset member, number⟩

/-- The text of the value is read as the tokens. They are those of an expression for the value, or
have a number among them that cannot be read. -/
structure Value.ReadsAs (value : Value) (tokens : List Token) : Prop where
  spells : Token.Spells value.inspect.toList tokens
  denotes : ¬ value.Contains Int64.minValue →
    ∃ expr : Expr Unit, Covers Precedence.unary.rank expr tokens ∧ expr.Denotes value
  tooLarge : value.Contains Int64.minValue → Token.TooLarge tokens

/-- The same for values with commas between them, up to the delimiter that closes them. -/
structure Value.EachReadsAs (phrase : Token.Kind → List (Expr Unit) → Phrase)
    (values : List Value) (text : List Char) (tokens : List Token) : Prop where
  spells : Token.Spells text tokens
  denotes : (∀ value ∈ values, ¬ value.Contains Int64.minValue) →
    ∃ exprs, List.Forall₂ Expr.Denotes exprs values ∧
      ∀ (close : Token) (rest : List Token),
        Derives (phrase close.kind exprs) (tokens ++ close :: rest) rest
  tooLarge : ∀ value ∈ values, value.Contains Int64.minValue → Token.TooLarge tokens

/-- A number in decimal digits. -/
protected def Token.number (size : Nat) : Token :=
  ⟨.int, size.repr⟩

/-- The digits of a number are a well-formed token. -/
theorem Token.wellFormed_number (size : Nat) : (Token.number size).WellFormed := by
  have digits : size.repr.toList ≠ [] ∧ ∀ char ∈ size.repr.toList, char.isDigit := by
    rw [Nat.toList_repr]
    refine ⟨Nat.toDigits_ne_nil, fun char member => ?_⟩
    exact Nat.isDigit_of_mem_toDigits (by decide) (by decide) member
  exact digits

/-- The digits of a number spell one token. -/
theorem Token.spells_number (size : Nat) : Token.Spells size.repr.toList [.number size] := by
  have spells := Token.spells_literal (Token.wellFormed_number size) (by simp [Token.number])
  exact spells

/-- The digits of a number stand for it. -/
theorem Token.numeral_number (size : Nat) : numeral (Token.number size).literal = size := by
  rw [numeral, Token.number, Nat.toList_repr, Nat.ofDigitChars_ten_toDigits]

/-- A number that is small enough is an integer literal. -/
theorem Grammar.derives_number {size : Nat} (small : size ≤ largest) (rest : List Token) :
    Derives (.expression .primary (.integer (.number size) (Int64.ofNat size)))
      (.number size :: rest) rest := by
  have derives := @Derives.integer (.number size) rest rfl
  rw [Token.numeral_number] at derives
  exact derives small

namespace Value

/-- An integer that is not negative is written as a number. -/
theorem readsAs_natural {value : Int64} (natural : 0 ≤ value.toInt) :
    (Value.integer value).ReadsAs [.number value.toInt.toNat] := by
  have upper := value.toInt_lt
  refine ⟨?_, fun _ => ?_, fun least => ?_⟩
  · have text : (Value.integer value).inspect = value.toInt.toNat.repr := by
      change value.toInt.repr = _
      rw [Int.repr_eq_if, if_pos natural]
    rw [text]
    exact Token.spells_number _
  · have known : Int64.ofNat value.toInt.toNat = value := by
      rw [← Int64.ofInt_eq_ofNat, Int.toNat_of_nonneg natural, Int64.ofInt_toInt]
    have small : value.toInt.toNat ≤ largest := by
      rw [largest]
      omega
    refine ⟨_, ?_, Expr.denotes_integer (.number value.toInt.toNat) value⟩
    apply covers_of_layer (show Precedence.unary.rank ≤ Layer.primary.rank by decide)
    intro rest
    have derives := derives_number small rest
    rwa [known] at derives
  · rw [contains_integer.mp least, Int64.toInt_minValue] at natural
    omega

/-- A negative integer is the negation of its size. -/
theorem negate_number {value : Int64} {size : Nat} (small : size ≤ largest)
    (opposite : value.toInt = -size) :
    Operator.unary "-" (.integer (Int64.ofNat size)) = .ok (.integer value) := by
  have lower := value.le_toInt
  have upper := value.toInt_lt
  have known : (Int64.ofNat size).toInt = size :=
    Int64.toInt_ofNat_of_lt (by rw [largest] at small; omega)
  have minimum : Int64.minValue.toInt = -2 ^ 63 := by decide
  have maximum : Int64.maxValue.toInt = 2 ^ 63 - 1 := by decide
  have fits : Integer.exact (-(Int64.ofNat size).toInt) = some value := by
    rw [known, ← opposite, Integer.exact, if_pos (by omega), Int64.ofInt_toInt]
  rw [Operator.unary, Operator.negate, fits]

/-- A negative integer is written as the negation of a number, which is too large for the least
integer. -/
theorem readsAs_negative {value : Int64} (negative : value.toInt < 0) :
    (Value.integer value).ReadsAs [⟨.minus, "-"⟩, .number (-value.toInt).toNat] := by
  have lower := value.le_toInt
  refine ⟨?_, fun other => ?_, fun least => ?_⟩
  · have text : (Value.integer value).inspect = "-" ++ (-value.toInt).toNat.repr := by
      change value.toInt.repr = _
      rw [Int.repr_eq_if, if_neg (by omega)]
    rw [text, String.toList_append]
    exact (Token.spells_number _).symbol (show Token.Kind.minus.symbol? = _ from rfl) (by decide)
  · have notLeast : value.toInt ≠ -2 ^ 63 := by
      rw [← Int64.toInt_minValue]
      intro least
      exact other (contains_integer.mpr (Int64.toInt_inj.mp least))
    have small : (-value.toInt).toNat ≤ largest := by
      rw [largest]
      omega
    have negates := @negate_number value _ small (by omega)
    have denotes := Expr.denotes_integer (.number (-value.toInt).toNat)
      (Int64.ofNat (-value.toInt).toNat)
    refine ⟨_, ?_, denotes.unary ⟨.minus, "-"⟩ negates⟩
    apply covers_of_layer (Nat.le_refl Layer.unary.rank)
    intro rest
    exact .unary (.inr rfl) ((derives_number small rest).widen (by decide))
  · obtain rfl := contains_integer.mp least
    refine ⟨_, List.mem_cons_of_mem _ List.mem_cons_self, rfl, ?_⟩
    rw [Token.numeral_number]
    decide

/-- A boolean reads as its word. -/
theorem readsAs_word {kind : Token.Kind} {literal : String} {value : Bool}
    (word : kind ∈ Token.Kind.words) (spelled : Token.WellFormed ⟨kind, literal⟩)
    (text : (Value.boolean value).inspect = literal)
    (derives : ∀ rest, Derives (.expression .primary (.boolean ⟨kind, literal⟩ value))
      (⟨kind, literal⟩ :: rest) rest) : (Value.boolean value).ReadsAs [⟨kind, literal⟩] := by
  have plain : kind ≠ .string := by
    rintro rfl
    exact absurd word (by decide)
  refine ⟨text ▸ Token.spells_literal spelled plain, fun _ => ?_, fun least => nomatch least⟩
  refine ⟨_, ?_, Expr.denotes_boolean ⟨kind, literal⟩ value⟩
  exact covers_of_layer (show Precedence.unary.rank ≤ Layer.primary.rank by decide) derives

/-- Every boolean reads as a token. -/
theorem readsAs_boolean (value : Bool) : ∃ tokens, (Value.boolean value).ReadsAs tokens := by
  cases value with
  | true =>
      have spelled : Token.WellFormed ⟨.trueWord, "true"⟩ :=
        (Token.wellFormed_word (by decide)).mpr
          ⟨by decide, List.all_eq_true.mp (by decide), by decide⟩
      exact ⟨_, readsAs_word (by decide) spelled rfl fun rest => .true rfl⟩
  | false =>
      have spelled : Token.WellFormed ⟨.falseWord, "false"⟩ :=
        (Token.wellFormed_word (by decide)).mpr
          ⟨by decide, List.all_eq_true.mp (by decide), by decide⟩
      exact ⟨_, readsAs_word (by decide) spelled rfl fun rest => .false rfl⟩

/-- One value in front of others. -/
theorem ReadsAs.cons {first : Value} {others : List Value} {text : List Char}
    {tokens otherTokens : List Token} (firstReads : first.ReadsAs tokens)
    (othersRead : EachReadsAs .moreItems others text otherTokens) (apart : Token.Apart text) :
    EachReadsAs .items (first :: others) (first.inspect.toList ++ text)
      (tokens ++ otherTokens) := by
  refine ⟨firstReads.spells.append apart othersRead.spells, fun readable => ?_, ?_⟩
  · rw [List.forall_mem_cons] at readable
    obtain ⟨expr, covers, denotes⟩ := firstReads.denotes readable.1
    obtain ⟨exprs, denotesOthers, derives⟩ := othersRead.denotes readable.2
    refine ⟨expr :: exprs, .cons denotes denotesOthers, fun close rest => ?_⟩
    rw [List.append_assoc]
    exact .someItems (covers .equality (by decide) _) (derives close rest)
  · rw [List.forall_mem_cons]
    refine ⟨fun least => ?_, fun value member least => ?_⟩
    · exact (firstReads.tooLarge least).mono (List.subset_append_left _ _)
    · exact (othersRead.tooLarge value member least).mono (List.subset_append_right _ _)

/-- A comma in front of values that stand behind others. -/
theorem EachReadsAs.comma {first : Value} {others : List Value} {text : List Char}
    {tokens : List Token} (reads : EachReadsAs .items (first :: others) text tokens) :
    EachReadsAs .moreItems (first :: others) (',' :: ' ' :: text) (.comma :: tokens) := by
  refine ⟨?_, fun readable => ?_, fun value member least => ?_⟩
  · exact reads.spells.blank.symbol (show Token.Kind.comma.symbol? = _ from rfl) (by decide)
  · obtain ⟨_, denotes, derives⟩ := reads.denotes readable
    cases denotes with
    | cons denotesFirst denotesOthers =>
        refine ⟨_, .cons denotesFirst denotesOthers, fun close rest => ?_⟩
        cases derives close rest with
        | someItems first others => exact .comma rfl first others
  · exact (reads.tooLarge value member least).mono (List.subset_cons_self _ _)

/-- Values behind a comma read as further items. -/
theorem readsAs_more {values : List Value}
    (reads : ∀ value ∈ values, ∃ tokens, value.ReadsAs tokens) :
    ∃ tokens, EachReadsAs .moreItems values (Expr.separated (values.map inspect)) tokens := by
  induction values with
  | nil =>
      refine ⟨[], Token.spells_nil, fun _ => ⟨[], .nil, fun close rest => .close rfl⟩, ?_⟩
      simp
  | cons first others inductionHypothesis =>
      rw [List.forall_mem_cons] at reads
      obtain ⟨⟨tokens, firstReads⟩, behind⟩ := reads
      obtain ⟨otherTokens, othersRead⟩ := inductionHypothesis behind
      exact ⟨_, (firstReads.cons othersRead (Expr.apart_separated _)).comma⟩

/-- Values with commas between them read as items. -/
theorem readsAs_items {values : List Value}
    (reads : ∀ value ∈ values, ∃ tokens, value.ReadsAs tokens) :
    ∃ tokens, EachReadsAs .items values (commaSeparated (inspectEach values)).toList tokens := by
  match values with
  | [] =>
      refine ⟨[], Token.spells_nil, fun _ => ⟨[], .nil, fun close rest => .noItems rfl⟩, ?_⟩
      simp
  | first :: others =>
      rw [List.forall_mem_cons] at reads
      obtain ⟨⟨tokens, firstReads⟩, behind⟩ := reads
      obtain ⟨otherTokens, othersRead⟩ := readsAs_more behind
      rw [inspectEach_eq_map, List.map_cons, Expr.toList_commaSeparated]
      exact ⟨_, firstReads.cons othersRead (Expr.apart_separated _)⟩

/-- An array reads as its elements between brackets. -/
theorem readsAs_array {elements : List Value}
    (reads : ∀ element ∈ elements, ∃ tokens, element.ReadsAs tokens) :
    ∃ tokens, (Value.array elements).ReadsAs tokens := by
  obtain ⟨tokens, each⟩ := readsAs_items reads
  refine ⟨⟨.leftBracket, "["⟩ :: (tokens ++ [.rightBracket]), ?_, fun readable => ?_,
    fun least => ?_⟩
  · have text : (Value.array elements).inspect.toList =
        '[' :: ((commaSeparated (inspectEach elements)).toList ++ [']']) := by
      rw [inspect_array]
      simp
    rw [text]
    exact each.spells.bracketed
  · rw [contains_array, not_exists] at readable
    obtain ⟨exprs, denotes, derives⟩ := each.denotes (by simpa using readable)
    refine ⟨_, ?_, Expr.denotes_array denotes ⟨.leftBracket, "["⟩⟩
    apply covers_of_layer (show Precedence.unary.rank ≤ Layer.primary.rank by decide)
    intro rest
    simpa using Derives.array rfl (derives .rightBracket rest)
  · obtain ⟨element, member, inside⟩ := contains_array.mp least
    apply (each.tooLarge element member inside).mono
    exact List.subset_cons_of_subset _ (List.subset_append_left _ _)

/-- Every literal value reads as tokens, by induction on the value. -/
theorem Literal.readsAs {value : Value} (literal : value.Literal) :
    ∃ tokens, value.ReadsAs tokens := by
  induction literal with
  | integer value =>
      rcases Int.lt_or_le value.toInt 0 with negative | natural
      · exact ⟨_, readsAs_negative negative⟩
      · exact ⟨_, readsAs_natural natural⟩
  | boolean value => exact readsAs_boolean value
  | array _ inductionHypothesis => exact readsAs_array inductionHypothesis

/-- The tokens of the text of a value are those that it reads as. -/
theorem ReadsAs.tokens {value : Value} {tokens : List Token} (reads : value.ReadsAs tokens) :
    Token.list value.inspect = tokens := by
  have whole := reads.spells [] Token.apart_nil
  rwa [List.append_nil, Token.scan_nil, List.append_nil] at whole

/-- Where no integer is the least one, one expression for the value is read, and nothing else. -/
theorem ReadsAs.read {value : Value} {tokens : List Token} (reads : value.ReadsAs tokens)
    (readable : ¬ value.Contains Int64.minValue) :
    ∃ token expr, Program.read value.inspect = (⟨[.expression token expr]⟩, []) ∧
      expr.Denotes value := by
  obtain ⟨expr, covers, denotes⟩ := reads.denotes readable
  have derives := covers .equality (by decide) []
  obtain ⟨token, others, isTokens⟩ := derives.exists_cons
  rw [isTokens] at derives
  have whole : Grammar.Program ⟨[.expression token expr]⟩ (Token.list value.inspect) := by
    rw [reads.tokens, ← List.append_nil tokens, isTokens]
    exact .more (.expression derives (.bare (by simp))) .nothing
  obtain ⟨same, noErrors⟩ := @Reader.program_of_derives (Reader.ofString value.inspect) _ whole
  exact ⟨token, expr, Prod.ext same (congrArg Array.toList noErrors), denotes⟩

/-- A number that is too large cannot be derived. -/
theorem ReadsAs.refused {value : Value} {tokens : List Token} (reads : value.ReadsAs tokens)
    (least : value.Contains Int64.minValue) : (Program.read value.inspect).2 ≠ [] := by
  intro clean
  obtain ⟨token, member, isNumber, tooLarge⟩ := reads.tooLarge least
  have passes := (Program.derives clean).passes
    (@passing_each (fun token => token.kind = .int → numeral token.literal ≤ largest)
      fun _ _ small => small) trivial
  rw [reads.tokens] at passes
  rcases passes token member with behind | small
  · cases behind
  · exact absurd (small isNumber) (Nat.not_le.mpr tooLarge)

end Value

/-- A program that is one expression for a value answers with the value. -/
theorem Session.evaluate_denoted {session : Session} {depth scope : Nat} {token : Token}
    {expr : Expr Nat} {value : Value}
    (evaluates : Evaluation.expression session.builtins depth expr scope session.machine =
      some (.ok value, session.machine)) (plain : value.kind ≠ .returned) :
    session.evaluate depth ⟨[.expression token expr]⟩ scope = some (some value, session) := by
  have ends : Evaluation.program (Evaluation.expression session.builtins depth) scope none
      [.expression token expr] session.machine = some (.ok (some value), session.machine) := by
    have stated : Evaluation.statement (Evaluation.expression session.builtins depth) scope
        (.expression token expr) session.machine = some (.ok (some value), session.machine) :=
      Bounded.bind_of_ok evaluates
    rw [Evaluation.program, Bounded.bind_of_ok stated]
    cases value with
    | returned inner => exact absurd rfl plain
    | _ => rfl
  simp only [Session.evaluate, ends]

/-- A program of one expression is labelled as the expression is. -/
theorem Program.label_expression {expr : Expr Unit} {labelled : Expr Nat} {next free : Nat}
    (labels : expr.label next = (labelled, free)) (token : Token) :
    Program.label ⟨[.expression token expr]⟩ next = (⟨[.expression token labelled]⟩, free) := by
  change ((⟨[.expression token (expr.label next).1]⟩ : Program Nat), (expr.label next).2) = _
  rw [labels]

/-- The text of a value that is made of integers, booleans and arrays is a program that answers with
the value, and leaves the session as it was, unless the least integer is in the value: then the text
is refused. -/
theorem Session.run_inspect {value : Value} (literal : value.Literal) (session : Session)
    (scope : Nat) :
    (¬ value.Contains Int64.minValue →
      ∃ enough, ∀ depth, enough ≤ depth →
        session.run depth value.inspect scope = some (.ok (some value), session)) ∧
    (value.Contains Int64.minValue →
      ∃ errors, errors ≠ [] ∧ ∀ depth,
        session.run depth value.inspect scope = some (.error errors, session)) := by
  obtain ⟨tokens, reads⟩ := literal.readsAs
  constructor
  · intro readable
    obtain ⟨token, expr, read, labelled, enough, labels, evaluates⟩ := reads.read readable
    refine ⟨enough, fun depth deep => ?_⟩
    have loaded : session.load ⟨[.expression token expr]⟩ =
        (⟨[.expression token labelled]⟩, session) := by
      rw [load, Program.label_expression (labels session.nextLabel)]
    have plain : value.kind ≠ .returned := by cases literal <;> simp [Value.kind]
    exact run_of_read read loaded (evaluate_denoted (evaluates _ depth scope _ deep) plain)
  · intro least
    have refused := reads.refused least
    exact ⟨_, refused, fun depth => run_of_errors refused⟩

/-- `[[-7], true, []]` and `[0, [-9223372036854775808]]` in a fresh session. -/
theorem Session.run_inspect_nested :
    ∃ first second : Value,
      first.Literal ∧ ¬ first.Contains Int64.minValue ∧ first.inspect = "[[-7], true, []]" ∧
      second.Literal ∧ second.Contains Int64.minValue ∧
      second.inspect = "[0, [-9223372036854775808]]" ∧
      ∀ output,
        (∃ enough, ∀ depth, enough ≤ depth →
          (fresh output).2.run depth "[[-7], true, []]" (fresh output).1 =
            some (.ok (some first), (fresh output).2)) ∧
        ∃ errors, errors ≠ [] ∧ ∀ depth,
          (fresh output).2.run depth "[0, [-9223372036854775808]]" (fresh output).1 =
            some (.error errors, (fresh output).2) := by
  let first : Value := .array [.array [.integer (-7)], .boolean true, .array []]
  let second : Value := .array [.integer 0, .array [.integer Int64.minValue]]
  have firstLiteral : first.Literal := by
    refine .array ?_
    simp only [List.forall_mem_cons, List.not_mem_nil, false_imp_iff, implies_true, and_true]
    exact ⟨.array (by simpa using .integer _), .boolean _, .array (by simp)⟩
  have secondLiteral : second.Literal := by
    refine .array ?_
    simp only [List.forall_mem_cons, List.not_mem_nil, false_imp_iff, implies_true, and_true]
    exact ⟨.integer _, .array (by simpa using .integer _)⟩
  have readable : ¬ first.Contains Int64.minValue := by
    have boolean : ¬ (Value.boolean true).Contains Int64.minValue := nofun
    simp [first, Value.contains_array, Value.contains_integer, boolean]
  have least : second.Contains Int64.minValue := by
    simp [second, Value.contains_array, Value.contains_integer]
  refine ⟨first, second, firstLiteral, readable, by with_unfolding_all rfl, secondLiteral, least,
    by with_unfolding_all rfl, fun output => ?_⟩
  exact ⟨(run_inspect firstLiteral (fresh output).2 (fresh output).1).1 readable,
    (run_inspect secondLiteral (fresh output).2 (fresh output).1).2 least⟩

end Monkey
