import Monkey.Proofs.Grammar.First
import Monkey.Proofs.Grammar.Strength
import Monkey.Proofs.Reader.Success

/-!
What is read without an error is derived by the grammar. Behind an expression that is read in a
context stands a token that binds no more strongly than the context, so everything that the loop
over operators has put together is an expression of the layer of its last operator.
-/

namespace Monkey

open Grammar

namespace Reader

variable {reader reached final : Reader}

/-- No token in front of the reader stands for the end of the text. -/
def Proper (reader : Reader) : Prop :=
  ∀ token ∈ reader.tokens, token.kind ≠ .eof

/-- No error was recorded between the two readers. -/
def Clean (reader reached : Reader) : Prop :=
  reached.errors.size ≤ reader.errors.size

/-- A reader stays proper wherever it goes. -/
theorem Reaches.proper (reaches : reader.Reaches reached) (proper : reader.Proper) :
    reached.Proper :=
  fun token member => proper token (reaches.tokens.subset member)

/-- A reader stays proper when it moves on. -/
theorem Proper.advance (proper : reader.Proper) : reader.advance.Proper :=
  reader.reaches_advance.proper proper

/-- Where nothing was recorded in all, nothing was on the first part of the way. -/
theorem Reaches.clean_left (second : reached.Reaches final) (clean : reader.Clean final) :
    reader.Clean reached :=
  Nat.le_trans second.errors_size clean

/-- Where nothing was recorded in all, nothing was on the second part of the way. -/
theorem Reaches.clean_right (first : reader.Reaches reached) (clean : reader.Clean final) :
    reached.Clean final :=
  Nat.le_trans clean first.errors_size

/-- A reader of proper tokens stands on the end only where no token is left. -/
theorem Proper.tokens_eq_nil (proper : reader.Proper) (atEnd : reader.current.kind = .eof) :
    reader.tokens = [] := by
  match tokens : reader.tokens with
  | [] => rfl
  | first :: others =>
      rw [current_eq tokens] at atEnd
      exact absurd atEnd (proper first (by simp [tokens]))

end Reader

namespace Grammar

/-- How lists with commas are put together from the relation of one item. -/
structure Listing {Item : Type} (closing : Token.Kind)
    (one : Item → List Token → List Token → Prop)
    (more all : List Item → List Token → List Token → Prop) : Prop where
  none : ∀ {token rest}, token.kind = closing → all [] (token :: rest) rest
  some : ∀ {item items tokens middle rest}, one item tokens middle → more items middle rest →
    all (item :: items) tokens rest
  close : ∀ {token rest}, token.kind = closing → more [] (token :: rest) rest
  comma : ∀ {token item items tokens middle rest}, token.kind = .comma →
    one item tokens middle → more items middle rest → more (item :: items) (token :: tokens) rest

/-- Items of an array or a call are a list of expressions. -/
theorem items_listing (closing : Token.Kind) :
    Listing closing (fun tree => Derives (.expression .equality tree))
      (fun trees => Derives (.moreItems closing trees))
      (fun trees => Derives (.items closing trees)) :=
  ⟨.noItems, .someItems, .close, .comma⟩

/-- Parameters are a list of names. -/
theorem parameters_listing : Listing .rightParen Parameter MoreParameters Parameters :=
  ⟨.none, .some, .close, .comma⟩

end Grammar

/-- A literal is read as its decimal value, and only a value that is too large is refused. -/
theorem Integer.ofLiteral_eq_some {literal : String} {value : Int64} :
    Integer.ofLiteral literal = some value ↔
      numeral literal ≤ largest ∧ value = Int64.ofNat (numeral literal) := by
  have lower : Int64.minValue.toInt ≤ 0 := by decide
  have upper : Int64.maxValue.toInt = (largest : Int) := by decide
  rw [show Integer.ofLiteral literal = Integer.exact (numeral literal) from rfl, Integer.exact,
    upper]
  by_cases small : numeral literal ≤ largest
  · rw [if_pos (by omega), Option.some.injEq, Int64.ofInt_eq_ofNat]
    exact ⟨fun same => ⟨small, same.symm⟩, fun found => found.2.symm⟩
  · rw [if_neg (by omega)]
    exact iff_of_false (by simp) fun found => small found.1

namespace Reading

open Bounded

/-- An item that is read without an error is in the relation, from its first token to those behind
its last one. -/
def Derived {Item : Type} (one : Item → List Token → List Token → Prop)
    (reading : Reading Item) : Prop :=
  ∀ ⦃reader reached : Reader⦄ ⦃item : Item⦄, reading reader = some (.ok item, reached) →
    reader.Proper → reader.Clean reached → one item reader.tokens reached.tokens.tail

section

variable {Item : Type} {closing : Token.Kind} {item : Reading Item}
  {one : Item → List Token → List Token → Prop}
  {more all : List Item → List Token → List Token → Prop}

/-- Further items that are read without an error are derived. -/
theorem derived_moreItems (listing : Listing closing one more all) (inside : closing ≠ .eof)
    (forward : Forward item) (derived : Derived one item) (bound : Nat)
    {reader reached : Reader} {found : List Item}
    (read : moreItems item bound reader = some (.ok found, reached)) (proper : reader.Proper)
    (clean : reader.Clean reached) (closes : reached.following.kind = closing) :
    more found reader.tokens.tail reached.tokens.tail.tail := by
  induction bound generalizing reader found with
  | zero => simp [moreItems] at read
  | succ bound inductionHypothesis =>
      simp only [moreItems, following_bind] at read
      split at read
      · next comma =>
          simp only [advance_bind, bind_eq_ok, pure_eq_ok] at read
          obtain ⟨first, middle, readFirst, others, _, readOthers, rfl, rfl⟩ := read
          have firstReaches := forward readFirst
          have othersReaches := forward_moreItems forward bound readOthers
          have firstDerived := derived readFirst proper.advance.advance
            (othersReaches.clean_left clean)
          have othersDerived := inductionHypothesis readOthers
            (firstReaches.proper proper.advance.advance) (firstReaches.clean_right clean)
          rw [reader.tail_eq (by simp [comma])]
          exact listing.comma comma firstDerived othersDerived
      · simp only [pure_eq_ok] at read
        obtain ⟨rfl, rfl⟩ := read
        rw [reached.tail_eq (closes ▸ inside)]
        exact listing.close closes

/-- Items that are read without an error are derived. -/
theorem derived_items (listing : Listing closing one more all) (inside : closing ≠ .eof)
    (forward : Forward item) (derived : Derived one item) (bound : Nat)
    {reader reached : Reader} {found : List Item}
    (read : items item closing bound reader = some (.ok found, reached)) (proper : reader.Proper)
    (clean : reader.Clean reached) : all found reader.tokens.tail reached.tokens.tail := by
  simp only [items, following_bind, advance_bind] at read
  split at read
  · next closes =>
      simp only [pure_eq_ok] at read
      obtain ⟨rfl, rfl⟩ := read
      rw [reader.tail_eq (closes ▸ inside)]
      exact listing.none closes
  · simp only [bind_eq_ok, expect_eq_ok, pure_eq_ok] at read
    obtain ⟨first, middle, readFirst, others, last, readOthers, _, _, ⟨closes, rfl⟩, rfl, rfl⟩ :=
      read
    have firstReaches := forward readFirst
    have othersReaches := forward_moreItems forward bound readOthers
    have firstDerived := derived readFirst proper.advance (othersReaches.clean_left clean)
    have othersDerived := derived_moreItems listing inside forward derived bound readOthers
      (firstReaches.proper proper.advance) (firstReaches.clean_right clean) closes
    exact listing.some firstDerived othersDerived

/-- A parameter that is read without an error is derived. -/
theorem derived_parameter : Derived Parameter parameter := by
  intro reader reached name read proper clean
  simp only [parameter, current_bind] at read
  split at read
  · next kind =>
      simp only [pure_eq_ok] at read
      obtain ⟨rfl, rfl⟩ := read
      rw [reached.tokens_eq (by simp [kind])]
      exact .name kind
  · simp at read

end

/-- What the loop and its parts ask of the reader of expressions. -/
structure Sound (expression : Precedence → Reading (Expr Unit)) : Prop where
  forward : ∀ level, Forward (expression level)
  derived : ∀ level, Derived (fun tree tokens rest =>
    Derives (.expression level.layer tree) tokens rest ∧ strength rest ≤ level.rank)
    (expression level)

section

variable {expression : Precedence → Reading (Expr Unit)} (sound : Sound expression)

include sound

/-- At the lowest level a whole expression is read. -/
theorem Sound.lowest : Derived (fun tree => Derives (.expression .equality tree))
    (expression .lowest) :=
  fun _ _ _ read proper clean => (sound.derived .lowest read proper clean).1

omit sound in
/-- A statement ends where its expression cannot be made longer. -/
theorem ending_of_weak {reader : Reader} (weak : strength reader.tokens.tail ≤ 1) :
    Ending reader.tokens.tail
      (if reader.following.kind = .semicolon then reader.advance else reader).tokens.tail := by
  split
  · next semicolon =>
      rw [reader.tail_eq (by simp [semicolon])]
      exact .semicolon semicolon
  · next other =>
      refine .bare fun token first => ?_
      obtain ⟨rest, tokens⟩ := List.head?_eq_some_iff.mp first
      rw [strength, tokens] at weak
      rw [Reader.following_eq tokens] at other
      exact ⟨other, rank_of_not_continuing.mp weak⟩

omit sound in
/-- A token that is passed where it is accepted records no error. -/
theorem clean_accepted {reader last : Reader} {kind : Token.Kind}
    (clean : reader.Clean (if last.following.kind = kind then last.advance else last)) :
    reader.Clean last := by
  split at clean <;> exact clean

/-- A statement that is read without an error is derived. -/
theorem Sound.derives_statement : Derived (fun tree => Derives (.statement tree))
    (statement expression) := by
  intro reader reached tree read proper clean
  by_cases isLet : reader.current.kind = .letWord
  · simp only [statement_of_let expression isLet, bind_eq_ok, expect_eq_ok, current_bind,
      advance_bind, accept_bind, pure_eq_ok] at read
    obtain ⟨_, _, ⟨named, rfl⟩, _, _, ⟨assigns, rfl⟩, value, last, readValue, rfl, rfl⟩ := read
    obtain ⟨derives, weak⟩ := sound.derived .lowest readValue proper.advance.advance.advance
      (clean_accepted clean)
    rw [reader.tokens_eq (by simp [isLet]), reader.tail_eq (by simp [named]),
      reader.advance.tail_eq (by simp [assigns])]
    exact .bind isLet named assigns derives (ending_of_weak weak)
  by_cases isReturn : reader.current.kind = .returnWord
  · simp only [statement_of_return expression isReturn, bind_eq_ok, advance_bind, accept_bind,
      pure_eq_ok] at read
    obtain ⟨value, last, readValue, rfl, rfl⟩ := read
    obtain ⟨derives, weak⟩ := sound.derived .lowest readValue proper.advance (clean_accepted clean)
    rw [reader.tokens_eq (by simp [isReturn])]
    exact .give isReturn derives (ending_of_weak weak)
  · simp only [statement_of_other expression isLet isReturn, bind_eq_ok, accept_bind,
      pure_eq_ok] at read
    obtain ⟨value, last, readValue, rfl, rfl⟩ := read
    obtain ⟨derives, weak⟩ := sound.derived .lowest readValue proper (clean_accepted clean)
    obtain ⟨token, rest, tokens⟩ := derives.exists_cons
    rw [tokens] at derives
    rw [tokens, Reader.current_eq tokens]
    exact .expression derives (ending_of_weak weak)

/-- Statements that are read without an error are derived, up to what closes them. -/
theorem Sound.derives_statements (closing : List Token.Kind) (bound : Nat) {reader reached : Reader}
    {trees : List (Stmt Unit)}
    (read : statements expression closing bound reader = some (.ok trees, reached))
    (proper : reader.Proper) (clean : reader.Clean reached) :
    Derives (.statements trees) reader.tokens reached.tokens ∧
      reached.current.kind ∈ closing := by
  induction bound generalizing reader trees with
  | zero => simp [statements] at read
  | succ bound inductionHypothesis =>
      simp only [statements, current_bind] at read
      split at read
      · next closes =>
          simp only [pure_eq_ok] at read
          obtain ⟨rfl, rfl⟩ := read
          exact ⟨.nothing, closes⟩
      · simp only [bind_eq_ok, advance_bind, pure_eq_ok] at read
        obtain ⟨first, middle, readFirst, others, _, readOthers, rfl, rfl⟩ := read
        have othersReaches := forward_statements sound.forward closing bound readOthers
        have firstReaches := forward_recorded (forward_statement sound.forward) readFirst
        have firstClean : reader.Clean middle := othersReaches.clean_left clean
        obtain ⟨tree, rfl, readTree⟩ | ⟨error, before, readError, rfl⟩ := recorded_eq_ok readFirst
        · obtain ⟨othersDerived, closes⟩ := inductionHypothesis readOthers
            (firstReaches.proper proper).advance (firstReaches.clean_right clean)
          exact ⟨.more (sound.derives_statement readTree proper firstClean) othersDerived, closes⟩
        · have reaches := forward_statement sound.forward readError
          have recorded : before.errors.size + 1 ≤ reader.errors.size := by
            simpa [Reader.Clean, Reader.record] using firstClean
          exact absurd reaches.errors_size (by omega)

/-- A block that is read without an error is derived. -/
theorem Sound.derives_block (bound : Nat) {reader reached : Reader} {tree : Block Unit}
    (read : block expression bound reader = some (.ok tree, reached))
    (opens : reader.current.kind = .leftBrace) (proper : reader.Proper)
    (clean : reader.Clean reached) : Derives (.block tree) reader.tokens reached.tokens.tail := by
  simp only [block, current_bind, advance_bind, bind_eq_ok, pure_eq_ok] at read
  obtain ⟨trees, _, readTrees, rfl, rfl⟩ := read
  obtain ⟨derives, closes⟩ := sound.derives_statements _ bound readTrees proper.advance clean
  rw [reader.tokens_eq (by simp [opens])]
  simp only [List.mem_cons, List.not_mem_nil, or_false] at closes
  rcases closes with closes | atEnd
  · rw [reached.tokens_eq (by simp [closes])] at derives
    exact .closed opens derives closes
  · have reaches := forward_statements sound.forward _ bound readTrees
    rw [(reaches.proper proper.advance).tokens_eq_nil atEnd] at derives ⊢
    exact .left opens derives

/-- An alternative that is read without an error is derived. -/
theorem Sound.derives_alternative (bound : Nat) {reader reached : Reader}
    {tree : Option (Block Unit)}
    (read : alternative expression bound reader = some (.ok tree, reached))
    (proper : reader.Proper) (clean : reader.Clean reached) :
    Derives (.alternative tree) reader.tokens.tail reached.tokens.tail := by
  simp only [alternative, following_bind] at read
  split at read
  · next isElse =>
      simp only [advance_bind, bind_eq_ok, expect_eq_ok, pure_eq_ok] at read
      obtain ⟨_, _, ⟨opens, rfl⟩, block, _, readBlock, rfl, rfl⟩ := read
      rw [reader.tail_eq (by simp [isElse])]
      exact .someElse isElse
        (sound.derives_block bound readBlock opens proper.advance.advance clean)
  · simp only [pure_eq_ok] at read
    obtain ⟨rfl, rfl⟩ := read
    exact .noElse

/-- The items of an array or a call that are read without an error are derived. -/
theorem Sound.derives_items (closing : Token.Kind) (inside : closing ≠ .eof) (bound : Nat)
    {reader reached : Reader} {trees : List (Expr Unit)}
    (read : items (expression .lowest) closing bound reader = some (.ok trees, reached))
    (proper : reader.Proper) (clean : reader.Clean reached) :
    Derives (.items closing trees) reader.tokens.tail reached.tokens.tail :=
  derived_items (items_listing closing) inside (sound.forward _) sound.lowest bound read proper
    clean

/-- A conditional that is read without an error is derived. -/
theorem Sound.derives_conditional (bound : Nat) {reader reached : Reader} {tree : Expr Unit}
    (kind : reader.current.kind = .ifWord)
    (read : conditional expression reader.current bound reader = some (.ok tree, reached))
    (proper : reader.Proper) (clean : reader.Clean reached) :
    Derives (.expression .primary tree) reader.tokens reached.tokens.tail := by
  simp only [conditional, bind_eq_ok, expect_eq_ok, advance_bind, pure_eq_ok] at read
  obtain ⟨_, _, ⟨opens, rfl⟩, condition, first, readCondition, _, _, ⟨closes, rfl⟩, _, _,
    ⟨braces, rfl⟩, consequence, second, readConsequence, otherwise, third, readOtherwise, rfl,
    rfl⟩ := read
  have firstReaches := sound.forward _ readCondition
  have secondReaches := forward_block sound.forward bound readConsequence
  have thirdReaches := forward_alternative sound.forward bound readOtherwise
  have firstProper := firstReaches.proper proper.advance.advance
  have firstClean : reader.Clean first :=
    secondReaches.clean_left (thirdReaches.clean_left clean)
  have secondClean : first.Clean second :=
    firstReaches.clean_right (thirdReaches.clean_left clean)
  have thirdClean : second.Clean reached :=
    secondReaches.clean_right (firstReaches.clean_right clean)
  have conditionDerived := sound.lowest readCondition proper.advance.advance firstClean
  have consequenceDerived := sound.derives_block bound readConsequence braces
    firstProper.advance.advance secondClean
  have otherwiseDerived := sound.derives_alternative bound readOtherwise
    (secondReaches.proper firstProper.advance.advance) thirdClean
  rw [first.tail_eq (by simp [closes])] at conditionDerived
  rw [reader.tokens_eq (by simp [kind]), reader.tail_eq (by simp [opens])]
  exact .conditional kind opens conditionDerived closes consequenceDerived otherwiseDerived

/-- A function literal that is read without an error is derived. -/
theorem Sound.derives_function (bound : Nat) {reader reached : Reader} {tree : Expr Unit}
    (kind : reader.current.kind = .fnWord)
    (read : function expression reader.current bound reader = some (.ok tree, reached))
    (proper : reader.Proper) (clean : reader.Clean reached) :
    Derives (.expression .primary tree) reader.tokens reached.tokens.tail := by
  simp only [function, bind_eq_ok, expect_eq_ok, pure_eq_ok] at read
  obtain ⟨_, _, ⟨opens, rfl⟩, names, first, readNames, _, _, ⟨braces, rfl⟩, body, _, readBody, rfl,
    rfl⟩ := read
  have namesReaches := forward_items forward_parameter _ bound readNames
  have bodyReaches := forward_block sound.forward bound readBody
  have namesDerived := derived_items parameters_listing (by decide) forward_parameter
    derived_parameter bound readNames proper.advance (bodyReaches.clean_left clean)
  have bodyDerived := sound.derives_block bound readBody braces
    (namesReaches.proper proper.advance).advance (namesReaches.clean_right clean)
  rw [reader.tokens_eq (by simp [kind]), reader.tail_eq (by simp [opens])]
  exact .function kind opens namesDerived bodyDerived

omit sound in
/-- What the loop over operators has put together: an expression of a layer that the context takes,
in front of a token that does not bind more strongly than the layer. -/
def Built (level : Precedence) (tree : Expr Unit) (tokens rest : List Token) : Prop :=
  ∃ layer : Layer, Derives (.expression layer tree) tokens rest ∧ strength rest ≤ layer.rank ∧
    level.layer.rank ≤ layer.rank

omit sound in
/-- A primary expression may be an operand at every level. -/
theorem Built.of_primary {tree : Expr Unit} {tokens rest : List Token} (level : Precedence)
    (derives : Derives (.expression .primary tree) tokens rest) : Built level tree tokens rest :=
  ⟨.primary, derives, Nat.le_succ_of_le (rank_ofKind_le _), by cases level <;> decide⟩

/-- A unary operation that is read without an error is built at its level. -/
theorem Sound.built_unary (level : Precedence) {reader reached : Reader} {tree : Expr Unit}
    (kind : reader.current.kind = .bang ∨ reader.current.kind = .minus)
    (read : unary expression reader.current reader = some (.ok tree, reached))
    (proper : reader.Proper) (clean : reader.Clean reached) :
    Built level tree reader.tokens reached.tokens.tail := by
  simp only [unary, advance_bind, bind_eq_ok, pure_eq_ok] at read
  obtain ⟨operand, _, readOperand, rfl, rfl⟩ := read
  obtain ⟨derives, weak⟩ := sound.derived .unary readOperand proper.advance clean
  rw [reader.tokens_eq (by rcases kind with kind | kind <;> simp [kind])]
  exact ⟨.unary, .unary kind derives, weak, by cases level <;> decide⟩

/-- An operand that is read without an error is built at its level. -/
theorem Sound.built_operand (level : Precedence) (bound : Nat) {reader reached : Reader}
    {tree : Expr Unit} (read : operand expression bound reader = some (.ok tree, reached))
    (proper : reader.Proper) (clean : reader.Clean reached) :
    Built level tree reader.tokens reached.tokens.tail := by
  simp only [operand, current_bind] at read
  cases kind : reader.current.kind <;> simp only [operandFrom, kind] at read
  case ident =>
    obtain ⟨rfl, rfl⟩ := pure_eq_ok.mp read
    rw [reached.tokens_eq (by simp [kind])]
    exact .of_primary level (.ident kind)
  case int =>
    match found : Integer.ofLiteral reader.current.literal with
    | some value =>
        simp only [integer, found, pure_eq_ok] at read
        obtain ⟨rfl, rfl⟩ := read
        rw [reached.tokens_eq (by simp [kind])]
        obtain ⟨small, rfl⟩ := Integer.ofLiteral_eq_some.mp found
        exact .of_primary level (.integer kind small)
    | none => simp [integer, found] at read
  case string =>
    obtain ⟨rfl, rfl⟩ := pure_eq_ok.mp read
    rw [reached.tokens_eq (by simp [kind])]
    exact .of_primary level (.text kind)
  case trueWord =>
    obtain ⟨rfl, rfl⟩ := pure_eq_ok.mp read
    rw [reached.tokens_eq (by simp [kind])]
    exact .of_primary level (.true kind)
  case falseWord =>
    obtain ⟨rfl, rfl⟩ := pure_eq_ok.mp read
    rw [reached.tokens_eq (by simp [kind])]
    exact .of_primary level (.false kind)
  case bang => exact sound.built_unary level (.inl kind) read proper clean
  case minus => exact sound.built_unary level (.inr kind) read proper clean
  case leftParen =>
    simp only [grouped, advance_bind, bind_eq_ok, expect_eq_ok, pure_eq_ok] at read
    obtain ⟨inner, last, readInner, _, _, ⟨closes, rfl⟩, rfl, rfl⟩ := read
    have derives := sound.lowest readInner proper.advance clean
    rw [last.tail_eq (by simp [closes])] at derives
    rw [reader.tokens_eq (by simp [kind])]
    exact .of_primary level (.group kind derives closes)
  case leftBracket =>
    simp only [array, bind_eq_ok, pure_eq_ok] at read
    obtain ⟨elements, _, readElements, rfl, rfl⟩ := read
    rw [reader.tokens_eq (by simp [kind])]
    exact .of_primary level
      (.array kind (sound.derives_items _ (by decide) bound readElements proper clean))
  case ifWord => exact .of_primary level (sound.derives_conditional bound kind read proper clean)
  case fnWord => exact .of_primary level (sound.derives_function bound kind read proper clean)
  all_goals simp at read

/-- A stronger operator keeps what is built at the level. -/
theorem Sound.built_continuation {level : Precedence} (bound : Nat) {reader reached : Reader}
    {left longer : Expr Unit} {tokens : List Token}
    (built : Built level left tokens reader.tokens.tail)
    (stronger : level.rank < (Precedence.ofKind reader.following.kind).rank)
    (read : continuation expression left bound reader.advance = some (.ok longer, reached))
    (proper : reader.Proper) (clean : reader.Clean reached) :
    Built level longer tokens reached.tokens.tail := by
  obtain ⟨layer, derives, weak, _⟩ := built
  have strong : 1 < (Precedence.ofKind reader.following.kind).rank := by
    have positive : 1 ≤ level.rank := by cases level <;> decide
    omega
  have inside : reader.following.kind ≠ .eof := by
    intro atEnd
    rw [atEnd] at strong
    exact absurd strong (by decide)
  rw [strength, reader.tail_eq inside, List.headD_cons] at weak
  rw [reader.tail_eq inside] at derives
  have takes := layer_rank_le stronger
  simp only [continuation, current_bind, Reader.current_advance] at read
  by_cases call : reader.following.kind = .leftParen
  · simp only [call, bind_eq_ok, pure_eq_ok] at read
    obtain ⟨arguments, _, readArguments, rfl, rfl⟩ := read
    rw [call] at weak takes
    have given := sound.derives_items _ (by decide) bound readArguments proper.advance clean
    exact ⟨.access, .call (derives.widen weak) call given, rank_ofKind_le _, takes⟩
  by_cases index : reader.following.kind = .leftBracket
  · simp only [index, advance_bind, bind_eq_ok, expect_eq_ok, pure_eq_ok] at read
    obtain ⟨position, last, readPosition, _, _, ⟨closes, rfl⟩, rfl, rfl⟩ := read
    rw [index] at weak takes
    have given := sound.lowest readPosition proper.advance.advance clean
    rw [last.tail_eq (by simp [closes])] at given
    exact ⟨.access, .index (derives.widen weak) index given closes, rank_ofKind_le _, takes⟩
  · simp only [advance_bind, bind_eq_ok, pure_eq_ok] at read
    obtain ⟨right, _, readRight, rfl, rfl⟩ := read
    obtain ⟨operatorLayer, operator⟩ := operator_of_strong strong call index
    obtain ⟨given, rightWeak⟩ := sound.derived _ readRight proper.advance.advance clean
    rw [layer_of_operator operator] at given
    rw [rank_of_operator operator] at weak takes rightWeak
    exact ⟨operatorLayer, .binary (derives.widen weak) operator given, rightWeak, takes⟩

/-- All operators that the level takes keep what is built, and what is left is derived. -/
theorem Sound.built_operators {level : Precedence} (bound : Nat) {reader reached : Reader}
    {left tree : Expr Unit} {tokens : List Token}
    (built : Built level left tokens reader.tokens.tail)
    (read : operators expression level bound left reader = some (.ok tree, reached))
    (proper : reader.Proper) (clean : reader.Clean reached) :
    Derives (.expression level.layer tree) tokens reached.tokens.tail ∧
      strength reached.tokens.tail ≤ level.rank := by
  induction bound generalizing reader left with
  | zero => simp [operators] at read
  | succ bound inductionHypothesis =>
      simp only [operators, following_bind] at read
      split at read
      · next stronger =>
          simp only [advance_bind, bind_eq_ok] at read
          obtain ⟨longer, middle, readLonger, readRest⟩ := read
          have longerReaches := forward_continuation sound.forward left bound readLonger
          have restReaches := forward_operators sound.forward level bound longer readRest
          exact inductionHypothesis
            (sound.built_continuation bound built stronger readLonger proper
              (restReaches.clean_left clean))
            readRest (longerReaches.proper proper.advance) (longerReaches.clean_right clean)
      · next weaker =>
          obtain ⟨rfl, rfl⟩ := pure_eq_ok.mp read
          obtain ⟨layer, derives, _, takes⟩ := built
          exact ⟨derives.widen takes, Nat.le_of_not_lt weaker⟩

end

/-- Reading within any bound is sound, by induction on the bound. -/
theorem sound_expression (bound : Nat) : Sound (expression bound) := by
  induction bound with
  | zero => exact ⟨forward_expression 0, fun _ _ _ _ read => nomatch read⟩
  | succ bound inductionHypothesis =>
      refine ⟨forward_expression (bound + 1), fun level reader reached tree read proper clean => ?_⟩
      simp only [expression, bind_eq_ok] at read
      obtain ⟨left, middle, readLeft, readRest⟩ := read
      have leftReaches : reader.Reaches middle :=
        (forward_current.bind fun token =>
          forward_operandFrom inductionHypothesis.forward token bound) readLeft
      have restReaches :=
        forward_operators inductionHypothesis.forward level (bound + 1) left readRest
      have built := inductionHypothesis.built_operand level bound readLeft proper
        (restReaches.clean_left clean)
      exact inductionHypothesis.built_operators (bound + 1) built readRest
        (leftReaches.proper proper) (leftReaches.clean_right clean)

end Reading

end Monkey
