import Monkey.Proofs.Grammar.Soundness

/-!
What the grammar derives is read without an error. An expression of a layer is read by the loop over
operators: in every context that takes the layer, the loop arrives behind the expression with the
tree of the derivation, as long as the token behind it binds no more strongly than the layer.
-/

namespace Monkey

open Grammar

/-- The reader stands on the last token of a phrase, with `rest` behind it and no new error. -/
structure Reader.StopsAt (reader : Reader) (rest : List Token) (reached : Reader) : Prop where
  tokens : reached.tokens.tail = rest
  errors : reached.errors = reader.errors

/-- The token behind an expression neither binds more strongly than the limit nor is an `else`. -/
structure Grammar.Follow (limit : Nat) (rest : List Token) : Prop where
  weak : strength rest ≤ limit
  noElse : firstKind rest ≠ .elseWord

namespace Grammar

/-- What does not continue a strong operand does not continue a weak one. -/
theorem Follow.mono {limit larger : Nat} {rest : List Token} (follow : Follow limit rest)
    (le : limit ≤ larger) : Follow larger rest :=
  ⟨Nat.le_trans follow.weak le, follow.noElse⟩

/-- The kind of the first token decides what may follow. -/
theorem Follow.of_kind {limit : Nat} {rest : List Token}
    (weak : (Precedence.ofKind (firstKind rest)).rank ≤ limit)
    (noElse : firstKind rest ≠ .elseWord) : Follow limit rest :=
  ⟨weak, noElse⟩

/-- The end of a statement continues no expression. -/
theorem Ending.follow {tokens rest : List Token} (ending : Ending tokens rest)
    (noElse : firstKind rest ≠ .elseWord) : Follow Precedence.lowest.rank tokens := by
  cases ending with
  | semicolon kind => exact .of_kind (by simp [kind]; decide) (by simp [kind])
  | bare stops =>
      refine .of_kind ?_ noElse
      match tokens with
      | [] => decide
      | token :: others => exact rank_of_not_continuing.mpr (stops token rfl).2

end Grammar

namespace Reading

open Bounded

/-- The loop over operators arrives behind the tree. -/
def Leads (level : Precedence) (tree : Expr Unit) (tokens rest : List Token) : Prop :=
  ∀ (bound : Nat) (reader : Reader), reader.tokens = tokens → tokens.length ≤ bound →
    ∃ steps reached, expression (bound + 1) level reader =
        operators (expression bound) level steps tree reached ∧
      reader.StopsAt rest reached ∧ rest.length + 1 < steps

/-- The statement is read up to its end. -/
def ReadsStatement (tree : Stmt Unit) (tokens rest : List Token) : Prop :=
  ∀ (bound : Nat) (reader : Reader), reader.tokens = tokens → tokens.length < bound →
    ∃ reached, statement (expression bound) reader = some (.ok tree, reached) ∧
      reader.StopsAt rest reached

/-- What it means for each kind of phrase that a derived one is read. -/
def Accepts : Phrase → List Token → List Token → Prop
  | .expression layer tree, tokens, rest =>
      ∀ level : Precedence, level ≠ .call → level.layer.rank ≤ layer.rank →
        Follow layer.rank rest → Leads level tree tokens rest
  | .items closing trees, tokens, rest =>
      ∀ (bound steps : Nat) (reader : Reader), closing = .rightParen ∨ closing = .rightBracket →
        reader.tokens.tail = tokens → tokens.length < bound → tokens.length < steps →
        ∃ reached, items (expression bound .lowest) closing steps reader =
          some (.ok trees, reached) ∧ reader.StopsAt rest reached
  | .moreItems closing trees, tokens, rest =>
      ∀ (bound steps : Nat) (reader : Reader), closing = .rightParen ∨ closing = .rightBracket →
        reader.tokens.tail = tokens → tokens.length < bound → tokens.length < steps →
        ∃ reached, moreItems (expression bound .lowest) steps reader = some (.ok trees, reached) ∧
          reached.following.kind = closing ∧ reader.StopsAt rest reached.advance
  | .statement tree, tokens, rest =>
      firstKind rest ≠ .elseWord → ReadsStatement tree tokens rest
  | .statements trees, tokens, rest =>
      ∀ (closing : List Token.Kind) (bound steps : Nat) (reader : Reader),
        (∀ kind ∈ closing, kind = .rightBrace ∨ kind = .eof) → firstKind rest ∈ closing →
        reader.tokens = tokens → tokens.length < bound → tokens.length < steps →
        ∃ reached, statements (expression bound) closing steps reader =
          some (.ok trees, reached) ∧ reached.tokens = rest ∧ reached.errors = reader.errors
  | .block tree, tokens, rest =>
      ∀ (bound steps : Nat) (reader : Reader), reader.tokens = tokens → tokens.length ≤ bound →
        tokens.length ≤ steps →
        ∃ reached, block (expression bound) steps reader = some (.ok tree, reached) ∧
          reader.StopsAt rest reached
  | .alternative tree, tokens, rest =>
      ∀ (bound steps : Nat) (reader : Reader), firstKind rest ≠ .elseWord →
        reader.tokens.tail = tokens → tokens.length ≤ bound → tokens.length ≤ steps →
        ∃ reached, alternative (expression bound) steps reader = some (.ok tree, reached) ∧
          reader.StopsAt rest reached

/-- In front of an operator that is too weak the reader stops with what it has. -/
theorem operators_stop {expression : Precedence → Reading (Expr Unit)} {level : Precedence}
    {steps : Nat} {tree : Expr Unit} {reader : Reader} (positive : 0 < steps)
    (weak : strength reader.tokens.tail ≤ level.rank) :
    operators expression level steps tree reader = some (.ok tree, reader) := by
  have stops : ¬ level.rank < (Precedence.ofKind reader.following.kind).rank :=
    Nat.not_lt.mpr weak
  match steps with
  | steps + 1 => simp [operators, stops]

/-- In a context that the follower does not go beyond, the whole expression is read. -/
theorem Accepts.read {layer : Layer} {tree : Expr Unit} {tokens rest : List Token}
    (accepts : Accepts (.expression layer tree) tokens rest) (level : Precedence)
    (notCall : level ≠ .call) (takes : level.layer.rank ≤ layer.rank)
    (follow : Follow level.rank rest) {bound : Nat} {reader : Reader}
    (start : reader.tokens = tokens) (fits : tokens.length < bound) :
    ∃ reached, expression bound level reader = some (.ok tree, reached) ∧
      reader.StopsAt rest reached := by
  obtain ⟨smaller, rfl⟩ : ∃ smaller, bound = smaller + 1 := ⟨bound - 1, by omega⟩
  have wider : level.rank ≤ layer.rank := by
    have inContext : level.rank ≤ level.layer.rank := rank_le_layer notCall
    omega
  obtain ⟨steps, reached, reads, stops, enough⟩ :=
    accepts level notCall takes (follow.mono wider) smaller reader start (by omega)
  refine ⟨reached, ?_, stops⟩
  rw [reads]
  exact operators_stop (by omega) (stops.tokens ▸ follow.weak)

/-- An expression is read whole where nothing continues it. -/
theorem Accepts.read_lowest {tree : Expr Unit} {tokens rest : List Token}
    (accepts : Accepts (.expression .equality tree) tokens rest)
    (follow : Follow Precedence.lowest.rank rest) {bound : Nat} {reader : Reader}
    (start : reader.tokens = tokens) (fits : tokens.length < bound) :
    ∃ reached, expression bound .lowest reader = some (.ok tree, reached) ∧
      reader.StopsAt rest reached :=
  accepts.read .lowest (by decide) (Nat.le_refl _) follow start fits

/-- Behind an operand the loop over operators starts. -/
theorem leads_of_operand {tree : Expr Unit} {tokens rest : List Token}
    (shorter : rest.length < tokens.length)
    (reads : ∀ (bound : Nat) (reader : Reader), reader.tokens = tokens → tokens.length ≤ bound →
      ∃ reached, operand (expression bound) bound reader = some (.ok tree, reached) ∧
        reader.StopsAt rest reached) (level : Precedence) : Leads level tree tokens rest := by
  intro bound reader start fits
  obtain ⟨reached, read, stops⟩ := reads bound reader start fits
  refine ⟨bound + 1, reached, ?_, stops, by omega⟩
  rw [expression, bind_apply, read]

/-- An operand is read by its first token. -/
theorem operand_eq {expression : Precedence → Reading (Expr Unit)} {bound : Nat} {token : Token}
    {rest : List Token} {reader : Reader} (start : reader.tokens = token :: rest) :
    operand expression bound reader = operandFrom expression token bound reader := by
  rw [operand, current_bind, Reader.current_eq start]

/-- An operand that is one token is read where it stands. -/
theorem leads_of_token {tree : Expr Unit} {token : Token} {rest : List Token}
    (reads : ∀ (bound : Nat) (reader : Reader),
      operandFrom (expression bound) token bound reader = some (.ok tree, reader))
    (level : Precedence) : Leads level tree (token :: rest) rest := by
  refine leads_of_operand (by simp) (fun bound reader start _ => ⟨reader, ?_, ?_⟩) level
  · rw [operand_eq start, reads]
  · exact ⟨by rw [start, List.tail_cons], rfl⟩

/-- An operator in front of an operand is read as a unary operation. -/
theorem accepts_unary {operand : Expr Unit} {token : Token} {tokens rest : List Token}
    (kind : token.kind = .bang ∨ token.kind = .minus)
    (shorter : rest.length < (token :: tokens).length)
    (accepts : Accepts (.expression .unary operand) tokens rest) :
    Accepts (.expression .unary (.unary token token.literal operand)) (token :: tokens) rest := by
  intro level _ _ follow
  refine leads_of_operand shorter (fun bound reader start fits => ?_) level
  obtain ⟨reached, read, stops⟩ := accepts.read .unary (by decide) (Nat.le_refl _) follow
    (by simp [start] : reader.advance.tokens = tokens) fits
  have unfolded : operandFrom (expression bound) token bound = unary (expression bound) token := by
    rcases kind with kind | kind <;> simp [operandFrom, kind]
  refine ⟨reached, ?_, stops.tokens, stops.errors⟩
  rw [operand_eq start, unfolded, unary, advance_bind, bind_of_ok read]
  rfl

/-- Parentheses are read and leave nothing in the tree. -/
theorem accepts_group {tree : Expr Unit} {token close : Token} {tokens rest : List Token}
    (kind : token.kind = .leftParen) (closing : close.kind = .rightParen)
    (shorter : rest.length < (token :: tokens).length)
    (accepts : Accepts (.expression .equality tree) tokens (close :: rest)) :
    Accepts (.expression .primary tree) (token :: tokens) rest := by
  intro level _ _ _
  refine leads_of_operand shorter (fun bound reader start fits => ?_) level
  obtain ⟨reached, read, stops⟩ := accepts.read_lowest
    (.of_kind (by simp [closing]; decide) (by simp [closing]))
    (by simp [start] : reader.advance.tokens = tokens) fits
  have closes : reached.following.kind = .rightParen := by
    rw [Reader.following_eq stops.tokens, closing]
  refine ⟨reached.advance, ?_, by simp [stops.tokens], stops.errors⟩
  simp only [operand_eq start, operandFrom, kind, grouped, advance_bind, bind_of_ok read,
    expect_bind _ closes]
  rfl

/-- Brackets around items are read as an array. -/
theorem accepts_array {elements : List (Expr Unit)} {token : Token} {tokens rest : List Token}
    (kind : token.kind = .leftBracket) (shorter : rest.length < (token :: tokens).length)
    (accepts : Accepts (.items .rightBracket elements) tokens rest) :
    Accepts (.expression .primary (.array token elements)) (token :: tokens) rest := by
  intro level _ _ _
  refine leads_of_operand shorter (fun bound reader start fits => ?_) level
  obtain ⟨reached, read, stops⟩ := accepts bound bound reader (.inr rfl) (by simp [start]) fits fits
  refine ⟨reached, ?_, stops⟩
  simp only [operand_eq start, operandFrom, kind, array, bind_of_ok read]
  rfl

/-- The parts of a conditional are read one after the other. -/
theorem accepts_conditional {condition : Expr Unit} {consequence : Block Unit}
    {otherwise : Option (Block Unit)} {token opening close : Token}
    {tokens middle behind rest : List Token} (kind : token.kind = .ifWord)
    (opens : opening.kind = .leftParen)
    (first : Derives (.expression .equality condition) tokens (close :: middle))
    (closing : close.kind = .rightParen) (second : Derives (.block consequence) middle behind)
    (third : Derives (.alternative otherwise) behind rest)
    (acceptsFirst : Accepts (.expression .equality condition) tokens (close :: middle))
    (acceptsSecond : Accepts (.block consequence) middle behind)
    (acceptsThird : Accepts (.alternative otherwise) behind rest) :
    Accepts (.expression .primary (.conditional token condition consequence otherwise))
      (token :: opening :: tokens) rest := by
  intro level _ _ follow
  have firstLength := first.length
  have secondLength := second.length
  have thirdLength := third.length
  simp only [Phrase.size, List.length_cons] at firstLength secondLength thirdLength
  refine leads_of_operand (by simp only [List.length_cons]; omega)
    (fun bound reader start fits => ?_) level
  simp only [List.length_cons] at fits
  have opened : reader.following.kind = .leftParen := by
    rw [Reader.following_eq (by rw [start, List.tail_cons]), opens]
  obtain ⟨afterFirst, readFirst, stopsFirst⟩ := acceptsFirst.read_lowest
    (.of_kind (by simp [closing]; decide) (by simp [closing]))
    (by simp [start] : reader.advance.advance.tokens = tokens) (by omega : tokens.length < bound)
  have closed : afterFirst.following.kind = .rightParen := by
    rw [Reader.following_eq stopsFirst.tokens, closing]
  have atBrace : afterFirst.advance.advance.tokens = middle := by simp [stopsFirst.tokens]
  have braced : afterFirst.advance.following.kind = .leftBrace := by
    have starts : firstKind middle = .leftBrace := second.starts
    rw [← starts, ← atBrace]
    rfl
  obtain ⟨afterSecond, readSecond, stopsSecond⟩ := acceptsSecond bound bound _ atBrace
    (by omega) (by omega)
  obtain ⟨afterThird, readThird, stopsThird⟩ := acceptsThird bound bound afterSecond follow.noElse
    stopsSecond.tokens (by omega) (by omega)
  refine ⟨afterThird, ?_, stopsThird.tokens, ?_⟩
  · simp only [operand_eq start, operandFrom, kind, conditional, expect_bind _ opened, advance_bind,
      bind_of_ok readFirst, expect_bind _ closed, expect_bind _ braced, bind_of_ok readSecond,
      bind_of_ok readThird]
    rfl
  · rw [stopsThird.errors, stopsSecond.errors, Reader.advance_errors, Reader.advance_errors,
      stopsFirst.errors, Reader.advance_errors, Reader.advance_errors]

/-- A name is read as a parameter. -/
theorem read_parameter {name : Ident} {tokens rest : List Token} {reader : Reader}
    (derives : Parameter name tokens rest) (start : reader.tokens = tokens) :
    parameter reader = some (.ok name, reader) ∧ reader.tokens.tail = rest := by
  cases derives with
  | name kind => simp [parameter, Reader.current_eq start, kind, start]

/-- Further parameters are read up to the parenthesis. -/
theorem read_moreParameters {names : List Ident} {tokens rest : List Token}
    (derives : MoreParameters names tokens rest) {steps : Nat} {reader : Reader}
    (start : reader.tokens.tail = tokens) (fits : tokens.length < steps) :
    ∃ reached, moreItems parameter steps reader = some (.ok names, reached) ∧
      reached.following.kind = .rightParen ∧ reader.StopsAt rest reached.advance := by
  induction derives generalizing steps reader with
  | close kind =>
      have closes : reader.following.kind = .rightParen := by rw [Reader.following_eq start, kind]
      exact ⟨reader, moreItems_close (by simp [closes]) (by omega), closes, by simp [start], rfl⟩
  | comma kind first _ inductionHypothesis =>
      have comma : reader.following.kind = .comma := by rw [Reader.following_eq start, kind]
      obtain ⟨readFirst, behind⟩ := read_parameter first
        (by simp [start] : reader.advance.advance.tokens = _)
      have shorter := first.length
      simp only [List.length_cons] at fits
      obtain ⟨smaller, rfl⟩ : ∃ smaller, steps = smaller + 1 := ⟨steps - 1, by omega⟩
      obtain ⟨reached, readOthers, closes, stops⟩ := inductionHypothesis behind
        (by omega : _ < smaller)
      exact ⟨reached, moreItems_comma comma readFirst readOthers, closes, stops.tokens,
        stops.errors⟩

/-- Parameters are read up to the parenthesis, also when there are none. -/
theorem read_parameters {names : List Ident} {tokens rest : List Token}
    (derives : Parameters names tokens rest) {steps : Nat} {reader : Reader}
    (start : reader.tokens.tail = tokens) (fits : tokens.length < steps) :
    ∃ reached, items parameter .rightParen steps reader = some (.ok names, reached) ∧
      reader.StopsAt rest reached := by
  cases derives with
  | none kind =>
      have closes : reader.following.kind = .rightParen := by rw [Reader.following_eq start, kind]
      exact ⟨reader.advance, items_none closes, by simp [start], rfl⟩
  | some first others =>
      have more : reader.following.kind ≠ .rightParen := by
        cases first with
        | name kind => rw [Reader.following_eq start, kind]; decide
      obtain ⟨readFirst, behind⟩ :=
        read_parameter first (by simp [start] : reader.advance.tokens = _)
      have shorter := first.length
      obtain ⟨reached, readOthers, closes, stops⟩ := read_moreParameters others behind
        (by omega : _ < steps)
      exact ⟨reached.advance, items_some more readFirst readOthers closes, stops.tokens,
        stops.errors⟩

/-- A function literal is read with its parameters and its body. -/
theorem accepts_function {names : List Ident} {body : Block Unit} {token opening : Token}
    {tokens middle rest : List Token} (kind : token.kind = .fnWord)
    (opens : opening.kind = .leftParen) (first : Parameters names tokens middle)
    (second : Derives (.block body) middle rest) (accepts : Accepts (.block body) middle rest) :
    Accepts (.expression .primary (.function token () names body))
      (token :: opening :: tokens) rest := by
  intro level _ _ _
  have firstLength := first.length
  have secondLength := second.length
  simp only [Phrase.size] at secondLength
  refine leads_of_operand (by simp only [List.length_cons]; omega)
    (fun bound reader start fits => ?_) level
  simp only [List.length_cons] at fits
  have opened : reader.following.kind = .leftParen := by
    rw [Reader.following_eq (by rw [start, List.tail_cons]), opens]
  obtain ⟨afterFirst, readFirst, stopsFirst⟩ := read_parameters first
    (by simp [start] : reader.advance.tokens.tail = tokens) (by omega : tokens.length < bound)
  have braced : afterFirst.following.kind = .leftBrace := by
    have starts : firstKind middle = .leftBrace := second.starts
    rw [← starts, ← stopsFirst.tokens]
    rfl
  obtain ⟨afterSecond, readSecond, stopsSecond⟩ := accepts bound bound afterFirst.advance
    stopsFirst.tokens (by omega) (by omega)
  refine ⟨afterSecond, ?_, stopsSecond.tokens, ?_⟩
  · simp only [operand_eq start, operandFrom, kind, function, expect_bind _ opened,
      bind_of_ok readFirst, expect_bind _ braced, bind_of_ok readSecond]
    rfl
  · rw [stopsSecond.errors, Reader.advance_errors, stopsFirst.errors, Reader.advance_errors]

/-- A token that binds more strongly than the context leads the loop on. -/
theorem leads_continue {level : Precedence} {left longer : Expr Unit} {token : Token}
    {tokens middle rest : List Token} (leads : Leads level left tokens (token :: middle))
    (stronger : level.rank < (Precedence.ofKind token.kind).rank)
    (shorter : rest.length < middle.length)
    (reads : ∀ (bound steps : Nat) (reader : Reader), reader.tokens = token :: middle →
      tokens.length ≤ bound → middle.length < steps →
      ∃ reached, continuation (expression bound) left steps reader = some (.ok longer, reached) ∧
        reader.StopsAt rest reached) : Leads level longer tokens rest := by
  intro bound reader start fits
  obtain ⟨steps, reached, read, stops, enough⟩ := leads bound reader start fits
  simp only [List.length_cons] at enough
  obtain ⟨smaller, rfl⟩ : ∃ smaller, steps = smaller + 1 := ⟨steps - 1, by omega⟩
  obtain ⟨final, readLonger, stopsLonger⟩ := reads bound smaller reached.advance stops.tokens fits
    (by omega)
  have continues : level.rank < (Precedence.ofKind reached.following.kind).rank := by
    rw [Reader.following_eq stops.tokens]
    exact stronger
  refine ⟨smaller, final, ?_, ⟨stopsLonger.tokens, ?_⟩, by omega⟩
  · rw [read]
    simp only [operators, following_bind, continues, if_true, advance_bind, bind_of_ok readLonger]
  · rw [stopsLonger.errors, Reader.advance_errors, stops.errors]

/-- An operator takes what stands in front of it and a stronger operand behind it. -/
theorem accepts_binary {layer : Layer} {left right : Expr Unit} {token : Token}
    {tokens middle rest : List Token}
    (first : Derives (.expression layer left) tokens (token :: middle))
    (kind : token.kind ∈ layer.operators)
    (second : Derives (.expression layer.inner right) middle rest)
    (acceptsFirst : Accepts (.expression layer left) tokens (token :: middle))
    (acceptsSecond : Accepts (.expression layer.inner right) middle rest) :
    Accepts (.expression layer (.binary token left token.literal right)) tokens rest := by
  intro level notCall takes follow
  have firstLength := first.length
  have secondLength := second.length
  simp only [Phrase.size, List.length_cons] at firstLength secondLength
  have rank := rank_of_operator kind
  obtain ⟨strong, notAccess⟩ := ofKind_of_operator kind
  have notElse : token.kind ≠ .elseWord := fun isElse => strong (by rw [isElse]; rfl)
  have notParen : token.kind ≠ .leftParen := fun isParen => notAccess (by rw [isParen]; rfl)
  have notBracket : token.kind ≠ .leftBracket := fun isBracket => notAccess (by rw [isBracket]; rfl)
  have leads := acceptsFirst level notCall takes (.of_kind (by simp [rank]) (by simp [notElse]))
  refine leads_continue leads (rank_lt_of_layer notCall (by rw [rank]; exact takes)) secondLength ?_
  intro bound steps reader start fits enough
  obtain ⟨reached, read, stops⟩ := acceptsSecond.read (.ofKind token.kind) notAccess
    (Nat.le_of_eq (congrArg Layer.rank (layer_of_operator kind))) (by rw [rank]; exact follow)
    (by simp [start] : reader.advance.tokens = middle) (by omega : middle.length < bound)
  refine ⟨reached, ?_, stops.tokens, stops.errors⟩
  simp only [continuation, current_bind, Reader.current_eq start, advance_bind, bind_of_ok read]
  rfl

/-- Arguments behind a callee are read as a call. -/
theorem accepts_call {callee : Expr Unit} {arguments : List (Expr Unit)} {token : Token}
    {tokens middle rest : List Token}
    (first : Derives (.expression .access callee) tokens (token :: middle))
    (kind : token.kind = .leftParen) (second : Derives (.items .rightParen arguments) middle rest)
    (acceptsFirst : Accepts (.expression .access callee) tokens (token :: middle))
    (acceptsSecond : Accepts (.items .rightParen arguments) middle rest) :
    Accepts (.expression .access (.call token callee arguments)) tokens rest := by
  intro level notCall takes follow
  have firstLength := first.length
  have secondLength := second.length
  simp only [Phrase.size, List.length_cons] at firstLength secondLength
  have leads := acceptsFirst level notCall takes
    (.of_kind (rank_ofKind_le _) (by simp [kind]))
  refine leads_continue leads (rank_lt_of_layer notCall (by rw [kind]; exact takes)) secondLength ?_
  intro bound steps reader start fits enough
  obtain ⟨reached, read, stops⟩ := acceptsSecond bound steps reader (.inl rfl) (by simp [start])
    (by omega) enough
  refine ⟨reached, ?_, stops⟩
  simp only [continuation, current_bind, Reader.current_eq start, kind, bind_of_ok read]
  rfl

/-- A bracket behind a collection is read as an index. -/
theorem accepts_index {collection position : Expr Unit} {token close : Token}
    {tokens middle rest : List Token}
    (first : Derives (.expression .access collection) tokens (token :: middle))
    (kind : token.kind = .leftBracket)
    (second : Derives (.expression .equality position) middle (close :: rest))
    (closing : close.kind = .rightBracket)
    (acceptsFirst : Accepts (.expression .access collection) tokens (token :: middle))
    (acceptsSecond : Accepts (.expression .equality position) middle (close :: rest)) :
    Accepts (.expression .access (.index token collection position)) tokens rest := by
  intro level notCall takes follow
  have firstLength := first.length
  have secondLength := second.length
  simp only [Phrase.size, List.length_cons] at firstLength secondLength
  have leads := acceptsFirst level notCall takes
    (.of_kind (rank_ofKind_le _) (by simp [kind]))
  refine leads_continue leads (rank_lt_of_layer notCall (by rw [kind]; exact takes)) (by omega) ?_
  intro bound steps reader start fits enough
  obtain ⟨reached, read, stops⟩ := acceptsSecond.read_lowest
    (.of_kind (by simp [closing]; decide) (by simp [closing]))
    (by simp [start] : reader.advance.tokens = middle) (by omega : middle.length < bound)
  have closes : reached.following.kind = .rightBracket := by
    rw [Reader.following_eq stops.tokens, closing]
  refine ⟨reached.advance, ?_, by simp [stops.tokens], stops.errors⟩
  simp only [continuation, current_bind, Reader.current_eq start, kind, advance_bind,
    bind_of_ok read, expect_bind _ closes]
  rfl

/-- A closing token at once leaves no items. -/
theorem accepts_noItems {closing : Token.Kind} {token : Token} {rest : List Token}
    (kind : token.kind = closing) : Accepts (.items closing []) (token :: rest) rest := by
  intro bound steps reader _ start _ _
  have closes : reader.following.kind = closing := by rw [Reader.following_eq start, kind]
  exact ⟨reader.advance, items_none closes, by simp [start], rfl⟩

/-- A closing token ends the items. -/
theorem accepts_close {closing : Token.Kind} {token : Token} {rest : List Token}
    (kind : token.kind = closing) : Accepts (.moreItems closing []) (token :: rest) rest := by
  intro bound steps reader closer start _ enough
  have closes : reader.following.kind = closing := by rw [Reader.following_eq start, kind]
  have noComma : reader.following.kind ≠ .comma := by
    rw [closes]
    rcases closer with rfl | rfl <;> decide
  exact ⟨reader, moreItems_close noComma (by omega), closes, by simp [start], rfl⟩

/-- Behind an item stands a comma or the closing delimiter. -/
theorem follow_moreItems {closing : Token.Kind} {trees : List (Expr Unit)}
    {tokens rest : List Token} (derives : Derives (.moreItems closing trees) tokens rest)
    (closer : closing = .rightParen ∨ closing = .rightBracket) :
    Follow Precedence.lowest.rank tokens := by
  rcases derives.starts with closes | comma
  · rcases closer with rfl | rfl <;>
      exact .of_kind (by rw [closes]; decide) (by rw [closes]; decide)
  · exact .of_kind (by rw [comma]; decide) (by rw [comma]; decide)

/-- A first item is read, and the further ones behind it. -/
theorem accepts_someItems {closing : Token.Kind} {tree : Expr Unit} {trees : List (Expr Unit)}
    {tokens middle rest : List Token} (first : Derives (.expression .equality tree) tokens middle)
    (others : Derives (.moreItems closing trees) middle rest)
    (acceptsFirst : Accepts (.expression .equality tree) tokens middle)
    (acceptsOthers : Accepts (.moreItems closing trees) middle rest) :
    Accepts (.items closing (tree :: trees)) tokens rest := by
  intro bound steps reader closer start fits enough
  have firstLength := first.length
  simp only [Phrase.size] at firstLength
  have more : reader.following.kind ≠ closing := by
    have starts : firstKind tokens ∈ starting := first.starts
    rw [← start] at starts
    intro closes
    rw [show firstKind reader.tokens.tail = closing from closes] at starts
    rcases closer with rfl | rfl <;> exact absurd starts (by decide)
  obtain ⟨afterFirst, readFirst, stopsFirst⟩ := acceptsFirst.read_lowest
    (follow_moreItems others closer) (by simp [start] : reader.advance.tokens = tokens) fits
  obtain ⟨reached, readOthers, closes, stops⟩ := acceptsOthers bound steps afterFirst closer
    stopsFirst.tokens (by omega) (by omega)
  refine ⟨reached.advance, items_some more readFirst readOthers closes, stops.tokens, ?_⟩
  rw [stops.errors, stopsFirst.errors, Reader.advance_errors]

/-- Behind a comma a further item is read. -/
theorem accepts_comma {closing : Token.Kind} {tree : Expr Unit} {trees : List (Expr Unit)}
    {token : Token} {tokens middle rest : List Token} (kind : token.kind = .comma)
    (first : Derives (.expression .equality tree) tokens middle)
    (others : Derives (.moreItems closing trees) middle rest)
    (acceptsFirst : Accepts (.expression .equality tree) tokens middle)
    (acceptsOthers : Accepts (.moreItems closing trees) middle rest) :
    Accepts (.moreItems closing (tree :: trees)) (token :: tokens) rest := by
  intro bound steps reader closer start fits enough
  have firstLength := first.length
  simp only [Phrase.size, List.length_cons] at firstLength fits enough
  have comma : reader.following.kind = .comma := by rw [Reader.following_eq start, kind]
  obtain ⟨afterFirst, readFirst, stopsFirst⟩ := acceptsFirst.read_lowest
    (follow_moreItems others closer) (by simp [start] : reader.advance.advance.tokens = tokens)
    (by omega : tokens.length < bound)
  obtain ⟨smaller, rfl⟩ : ∃ smaller, steps = smaller + 1 := ⟨steps - 1, by omega⟩
  obtain ⟨reached, readOthers, closes, stops⟩ := acceptsOthers bound smaller afterFirst closer
    stopsFirst.tokens (by omega) (by omega)
  refine ⟨reached, moreItems_comma comma readFirst readOthers, closes, stops.tokens, ?_⟩
  rw [stops.errors, stopsFirst.errors, Reader.advance_errors, Reader.advance_errors]

/-- The reader passes the semicolon behind a statement, if there is one. -/
theorem stopsAt_ending {middle rest : List Token} {reader reached : Reader}
    (ending : Ending middle rest) (stops : reader.StopsAt middle reached) :
    reader.StopsAt rest
      (if reached.following.kind = .semicolon then reached.advance else reached) := by
  cases ending with
  | semicolon kind =>
      rw [if_pos (by rw [Reader.following_eq stops.tokens, kind])]
      exact ⟨by simp [stops.tokens], stops.errors⟩
  | bare noMore =>
      rw [if_neg]
      · exact stops
      · intro semicolon
        have behind := reached.tail_eq (by rw [semicolon]; decide)
        rw [stops.tokens] at behind
        exact (noMore reached.following (by rw [behind]; rfl)).1 semicolon

/-- A `let` statement is read with its name and its value. -/
theorem reads_bind {value : Expr Unit} {token name sign : Token}
    {tokens middle rest : List Token} (kind : token.kind = .letWord) (named : name.kind = .ident)
    (assigns : sign.kind = .assign) (ending : Ending middle rest)
    (follow : Follow Precedence.lowest.rank middle)
    (accepts : Accepts (.expression .equality value) tokens middle) :
    ReadsStatement (.bind token ⟨name, name.literal⟩ value) (token :: name :: sign :: tokens)
      rest := by
  intro bound reader start fits
  simp only [List.length_cons] at fits
  have isLet : reader.current.kind = .letWord := by rw [Reader.current_eq start, kind]
  have second : reader.following = name := Reader.following_eq (by rw [start, List.tail_cons])
  have third : reader.advance.following = sign :=
    Reader.following_eq (by simp [start] : reader.advance.tokens.tail = sign :: tokens)
  obtain ⟨reached, read, stops⟩ := accepts.read_lowest follow
    (by simp [start] : reader.advance.advance.advance.tokens = tokens)
    (by omega : tokens.length < bound)
  refine ⟨_, ?_, stopsAt_ending ending ⟨stops.tokens, stops.errors⟩⟩
  rw [statement_of_let _ isLet, expect_bind _ (by rw [second, named]), current_bind,
    Reader.current_advance, expect_bind _ (by rw [third, assigns]), advance_bind, bind_of_ok read,
    accept_bind, Reader.current_eq start, second]
  rfl

/-- A `return` statement is read with its value. -/
theorem reads_give {value : Expr Unit} {token : Token} {tokens middle rest : List Token}
    (kind : token.kind = .returnWord) (ending : Ending middle rest)
    (follow : Follow Precedence.lowest.rank middle)
    (accepts : Accepts (.expression .equality value) tokens middle) :
    ReadsStatement (.give token value) (token :: tokens) rest := by
  intro bound reader start fits
  simp only [List.length_cons] at fits
  have isReturn : reader.current.kind = .returnWord := by rw [Reader.current_eq start, kind]
  obtain ⟨reached, read, stops⟩ := accepts.read_lowest follow
    (by simp [start] : reader.advance.tokens = tokens) (by omega : tokens.length < bound)
  refine ⟨_, ?_, stopsAt_ending ending ⟨stops.tokens, stops.errors⟩⟩
  rw [statement_of_return _ isReturn, advance_bind, bind_of_ok read, accept_bind,
    Reader.current_eq start]
  rfl

/-- Any other statement is read as an expression. -/
theorem reads_expression {value : Expr Unit} {token : Token} {tokens middle rest : List Token}
    (derives : Derives (.expression .equality value) (token :: tokens) middle)
    (ending : Ending middle rest) (follow : Follow Precedence.lowest.rank middle)
    (accepts : Accepts (.expression .equality value) (token :: tokens) middle) :
    ReadsStatement (.expression token value) (token :: tokens) rest := by
  intro bound reader start fits
  have starts : token.kind ∈ starting := derives.starts
  have notLet : reader.current.kind ≠ .letWord := by
    rw [Reader.current_eq start]
    intro isLet
    exact absurd (isLet ▸ starts) (by decide)
  have notReturn : reader.current.kind ≠ .returnWord := by
    rw [Reader.current_eq start]
    intro isReturn
    exact absurd (isReturn ▸ starts) (by decide)
  obtain ⟨reached, read, stops⟩ := accepts.read_lowest follow start fits
  refine ⟨_, ?_, stopsAt_ending ending stops⟩
  rw [statement_of_other _ notLet notReturn, bind_of_ok read, accept_bind, Reader.current_eq start]
  rfl

/-- No statements are read from where there are none. -/
theorem accepts_nothing (rest : List Token) : Accepts (.statements []) rest rest := by
  intro closing bound steps reader _ closes start _ enough
  obtain ⟨smaller, rfl⟩ : ∃ smaller, steps = smaller + 1 := ⟨steps - 1, by omega⟩
  have done : reader.current.kind ∈ closing := by
    rw [← start] at closes
    exact closes
  exact ⟨reader, by simp [statements, done], start, rfl⟩

/-- A statement is read, and the further ones behind it. -/
theorem accepts_more {tree : Stmt Unit} {trees : List (Stmt Unit)}
    {tokens middle rest : List Token} (first : Derives (.statement tree) tokens middle)
    (others : Derives (.statements trees) middle rest)
    (acceptsFirst : Accepts (.statement tree) tokens middle)
    (acceptsOthers : Accepts (.statements trees) middle rest) :
    Accepts (.statements (tree :: trees)) tokens rest := by
  intro closing bound steps reader closers closes start fits enough
  have firstLength := first.length
  simp only [Phrase.size] at firstLength
  obtain ⟨smaller, rfl⟩ : ∃ smaller, steps = smaller + 1 := ⟨steps - 1, by omega⟩
  have goesOn : reader.current.kind ∉ closing := by
    have starts : firstKind tokens ∈ .letWord :: .returnWord :: starting := first.starts
    rw [← start, show firstKind reader.tokens = reader.current.kind from rfl] at starts
    intro done
    rcases closers _ done with isBrace | isEnd
    · exact absurd (isBrace ▸ starts) (by decide)
    · exact absurd (isEnd ▸ starts) (by decide)
  have noElse : firstKind middle ≠ .elseWord := by
    intro isElse
    rcases others.starts with same | starts
    · rw [← same, isElse] at closes
      rcases closers _ closes with isBrace | isEnd <;> contradiction
    · exact absurd (isElse ▸ starts) (by decide)
  obtain ⟨afterFirst, readFirst, stopsFirst⟩ := acceptsFirst noElse bound reader start fits
  obtain ⟨reached, readOthers, behind, errors⟩ := acceptsOthers closing bound smaller
    afterFirst.advance closers closes stopsFirst.tokens (by omega) (by omega)
  refine ⟨reached, ?_, behind, by rw [errors, Reader.advance_errors, stopsFirst.errors]⟩
  simp only [statements, current_bind, goesOn, if_false, bind_of_ok (recorded_ok readFirst),
    advance_bind, bind_of_ok readOthers]
  rfl

/-- A block is read up to its closing brace or, where there is none, to the end of the tokens. -/
theorem accepts_block {trees : List (Stmt Unit)} {token : Token} {tokens rest : List Token}
    (closes : firstKind rest = .rightBrace ∨ firstKind rest = .eof)
    (accepts : Accepts (.statements trees) tokens rest) :
    Accepts (.block (.mk token trees)) (token :: tokens) rest.tail := by
  intro bound steps reader start fits enough
  obtain ⟨reached, read, behind, errors⟩ := accepts [.rightBrace, .eof] bound steps reader.advance
    (by simp) (by simpa using closes) (by simp [start]) fits enough
  refine ⟨reached, ?_, by rw [behind], errors⟩
  simp only [block, current_bind, advance_bind, bind_of_ok read, Reader.current_eq start]
  rfl

/-- Without `else` there is no alternative. -/
theorem accepts_noElse (rest : List Token) : Accepts (.alternative none) rest rest := by
  intro bound steps reader noElse start _ _
  have other : reader.following.kind ≠ .elseWord := by
    rw [← start] at noElse
    exact noElse
  exact ⟨reader, by simp [alternative, other], start, rfl⟩

/-- The block behind `else` is read as the alternative. -/
theorem accepts_someElse {tree : Block Unit} {token : Token} {tokens rest : List Token}
    (kind : token.kind = .elseWord) (derives : Derives (.block tree) tokens rest)
    (accepts : Accepts (.block tree) tokens rest) :
    Accepts (.alternative (some tree)) (token :: tokens) rest := by
  intro bound steps reader _ start fits enough
  simp only [List.length_cons] at fits enough
  have isElse : reader.following.kind = .elseWord := by rw [Reader.following_eq start, kind]
  have behind : reader.advance.advance.tokens = tokens := by simp [start]
  have braced : reader.advance.following.kind = .leftBrace := by
    have starts : firstKind tokens = .leftBrace := derives.starts
    rw [← starts, ← behind]
    rfl
  obtain ⟨reached, read, stops⟩ := accepts bound steps _ behind (by omega) (by omega)
  refine ⟨reached, ?_, stops.tokens, stops.errors⟩
  simp only [alternative, following_bind, isElse, if_true, advance_bind, expect_bind _ braced,
    bind_of_ok read]
  rfl

/-- Every derivation is followed by the reader. -/
theorem accepts_of_derives {phrase : Phrase} {tokens rest : List Token}
    (derives : Derives phrase tokens rest) : Accepts phrase tokens rest := by
  induction derives with
  | @inner layer _ _ _ _ accepts =>
      intro level notCall takes follow
      have le := rank_le_inner layer
      exact accepts level notCall (Nat.le_trans takes le) (follow.mono le)
  | binary first kind second acceptsFirst acceptsSecond =>
      exact accepts_binary first kind second acceptsFirst acceptsSecond
  | unary kind derives accepts =>
      exact accepts_unary kind (Nat.lt_succ_of_lt derives.length) accepts
  | call first kind second acceptsFirst acceptsSecond =>
      exact accepts_call first kind second acceptsFirst acceptsSecond
  | index first kind second closing acceptsFirst acceptsSecond =>
      exact accepts_index first kind second closing acceptsFirst acceptsSecond
  | ident kind =>
      exact fun level _ _ _ => leads_of_token (by simp [operandFrom, kind]) level
  | integer kind small =>
      have value := Integer.ofLiteral_eq_some.mpr ⟨small, rfl⟩
      exact fun level _ _ _ => leads_of_token (by simp [operandFrom, kind, integer, value]) level
  | text kind =>
      exact fun level _ _ _ => leads_of_token (by simp [operandFrom, kind]) level
  | true kind =>
      exact fun level _ _ _ => leads_of_token (by simp [operandFrom, kind]) level
  | false kind =>
      exact fun level _ _ _ => leads_of_token (by simp [operandFrom, kind]) level
  | group kind derives closing accepts =>
      have shorter := derives.length
      simp only [Phrase.size, List.length_cons] at shorter
      exact accepts_group kind closing (by simp only [List.length_cons]; omega) accepts
  | array kind derives accepts =>
      exact accepts_array kind (Nat.lt_succ_of_lt derives.length) accepts
  | conditional kind opens first closing second third acceptsFirst acceptsSecond acceptsThird =>
      exact accepts_conditional kind opens first closing second third acceptsFirst acceptsSecond
        acceptsThird
  | function kind opens first second accepts =>
      exact accepts_function kind opens first second accepts
  | noItems kind => exact accepts_noItems kind
  | someItems first others acceptsFirst acceptsOthers =>
      exact accepts_someItems first others acceptsFirst acceptsOthers
  | close kind => exact accepts_close kind
  | comma kind first others acceptsFirst acceptsOthers =>
      exact accepts_comma kind first others acceptsFirst acceptsOthers
  | bind kind named assigns _ ending accepts =>
      exact fun noElse => reads_bind kind named assigns ending (ending.follow noElse) accepts
  | give kind _ ending accepts =>
      exact fun noElse => reads_give kind ending (ending.follow noElse) accepts
  | expression derives ending accepts =>
      exact fun noElse => reads_expression derives ending (ending.follow noElse) accepts
  | nothing => exact accepts_nothing _
  | more first others acceptsFirst acceptsOthers =>
      exact accepts_more first others acceptsFirst acceptsOthers
  | @closed _ _ close _ rest _ _ closing accepts =>
      have closes : firstKind (close :: rest) = .rightBrace := closing
      exact accepts_block (.inl closes) accepts
  | left _ _ accepts => exact accepts_block (.inr rfl) accepts
  | noElse => exact accepts_noElse _
  | someElse kind derives accepts => exact accepts_someElse kind derives accepts

end Reading

end Monkey
