import Mathlib.Data.List.Infix
import Monkey.Proofs.Grammar.Programs
import Monkey.Proofs.Reader.Deepening
import Monkey.Proofs.Token.Joining

/-!
Programs put one behind the other. A phrase with something behind it does not depend on what follows
farther on, and a semicolon ends its statement whatever follows. So a program that ends with a
semicolon and closes its braces is read in front of any other tokens as it is read on its own, and
reading then goes on as if nothing stood before.
-/

namespace Monkey

open Grammar

namespace Grammar

/-- Lists are closed by a parenthesis or a bracket. -/
def Phrase.Delimited : Phrase → Prop
  | .items closing _ | .moreItems closing _ => closing = .rightParen ∨ closing = .rightBracket
  | _ => True

/-- A relation between the tokens of a phrase with all that follows and what follows alone. It holds
for single tokens of the grammar and for what is put together from parts for which it holds; braces
come with the statements between them. -/
structure Passing (relation : List Token → List Token → Prop) : Prop where
  refl : ∀ tokens, relation tokens tokens
  trans : ∀ {tokens middle rest}, relation tokens middle → relation middle rest →
    relation tokens rest
  token : ∀ {token : Token} {rest}, token.kind ∉ [.illegal, .leftBrace, .rightBrace] →
    (token.kind = .int → numeral token.literal ≤ largest) → relation (token :: rest) rest
  closed : ∀ {token close : Token} {tokens rest}, token.kind = .leftBrace →
    close.kind = .rightBrace → relation tokens (close :: rest) → relation (token :: tokens) rest
  left : ∀ {token : Token} {tokens}, token.kind = .leftBrace → relation tokens [] →
    relation (token :: tokens) []

section

variable {relation : List Token → List Token → Prop} (passing : Passing relation)

include passing

/-- One more token of a known kind in front. -/
theorem Passing.cons {token : Token} {kind : Token.Kind} {tokens rest : List Token}
    (isKind : token.kind = kind) (holds : relation tokens rest)
    (plain : kind ∉ [Token.Kind.illegal, .leftBrace, .rightBrace, .int] := by decide) :
    relation (token :: tokens) rest := by
  subst isKind
  simp only [List.mem_cons, List.not_mem_nil, or_false, not_or] at plain
  apply passing.trans (passing.token _ _) holds
  · simp [plain]
  · intro isNumber
    exact absurd isNumber plain.2.2.2

/-- The end of a statement passes on what a semicolon passes on. -/
theorem Ending.passes {tokens rest : List Token} (ending : Ending tokens rest) :
    relation tokens rest := by
  cases ending with
  | semicolon kind => exact passing.cons kind (passing.refl _)
  | bare => exact passing.refl _

/-- A parameter passes on what a name passes on. -/
theorem Parameter.passes {name : Ident} {tokens rest : List Token}
    (parameter : Parameter name tokens rest) : relation tokens rest := by
  cases parameter with
  | name kind => exact passing.cons kind (passing.refl _)

/-- Further parameters pass on what commas and names pass on. -/
theorem MoreParameters.passes {names : List Ident} {tokens rest : List Token}
    (parameters : MoreParameters names tokens rest) : relation tokens rest := by
  induction parameters with
  | close kind => exact passing.cons kind (passing.refl _)
  | comma kind first _ inductionHypothesis =>
      exact passing.cons kind (passing.trans (first.passes passing) inductionHypothesis)

/-- Parameters pass on what their tokens do. -/
theorem Parameters.passes {names : List Ident} {tokens rest : List Token}
    (parameters : Parameters names tokens rest) : relation tokens rest := by
  cases parameters with
  | none kind => exact passing.cons kind (passing.refl _)
  | some first others => exact passing.trans (first.passes passing) (others.passes passing)

/-- A phrase passes on what its tokens and its pairs of braces do. -/
theorem Derives.passes {phrase : Phrase} {tokens rest : List Token}
    (derives : Derives phrase tokens rest) (delimited : phrase.Delimited) :
    relation tokens rest := by
  induction derives with
  | inner _ holds => exact holds trivial
  | @binary layer _ _ _ _ _ _ _ kind _ first second =>
      have plain : ∀ kind ∈ layer.operators,
          kind ∉ [Token.Kind.illegal, .leftBrace, .rightBrace, .int] := by
        cases layer <;> decide
      exact passing.trans (first trivial) (passing.cons rfl (second trivial) (plain _ kind))
  | unary kind _ holds =>
      rcases kind with kind | kind <;> exact passing.cons kind (holds trivial)
  | call _ kind _ first second =>
      exact passing.trans (first trivial) (passing.cons kind (second (.inl rfl)))
  | index _ kind _ closing first second =>
      exact passing.trans (first trivial) (passing.cons kind
        (passing.trans (second trivial) (passing.cons closing (passing.refl _))))
  | ident kind | text kind | true kind | false kind => exact passing.cons kind (passing.refl _)
  | integer kind small => exact passing.token (by simp [kind]) fun _ => small
  | group kind _ closing holds =>
      exact passing.cons kind (passing.trans (holds trivial)
        (passing.cons closing (passing.refl _)))
  | array kind _ holds => exact passing.cons kind (holds (.inr rfl))
  | conditional kind opens _ closing _ _ first second third =>
      exact passing.cons kind (passing.cons opens (passing.trans (first trivial)
        (passing.cons closing (passing.trans (second trivial) (third trivial)))))
  | function kind opens first _ second =>
      exact passing.cons kind (passing.cons opens
        (passing.trans (first.passes passing) (second trivial)))
  | noItems kind | close kind =>
      rcases delimited with rfl | rfl <;> exact passing.cons kind (passing.refl _)
  | someItems _ _ first others => exact passing.trans (first trivial) (others delimited)
  | comma kind _ _ first others =>
      exact passing.cons kind (passing.trans (first trivial) (others delimited))
  | bind kind named assigns _ ending holds =>
      exact passing.cons kind (passing.cons named (passing.cons assigns
        (passing.trans (holds trivial) (ending.passes passing))))
  | give kind _ ending holds =>
      exact passing.cons kind (passing.trans (holds trivial) (ending.passes passing))
  | expression _ ending holds => exact passing.trans (holds trivial) (ending.passes passing)
  | nothing | noElse => exact passing.refl _
  | more _ _ first others => exact passing.trans (first trivial) (others trivial)
  | closed kind _ closing holds => exact passing.closed kind closing (holds trivial)
  | left kind _ holds => exact passing.left kind (holds trivial)
  | someElse kind _ holds => exact passing.cons kind (holds trivial)

end

/-- What is left of the tokens is their end. -/
theorem passing_suffix : Passing fun tokens rest => rest <:+ tokens where
  refl _ := List.suffix_rfl
  trans first second := second.trans first
  token _ _ := List.suffix_cons _ _
  closed _ _ holds := ((List.suffix_cons _ _).trans holds).trans (List.suffix_cons _ _)
  left _ _ := List.nil_suffix

/-- What an error-free text is made of: no token of a derivation is illegal, and no number is too
large. -/
theorem passing_each {holds : Token → Prop}
    (each : ∀ token : Token, token.kind ≠ .illegal →
      (token.kind = .int → numeral token.literal ≤ largest) → holds token) :
    Passing fun tokens rest => ∀ token ∈ tokens, token ∈ rest ∨ holds token where
  refl _ _ member := .inl member
  trans first second token member := (first token member).elim (second token) .inr
  token := by
    intro token rest plain small other member
    rcases List.mem_cons.mp member with rfl | behind
    · exact .inr (each other (fun illegal => plain (by simp [illegal])) small)
    · exact .inl behind
  closed := by
    intro token close tokens rest opens closes holds other member
    rcases List.mem_cons.mp member with rfl | inside
    · exact .inr (each other (by simp [opens]) (by simp [opens]))
    · rcases holds other inside with behind | found
      · rcases List.mem_cons.mp behind with rfl | rest
        · exact .inr (each other (by simp [closes]) (by simp [closes]))
        · exact .inl rest
      · exact .inr found
  left := by
    intro token tokens opens holds other member
    rcases List.mem_cons.mp member with rfl | inside
    · exact .inr (each other (by simp [opens]) (by simp [opens]))
    · exact holds other inside

/-- No phrase takes an illegal token. -/
theorem passing_legal :
    Passing fun tokens rest => ∀ token ∈ tokens, token ∈ rest ∨ token.kind ≠ .illegal :=
  passing_each fun _ legal _ => legal

/-- What a token adds to the number of open braces. -/
def brace : Token.Kind → Int
  | .leftBrace => 1
  | .rightBrace => -1
  | _ => 0

/-- The number of braces that some tokens leave open. -/
def nesting : List Token → Int
  | [] => 0
  | token :: rest => brace token.kind + nesting rest

@[simp] theorem nesting_nil : nesting [] = 0 := rfl

@[simp] theorem nesting_cons (token : Token) (rest : List Token) :
    nesting (token :: rest) = brace token.kind + nesting rest := rfl

/-- The nesting is the difference between opening and closing braces. -/
theorem nesting_eq_count (tokens : List Token) :
    nesting tokens = (tokens.map Token.kind).count .leftBrace -
      (tokens.map Token.kind).count .rightBrace := by
  induction tokens with
  | nil => rfl
  | cons token rest inductionHypothesis =>
      obtain ⟨kind, literal⟩ := token
      rw [nesting_cons, inductionHypothesis]
      cases kind <;> simp [brace] <;> omega

/-- A phrase closes no brace that it has not opened. -/
theorem passing_nesting : Passing fun tokens rest => nesting rest ≤ nesting tokens where
  refl _ := Int.le_refl _
  trans first second := Int.le_trans second first
  token := by
    intro token rest plain _
    obtain ⟨kind, literal⟩ := token
    cases kind <;> simp_all [brace]
  closed := by
    intro token close tokens rest opens closes holds
    simp only [nesting_cons, opens, closes, brace] at holds ⊢
    omega
  left := by
    intro token tokens opens holds
    simp only [nesting_cons, opens, brace]
    omega

/-- The last token in front of the rest is no semicolon, or a brace is left open in front of it. -/
def Unsealed (tokens rest : List Token) : Prop :=
  (∃ last : Token, last.kind ≠ .semicolon ∧ last :: rest <:+ tokens) ∨ nesting rest < nesting tokens

/-- A last token other than a semicolon leaves a phrase unsealed. -/
theorem Unsealed.of_last {last : Token} {kind : Token.Kind} {tokens rest : List Token}
    (isKind : last.kind = kind) (behind : last :: rest <:+ tokens)
    (other : kind ≠ .semicolon := by decide) : Unsealed tokens rest :=
  .inl ⟨last, isKind ▸ other, behind⟩

/-- What stands in front does not matter, because it closes no brace. -/
theorem Unsealed.after {tokens middle rest : List Token} (unsealed : Unsealed middle rest)
    (suffix : middle <:+ tokens) (closes : nesting middle ≤ nesting tokens) :
    Unsealed tokens rest := by
  rcases unsealed with ⟨last, other, behind⟩ | opens
  · exact .inl ⟨last, other, behind.trans suffix⟩
  · exact .inr (Int.lt_of_lt_of_le opens closes)

/-- A token in front that closes no brace keeps a phrase unsealed. -/
theorem Unsealed.cons {token : Token} {tokens rest : List Token} (unsealed : Unsealed tokens rest)
    (opens : 0 ≤ brace token.kind) : Unsealed (token :: tokens) rest := by
  apply unsealed.after (List.suffix_cons _ _)
  rw [nesting_cons]
  omega

/-- A phrase in front keeps what follows unsealed. -/
theorem Derives.unsealed_after {phrase : Phrase} {tokens middle rest : List Token}
    (derives : Derives phrase tokens middle) (delimited : phrase.Delimited)
    (unsealed : Unsealed middle rest) : Unsealed tokens rest :=
  unsealed.after (derives.passes passing_suffix delimited)
    (derives.passes passing_nesting delimited)

/-- The phrases that no semicolon ends. -/
def Phrase.EndsUnsealed : Phrase → List Token → List Token → Prop
  | .statement _, _, _ | .statements _, _, _ => True
  | .alternative _, tokens, rest => tokens = rest ∨ Unsealed tokens rest
  | _, tokens, rest => Unsealed tokens rest

/-- A semicolon is the last token of an expression only inside of a block that is left open. -/
theorem Derives.endsUnsealed {phrase : Phrase} {tokens rest : List Token}
    (derives : Derives phrase tokens rest) (delimited : phrase.Delimited) :
    phrase.EndsUnsealed tokens rest := by
  have whole (tokens : List Token) : tokens <:+ tokens := List.suffix_rfl
  induction derives with
  | inner _ holds => exact holds trivial
  | @binary layer _ _ _ _ _ _ first kind _ _ second =>
      have opens : ∀ kind ∈ layer.operators, 0 ≤ brace kind := by cases layer <;> decide
      exact first.unsealed_after trivial ((second trivial).cons (opens _ kind))
  | unary kind _ holds =>
      exact Unsealed.cons (holds trivial) (by rcases kind with kind | kind <;> simp [kind, brace])
  | call first kind _ _ second =>
      exact first.unsealed_after trivial (Unsealed.cons (second (.inl rfl)) (by simp [kind, brace]))
  | index first kind second closing =>
      have unsealed := second.unsealed_after trivial (.of_last closing (whole _))
      exact first.unsealed_after trivial (unsealed.cons (by simp [kind, brace]))
  | ident kind | integer kind | text kind | true kind | false kind =>
      exact .of_last kind (whole _)
  | group kind derives closing =>
      have unsealed := derives.unsealed_after trivial (.of_last closing (whole _))
      exact unsealed.cons (by simp [kind, brace])
  | array kind _ holds => exact Unsealed.cons (holds (.inr rfl)) (by simp [kind, brace])
  | @conditional _ _ _ _ _ _ _ middle _ rest kind opens first closing second third _ secondHolds
      thirdHolds =>
      have unsealed : Unsealed middle rest := by
        rcases thirdHolds trivial with same | unsealed
        · exact same ▸ secondHolds trivial
        · exact second.unsealed_after trivial unsealed
      have behind := first.unsealed_after trivial (unsealed.cons (by simp [closing, brace]))
      exact (behind.cons (by simp [opens, brace])).cons (by simp [kind, brace])
  | function kind opens first _ holds =>
      have behind := Unsealed.after (holds trivial) (first.passes passing_suffix)
        (first.passes passing_nesting)
      exact (behind.cons (by simp [opens, brace])).cons (by simp [kind, brace])
  | noItems kind | close kind =>
      rcases delimited with rfl | rfl <;> exact .of_last kind (whole _)
  | someItems first _ _ others => exact first.unsealed_after trivial (others delimited)
  | comma kind first _ _ others =>
      exact (first.unsealed_after trivial (others delimited)).cons (by simp [kind, brace])
  | bind | give | expression | nothing | more => trivial
  | closed kind derives closing =>
      have behind := derives.passes passing_suffix trivial
      exact .of_last closing (behind.trans (List.suffix_cons _ _))
  | left kind derives =>
      have opens := derives.passes passing_nesting trivial
      right
      rw [nesting_cons, kind, brace]
      omega
  | noElse => exact .inl rfl
  | someElse kind _ holds => exact .inr (Unsealed.cons (holds trivial) (by simp [kind, brace]))

/-- The end of a statement stays one in front of more tokens. -/
theorem Ending.append {tokens rest : List Token} (ending : Ending tokens rest)
    (more : tokens ≠ []) (extra : List Token) : Ending (tokens ++ extra) (rest ++ extra) := by
  cases ending with
  | semicolon kind => exact .semicolon kind
  | bare stops =>
      apply Ending.bare
      intro token first
      rw [List.head?_append_of_ne_nil _ more] at first
      exact stops token first

/-- Where tokens are left behind the end of a statement, there are some in front of it. -/
theorem Ending.ne_nil {tokens rest : List Token} (ending : Ending tokens rest) (more : rest ≠ []) :
    tokens ≠ [] := by
  cases ending with
  | semicolon => exact List.cons_ne_nil _ _
  | bare => exact more

/-- A parameter stays one in front of more tokens. -/
theorem Parameter.append {name : Ident} {tokens rest : List Token}
    (parameter : Parameter name tokens rest) (extra : List Token) :
    Parameter name (tokens ++ extra) (rest ++ extra) := by
  cases parameter with
  | name kind => exact .name kind

/-- Further parameters stay such in front of more tokens. -/
theorem MoreParameters.append {names : List Ident} {tokens rest : List Token}
    (parameters : MoreParameters names tokens rest) (extra : List Token) :
    MoreParameters names (tokens ++ extra) (rest ++ extra) := by
  induction parameters with
  | close kind => exact .close kind
  | comma kind first _ inductionHypothesis =>
      exact .comma kind (first.append extra) inductionHypothesis

/-- Parameters stay such in front of more tokens. -/
theorem Parameters.append {names : List Ident} {tokens rest : List Token}
    (parameters : Parameters names tokens rest) (extra : List Token) :
    Parameters names (tokens ++ extra) (rest ++ extra) := by
  cases parameters with
  | none kind => exact .none kind
  | some first others => exact .some (first.append extra) (others.append extra)

/-- Where tokens are left behind a phrase, there are some in front of it. -/
theorem Derives.ne_nil {phrase : Phrase} {tokens rest : List Token}
    (derives : Derives phrase tokens rest) (more : rest ≠ []) : tokens ≠ [] := by
  rintro rfl
  have length := derives.length
  have positive := List.length_pos_iff.mpr more
  rw [List.length_nil] at length
  omega

/-- A phrase with something behind it is a phrase with more behind it too. -/
theorem Derives.append {phrase : Phrase} {tokens rest : List Token}
    (derives : Derives phrase tokens rest) (more : rest ≠ []) (extra : List Token) :
    Derives phrase (tokens ++ extra) (rest ++ extra) := by
  have inside (token : Token) (rest : List Token) : token :: rest ≠ [] := List.cons_ne_nil _ _
  induction derives with
  | inner _ longer => exact .inner (longer more)
  | binary _ kind _ first second => exact .binary (first (inside _ _)) kind (second more)
  | unary kind _ longer => exact .unary kind (longer more)
  | call _ kind _ first second => exact .call (first (inside _ _)) kind (second more)
  | index _ kind _ closing first second =>
      exact .index (first (inside _ _)) kind (second (inside _ _)) closing
  | ident kind => exact .ident kind
  | integer kind small => exact .integer kind small
  | text kind => exact .text kind
  | true kind => exact .true kind
  | false kind => exact .false kind
  | group kind _ closing longer => exact .group kind (longer (inside _ _)) closing
  | array kind _ longer => exact .array kind (longer more)
  | conditional kind opens _ closing _ third firstLonger secondLonger thirdLonger =>
      exact .conditional kind opens (firstLonger (inside _ _)) closing
        (secondLonger (third.ne_nil more)) (thirdLonger more)
  | function kind opens first _ longer =>
      exact .function kind opens (first.append extra) (longer more)
  | noItems kind => exact .noItems kind
  | someItems _ others firstLonger othersLonger =>
      exact .someItems (firstLonger (others.ne_nil more)) (othersLonger more)
  | close kind => exact .close kind
  | comma kind _ others firstLonger othersLonger =>
      exact .comma kind (firstLonger (others.ne_nil more)) (othersLonger more)
  | bind kind named assigns _ ending longer =>
      have behind := ending.ne_nil more
      exact .bind kind named assigns (longer behind) (ending.append behind extra)
  | give kind _ ending longer =>
      have behind := ending.ne_nil more
      exact .give kind (longer behind) (ending.append behind extra)
  | expression _ ending longer =>
      have behind := ending.ne_nil more
      exact .expression (longer behind) (ending.append behind extra)
  | nothing => exact .nothing
  | more _ others firstLonger othersLonger =>
      exact .more (firstLonger (others.ne_nil more)) (othersLonger more)
  | closed kind _ closing longer => exact .closed kind (longer (inside _ _)) closing
  | left => exact absurd rfl more
  | noElse => exact .noElse
  | someElse kind _ longer => exact .someElse kind (longer more)

/-- Whether tokens may follow an expression is decided by the first of them. -/
theorem Follow.append {limit : Nat} {rest : List Token} (follow : Follow limit rest)
    (more : rest ≠ []) (extra : List Token) : Follow limit (rest ++ extra) := by
  obtain ⟨token, others, rfl⟩ := List.exists_cons_of_ne_nil more
  exact ⟨follow.weak, follow.noElse⟩

/-- Where a semicolon stands at the end and every brace is closed, the last statement has taken the
semicolon. -/
theorem Derives.more_of_sealed {value : Expr Unit} {tokens middle rest : List Token}
    (derives : Derives (.expression .equality value) tokens middle) (ending : Ending middle rest)
    (isSealed : ∀ last ∈ tokens.getLast?, last.kind = .semicolon)
    (balanced : nesting tokens = nesting rest) : middle ≠ [] := by
  rintro rfl
  -- with nothing left to take, the semicolon at the end would belong to the expression
  have same : rest = [] := by cases ending; rfl
  subst same
  rcases derives.endsUnsealed trivial with ⟨last, other, before, rfl⟩ | opens
  · exact other (isSealed last (by simp))
  · omega

end Grammar

namespace Reading

/-- A statement that ends with a semicolon, or with something behind it, is read in front of any
other tokens. -/
theorem reads_append {tree : Stmt Unit} {tokens rest : List Token}
    (derives : Derives (.statement tree) tokens rest)
    (isSealed : ∀ last ∈ tokens.getLast?, last.kind = .semicolon)
    (balanced : nesting tokens = nesting rest) (noElse : firstKind rest ≠ .elseWord)
    (extra : List Token) : ReadsStatement tree (tokens ++ extra) (rest ++ extra) := by
  cases derives with
  | bind kind named assigns derives ending =>
      have more := derives.more_of_sealed ending
        (fun last isLast => isSealed last (List.mem_getLast?_cons (List.mem_getLast?_cons
          (List.mem_getLast?_cons isLast)))) (by simpa [kind, named, assigns, brace] using balanced)
      exact reads_bind kind named assigns (ending.append more extra)
        ((ending.follow noElse).append more extra) (accepts_of_derives (derives.append more extra))
  | give kind derives ending =>
      have more := derives.more_of_sealed ending
        (fun last isLast => isSealed last (List.mem_getLast?_cons isLast))
        (by simpa [kind, brace] using balanced)
      exact reads_give kind (ending.append more extra) ((ending.follow noElse).append more extra)
        (accepts_of_derives (derives.append more extra))
  | expression derives ending =>
      have more := derives.more_of_sealed ending isSealed balanced
      exact reads_expression (derives.append more extra) (ending.append more extra)
        ((ending.follow noElse).append more extra) (accepts_of_derives (derives.append more extra))

/-- Statements that end with a semicolon are read, and then whatever follows is read as if it stood
alone. -/
theorem statements_append {trees : List (Stmt Unit)} {tokens : List Token}
    (derives : Derives (.statements trees) tokens [])
    (isSealed : ∀ last ∈ tokens.getLast?, last.kind = .semicolon) (balanced : nesting tokens = 0)
    (extra : List Token) {bound steps : Nat} {reader : Reader}
    (start : reader.tokens = tokens ++ extra) (fits : reader.tokens.length < bound)
    (enough : reader.tokens.length < steps) :
    statements (expression bound) [.eof] steps reader =
      some (.ok (trees ++ (Reader.mk extra reader.errors).program.1.statements),
        (Reader.mk extra reader.errors).program.2) := by
  induction trees generalizing tokens steps reader with
  | nil =>
      cases derives
      obtain ⟨_, errors⟩ := reader
      cases start
      exact Reader.program_eq_of_lt _ fits enough
  | cons tree trees inductionHypothesis =>
      cases derives with
      | @more _ _ _ middle _ first others =>
          have shorter : middle.length + 1 ≤ tokens.length := first.length
          -- neither part closes a brace of the other one, so each of them is balanced
          have balancedOthers : nesting middle = 0 := by
            have firstCloses := first.passes passing_nesting trivial
            have othersClose := others.passes passing_nesting trivial
            rw [nesting_nil] at othersClose
            omega
          have noElse : firstKind middle ≠ .elseWord := by
            intro isElse
            rcases others.starts with rfl | starts
            · exact absurd isElse (by decide)
            · exact absurd (isElse ▸ starts) (by decide)
          have goesOn : reader.current.kind ∉ [Token.Kind.eof] := by
            have starts : firstKind tokens ∈ .letWord :: .returnWord :: starting := first.starts
            have more : tokens ≠ [] := List.ne_nil_of_length_pos (by omega)
            have same : reader.current.kind = firstKind tokens := by
              rw [Reader.current, start, firstKind, List.headD_eq_head?_getD,
                List.head?_append_of_ne_nil _ more, List.headD_eq_head?_getD]
            rw [same, List.mem_singleton]
            intro isEnd
            exact absurd (isEnd ▸ starts) (by decide)
          obtain ⟨smaller, rfl⟩ : ∃ smaller, steps = smaller + 1 := ⟨steps - 1, by omega⟩
          obtain ⟨reached, readFirst, stops⟩ := reads_append first isSealed
            (balanced.trans balancedOthers.symm) noElse extra bound reader start (start ▸ fits)
          have behind : reached.advance.tokens = middle ++ extra := stops.tokens
          have fewer : reached.advance.tokens.length < reader.tokens.length := by
            rw [behind, start, List.length_append, List.length_append]
            omega
          have sealedOthers : ∀ last ∈ middle.getLast?, last.kind = .semicolon := by
            intro last isLast
            obtain ⟨before, rfl⟩ := first.passes passing_suffix trivial
            exact isSealed last (List.mem_getLast?_append_of_mem_getLast? isLast)
          have readOthers := @inductionHypothesis _ others sealedOthers balancedOthers smaller
            reached.advance behind (by omega) (by omega)
          have errors : reached.advance.errors = reader.errors := stops.errors
          simp only [statements, current_bind, goesOn, if_false,
            Bounded.bind_of_ok (recorded_ok readFirst), advance_bind, Bounded.bind_of_ok readOthers,
            errors]
          rfl

end Reading

/-- What is read without an error is derived. -/
theorem Program.derives {source : String} (clean : (Program.read source).2 = []) :
    Grammar.Program (Program.read source).1 (Token.list source) := by
  apply Reader.derives_program (Reader.proper_ofString source)
  have errors : (Reader.ofString source).program.2.errors.toList = [] := clean
  rw [Reader.Clean, ← Array.length_toList, errors]
  exact Nat.zero_le _

/-- Tokens that end with a semicolon and close as many braces as they open. -/
structure Token.Sealed (tokens : List Token) : Prop where
  semicolon : tokens.getLast?.map Token.kind = some .semicolon
  braces : (tokens.map Token.kind).count .leftBrace = (tokens.map Token.kind).count .rightBrace

namespace Token.Sealed

variable {tokens : List Token}

/-- The last token of a sealed source is a semicolon. -/
theorem last (isSealed : Token.Sealed tokens) :
    ∀ token ∈ tokens.getLast?, token.kind = .semicolon := by
  intro token isLast
  have mapped := isSealed.semicolon
  rw [Option.mem_def.mp isLast] at mapped
  exact Option.some.inj mapped

/-- No text is left open at the end of a sealed source. -/
theorem even_quotes {source : String} (isSealed : Token.Sealed (Token.list source)) :
    Even (source.toList.count '"') := by
  apply Token.even_quotes_of_last
  intro token isLast
  rw [isSealed.last token isLast]
  decide

/-- Nothing extends the last token of a sealed source. -/
theorem list_append {first : String} (isSealed : Token.Sealed (Token.list first))
    (second : String) : Token.list (first ++ second) = Token.list first ++ Token.list second := by
  apply Token.list_append isSealed.even_quotes
  intro token isLast char _
  simp [Token.Extends, isSealed.last token isLast, Token.Kind.words]

/-- No brace is left open at the end of a sealed source. -/
theorem nesting_eq_zero (isSealed : Token.Sealed tokens) : nesting tokens = 0 := by
  rw [nesting_eq_count, isSealed.braces, Int.sub_self]

end Token.Sealed

/-- A sealed program in front of any other tokens is read, and what follows is read on its own. -/
theorem Reader.program_append {program : Monkey.Program Unit} {tokens : List Token}
    (derives : Grammar.Program program tokens) (isSealed : Token.Sealed tokens)
    (extra : List Token) (errors : Array SyntaxError) :
    (Reader.mk (tokens ++ extra) errors).program =
      (⟨program.statements ++ (Reader.mk extra errors).program.1.statements⟩,
        (Reader.mk extra errors).program.2) := by
  let reader := Reader.mk (tokens ++ extra) errors
  have read := @Reading.statements_append _ _ derives isSealed.last isSealed.nesting_eq_zero extra
    (reader.tokens.length + 1) (reader.tokens.length + 1) reader rfl (Nat.lt_succ_self _)
    (Nat.lt_succ_self _)
  rw [Reader.program_eq] at read
  obtain ⟨statements, reached⟩ : _ ∧ _ := by simpa using read
  exact Prod.ext (congrArg Program.mk statements) reached

/-- A source whose tokens are those of a sealed source and of another one is read part by part. -/
theorem Program.read_of_list_append {source first second : String}
    (tokens : Token.list source = Token.list first ++ Token.list second)
    (clean : (Program.read first).2 = []) (isSealed : Token.Sealed (Token.list first)) :
    Program.read source =
      (⟨(Program.read first).1.statements ++ (Program.read second).1.statements⟩,
        (Program.read second).2) := by
  obtain ⟨statements, reached⟩ := Prod.mk.inj (Reader.program_append (Program.derives clean)
    isSealed (Token.list second) #[])
  rw [Program.read_eq, Reader.ofString, tokens]
  exact Prod.ext statements (congrArg (fun reader => reader.errors.toList) reached)

/-- A program that is read without an error and is sealed does not depend on the text behind it, and
the text behind it is read as if it stood alone, with its own errors and no others. -/
theorem Program.read_append (first second : String) (clean : (Program.read first).2 = [])
    (isSealed : Token.Sealed (Token.list first)) :
    Program.read (first ++ second) =
      (⟨(Program.read first).1.statements ++ (Program.read second).1.statements⟩,
        (Program.read second).2) :=
  Program.read_of_list_append (isSealed.list_append second) clean isSealed

/-- A conditional that ends with a semicolon is kept without an alternative: the `else` behind it
and the brace behind that are errors, and `c` is a statement of its own. -/
theorem Program.read_append_else :
    Program.read ("if (a) \x7b b \x7d;" ++ "else \x7b c") =
      (⟨[.expression ⟨.ifWord, "if"⟩ (.conditional ⟨.ifWord, "if"⟩
            (.ident ⟨⟨.ident, "a"⟩, "a"⟩)
            (.mk ⟨.leftBrace, "\x7b"⟩
              [.expression ⟨.ident, "b"⟩ (.ident ⟨⟨.ident, "b"⟩, "b"⟩)])
            none),
          .expression ⟨.ident, "c"⟩ (.ident ⟨⟨.ident, "c"⟩, "c"⟩)]⟩,
        [.noOperand .elseWord, .noOperand .leftBrace]) := by
  have conditional : Program.read "if (a) \x7b b \x7d;" =
      (⟨[.expression ⟨.ifWord, "if"⟩ (.conditional ⟨.ifWord, "if"⟩
          (.ident ⟨⟨.ident, "a"⟩, "a"⟩)
          (.mk ⟨.leftBrace, "\x7b"⟩
            [.expression ⟨.ident, "b"⟩ (.ident ⟨⟨.ident, "b"⟩, "b"⟩)])
          none)]⟩, []) := by with_unfolding_all rfl
  have behind : Program.read "else \x7b c" =
      (⟨[.expression ⟨.ident, "c"⟩ (.ident ⟨⟨.ident, "c"⟩, "c"⟩)]⟩,
        [.noOperand .elseWord, .noOperand .leftBrace]) := by with_unfolding_all rfl
  have isSealed : Token.Sealed (Token.list "if (a) \x7b b \x7d;") :=
    ⟨by with_unfolding_all rfl, by with_unfolding_all rfl⟩
  rw [Program.read_append _ _ (congrArg Prod.snd conditional) isSealed, conditional, behind]
  rfl

end Monkey
