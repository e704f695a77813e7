import Monkey.Proofs.Grammar

/-!
The first tokens of phrases, and the fact that a phrase takes up tokens. Nothing that can follow a
phrase starts one, which is why a single token of look-ahead is enough.
-/

namespace Monkey.Grammar

/-- What an expression can start with. -/
def starting : List Token.Kind :=
  [.ident, .int, .string, .trueWord, .falseWord, .bang, .minus, .leftParen, .leftBracket, .ifWord,
    .fnWord]

/-- The kind of the first token, which is the end where there is none. -/
def firstKind (tokens : List Token) : Token.Kind :=
  (tokens.headD .eof).kind

@[simp] theorem firstKind_cons (token : Token) (rest : List Token) :
    firstKind (token :: rest) = token.kind := rfl

/-- The first tokens that each kind of phrase can have, unless it has no tokens at all. -/
def Phrase.Starts : Phrase → List Token → List Token → Prop
  | .expression _ _, tokens, _ => firstKind tokens ∈ starting
  | .items closing _, tokens, _ => firstKind tokens ∈ closing :: starting
  | .moreItems closing _, tokens, _ => firstKind tokens = closing ∨ firstKind tokens = .comma
  | .statement _, tokens, _ => firstKind tokens ∈ .letWord :: .returnWord :: starting
  | .statements _, tokens, rest =>
      tokens = rest ∨ firstKind tokens ∈ .letWord :: .returnWord :: starting
  | .block _, tokens, _ => firstKind tokens = .leftBrace
  | .alternative _, tokens, rest => tokens = rest ∨ firstKind tokens = .elseWord

/-- A phrase starts with a token that it can start with. -/
theorem Derives.starts {phrase : Phrase} {tokens rest : List Token}
    (derives : Derives phrase tokens rest) : phrase.Starts tokens rest := by
  induction derives with
  | inner _ inductionHypothesis => exact inductionHypothesis
  | binary _ _ _ inductionHypothesis _ => exact inductionHypothesis
  | call _ _ _ inductionHypothesis _ => exact inductionHypothesis
  | index _ _ _ _ inductionHypothesis _ => exact inductionHypothesis
  | unary kind => rcases kind with kind | kind <;> simp [Phrase.Starts, kind, starting]
  | someItems _ _ inductionHypothesis _ => exact List.mem_cons_of_mem _ inductionHypothesis
  | expression _ _ inductionHypothesis =>
      exact List.mem_cons_of_mem _ (List.mem_cons_of_mem _ inductionHypothesis)
  | more _ _ inductionHypothesis _ => exact .inr inductionHypothesis
  | nothing | noElse => exact .inl rfl
  | _ => simp [Phrase.Starts, *, starting]

/-- An expression has at least one token. -/
theorem Derives.exists_cons {layer : Layer} {tree : Expr Unit} {tokens rest : List Token}
    (derives : Derives (.expression layer tree) tokens rest) :
    ∃ token others, tokens = token :: others := by
  match tokens, derives.starts with
  | [], starts => exact absurd starts (by decide : Token.Kind.eof ∉ starting)
  | token :: others, _ => exact ⟨token, others, rfl⟩

/-- The number of tokens that a phrase takes up at least. -/
def Phrase.size : Phrase → Nat
  | .statements _ | .alternative _ => 0
  | _ => 1

/-- The end of a statement leaves no more tokens than there were. -/
theorem Ending.length {tokens rest : List Token} (ending : Ending tokens rest) :
    rest.length ≤ tokens.length := by
  cases ending <;> simp

/-- A parameter has a token. -/
theorem Parameter.length {name : Ident} {tokens rest : List Token}
    (parameter : Parameter name tokens rest) : rest.length < tokens.length := by
  cases parameter
  simp

/-- Further parameters have a token, the closing one at least. -/
theorem MoreParameters.length {names : List Ident} {tokens rest : List Token}
    (parameters : MoreParameters names tokens rest) : rest.length < tokens.length := by
  induction parameters with
  | close => simp
  | comma _ first _ inductionHypothesis =>
      have shorter := first.length
      simp only [List.length_cons]
      omega

/-- Parameters have a token, the closing one at least. -/
theorem Parameters.length {names : List Ident} {tokens rest : List Token}
    (parameters : Parameters names tokens rest) : rest.length < tokens.length := by
  cases parameters with
  | none => simp
  | some first others =>
      have firstShorter := first.length
      have othersShorter := others.length
      omega

/-- A phrase takes at least as many tokens as it needs. -/
theorem Derives.length {phrase : Phrase} {tokens rest : List Token}
    (derives : Derives phrase tokens rest) : rest.length + phrase.size ≤ tokens.length := by
  induction derives with
  | function _ _ first _ =>
      have shorter := first.length
      simp only [List.length_cons, Phrase.size] at *
      omega
  | bind _ _ _ _ ending | give _ _ ending | expression _ ending =>
      have shorter := ending.length
      simp only [List.length_cons, Phrase.size] at *
      omega
  | _ =>
      simp only [List.length_cons, List.length_nil, Phrase.size] at *
      omega

end Monkey.Grammar
