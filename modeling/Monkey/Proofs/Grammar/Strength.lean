import Monkey.Precedence
import Monkey.Proofs.Grammar

/-!
The layers of the grammar beside the strengths of operators: a context of a given strength takes the
expressions of one layer, and the operators of a layer have the strength of that layer.
-/

namespace Monkey

/-- The layer of the expressions that a context of the strength takes. -/
def Precedence.layer : Precedence → Grammar.Layer
  | .lowest => .equality
  | .equality => .comparison
  | .comparison => .sum
  | .sum => .product
  | .product | .unary | .call => .unary

namespace Grammar

/-- The strength of the operators in a layer. -/
def Layer.rank : Layer → Nat
  | .equality => 2
  | .comparison => 3
  | .sum => 4
  | .product => 5
  | .unary => 6
  | .access => 7
  | .primary => 8

/-- The strength with which the next token binds what stands before it. -/
def strength (tokens : List Token) : Nat :=
  (Precedence.ofKind (tokens.headD .eof).kind).rank

/-- The operands of a layer are at least as strong as the layer. -/
theorem rank_le_inner (layer : Layer) : layer.rank ≤ layer.inner.rank := by
  cases layer <;> decide

/-- Every kind of token ranks among the seven precedences. -/
theorem rank_ofKind_le (kind : Token.Kind) : (Precedence.ofKind kind).rank ≤ 7 := by
  cases kind <;> decide

/-- An operator ranks as its layer does. -/
theorem rank_of_operator {layer : Layer} {kind : Token.Kind} (operator : kind ∈ layer.operators) :
    (Precedence.ofKind kind).rank = layer.rank := by
  cases layer <;> simp [Layer.operators] at operator <;>
    rcases operator with rfl | rfl <;> rfl

/-- The operand behind an operator belongs to the next stronger layer. -/
theorem layer_of_operator {layer : Layer} {kind : Token.Kind}
    (operator : kind ∈ layer.operators) : (Precedence.ofKind kind).layer = layer.inner := by
  cases layer <;> simp [Layer.operators] at operator <;>
    rcases operator with rfl | rfl <;> rfl

/-- An operator of a layer neither is without strength nor binds like a call. -/
theorem ofKind_of_operator {layer : Layer} {kind : Token.Kind} (operator : kind ∈ layer.operators) :
    Precedence.ofKind kind ≠ .lowest ∧ Precedence.ofKind kind ≠ .call := by
  cases layer <;> simp [Layer.operators] at operator <;>
    rcases operator with rfl | rfl <;> decide

/-- Everything that continues an expression is a call, an index or an operator of a layer. -/
theorem operator_of_strong {kind : Token.Kind} (strong : 1 < (Precedence.ofKind kind).rank)
    (noCall : kind ≠ .leftParen) (noIndex : kind ≠ .leftBracket) :
    ∃ layer : Layer, kind ∈ layer.operators := by
  cases kind
  case equal | notEqual => exact ⟨.equality, by decide⟩
  case less | greater => exact ⟨.comparison, by decide⟩
  case plus | minus => exact ⟨.sum, by decide⟩
  case asterisk | slash => exact ⟨.product, by decide⟩
  case leftParen => exact absurd rfl noCall
  case leftBracket => exact absurd rfl noIndex
  all_goals exact absurd strong (by decide)

/-- A kind has the lowest precedence just when it continues no expression. -/
theorem rank_of_not_continuing {kind : Token.Kind} :
    (Precedence.ofKind kind).rank ≤ Precedence.lowest.rank ↔ kind ∉ continuing := by
  cases kind <;> decide

/-- A token that binds more strongly than the context belongs to a layer that the context takes. -/
theorem layer_rank_le {level : Precedence} {kind : Token.Kind}
    (stronger : level.rank < (Precedence.ofKind kind).rank) :
    level.layer.rank ≤ (Precedence.ofKind kind).rank := by
  generalize Precedence.ofKind kind = strength at stronger ⊢
  revert stronger
  cases level <;> cases strength <;> decide

/-- An operator that the layer of a level takes is stronger than the level. -/
theorem rank_lt_of_layer {level : Precedence} {kind : Token.Kind} (notCall : level ≠ .call)
    (takes : level.layer.rank ≤ (Precedence.ofKind kind).rank) :
    level.rank < (Precedence.ofKind kind).rank := by
  revert notCall takes
  cases level <;> cases kind <;> decide

/-- A level is no stronger than its layer. -/
theorem rank_le_layer {level : Precedence} (notCall : level ≠ .call) :
    level.rank ≤ level.layer.rank := by
  cases level <;> simp_all [Precedence.rank, Precedence.layer, Layer.rank]

/-- The operands of a weaker layer are stronger than it, and no stronger than the layer. -/
theorem rank_inner_between {layer wider : Layer} (different : wider ≠ layer)
    (le : wider.rank ≤ layer.rank) :
    wider.rank < wider.inner.rank ∧ wider.inner.rank ≤ layer.rank := by
  revert different le
  cases wider <;> cases layer <;> decide

/-- An expression of one layer is also one of every layer that binds less. -/
theorem Derives.widen {layer wider : Layer} {tree : Expr Unit} {tokens rest : List Token}
    (derives : Derives (.expression layer tree) tokens rest) (le : wider.rank ≤ layer.rank) :
    Derives (.expression wider tree) tokens rest := by
  by_cases same : wider = layer
  · exact same ▸ derives
  · have between := rank_inner_between same le
    exact .inner (derives.widen between.2)
termination_by layer.rank - wider.rank
decreasing_by omega

end Grammar

end Monkey
