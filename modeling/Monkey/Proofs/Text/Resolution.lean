import Mathlib.Data.List.Infix
import Monkey.Builtin

/-!
Control characters that are spelled out, in one pass. `print` replaces first every pair for a
carriage return and then every pair for a line feed. Neither replacement makes or breaks a pair of
the other one, so both together are one pass from left to right, and it leaves no pair behind.
-/

namespace Monkey

namespace Text

/-- One pass from left to right: a backslash with an `r` or an `n` behind it becomes the control
character, and everything else is copied. -/
def resolve : List Char → List Char
  | '\\' :: 'r' :: rest => '\r' :: resolve rest
  | '\\' :: 'n' :: rest => '\n' :: resolve rest
  | char :: rest => char :: resolve rest
  | [] => []

/-- The text with its control pairs resolved from left to right. -/
def resolved (text : String) : String :=
  String.ofList (resolve text.toList)

variable {letter control char : Char} {rest : List Char}

/-- A pair in front is replaced. -/
theorem replacePair_pair : replacePair letter control ('\\' :: letter :: rest) =
    control :: replacePair letter control rest := by
  simp [replacePair]

/-- A character that starts no pair is kept. -/
theorem replacePair_cons (single : char = '\\' → rest.head? ≠ some letter) :
    replacePair letter control (char :: rest) = char :: replacePair letter control rest := by
  conv_lhs => unfold replacePair
  split <;> simp_all

/-- A replacement puts no other character in front than its control character. -/
theorem head?_of_replacePair (text : List Char) (other : char ≠ control)
    (first : (replacePair letter control text).head? = some char) : text.head? = some char := by
  match text with
  | [] => exact first
  | foremost :: others =>
      by_cases pair : foremost = '\\' ∧ others.head? = some letter
      · obtain ⟨rfl, behind⟩ := pair
        obtain ⟨rest, rfl⟩ := List.head?_eq_some_iff.mp behind
        rw [replacePair_pair] at first
        exact absurd (Option.some.inj first).symm other
      · rw [replacePair_cons (by simpa using pair)] at first
        exact first

/-- Where one pass copies a character, the character is not the first one of a pair. -/
theorem single_of_ne (noPair : ∀ others, char = '\\' → rest = letter :: others → False) :
    char = '\\' → rest.head? ≠ some letter := by
  intro isBackslash behind
  obtain ⟨others, rfl⟩ := List.head?_eq_some_iff.mp behind
  exact noPair others isBackslash rfl

/-- The second replacement meets the same pairs as if the first one had not been made. -/
theorem replacePair_replacePair (text : List Char) :
    replacePair 'n' '\n' (replacePair 'r' '\r' text) = resolve text := by
  fun_induction resolve text with
  | case1 rest inductionHypothesis =>
      rw [replacePair_pair, replacePair_cons (by simp), inductionHypothesis]
  | case2 rest inductionHypothesis =>
      have kept : replacePair 'r' '\r' ('\\' :: 'n' :: rest) =
          '\\' :: 'n' :: replacePair 'r' '\r' rest := by
        rw [replacePair_cons (by simp), replacePair_cons (by simp)]
      rw [kept, replacePair_pair, inductionHypothesis]
  | case3 char rest noReturn noFeed inductionHypothesis =>
      rw [replacePair_cons (single_of_ne noReturn), replacePair_cons, inductionHypothesis]
      intro isBackslash behind
      exact single_of_ne noFeed isBackslash (head?_of_replacePair rest (by decide) behind)
  | case4 => rfl

/-- Replacing one pair after the other comes to one scan for both. -/
theorem unescape_eq_resolved (text : String) : unescape text = resolved text := by
  rw [unescape, resolved, replacePair_replacePair]

/-- What is copied to the front was in front already. -/
theorem head?_of_resolve (text : List Char) (noReturn : char ≠ '\r') (noFeed : char ≠ '\n')
    (first : (resolve text).head? = some char) : text.head? = some char := by
  rw [← replacePair_replacePair] at first
  exact head?_of_replacePair text noReturn (head?_of_replacePair _ noFeed first)

/-- No pair is left in what has been resolved. -/
theorem no_pair_in_resolve (text : List Char) (isLetter : letter = 'r' ∨ letter = 'n') :
    ¬['\\', letter] <:+: resolve text := by
  fun_induction resolve text with
  | case1 rest inductionHypothesis | case2 rest inductionHypothesis =>
      simpa [List.infix_cons_iff] using inductionHypothesis
  | case3 char rest noReturn noFeed inductionHypothesis =>
      rw [List.infix_cons_iff, List.cons_prefix_cons]
      rintro (⟨isBackslash, behind⟩ | inside)
      · have first : (resolve rest).head? = some letter := by
          obtain ⟨others, same⟩ := behind
          rw [← same]
          rfl
        rcases isLetter with rfl | rfl
        · exact single_of_ne noReturn isBackslash.symm
            (head?_of_resolve rest (by decide) (by decide) first)
        · exact single_of_ne noFeed isBackslash.symm
            (head?_of_resolve rest (by decide) (by decide) first)
      · exact inductionHypothesis inside
  | case4 => simp

/-- Without a pair there is nothing to do. -/
theorem resolve_of_no_pair (text : List Char) (noReturn : ¬['\\', 'r'] <:+: text)
    (noFeed : ¬['\\', 'n'] <:+: text) : resolve text = text := by
  fun_induction resolve text with
  | case1 rest _ => exact absurd (List.prefix_append ['\\', 'r'] rest).isInfix noReturn
  | case2 rest _ => exact absurd (List.prefix_append ['\\', 'n'] rest).isInfix noFeed
  | case3 char rest _ _ inductionHypothesis =>
      rw [inductionHypothesis]
      · exact fun inside => noReturn (List.infix_cons inside)
      · exact fun inside => noFeed (List.infix_cons inside)
  | case4 => rfl

/-- Resolving again changes nothing. -/
theorem resolved_resolved (text : String) : resolved (resolved text) = resolved text := by
  have again := resolve_of_no_pair (resolve text.toList)
    (no_pair_in_resolve text.toList (.inl rfl)) (no_pair_in_resolve text.toList (.inr rfl))
  rw [resolved, resolved, String.toList_ofList, again]

end Text

/-- On a buffer `print` adds the texts of its arguments, joined and then resolved in one pass, which
leaves no pair to resolve, and `println` adds them as they are with a line feed behind them. -/
theorem Builtin.prints_resolved (arguments : List Value) (written : String) :
    let joined := String.join (arguments.map Value.inspect)
    Builtin.print.apply arguments (.buffer written) =
      (.ok .void, .buffer (written ++ Text.resolved joined)) ∧
    Builtin.println.apply arguments (.buffer written) =
      (.ok .void, .buffer (written ++ (joined ++ "\n"))) ∧
    ∀ text, ¬['\\', 'r'] <:+: (Text.resolved text).toList ∧
      ¬['\\', 'n'] <:+: (Text.resolved text).toList ∧
      Text.resolved (Text.resolved text) = Text.resolved text := by
  intro joined
  refine ⟨?_, rfl, fun text => ?_⟩
  · change Builtin.write (Text.unescape joined) (.buffer written) = _
    rw [Text.unescape_eq_resolved]
    rfl
  · have noPair {letter : Char} (isLetter : letter = 'r' ∨ letter = 'n') :
        ¬['\\', letter] <:+: (Text.resolved text).toList := by
      rw [Text.resolved, String.toList_ofList]
      exact Text.no_pair_in_resolve text.toList isLetter
    exact ⟨noPair (.inl rfl), noPair (.inr rfl), Text.resolved_resolved text⟩

/-- A pair may stand across two arguments, and a backslash in front of it stays. -/
example : Builtin.print.apply [.text "a\\\\", .text "nb"] (.buffer "") =
    (.ok .void, .buffer "a\\\nb") := by
  with_unfolding_all rfl

end Monkey
