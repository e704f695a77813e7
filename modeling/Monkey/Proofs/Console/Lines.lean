import Monkey.Console.Dialogue
import Monkey.Proofs.Text.Bytes

/-!
The lines of an input, and the exchanges about them. A text that is written line by line, with a
line feed behind each of them, is cut into these lines again: no character other than the line feed
has its byte in its encoding.
-/

namespace Monkey.Console

/-- The bytes of a text. -/
def encode (text : String) : List UInt8 :=
  text.toByteArray.data.toList

/-- Lines with a line feed behind each of them. -/
def unlines (lines : List String) : String :=
  String.join (lines.map (· ++ "\n"))

@[simp] theorem unlines_nil : unlines [] = "" := rfl

@[simp] theorem unlines_cons (first : String) (others : List String) :
    unlines (first :: others) = first ++ "\n" ++ unlines others := by
  simp [unlines]

/-- Bytes that were made from a text are read back as the text. -/
@[simp] theorem decode_encode (text : String) : decode (encode text) = some text := by
  rw [decode, encode, Array.toArray_toList]
  exact dif_pos text.isValidUTF8

/-- The bytes of two texts in a row are in a row, too. -/
theorem encode_append (first second : String) :
    encode (first ++ second) = encode first ++ encode second := by
  simp [encode, String.toByteArray_append]

/-- The bytes of a text are those of its characters. -/
theorem encode_eq_flatMap (text : String) :
    encode text = text.toList.flatMap String.utf8EncodeChar :=
  Text.data_toByteArray text

/-- Every byte of a character beyond the first 128 is beyond the first 128 bytes. -/
theorem eq_feed_of_mem_utf8EncodeChar {char : Char} (member : 0x0a ∈ String.utf8EncodeChar char) :
    char = '\n' := by
  rcases Text.ofUInt8_of_mem_utf8EncodeChar member with same | ⟨beyond, _⟩
  · exact same.symm
  · exact absurd beyond (by decide)

/-- The bytes of a text without a line feed have none either. -/
theorem feed_notMem_encode {text : String} (noFeed : '\n' ∉ text.toList) :
    0x0a ∉ encode text := by
  rw [encode_eq_flatMap, List.mem_flatMap]
  rintro ⟨char, isChar, member⟩
  exact noFeed (eq_feed_of_mem_utf8EncodeChar member ▸ isChar)

namespace Dialogue

/-- What stands in front of the first line feed is the first line. -/
theorem lines_append {line : List UInt8} (noFeed : 0x0a ∉ line) (rest : List UInt8) :
    lines (line ++ 0x0a :: rest) = line :: lines rest := by
  induction line with
  | nil => rw [List.nil_append, lines, if_pos rfl]
  | cons byte others inductionHypothesis =>
      rw [List.mem_cons, not_or] at noFeed
      rw [List.cons_append, lines, if_neg (Ne.symm noFeed.1), inductionHypothesis noFeed.2]

/-- The lines of the input are the ones that were written. -/
theorem lines_unlines {texts : List String} (noFeed : ∀ text ∈ texts, '\n' ∉ text.toList) :
    (lines (encode (unlines texts))).map decode = texts.map some := by
  induction texts with
  | nil => rfl
  | cons first others inductionHypothesis =>
      rw [List.forall_mem_cons] at noFeed
      have feed : encode "\n" = [0x0a] := by decide
      rw [unlines_cons, encode_append, encode_append, feed, List.append_assoc,
        List.singleton_append, lines_append (feed_notMem_encode noFeed.1), List.map_cons,
        decode_encode, inductionHypothesis noFeed.2, List.map_cons]

/-- A dialogue on texts with line feeds is one on the lines. -/
theorem ofInput_unlines (depth : Nat) {texts : List String}
    (noFeed : ∀ text ∈ texts, '\n' ∉ text.toList) :
    ofInput depth (encode (unlines texts)) =
      hold opening.2 depth opening.1 (texts.map some) := by
  rw [ofInput, lines_unlines noFeed]

/-- The rest of a dialogue behind its first exchange. -/
theorem hold_cons_eq_some {session : Session} {depth scope : Nat} {line : String}
    {others : List (Option String)} {dialogue : Dialogue} :
    hold session depth scope (some line :: others) = some dialogue ↔
      ∃ exchange reached rest, respond session depth scope line = some (exchange, reached) ∧
        hold reached depth scope others = some rest ∧
        dialogue = ⟨exchange :: rest.exchanges, rest.failure⟩ := by
  rw [hold]
  constructor
  · intro ends
    split at ends
    · cases ends
    · next exchange reached answered =>
        split at ends
        · cases ends
        · next rest goesOn =>
            cases ends
            exact ⟨exchange, reached, rest, answered, goesOn, rfl⟩
  · rintro ⟨exchange, reached, rest, answered, goesOn, rfl⟩
    simp [answered, goesOn]

/-- Every line that is text has its exchange. -/
theorem hold_length {session : Session} {depth scope : Nat} {texts : List String}
    {dialogue : Dialogue} (ends : hold session depth scope (texts.map some) = some dialogue) :
    dialogue.exchanges.length = texts.length ∧ dialogue.failure = none := by
  induction texts generalizing session dialogue with
  | nil =>
      cases ends
      exact ⟨rfl, rfl⟩
  | cons first others inductionHypothesis =>
      obtain ⟨exchange, reached, rest, _, goesOn, rfl⟩ := hold_cons_eq_some.mp ends
      obtain ⟨length, failure⟩ := inductionHypothesis goesOn
      exact ⟨congrArg (· + 1) length, failure⟩

end Dialogue

end Monkey.Console
