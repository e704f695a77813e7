import Monkey.Token.Scanner

/-!
The bytes of a text in UTF-8. A byte below 128 stands for the character with its code and occurs in
no other one, so what can be told of a character by such bytes can be told of any of its bytes.
-/

namespace Monkey.Text

/-- The bytes of some characters. -/
def bytes (chars : List Char) : List UInt8 :=
  chars.flatMap String.utf8EncodeChar

@[simp] theorem bytes_nil : bytes [] = [] := rfl

@[simp] theorem bytes_cons (first : Char) (others : List Char) :
    bytes (first :: others) = String.utf8EncodeChar first ++ bytes others := rfl

@[simp] theorem bytes_append (first second : List Char) :
    bytes (first ++ second) = bytes first ++ bytes second :=
  List.flatMap_append

/-- The characters have as many bytes as their sizes say. -/
@[simp] theorem length_bytes (chars : List Char) : (bytes chars).length = byteSize chars := by
  induction chars with
  | nil => rfl
  | cons first others inductionHypothesis => simp [byteSize, inductionHypothesis]

/-- The bytes of a text are those of its characters. -/
theorem data_toByteArray (text : String) : text.toByteArray.data.toList = bytes text.toList := by
  rw [← String.utf8Encode_toList, List.utf8Encode]
  simp [bytes]

/-- The byte at a place of a text. -/
theorem getElem?_toByteArray (text : String) (position : Nat) :
    text.toByteArray[position]? = (bytes text.toList)[position]? := by
  rw [← data_toByteArray, Array.getElem?_toList]
  rfl

/-- The sizes of characters in a row add up. -/
@[simp] theorem byteSize_append (first second : List Char) :
    byteSize (first ++ second) = byteSize first + byteSize second := by
  rw [← length_bytes, bytes_append, List.length_append, length_bytes, length_bytes]

/-- The size of a text is that of its characters. -/
theorem utf8ByteSize_eq_byteSize (text : String) : text.utf8ByteSize = byteSize text.toList := by
  rw [← length_bytes, ← data_toByteArray, Array.length_toList]
  rfl

/-- A byte and its character have one number. -/
theorem toNat_ofUInt8 (byte : UInt8) : (Char.ofUInt8 byte).toNat = byte.toNat := by
  exact UInt8.toNat_toUInt32 byte

/-- The byte of an ASCII character is that character, and the bytes of any other one are none. -/
theorem ofUInt8_of_mem_utf8EncodeChar {char : Char} {byte : UInt8}
    (member : byte ∈ String.utf8EncodeChar char) :
    Char.ofUInt8 byte = char ∨ 128 ≤ (Char.ofUInt8 byte).toNat ∧ 128 ≤ char.toNat := by
  have toNat_eq {code : Nat} (small : code < 256) (same : byte = UInt8.ofNat code) :
      (Char.ofUInt8 byte).toNat = code := by
    rw [toNat_ofUInt8, same, UInt8.toNat_ofNat', Nat.mod_eq_of_lt small]
  have value : char.val.toNat = char.toNat := rfl
  unfold String.utf8EncodeChar at member
  dsimp only at member
  split at member
  · rw [List.mem_singleton] at member
    have code := toNat_eq (by omega) member
    exact .inl (Char.ext (UInt32.toNat_inj.mp code))
  · right
    split at member
    · simp only [List.mem_cons, List.not_mem_nil, or_false] at member
      rcases member with member | member <;> have code := toNat_eq (by omega) member <;> omega
    · split at member
      · simp only [List.mem_cons, List.not_mem_nil, or_false] at member
        rcases member with member | member | member <;>
          have code := toNat_eq (by omega) member <;> omega
      · simp only [List.mem_cons, List.not_mem_nil, or_false] at member
        rcases member with member | member | member | member <;>
          have code := toNat_eq (by omega) member <;> omega

/-- A byte of ASCII among the bytes of some characters is one of these characters. -/
theorem mem_of_mem_bytes {chars : List Char} {byte : UInt8} (member : byte ∈ bytes chars)
    (small : byte.toNat < 128) : Char.ofUInt8 byte ∈ chars := by
  obtain ⟨char, isChar, encoded⟩ := List.mem_flatMap.mp member
  rcases ofUInt8_of_mem_utf8EncodeChar encoded with same | ⟨beyond, _⟩
  · exact same ▸ isChar
  · rw [toNat_ofUInt8] at beyond
    omega

/-- Only ASCII characters are told apart. -/
def AsciiOnly {α : Type} (classify : Char → α) : Prop :=
  ∀ first second, 128 ≤ first.toNat → 128 ≤ second.toNat → classify first = classify second

/-- A test that only small characters pass looks at no others. -/
theorem AsciiOnly.of_test {test : Char → Bool} (small : ∀ char, test char → char.toNat < 128) :
    AsciiOnly test := by
  have fails (char : Char) (beyond : 128 ≤ char.toNat) : test char = false := by
    rw [Bool.eq_false_iff]
    intro passes
    have := small char passes
    omega
  intro first second firstBeyond secondBeyond
  rw [fails first firstBeyond, fails second secondBeyond]

section

variable {α : Type} {classify : Char → α}

/-- A function of what looks only at small characters does so, too. -/
theorem AsciiOnly.comp {β : Type} (ascii : AsciiOnly classify) (next : α → β) :
    AsciiOnly fun char => next (classify char) :=
  fun first second firstBeyond secondBeyond =>
    congrArg next (ascii first second firstBeyond secondBeyond)

/-- Any byte of a character is classified as the character is. -/
theorem AsciiOnly.of_mem (ascii : AsciiOnly classify) {char : Char} {byte : UInt8}
    (member : byte ∈ String.utf8EncodeChar char) :
    classify (Char.ofUInt8 byte) = classify char := by
  rcases ofUInt8_of_mem_utf8EncodeChar member with same | ⟨byteBeyond, charBeyond⟩
  · rw [same]
  · exact ascii _ _ byteBeyond charBeyond

end

/-- The bytes that pass a test are those of the characters that pass it. -/
theorem AsciiOnly.takeWhile_bytes {test : Char → Bool} (ascii : AsciiOnly test)
    (chars : List Char) :
    (bytes chars).takeWhile (fun byte => test (Char.ofUInt8 byte)) =
      bytes (chars.takeWhile test) := by
  induction chars with
  | nil => rfl
  | cons first others inductionHypothesis =>
      rw [bytes_cons]
      by_cases passes : test first
      · have all : ∀ byte ∈ String.utf8EncodeChar first, test (Char.ofUInt8 byte) :=
          fun byte member => (ascii.of_mem member).trans passes
        rw [List.takeWhile_append_of_pos all, inductionHypothesis,
          List.takeWhile_cons_of_pos passes, bytes_cons]
      · obtain ⟨byte, more, encoded⟩ :=
          List.exists_cons_of_ne_nil (String.utf8EncodeChar_ne_nil (c := first))
        have fails : ¬ test (Char.ofUInt8 byte) := by
          rw [ascii.of_mem (encoded ▸ List.mem_cons_self)]
          exact passes
        rw [List.takeWhile_cons_of_neg passes, encoded, List.cons_append]
        exact List.takeWhile_cons_of_neg fails

/-- All bytes pass a test when all characters do. -/
theorem AsciiOnly.forall_bytes {test : Char → Bool} (ascii : AsciiOnly test) (chars : List Char) :
    (∀ byte ∈ bytes chars, test (Char.ofUInt8 byte)) ↔ ∀ char ∈ chars, test char := by
  constructor
  · intro all char member
    obtain ⟨byte, more, encoded⟩ :=
      List.exists_cons_of_ne_nil (String.utf8EncodeChar_ne_nil (c := char))
    have isByte : byte ∈ String.utf8EncodeChar char := encoded ▸ List.mem_cons_self
    rw [← ascii.of_mem isByte]
    exact all byte (List.mem_flatMap.mpr ⟨char, member, isByte⟩)
  · intro all byte member
    obtain ⟨char, isChar, encoded⟩ := List.mem_flatMap.mp member
    rw [ascii.of_mem encoded]
    exact all char isChar

/-- The first byte that passes a test is the first character that does, if it is one of ASCII. -/
theorem AsciiOnly.find?_of_bytes {test : Char → Bool} (ascii : AsciiOnly test) {chars : List Char}
    {byte : UInt8} (small : byte.toNat < 128)
    (found : (bytes chars).find? (fun byte => test (Char.ofUInt8 byte)) = some byte) :
    chars.find? test = some (Char.ofUInt8 byte) := by
  induction chars with
  | nil => cases found
  | cons first others inductionHypothesis =>
      rw [bytes_cons, List.find?_append] at found
      by_cases passes : test first
      · obtain ⟨head, more, encoded⟩ :=
          List.exists_cons_of_ne_nil (String.utf8EncodeChar_ne_nil (c := first))
        have isByte : head ∈ String.utf8EncodeChar first := encoded ▸ List.mem_cons_self
        have headPasses : test (Char.ofUInt8 head) = true := (ascii.of_mem isByte).trans passes
        obtain rfl : head = byte := by simpa [encoded, headPasses] using found
        rw [List.find?_cons_of_pos passes]
        rcases ofUInt8_of_mem_utf8EncodeChar isByte with same | ⟨beyond, _⟩
        · rw [same]
        · rw [toNat_ofUInt8] at beyond
          omega
      · have none : (String.utf8EncodeChar first).find? (fun byte => test (Char.ofUInt8 byte)) =
            none := by
          rw [List.find?_eq_none]
          intro encoded member
          rw [ascii.of_mem member]
          exact passes
        rw [none, Option.none_or] at found
        rw [List.find?_cons_of_neg passes]
        exact inductionHypothesis found

end Monkey.Text
