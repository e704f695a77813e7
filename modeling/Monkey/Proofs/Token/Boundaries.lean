import Monkey.Proofs.Text.Bytes
import Monkey.Proofs.Token.Joining
import Monkey.Token.Cursor

/-!
The cursor stays between characters. It moves byte by byte, but the sorts of characters that make a
token are told by their bytes, so a token starts and stops between two characters, every cut falls
there, and the cursor reads the tokens that the scanner reads.
-/

namespace Monkey

open Text

section

variable {source : String} {passed rest : List Char}

/-- A span that has a text lies within the source, on character boundaries. -/
theorem Span.within_of_text? {span : Span} {text : String} (found : span.text? source = some text) :
    span.Within source := by
  unfold Span.text? at found
  split at found
  · next within => exact within
  · cases found

/-- The place behind whole characters is a character boundary. -/
theorem isValid_byteSize (whole : source.toList = passed ++ rest) :
    (String.Pos.Raw.mk (byteSize passed)).IsValid source := by
  rw [String.Pos.Raw.isValid_iff_exists_take_toList]
  refine ⟨passed.length, ?_⟩
  rw [whole, List.take_left, utf8ByteSize_eq_byteSize, String.toList_ofList]

/-- Characters can be cut out of a text by the numbers of bytes before and up to their end. -/
theorem Span.text?_between {text : List Char} (whole : source.toList = passed ++ (text ++ rest)) :
    (Span.mk (byteSize passed) (byteSize (passed ++ text))).text? source =
      some (String.ofList text) := by
  have size : source.utf8ByteSize = byteSize passed + (byteSize text + byteSize rest) := by
    rw [utf8ByteSize_eq_byteSize, whole, byteSize_append, byteSize_append]
  have within : (Span.mk (byteSize passed) (byteSize (passed ++ text))).Within source := {
    ordered := by simp
    inside := by
      simp only [size, byteSize_append]
      omega
    startBoundary := isValid_byteSize whole
    stopBoundary := isValid_byteSize (by rw [whole, List.append_assoc]) }
  rw [Span.text?, dif_pos within]
  congr 1
  apply String.toByteArray_inj.mp
  apply ByteArray.ext
  apply Array.toList_inj.mp
  rw [String.toByteArray_extract, ByteArray.data_extract, Array.toList_extract, data_toByteArray,
    data_toByteArray, whole, String.toList_ofList]
  simp [List.extract]

end

/-- Whether a character is blank is decided among small characters. -/
theorem asciiOnly_isBlank : AsciiOnly Token.isBlank := by
  apply AsciiOnly.of_test
  intro char blank
  rcases Token.isBlank_cases blank with rfl | rfl | rfl | rfl <;> decide

theorem asciiOnly_isLetter : AsciiOnly Token.isLetter := by
  apply AsciiOnly.of_test
  intro char letter
  have := Token.isLetter_range letter
  omega

theorem asciiOnly_isDigit : AsciiOnly Char.isDigit := by
  apply AsciiOnly.of_test
  intro char digit
  have := Token.isDigit_range digit
  omega

theorem asciiOnly_eq {target : Char} (small : target.toNat < 128) : AsciiOnly (· == target) := by
  apply AsciiOnly.of_test
  intro char same
  rw [beq_iff_eq.mp same]
  exact small

/-- A kind that is found under a character is listed with it. -/
theorem symbols_listed {char : Char} {kind : Token.Kind}
    (found : Token.symbols.lookup char = some kind) : (char, kind) ∈ Token.symbols := by
  obtain ⟨before, after, table, _⟩ := List.lookup_eq_some_iff.mp found
  simp [table]

/-- The table of symbols lists ASCII characters only. -/
theorem symbols_ascii {char : Char} {kind : Token.Kind} (listed : (char, kind) ∈ Token.symbols) :
    char.toNat < 128 ∧ char ≠ '\x00' ∧ char.utf8Size = 1 ∧ kind.symbol?.isSome := by
  have table : ∀ pair ∈ Token.symbols, pair.1.toNat < 128 ∧ pair.1 ≠ '\x00' ∧
      pair.1.utf8Size = 1 ∧ pair.2.symbol?.isSome := by decide
  exact table _ listed

theorem asciiOnly_symbols : AsciiOnly (Token.symbols.lookup ·) := by
  have unlisted (char : Char) (beyond : 128 ≤ char.toNat) : Token.symbols.lookup char = none := by
    by_contra listed
    obtain ⟨kind, found⟩ := Option.ne_none_iff_exists'.mp listed
    have := symbols_ascii (symbols_listed found)
    omega
  intro first second firstBeyond secondBeyond
  dsimp only
  rw [unlisted first firstBeyond, unlisted second secondBeyond]

namespace Cursor

/-- The cursor that stands at a byte of a text, or behind its end. -/
def ofPosition (source : String) (position : Nat) : Cursor :=
  ⟨position, position + 1, source.toByteArray[position]?.getD 0⟩

variable {source : String}

/-- A cursor moves on by one byte. -/
theorem advance_ofPosition (position : Nat) :
    (ofPosition source position).advance source = ofPosition source (position + 1) := rfl

/-- A cursor that moves on several times does so by as many bytes. -/
theorem repeat_advance (position count : Nat) :
    Nat.repeat (advance source) count (ofPosition source position) =
      ofPosition source (position + count) := by
  induction count with
  | zero => rfl
  | succ count inductionHypothesis =>
      rw [Nat.repeat, inductionHypothesis, advance_ofPosition]
      rfl

/-- The size of a source is the number of its bytes. -/
theorem utf8ByteSize_eq_length : source.utf8ByteSize = (bytes source.toList).length := by
  rw [utf8ByteSize_eq_byteSize, length_bytes]

/-- A cursor sees the byte at its position. -/
theorem byte_of_drop {position : Nat} {byte : UInt8} {others : List UInt8}
    (left : (bytes source.toList).drop position = byte :: others) :
    (ofPosition source position).byte = byte := by
  have found : (bytes source.toList)[position]? = some byte := by
    rw [← Nat.add_zero position, ← List.getElem?_drop, left]
    rfl
  rw [ofPosition, getElem?_toByteArray, found]
  rfl

/-- At the end a cursor skips nothing. -/
theorem skipWhile_of_end {test : Char → Bool} {cursor : Cursor}
    (atEnd : ¬ cursor.position < source.utf8ByteSize) : cursor.skipWhile source test = cursor := by
  rw [skipWhile, dif_neg atEnd]

/-- The bytes that pass a test are passed one by one. -/
theorem skipWhile_ofPosition (test : Char → Bool) (position : Nat) :
    (ofPosition source position).skipWhile source test =
      ofPosition source (position + (((bytes source.toList).drop position).takeWhile fun byte =>
        test (Char.ofUInt8 byte)).length) := by
  -- On the bytes from the position on, of which each turn of the loop takes the first.
  induction left : (bytes source.toList).drop position generalizing position with
  | nil =>
      have atEnd : ¬ (ofPosition source position).position < source.utf8ByteSize := by
        rw [List.drop_eq_nil_iff, ← utf8ByteSize_eq_length] at left
        exact Nat.not_lt.mpr left
      rw [skipWhile_of_end atEnd]
      rfl
  | cons byte others inductionHypothesis =>
      have more : (ofPosition source position).position < source.utf8ByteSize := by
        have length := congrArg List.length left
        rw [List.length_drop, List.length_cons, ← utf8ByteSize_eq_length] at length
        simp only [ofPosition]
        omega
      have behind : (bytes source.toList).drop (position + 1) = others := by
        rw [← List.drop_drop, left]
        rfl
      rw [skipWhile, dif_pos more, char, byte_of_drop left]
      by_cases passes : test (Char.ofUInt8 byte)
      · rw [if_pos passes, advance_ofPosition, inductionHypothesis _ behind,
          List.takeWhile_cons, if_pos passes, List.length_cons]
        congr 1
        omega
      · rw [if_neg passes, List.takeWhile_cons, if_neg passes]
        rfl

section

variable {passed rest : List Char} (whole : source.toList = passed ++ rest)
include whole

/-- Behind the bytes of what has been passed there are those of the rest. -/
theorem drop_bytes : (bytes source.toList).drop (byteSize passed) = bytes rest := by
  rw [whole, bytes_append, ← length_bytes, List.drop_left]

/-- The size of a source is that of what has been passed and of the rest. -/
theorem utf8ByteSize_of_whole : source.utf8ByteSize = byteSize passed + byteSize rest := by
  rw [utf8ByteSize_eq_byteSize, whole, byteSize_append]

/-- From between two characters, the cursor passes those that pass the test. -/
theorem skipWhile_between {test : Char → Bool} (ascii : AsciiOnly test) :
    (ofPosition source (byteSize passed)).skipWhile source test =
      ofPosition source (byteSize (passed ++ rest.takeWhile test)) := by
  rw [skipWhile_ofPosition, drop_bytes whole, ascii.takeWhile_bytes, length_bytes, byteSize_append]

end

section

variable {passed others : List Char} {first : Char}
  (whole : source.toList = passed ++ first :: others)
include whole

/-- The byte at the beginning of a character is classified as the character is. -/
theorem classify_char {α : Type} {classify : Char → α} (ascii : AsciiOnly classify) :
    classify (ofPosition source (byteSize passed)).char = classify first := by
  obtain ⟨byte, more, encoded⟩ :=
    List.exists_cons_of_ne_nil (String.utf8EncodeChar_ne_nil (c := first))
  have left : (bytes source.toList).drop (byteSize passed) = byte :: (more ++ bytes others) := by
    rw [drop_bytes whole, bytes_cons, encoded, List.cons_append]
  rw [char, byte_of_drop left]
  exact ascii.of_mem (encoded ▸ List.mem_cons_self)

end

/-- The byte at a place between two characters tells whether an ASCII character follows. -/
theorem char_eq_iff {passed rest : List Char} (whole : source.toList = passed ++ rest)
    {target : Char} (small : target.toNat < 128) (nonzero : target ≠ '\x00') :
    (ofPosition source (byteSize passed)).char = target ↔ rest.head? = some target := by
  match rest with
  | [] =>
      have none : source.toByteArray[byteSize passed]? = none := by
        rw [getElem?_toByteArray, List.getElem?_eq_none]
        rw [← utf8ByteSize_eq_length, utf8ByteSize_of_whole whole]
        exact Nat.le_refl _
      have zero : (ofPosition source (byteSize passed)).char = '\x00' := by
        rw [char, ofPosition, none]
        rfl
      rw [zero]
      simp [Ne.symm nonzero]
  | first :: others =>
      have same := classify_char whole (asciiOnly_eq small)
      rw [Bool.eq_iff_iff, beq_iff_eq, beq_iff_eq] at same
      rw [same, List.head?_cons, Option.some_inj]

/-- The cursor stands between the characters before it and those behind it; at the end of the text
it may have left one place more, that of a missing quote, behind it. -/
def Stands (source : String) (passed rest : List Char) (cursor : Cursor) : Prop :=
  cursor = ofPosition source (byteSize passed) ∨
    rest = [] ∧ cursor = ofPosition source (byteSize passed + 1)

/-- In front of a character a cursor stands at the bytes that have been passed. -/
theorem Stands.eq_ofPosition {passed rest : List Char} {cursor : Cursor}
    (stands : Stands source passed rest cursor) (more : rest ≠ []) :
    cursor = ofPosition source (byteSize passed) := by
  rcases stands with stands | ⟨none, _⟩
  · exact stands
  · exact absurd none more

/-- A cursor that has passed everything is at the end. -/
theorem Stands.at_end {passed : List Char} {cursor : Cursor}
    (stands : Stands source passed [] cursor) (whole : source.toList = passed ++ []) :
    ¬ cursor.position < source.utf8ByteSize := by
  have size := utf8ByteSize_of_whole whole
  rw [byteSize] at size
  rcases stands with rfl | ⟨_, rfl⟩ <;> simp only [ofPosition] <;> omega

/-- Skipping leads from between two characters to between two characters. -/
theorem Stands.skipWhile {passed rest : List Char} {cursor : Cursor} {test : Char → Bool}
    (stands : Stands source passed rest cursor) (whole : source.toList = passed ++ rest)
    (ascii : AsciiOnly test) :
    Stands source (passed ++ rest.takeWhile test) (rest.dropWhile test)
      (cursor.skipWhile source test) := by
  match rest with
  | [] =>
      rw [skipWhile_of_end (stands.at_end whole), List.takeWhile_nil, List.append_nil]
      exact stands
  | first :: others =>
      rw [stands.eq_ofPosition (List.cons_ne_nil _ _), skipWhile_between whole ascii]
      exact .inl rfl

/-- A step that reads a lexeme behind some characters gives its token, cuts within the text, which
it does unless the token is a symbol, and leads behind the lexeme. -/
structure Step.Reads (source : String) (passed : List Char) (lexeme : Lexeme) (step : Step) :
    Prop where
  token : step.token = lexeme.token
  within : ∀ span ∈ step.cut, span.Within source
  uncut : step.cut = none → step.token.kind.symbol?.isSome
  after : Stands source (passed ++ lexeme.text) lexeme.rest step.after

/-- A token that is cut out at a span reads its lexeme. -/
theorem cut_reads {passed : List Char} {lexeme : Lexeme} {span : Span} {text : String}
    {make : String → Token × Cursor} (found : span.text? source = some text)
    (token : (make text).1 = lexeme.token)
    (after : Stands source (passed ++ lexeme.text) lexeme.rest (make text).2) :
    ∃ step, cut source span make = some step ∧ Step.Reads source passed lexeme step := by
  refine ⟨⟨(make text).1, (make text).2, some span⟩, ?_, token, ?_, by simp, after⟩
  · rw [cut, found]
    rfl
  · intro cut member
    cases member
    exact Span.within_of_text? found

section

variable {passed others : List Char} {first : Char}
  (whole : source.toList = passed ++ first :: others)
include whole

/-- A listed character is read as its symbol. -/
theorem symbol_reads {kind : Token.Kind} (listed : (first, kind) ∈ Token.symbols) :
    Step.Reads source passed (.symbol first others)
      ((ofPosition source (byteSize passed)).symbol source kind) := by
  obtain ⟨small, nonzero, size, isSymbol⟩ := symbols_ascii listed
  obtain ⟨-, -, -, -, sort⟩ := Token.symbols_plain listed
  have here : (ofPosition source (byteSize passed)).char = first := by
    rw [char_eq_iff whole small nonzero]
    rfl
  have next : Char.ofUInt8 ((ofPosition source (byteSize passed)).peek source) = '=' ↔
      others.head? = some '=' := by
    have whole : source.toList = (passed ++ [first]) ++ others := by
      rw [whole, List.append_assoc, List.singleton_append]
    rw [← char_eq_iff whole (by decide) (by decide), byteSize_append, byteSize, size]
    rfl
  unfold Lexeme.symbol
  split
  · next rest =>
      rw [symbol, here, next.mpr rfl]
      refine ⟨rfl, by simp, fun _ => rfl, .inl ?_⟩
      rw [byteSize_append]
      rfl
  · next rest =>
      rw [symbol, here, next.mpr rfl]
      refine ⟨rfl, by simp, fun _ => rfl, .inl ?_⟩
      rw [byteSize_append]
      rfl
  · next noEqual noNotEqual =>
      have single : (ofPosition source (byteSize passed)).symbol source kind =
          ⟨⟨kind, String.ofList [first]⟩, ofPosition source (byteSize passed + 1), none⟩ := by
        unfold symbol
        rw [here]
        split
        · next equal =>
            obtain ⟨rest, rfl⟩ := List.head?_eq_some_iff.mp (next.mp equal)
            exact absurd rfl (noEqual rest rfl)
        · next equal =>
            obtain ⟨rest, rfl⟩ := List.head?_eq_some_iff.mp (next.mp equal)
            exact absurd rfl (noNotEqual rest rfl)
        · rfl
      rw [single]
      refine ⟨by rw [sort], by simp, fun _ => isSymbol, .inl ?_⟩
      rw [byteSize_append, byteSize, size]
      rfl

/-- The rest of the text is cut off, and the cursor is brought behind its first character. -/
theorem illegal_reads :
    ∃ step, (ofPosition source (byteSize passed)).illegal source = some step ∧
      Step.Reads source passed ⟨⟨.illegal, String.ofList [first]⟩, [first], others⟩ step := by
  have found : (Span.mk (byteSize passed) source.utf8ByteSize).text? source =
      some (String.ofList (first :: others)) := by
    rw [utf8ByteSize_of_whole whole, ← byteSize_append]
    exact Span.text?_between (whole.trans (by rw [List.append_nil]))
  apply cut_reads found
  · rw [String.toList_ofList]
    rfl
  · left
    rw [String.toList_ofList, List.head?_cons, Option.getD_some]
    dsimp only
    rw [repeat_advance, advance_ofPosition, Nat.add_assoc, Nat.sub_add_cancel first.utf8Size_pos,
      byteSize_append]
    rfl

end

/-- A run of characters of one sort is cut out whole. -/
theorem run_reads {passed rest : List Char} (whole : source.toList = passed ++ rest)
    {test : Char → Bool} (ascii : AsciiOnly test) (kind : String → Token.Kind) :
    ∃ step, (ofPosition source (byteSize passed)).run source test kind = some step ∧
      Step.Reads source passed
        ⟨⟨kind (String.ofList (rest.takeWhile test)), String.ofList (rest.takeWhile test)⟩,
          rest.takeWhile test, rest.dropWhile test⟩ step := by
  have found : (Span.mk (byteSize passed) (byteSize (passed ++ rest.takeWhile test))).text? source =
      some (String.ofList (rest.takeWhile test)) :=
    Span.text?_between (whole.trans (by rw [List.takeWhile_append_dropWhile]))
  rw [run, skipWhile_between whole ascii]
  exact cut_reads found rfl (.inl rfl)

/-- A quoted text is cut out up to its closing quote or the end, which the cursor then leaves. -/
theorem quoted_reads {passed others : List Char} (whole : source.toList = passed ++ '"' :: others) :
    ∃ step, (ofPosition source (byteSize passed)).quoted source = some step ∧
      Step.Reads source passed (.quoted others) step := by
  have whole : source.toList = (passed ++ ['"']) ++ others := by
    rw [whole, List.append_assoc, List.singleton_append]
  have opening : byteSize (passed ++ ['"']) = byteSize passed + 1 := by
    rw [byteSize_append]
    rfl
  have ascii : AsciiOnly (· != '"') := (asciiOnly_eq (show '"'.toNat < 128 by decide)).comp not
  have closing : (ofPosition source (byteSize passed + 1)).skipWhile source (· != '"') =
      ofPosition source (byteSize (passed ++ ['"'] ++ others.takeWhile (· != '"'))) := by
    rw [← opening]
    exact skipWhile_between whole ascii
  have found : (Span.mk (byteSize passed + 1)
      (byteSize (passed ++ ['"'] ++ others.takeWhile (· != '"')))).text? source =
      some (String.ofList (others.takeWhile (· != '"'))) := by
    rw [← opening]
    exact Span.text?_between (whole.trans (by rw [List.takeWhile_append_dropWhile]))
  rw [quoted, advance_ofPosition, closing]
  apply cut_reads found rfl
  dsimp only [Lexeme.quoted]
  -- The step behind the closing quote is made without one, too, and then leads over the end.
  match left : others.dropWhile (· != '"') with
  | [] =>
      right
      simp [advance_ofPosition]
  | quote :: rest =>
      left
      have isQuote : quote = '"' := by
        have stops := List.head?_dropWhile_not (· != '"') others
        rw [left] at stops
        simpa using stops
      rw [advance_ofPosition, isQuote]
      simp [byteSize, Nat.add_assoc, show '"'.utf8Size = 1 from rfl]

/-- A character that is not listed is an illegal token. -/
theorem illegal_of_unlisted {first : Char} (unlisted : Token.symbols.lookup first = none)
    (others : List Char) :
    Lexeme.symbol first others = ⟨⟨.illegal, String.ofList [first]⟩, [first], others⟩ := by
  have illegal : Token.Kind.ofSymbol first = .illegal := by
    rw [Token.Kind.ofSymbol, unlisted]
    rfl
  rw [Lexeme.symbol_single, illegal]
  rintro (rfl | rfl) <;> cases unlisted

/-- The token at a character that is not blank is the one that the characters from there on give. -/
theorem token?_reads {passed others : List Char} {first : Char}
    (whole : source.toList = passed ++ first :: others) :
    ∃ step, (ofPosition source (byteSize passed)).token? source = some step ∧
      Step.Reads source passed (.first first others) step := by
  have isSymbol := classify_char whole asciiOnly_symbols
  have isQuote : (ofPosition source (byteSize passed)).char = '"' ↔ first = '"' := by
    rw [char_eq_iff whole (by decide) (by decide), List.head?_cons, Option.some_inj]
  -- The tests of the first byte are tests of the character, so both sides split in the same way.
  unfold token?
  rw [isSymbol, classify_char whole asciiOnly_isLetter, classify_char whole asciiOnly_isDigit]
  match found : Token.symbols.lookup first with
  | some kind =>
      have listed := symbols_listed found
      obtain ⟨noQuote, noLetter, noDigit, -, -⟩ := Token.symbols_plain listed
      rw [Lexeme.first_of_other noQuote noLetter noDigit]
      exact ⟨_, rfl, symbol_reads whole listed⟩
  | none =>
      dsimp only
      unfold Lexeme.first
      simp only [isQuote]
      split
      · next quote => exact quoted_reads (quote ▸ whole)
      · split
        · exact run_reads whole asciiOnly_isLetter _
        · split
          · exact run_reads whole asciiOnly_isDigit _
          · rw [illegal_of_unlisted found]
            exact illegal_reads whole

/-- A cursor that stands where a scanner does. -/
def Follows (source : String) (scanner : Scanner) (cursor : Cursor) : Prop :=
  ∃ passed, source.toList = passed ++ scanner.rest ∧ scanner.offset = byteSize passed ∧
    Stands source passed scanner.rest cursor

/-- The two scanners start together. -/
theorem follows_start (source : String) : Follows source (.ofString source) (start source) :=
  ⟨[], rfl, rfl, .inl rfl⟩

/-- Reading one token: the cursor does as the scanner, and cuts within the text. -/
theorem Follows.next {scanner : Scanner} {cursor : Cursor}
    (follows : Follows source scanner cursor) :
    ∃ step, cursor.next source = some step ∧ step.token = scanner.next.1 ∧
      (∀ span ∈ step.cut, span.Within source) ∧
      (step.cut = none → step.token = .eof ∨ step.token.kind.symbol?.isSome) ∧
      Follows source scanner.next.2 step.after := by
  obtain ⟨passed, whole, offset, stands⟩ := follows
  have parts : source.toList = passed ++ scanner.rest.takeWhile Token.isBlank ++
      scanner.rest.dropWhile Token.isBlank := by
    rw [List.append_assoc, List.takeWhile_append_dropWhile, whole]
  have stands := stands.skipWhile whole asciiOnly_isBlank
  match found : scanner.rest.dropWhile Token.isBlank with
  | [] =>
      rw [found] at parts stands
      rw [Scanner.next_of_nil found]
      refine ⟨_, if_neg (stands.at_end parts), rfl, by simp, fun _ => .inl rfl, _, parts, ?_,
        stands⟩
      rw [Scanner.moveTo, offset, byteSize_append]
  | first :: others =>
      rw [found] at parts stands
      have place := stands.eq_ofPosition (List.cons_ne_nil _ _)
      have more : (cursor.skipWhile source Token.isBlank).position < source.utf8ByteSize := by
        have := first.utf8Size_pos
        rw [place, utf8ByteSize_of_whole parts, byteSize]
        simp only [ofPosition]
        omega
      obtain ⟨step, reads, token, within, uncut, after⟩ := token?_reads parts
      rw [← place] at reads
      rw [Scanner.next_of_cons found]
      refine ⟨step, (if_pos more).trans reads, token, within, fun none => .inr (uncut none), _, ?_,
        ?_, after⟩
      · rw [parts, ← Lexeme.text_append_rest, ← List.append_assoc]
        rfl
      · rw [Scanner.moveTo, offset, ← byteSize_append, List.append_assoc]

/-- Reading any number of tokens: there is always a place to go on from. -/
theorem follows_after (source : String) (count : Nat) :
    ∃ cursor, Cursor.after source count = some cursor ∧
      Follows source ((Scanner.ofString source).after count) cursor := by
  induction count with
  | zero => exact ⟨start source, rfl, follows_start source⟩
  | succ count inductionHypothesis =>
      obtain ⟨cursor, reached, follows⟩ := inductionHypothesis
      obtain ⟨step, reads, -, -, -, behind⟩ := follows.next
      refine ⟨step.after, ?_, ?_⟩
      · rw [Cursor.after, reached]
        dsimp only [Option.bind_eq_bind, Option.bind_some]
        rw [reads]
        rfl
      · rw [Scanner.after_succ]
        exact behind

/-- While the two scanners go together, their positions agree up to the end. -/
theorem Follows.offset {scanner : Scanner} {cursor : Cursor}
    (follows : Follows source scanner cursor) :
    cursor.position ≤ source.utf8ByteSize + 1 ∧
      scanner.offset = min cursor.position source.utf8ByteSize := by
  obtain ⟨passed, whole, offset, stands⟩ := follows
  have size := utf8ByteSize_of_whole whole
  rcases stands with rfl | ⟨none, rfl⟩
  · simp only [ofPosition]
    omega
  · rw [none, byteSize] at size
    simp only [ofPosition]
    omega

/-- A cursor that follows a scanner is determined by its position, which is a boundary. -/
theorem Follows.inside {scanner : Scanner} {cursor : Cursor}
    (follows : Follows source scanner cursor) :
    cursor = ofPosition source cursor.position ∧
      (cursor.position < source.utf8ByteSize →
        (String.Pos.Raw.mk cursor.position).IsValid source) := by
  obtain ⟨passed, whole, -, stands⟩ := follows
  rcases stands with rfl | ⟨none, rfl⟩
  · exact ⟨rfl, fun _ => isValid_byteSize whole⟩
  · refine ⟨rfl, fun more => ?_⟩
    have size := utf8ByteSize_of_whole whole
    rw [none, byteSize] at size
    simp only [ofPosition] at more
    omega

/-- After any number of tokens, those behind the end of the text included, the cursor stands in the
text or at most one place behind its end. In the text it stands between two characters, at the byte
it holds, and ahead of it lies the byte that is read next. The next token can be read from there;
what is cut out for it, as it is for every token but a symbol and the end, lies within the text and
between characters; and the token is the one that the scanner reads at the same number of bytes. -/
theorem next_within (source : String) (count : Nat) :
    ∃ cursor, Cursor.after source count = some cursor ∧
      cursor.position ≤ source.utf8ByteSize + 1 ∧
      cursor.readPosition = cursor.position + 1 ∧
      (cursor.position < source.utf8ByteSize →
        (String.Pos.Raw.mk cursor.position).IsValid source ∧
          source.toByteArray[cursor.position]? = some cursor.byte) ∧
      ∃ step, cursor.next source = some step ∧
        (∀ span ∈ step.cut, span.Within source) ∧
        (step.cut = none → step.token = .eof ∨ step.token.kind.symbol?.isSome) ∧
        step.token = (Token.list source).getD count .eof ∧
        ((Scanner.ofString source).after count).offset =
          min cursor.position source.utf8ByteSize := by
  obtain ⟨cursor, reached, follows⟩ := follows_after source count
  obtain ⟨bound, offset⟩ := follows.offset
  obtain ⟨place, boundary⟩ := follows.inside
  obtain ⟨step, reads, token, within, uncut, -⟩ := follows.next
  refine ⟨cursor, reached, bound, congrArg readPosition place, fun more => ⟨boundary more, ?_⟩,
    step, reads, within, uncut, ?_, offset⟩
  · rw [congrArg byte place, ofPosition, getElem?_pos source.toByteArray cursor.position more]
    rfl
  · rw [token, Scanner.next_after]
    rfl

-- A quoted text without its closing quote leads one place behind the end, the farthest there is.
example : ((after "é\"ü" 2).map position, "é\"ü".utf8ByteSize) = (some 6, 5) := by cbv

end Cursor

end Monkey
