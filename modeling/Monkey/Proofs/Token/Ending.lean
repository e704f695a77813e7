import Monkey.Proofs.Token.Boundaries

/-!
The end of a text. It is read where nothing but blanks is left, and nowhere else; every other token
leads further into the text, so the end is reached, and is read again and again from then on.
-/

namespace Monkey

open Text

/-- A zero is a token of its own unless it is quoted. -/
theorem Lexeme.Valid.zero {lexeme : Lexeme} (valid : lexeme.Valid) (zero : '\x00' ∈ lexeme.text) :
    lexeme.token = ⟨.illegal, "\x00"⟩ ∨
      lexeme.token.kind = .string ∧ '\x00' ∈ lexeme.token.literal.toList := by
  have inToken : '\x00' ∈ lexeme.token.literal.toList := by
    rcases valid.text with text | ⟨_, text, _⟩
    · rw [text, Token.text] at zero
      split at zero
      · simpa using zero
      · exact zero
    · simpa [text] using zero
  rcases valid.wellFormed.cases_of_mem inToken (by decide) (by decide) (by decide) with
    quoted | ⟨illegal, spelled⟩
  · exact .inr ⟨quoted, inToken⟩
  · have literal : lexeme.token.literal = "\x00" := String.toList_inj.mp spelled
    exact .inl (by rw [← illegal, ← literal])

namespace Scanner

/-- One step reads the end of the text, or passes blanks and a lexeme. -/
theorem next_cases (scanner : Scanner) :
    (∀ char ∈ scanner.rest, Token.isBlank char) ∧
      scanner.next = (.eof, scanner.moveTo scanner.rest []) ∨
    ∃ blanks first others, (∀ char ∈ blanks, Token.isBlank char) ∧ ¬ Token.isBlank first ∧
      scanner.rest = blanks ++ first :: others ∧
      scanner.next = ((Lexeme.first first others).token,
        scanner.moveTo (blanks ++ (Lexeme.first first others).text)
          (Lexeme.first first others).rest) := by
  have parts := List.takeWhile_append_dropWhile (p := Token.isBlank) (l := scanner.rest)
  have blanks : ∀ char ∈ scanner.rest.takeWhile Token.isBlank, Token.isBlank char :=
    fun _ member => List.mem_takeWhile_imp member
  match found : scanner.rest.dropWhile Token.isBlank with
  | [] =>
      have all : scanner.rest.takeWhile Token.isBlank = scanner.rest := by simpa [found] using parts
      left
      rw [next_of_nil found, all]
      exact ⟨all ▸ blanks, rfl⟩
  | first :: others =>
      have noBlank : ¬ Token.isBlank first := by
        have stops := List.head?_dropWhile_not Token.isBlank scanner.rest
        simpa [found] using stops
      exact .inr ⟨_, first, others, blanks, noBlank, by rw [← found, parts], next_of_cons found⟩

/-- The end is answered just when nothing but blanks is left. -/
theorem next_eof_iff (scanner : Scanner) :
    scanner.next.1.kind = .eof ↔ scanner.rest.dropWhile Token.isBlank = [] := by
  rw [List.dropWhile_eq_nil_iff]
  rcases scanner.next_cases with ⟨all, next⟩ | ⟨blanks, first, others, _, noBlank, rest, next⟩
  · rw [next]
    exact iff_of_true rfl all
  · have valid : (Lexeme.first first others).Valid := Lexeme.first_valid noBlank
    rw [next, rest]
    apply iff_of_false valid.wellFormed.kind_ne_eof
    intro all
    exact noBlank (all first (by simp))

/-- Once the end is answered nothing is left. -/
theorem next_rest_of_eof {scanner : Scanner} (atEnd : scanner.next.1.kind = .eof) :
    scanner.next.2.rest = [] := by
  rcases scanner.next_cases with ⟨_, next⟩ | ⟨_, first, others, _, noBlank, _, next⟩
  · rw [next, moveTo]
  · have valid : (Lexeme.first first others).Valid := Lexeme.first_valid noBlank
    rw [next] at atEnd
    exact absurd atEnd valid.wellFormed.kind_ne_eof

/-- Every token but the end takes at least one byte. -/
theorem offset_lt_next {scanner : Scanner} (more : scanner.next.1.kind ≠ .eof) :
    scanner.offset < scanner.next.2.offset := by
  rcases scanner.next_cases with ⟨_, next⟩ | ⟨blanks, first, others, _, _, _, next⟩
  · exact absurd (congrArg (fun ends => ends.1.kind) next) more
  · obtain ⟨char, chars, text⟩ := List.exists_cons_of_ne_nil (Lexeme.text_ne_nil first others)
    have size := char.utf8Size_pos
    rw [next, moveTo, text]
    simp only [byteSize_append, byteSize]
    omega

/-- A zero that is passed over is in the token. -/
theorem next_passes (scanner : Scanner) :
    ∃ gone, scanner.rest = gone ++ scanner.next.2.rest ∧
      scanner.next.2.offset = scanner.offset + byteSize gone ∧
      ('\x00' ∈ gone → scanner.next.1 = ⟨.illegal, "\x00"⟩ ∨
        scanner.next.1.kind = .string ∧ '\x00' ∈ scanner.next.1.literal.toList) := by
  rcases scanner.next_cases with ⟨all, next⟩ | ⟨blanks, first, others, blank, noBlank, rest, next⟩
  · refine ⟨scanner.rest, by simp [next, moveTo], by rw [next, moveTo], fun zero => ?_⟩
    exact absurd (all _ zero) (by decide)
  · have valid : (Lexeme.first first others).Valid := Lexeme.first_valid noBlank
    refine ⟨blanks ++ (Lexeme.first first others).text, ?_, by rw [next, moveTo], fun zero => ?_⟩
    · rw [next, moveTo, List.append_assoc, Lexeme.text_append_rest, rest]
    · rcases List.mem_append.mp zero with zero | zero
      · exact absurd (blank _ zero) (by decide)
      · rw [next]
        exact valid.zero zero

/-- Each token takes at least one byte. -/
theorem length_tokens_le (scanner : Scanner) : scanner.tokens.length ≤ byteSize scanner.rest := by
  fun_induction Scanner.tokens scanner with
  | case1 scanner atEnd => exact Nat.zero_le _
  | case2 scanner more shorter inductionHypothesis =>
      obtain ⟨gone, rest, offset, _⟩ := scanner.next_passes
      have further := offset_lt_next (mt scanner.next_eof_iff.mp more)
      rw [rest, byteSize_append, List.length_cons]
      omega

end Scanner

namespace Cursor

variable {source : String}

/-- All bytes from the cursor on are blanks. -/
def OnlyBlanks (source : String) (cursor : Cursor) : Prop :=
  ∀ byte ∈ source.toByteArray.data.toList.drop cursor.position, Token.isBlank (Char.ofUInt8 byte)

/-- The call with this number, counted from zero, is made at the cursor and ends with the step. -/
structure Call (source : String) (count : Nat) (cursor : Cursor) (step : Step) : Prop where
  reached : Cursor.after source count = some cursor
  ends : cursor.next source = some step

/-- The items of an iteration from the cursor on, up to the first turn that gives out none. -/
inductive Collects (source : String) : Cursor → List Token → Prop
  | none {cursor after : Cursor} (ends : cursor.item source = some (.none, after)) :
      Collects source cursor []
  | some {cursor after : Cursor} {token : Token} {tokens : List Token}
      (ends : cursor.item source = some (.some token, after))
      (others : Collects source after tokens) : Collects source cursor (token :: tokens)

/-- A cursor collects one list of tokens. -/
theorem Collects.unique {cursor : Cursor} {first second : List Token}
    (collects : Collects source cursor first) (also : Collects source cursor second) :
    first = second := by
  induction collects generalizing second with
  | none ends =>
      cases also with
      | none _ => rfl
      | some other _ => simp [ends] at other
  | some ends _ inductionHypothesis =>
      cases also with
      | none other => simp [ends] at other
      | some other others =>
          obtain ⟨rfl, rfl⟩ : _ ∧ _ := by simpa [ends] using other
          rw [inductionHypothesis others]

/-- At the end the end is answered, and the cursor stays. -/
theorem next_of_end {cursor : Cursor} (atEnd : ¬ cursor.position < source.utf8ByteSize) :
    cursor.next source = some ⟨.eof, cursor, none⟩ := by
  rw [next, skipWhile_of_end atEnd]
  exact if_neg atEnd

namespace Follows

variable {scanner : Scanner} {cursor : Cursor} {step : Step}

/-- The bytes behind the cursor are those of what the scanner has left. -/
theorem drop_bytes (follows : Follows source scanner cursor) :
    source.toByteArray.data.toList.drop cursor.position = bytes scanner.rest := by
  obtain ⟨passed, whole, _, stands⟩ := follows
  rw [data_toByteArray]
  rcases stands with rfl | ⟨none, rfl⟩
  · exact Cursor.drop_bytes whole
  · rw [none, bytes_nil, List.drop_eq_nil_iff, length_bytes, whole, none, List.append_nil]
    exact Nat.le_succ _

/-- The cursor has blanks alone in front of it just when the scanner does. -/
theorem onlyBlanks_iff (follows : Follows source scanner cursor) :
    cursor.OnlyBlanks source ↔ scanner.rest.dropWhile Token.isBlank = [] := by
  rw [OnlyBlanks, follows.drop_bytes, asciiOnly_isBlank.forall_bytes, List.dropWhile_eq_nil_iff]

section

variable (follows : Follows source scanner cursor) (ends : cursor.next source = some step)
include follows ends

/-- A step answers the token of the scanner and goes along with it. -/
theorem of_next : step.token = scanner.next.1 ∧ Follows source scanner.next.2 step.after := by
  obtain ⟨found, finds, token, _, _, behind⟩ := follows.next
  obtain rfl : step = found := Option.some.inj (ends.symm.trans finds)
  exact ⟨token, behind⟩

/-- A step answers the end just when nothing but blanks is left. -/
theorem eof_iff : step.token.kind = .eof ↔ cursor.OnlyBlanks source := by
  rw [(follows.of_next ends).1, scanner.next_eof_iff, follows.onlyBlanks_iff]

/-- A step moves the cursor unless it answers the end. -/
theorem position_lt (more : step.token.kind ≠ .eof) : cursor.position < step.after.position := by
  obtain ⟨token, behind⟩ := follows.of_next ends
  rw [token] at more
  have further := Scanner.offset_lt_next more
  have here := follows.offset.2
  have there := behind.offset.2
  omega

/-- After the end the end is answered again, and nothing changes. -/
theorem next_again (atEnd : step.token.kind = .eof) :
    step.after.next source = some ⟨.eof, step.after, none⟩ := by
  obtain ⟨token, passed, whole, _, stands⟩ := follows.of_next ends
  rw [token] at atEnd
  rw [Scanner.next_rest_of_eof atEnd] at whole stands
  exact next_of_end (stands.at_end whole)

/-- A zero that stands where a token begins is a token. -/
theorem illegal_zero
    (zero : (source.toByteArray.data.toList.drop cursor.position).find?
      (fun byte => !Token.isBlank (Char.ofUInt8 byte)) = some 0) :
    step.token = ⟨.illegal, "\x00"⟩ := by
  rw [follows.drop_bytes] at zero
  have found := (asciiOnly_isBlank.comp not).find?_of_bytes (by decide) zero
  rw [(follows.of_next ends).1]
  rcases scanner.next_cases with ⟨all, _⟩ | ⟨blanks, first, others, blank, noBlank, rest, next⟩
  · have member := List.mem_of_find?_eq_some found
    exact absurd (all _ member) (by decide)
  · have none : blanks.find? (fun char => !Token.isBlank char) = none := by
      simpa [List.find?_eq_none] using blank
    rw [rest, List.find?_append, none, Option.none_or,
      List.find?_cons_of_pos (by simpa using noBlank)] at found
    obtain rfl := Option.some.inj found
    rw [next]
    rfl

/-- A zero byte is passed as an illegal token or within a text. -/
theorem passes_zero {place : Nat} (zero : source.toByteArray[place]? = some 0)
    (ahead : cursor.position ≤ place) (passed : place < step.after.position) :
    step.token = ⟨.illegal, "\x00"⟩ ∨
      step.token.kind = .string ∧ '\x00' ∈ step.token.literal.toList := by
  obtain ⟨token, behind⟩ := follows.of_next ends
  obtain ⟨gone, rest, offset, inToken⟩ := scanner.next_passes
  have here := follows.offset.2
  have there := behind.offset.2
  obtain ⟨before, whole, isOffset, _⟩ := follows
  rw [token]
  apply inToken
  rw [getElem?_toByteArray] at zero
  have inside : place < source.utf8ByteSize := by
    rw [utf8ByteSize_eq_length]
    exact (List.getElem?_eq_some_iff.mp zero).1
  -- The place lies in the bytes of what is passed over.
  rw [whole, rest, bytes_append, bytes_append, List.getElem?_append_right, length_bytes,
    List.getElem?_append_left] at zero
  · exact mem_of_mem_bytes (List.mem_of_getElem? zero) (by decide)
  · rw [length_bytes]
    omega
  · rw [length_bytes]
    omega

end

/-- The iterator gives the next token unless it is the end. -/
theorem item (follows : Follows source scanner cursor) :
    ∃ after, Follows source scanner.next.2 after ∧
      cursor.item source =
        some (if scanner.next.1.kind = .eof then none else some scanner.next.1, after) := by
  obtain ⟨step, ends, token, _, _, behind⟩ := follows.next
  refine ⟨step.after, behind, ?_⟩
  rw [Cursor.item, ends, ← token]
  rfl

/-- The cursor collects what the scanner has left. -/
theorem collects (follows : Follows source scanner cursor) :
    Collects source cursor scanner.tokens := by
  fun_induction Scanner.tokens scanner generalizing cursor with
  | case1 scanner atEnd =>
      obtain ⟨after, _, gives⟩ := follows.item
      rw [if_pos (scanner.next_eof_iff.mpr atEnd)] at gives
      exact .none gives
  | case2 scanner more shorter inductionHypothesis =>
      obtain ⟨after, behind, gives⟩ := follows.item
      rw [if_neg (mt scanner.next_eof_iff.mp more)] at gives
      exact .some gives (inductionHypothesis behind)

end Follows

/-- Every call is answered. -/
theorem exists_call (source : String) (count : Nat) :
    ∃ cursor step, Call source count cursor step := by
  obtain ⟨cursor, reached, follows⟩ := follows_after source count
  obtain ⟨step, ends, _⟩ := follows.next
  exact ⟨cursor, step, reached, ends⟩

namespace Call

variable {count : Nat} {cursor : Cursor} {step : Step}

/-- A call starts where the scanner has come to after as many tokens. -/
theorem follows (call : Call source count cursor step) :
    Follows source ((Scanner.ofString source).after count) cursor := by
  obtain ⟨found, reached, follows⟩ := follows_after source count
  obtain rfl : cursor = found := Option.some.inj (call.reached.symm.trans reached)
  exact follows

/-- After a call the cursor is where the next one starts. -/
theorem reached_next (call : Call source count cursor step) :
    Cursor.after source (count + 1) = some step.after := by
  rw [Cursor.after, call.reached]
  simp [call.ends]

/-- Behind the end of the text nothing changes any more. -/
theorem stays (call : Call source count cursor step) (atEnd : step.token.kind = .eof) {later : Nat}
    (isLater : count < later) : Call source later step.after ⟨.eof, step.after, none⟩ := by
  induction later, isLater using Nat.le_induction with
  | base => exact ⟨call.reached_next, call.follows.next_again call.ends atEnd⟩
  | succ later _ inductionHypothesis =>
      exact ⟨inductionHypothesis.reached_next, inductionHypothesis.ends⟩

/-- The calls answer the tokens of the source in order, and then the end. -/
theorem token_eq (call : Call source count cursor step) :
    step.token = (Token.list source).getD count .eof := by
  rw [(call.follows.of_next call.ends).1, Scanner.next_after]
  rfl

end Call

/-- A place that the cursor has left behind was passed by one of the calls. -/
theorem exists_call_at {count place : Nat} {cursor : Cursor}
    (reached : Cursor.after source count = some cursor) (passed : place < cursor.position) :
    ∃ earlier before step, Call source earlier before step ∧ before.position ≤ place ∧
      place < step.after.position := by
  induction count generalizing cursor with
  | zero =>
      obtain rfl : start source = cursor := Option.some.inj reached
      exact absurd passed (Nat.not_lt_zero _)
  | succ count inductionHypothesis =>
      obtain ⟨before, step, call⟩ := exists_call source count
      obtain rfl : step.after = cursor := Option.some.inj (call.reached_next.symm.trans reached)
      by_cases earlier : place < before.position
      · exact inductionHypothesis call.reached earlier
      · exact ⟨count, before, step, call, Nat.not_lt.mp earlier, passed⟩

/-- A zero does not end the text: it is reached, and what is read there is an illegal token or a
quoted text that the zero is a part of. -/
theorem exists_call_zero {place : Nat} (zero : source.toByteArray[place]? = some 0) :
    ∃ count cursor step, Call source count cursor step ∧ cursor.position ≤ place ∧
      place < step.after.position ∧ (step.token = ⟨.illegal, "\x00"⟩ ∨
        step.token.kind = .string ∧ '\x00' ∈ step.token.literal.toList) := by
  obtain ⟨last, step, call⟩ := exists_call source (Token.list source).length
  have atEnd : step.token.kind = .eof := by simp [call.token_eq, Token.eof]
  have blanks := (call.follows.eof_iff call.ends).mp atEnd
  have passed : place < last.position := by
    by_contra ahead
    have member : 0 ∈ source.toByteArray.data.toList.drop last.position := by
      rw [getElem?_toByteArray, ← data_toByteArray] at zero
      apply List.mem_of_getElem? (i := place - last.position)
      rw [List.getElem?_drop, Nat.add_sub_cancel' (Nat.not_lt.mp ahead), zero]
    exact absurd (blanks 0 member) (by decide)
  obtain ⟨count, cursor, found, earlier, ahead, behind⟩ := exists_call_at call.reached passed
  exact ⟨count, cursor, found, earlier, ahead, behind,
    earlier.follows.passes_zero earlier.ends zero ahead behind⟩

/-- From the start just the tokens of the source are collected. -/
theorem collects_start_iff (source : String) (items : List Token) :
    Collects source (start source) items ↔ items = Token.list source := by
  have collects : Collects source (start source) (Token.list source) :=
    (follows_start source).collects
  refine ⟨fun also => also.unique collects, ?_⟩
  rintro rfl
  exact collects

/-- The end is not among the tokens of a source. -/
theorem kind_ne_eof_of_mem_list {token : Token} (member : token ∈ Token.list source) :
    token.kind ≠ .eof := by
  obtain ⟨lead, pieces, cutting, tokens⟩ := (Scanner.ofString source).cutting
  have tokens : pieces.map Piece.token = Token.list source := tokens
  rw [← tokens] at member
  obtain ⟨piece, isPiece, rfl⟩ := List.mem_map.mp member
  exact (cutting.wellFormed piece isPiece).kind_ne_eof

/-- A source has no more tokens than bytes. -/
theorem length_list_le (source : String) : (Token.list source).length ≤ source.utf8ByteSize := by
  rw [utf8ByteSize_eq_byteSize]
  exact (Scanner.ofString source).length_tokens_le

/-- However many tokens have been read, one more can be. It is the end of the text just when all
bytes from the cursor on are blanks, and an illegal token where the first byte that is no blank is
zero; any token but the end leads the cursor forward, and behind the end nothing changes any more.
No zero byte is taken for the end: each one is passed by some call, as an illegal token or in a
quoted text. So the end comes after no more tokens than there are bytes, and
an iteration collects just the tokens before it. -/
theorem eof_only_at_end (source : String) :
    (∀ count, ∃ cursor step, Call source count cursor step) ∧
    (∀ count cursor step, Call source count cursor step →
      (step.token.kind = .eof ↔ cursor.OnlyBlanks source) ∧
      ((source.toByteArray.data.toList.drop cursor.position).find?
          (fun byte => !Token.isBlank (Char.ofUInt8 byte)) = some 0 →
        step.token = ⟨.illegal, "\x00"⟩) ∧
      (step.token.kind ≠ .eof → cursor.position < step.after.position) ∧
      (step.token.kind = .eof → ∀ later, count < later →
        Call source later step.after ⟨.eof, step.after, none⟩)) ∧
    (∀ place, source.toByteArray[place]? = some 0 →
      ∃ count cursor step, Call source count cursor step ∧ cursor.position ≤ place ∧
        place < step.after.position ∧ (step.token = ⟨.illegal, "\x00"⟩ ∨
          step.token.kind = .string ∧ '\x00' ∈ step.token.literal.toList)) ∧
    ∃ tokens : List Token, tokens.length ≤ source.utf8ByteSize ∧
      (∀ token ∈ tokens, token.kind ≠ .eof) ∧
      (∀ count cursor step, Call source count cursor step →
        step.token = tokens.getD count .eof) ∧
      ∀ items, Collects source (start source) items ↔ items = tokens := by
  refine ⟨exists_call source, ?_, fun _ zero => exists_call_zero zero, Token.list source,
    length_list_le source, fun _ member => kind_ne_eof_of_mem_list member,
    fun _ _ _ call => call.token_eq, collects_start_iff source⟩
  intro count cursor step call
  exact ⟨call.follows.eof_iff call.ends, call.follows.illegal_zero call.ends,
    call.follows.position_lt call.ends,
    fun atEnd _ isLater => call.stays atEnd isLater⟩

-- A zero ends a word but not the text.
example : Token.list "a\x00b" = [⟨.ident, "a"⟩, ⟨.illegal, "\x00"⟩, ⟨.ident, "b"⟩] := by cbv

end Cursor

end Monkey
