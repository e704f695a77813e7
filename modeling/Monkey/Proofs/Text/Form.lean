import Monkey.Proofs.Grammar.Rendering
import Monkey.Text.Quoted

/-!
Debugging texts can be read in one way only. Such a text is built of words and quoted texts by
putting them into parentheses, brackets and records. Where one of these texts ends can be seen from
the text itself, because a quote that is meant as a character is escaped, a word ends before any
character that is not in words, and brackets close what they have opened.
-/

namespace Monkey.Text

variable {left right rest other : List Char}

/-- A run of characters of one sort ends before the first character of another sort. -/
theorem run_append_inj {inside : Char → Prop} (leftInside : ∀ char ∈ left, inside char)
    (rightInside : ∀ char ∈ right, inside char) (ends : ∀ char ∈ rest.head?, ¬ inside char)
    (otherEnds : ∀ char ∈ other.head?, ¬ inside char) (same : left ++ rest = right ++ other) :
    left = right ∧ rest = other := by
  induction left generalizing right with
  | nil =>
      cases right with
      | nil => exact ⟨rfl, same⟩
      | cons char chars =>
          have head : char ∈ rest.head? := by
            rw [List.nil_append] at same
            rw [same]
            rfl
          exact absurd (rightInside char List.mem_cons_self) (ends char head)
  | cons char chars inductionHypothesis =>
      cases right with
      | nil =>
          have head : char ∈ other.head? := by
            rw [List.nil_append] at same
            rw [← same]
            rfl
          exact absurd (leftInside char List.mem_cons_self) (otherEnds char head)
      | cons otherChar otherChars =>
          obtain ⟨rfl, sameChars⟩ := List.cons.inj same
          obtain ⟨rfl, sameRest⟩ := inductionHypothesis
            (fun char member => leftInside char (List.mem_cons_of_mem _ member))
            (fun char member => rightInside char (List.mem_cons_of_mem _ member)) sameChars
          exact ⟨rfl, sameRest⟩

/-! Quoted texts -/

/-- The characters that have an escape of their own, with the letter of the escape. -/
def letters : List (Char × Char) :=
  [('"', '"'), ('\\', '\\'), ('\n', 'n'), ('\r', 'r'), ('\t', 't'), ('\x00', '0')]

/-- A character stands for itself, or it is escaped by a letter or by its code point. -/
inductive Escaped (char : Char) : List Char → Prop where
  | letter {letter : Char} (listed : (char, letter) ∈ letters) : Escaped char ['\\', letter]
  | codePoint : Escaped char (codePoint char)
  | plain (noQuote : char ≠ '"') (noBackslash : char ≠ '\\') : Escaped char [char]

/-- Every character is escaped in one of the ways there are. -/
theorem escaped (char : Char) : Escaped char (escape char) := by
  by_cases isListed : ∃ letter, (char, letter) ∈ letters
  · obtain ⟨letter, listed⟩ := isListed
    have escapes : escape char = ['\\', letter] := by
      simp only [letters, List.mem_cons, Prod.mk.injEq, List.not_mem_nil, or_false] at listed
      rcases listed with ⟨rfl, rfl⟩ | ⟨rfl, rfl⟩ | ⟨rfl, rfl⟩ | ⟨rfl, rfl⟩ | ⟨rfl, rfl⟩ | ⟨rfl, rfl⟩
      all_goals rfl
    exact escapes ▸ .letter listed
  · have unlisted : ∀ item ∈ letters, char ≠ item.1 := by
      rintro ⟨_, letter⟩ listed rfl
      exact isListed ⟨letter, listed⟩
    simp only [letters, List.forall_mem_cons] at unlisted
    obtain ⟨noQuote, noBackslash, noFeed, noReturn, noTab, noZero, _⟩ := unlisted
    rw [escape, if_neg noQuote, if_neg noBackslash, if_neg noFeed, if_neg noReturn, if_neg noTab,
      if_neg noZero]
    split
    · exact .codePoint
    · exact .plain noQuote noBackslash

/-- Hexadecimal digits tell numbers apart. -/
theorem hexadecimal_inj {number another : Nat}
    (same : Nat.toDigits 16 number = Nat.toDigits 16 another) : number = another := by
  have digits : ∀ first < 16, ∀ second < 16,
      Nat.digitChar first = Nat.digitChar second → first = second := by decide
  induction number using Nat.strongRecOn generalizing another with
  | ind number inductionHypothesis =>
      rw [Nat.toDigits_eq_if (by decide), Nat.toDigits_eq_if (n := another) (by decide)] at same
      split at same <;> split at same
      · next small smallToo =>
          exact digits number small another smallToo (List.singleton_inj.mp same)
      · next small large =>
          have length := congrArg List.length same
          have positive := Nat.length_toDigits_pos (b := 16) (n := another / 16)
          simp only [List.length_append, List.length_singleton] at length
          omega
      · next large small =>
          have length := congrArg List.length same
          have positive := Nat.length_toDigits_pos (b := 16) (n := number / 16)
          simp only [List.length_append, List.length_singleton] at length
          omega
      · obtain ⟨sameFront, sameLast⟩ := List.append_inj' same rfl
        have front := inductionHypothesis (number / 16) (by omega) sameFront
        have last := digits (number % 16) (by omega) (another % 16) (by omega)
          (List.singleton_inj.mp sameLast)
        omega

/-- No brace is among hexadecimal digits. -/
theorem brace_notMem_hexadecimal (number : Nat) : '\x7d' ∉ Nat.toDigits 16 number := by
  have noDigit (digit : Nat) : '\x7d' ≠ Nat.digitChar digit :=
    (Nat.digitChar_ne '\x7d' (by decide)).symm
  induction number using Nat.strongRecOn with
  | ind number inductionHypothesis =>
      rw [Nat.toDigits_eq_if (by decide)]
      split
      · simp [noDigit]
      · have front := inductionHypothesis (number / 16) (by omega)
        simp [noDigit, front]

/-- A character can be read off its number in braces. -/
theorem codePoint_append_inj {char another : Char}
    (same : codePoint char ++ rest = codePoint another ++ other) :
    char = another ∧ rest = other := by
  simp only [codePoint, List.append_assoc, List.cons_append, List.nil_append, List.cons.injEq,
    true_and] at same
  have noBrace (number : Nat) : ∀ digit ∈ Nat.toDigits 16 number, digit ≠ '\x7d' := by
    rintro _ member rfl
    exact brace_notMem_hexadecimal number member
  obtain ⟨sameDigits, sameRest⟩ := run_append_inj (noBrace _) (noBrace _) (by simp) (by simp) same
  exact ⟨Char.toNat_inj.mp (hexadecimal_inj sameDigits), (List.cons.inj sameRest).2⟩

/-- A character can be read off the way in which it is escaped. -/
theorem escape_append_inj {char another : Char}
    (same : escape char ++ rest = escape another ++ other) : char = another ∧ rest = other := by
  have unique : ∀ first ∈ letters, ∀ second ∈ letters, first.2 = second.2 → first = second := by
    decide
  have noCodePoint : ∀ item ∈ letters, item.2 ≠ 'u' := by decide
  have isEscaped := escaped char
  have isEscapedToo := escaped another
  generalize escape char = chars at same isEscaped
  generalize escape another = otherChars at same isEscapedToo
  cases isEscaped with
  | @letter letter listed =>
      cases isEscapedToo with
      | @letter otherLetter listedToo =>
          obtain ⟨sameLetter, sameRest⟩ := List.cons.inj (List.cons.inj same).2
          cases unique _ listed _ listedToo sameLetter
          exact ⟨rfl, sameRest⟩
      | codePoint => exact absurd (List.cons.inj (List.cons.inj same).2).1 (noCodePoint _ listed)
      | plain noQuote noBackslash => exact absurd (List.cons.inj same).1.symm noBackslash
  | codePoint =>
      cases isEscapedToo with
      | letter listedToo =>
          exact absurd (List.cons.inj (List.cons.inj same).2).1.symm (noCodePoint _ listedToo)
      | codePoint => exact codePoint_append_inj same
      | plain noQuote noBackslash => exact absurd (List.cons.inj same).1.symm noBackslash
  | plain noQuote noBackslash =>
      cases isEscapedToo with
      | letter listedToo => exact absurd (List.cons.inj same).1 noBackslash
      | codePoint => exact absurd (List.cons.inj same).1 noBackslash
      | plain noQuoteToo noBackslashToo => exact List.cons.inj same

/-- No escape begins with the quote that ends a quoted text. -/
theorem escape_ne_quote (char : Char) : escape char ++ rest ≠ '"' :: other := by
  have isEscaped := escaped char
  generalize escape char = chars at isEscaped
  intro same
  cases isEscaped with
  | letter listed => exact absurd (List.cons.inj same).1 (by decide)
  | codePoint => exact absurd (List.cons.inj same).1 (by decide)
  | plain noQuote noBackslash => exact noQuote (List.cons.inj same).1

/-- Escaped characters can be read off up to the closing quote. -/
theorem escapes_append_inj
    (same : left.flatMap escape ++ '"' :: rest = right.flatMap escape ++ '"' :: other) :
    left = right ∧ rest = other := by
  induction left generalizing right with
  | nil =>
      cases right with
      | nil => exact ⟨rfl, (List.cons.inj same).2⟩
      | cons char chars =>
          rw [List.flatMap_cons, List.append_assoc] at same
          exact absurd same.symm (escape_ne_quote char)
  | cons char chars inductionHypothesis =>
      cases right with
      | nil =>
          rw [List.flatMap_cons, List.append_assoc] at same
          exact absurd same (escape_ne_quote char)
      | cons another others =>
          rw [List.flatMap_cons, List.flatMap_cons, List.append_assoc, List.append_assoc] at same
          obtain ⟨rfl, sameChars⟩ := escape_append_inj same
          obtain ⟨rfl, sameRest⟩ := inductionHypothesis sameChars
          exact ⟨rfl, sameRest⟩

/-- A quoted text is its escaped characters between quotes. -/
theorem toList_quoted (text : String) (rest : List Char) :
    (quoted text).toList ++ rest = '"' :: (text.toList.flatMap escape ++ '"' :: rest) := by
  simp [quoted]

/-! Items in a row -/

/-- What can stand behind a text that is complete: nothing, a comma, or what closes the text around
it. -/
def closes : List Char → Bool
  | [] => true
  | ' ' :: '\x7d' :: _ => true
  | char :: _ => char == ',' || char == ')' || char == ']'

section

variable {Item : Type} {write : Item → String} {item : Item} {items others : List Item}

/-- No other item has a text that begins in the same way and is complete too. -/
def Readable (write : Item → String) (item : Item) : Prop :=
  ∀ ⦃another : Item⦄ ⦃rest other : List Char⦄, closes rest → closes other →
    (write item).toList ++ rest = (write another).toList ++ other → item = another ∧ rest = other

/-- What stands behind the last one of some items. -/
structure Closing (write : Item → String) (rest : List Char) : Prop where
  closes : closes rest
  noComma : ∀ more, rest ≠ ',' :: more
  noItem : ∀ item more, rest ≠ (write item).toList ++ more

/-- Behind an item there is a comma, or what closes all items. -/
theorem closes_separated (items : List String) (stops : closes rest) :
    closes (Expr.separated items ++ rest) := by
  cases items with
  | nil => exact stops
  | cons first others => rfl

/-- Items behind the first one, each behind a comma. -/
theorem separated_append_inj (each : ∀ item ∈ items, Readable write item)
    (closing : Closing write rest) (closingToo : Closing write other)
    (same : Expr.separated (items.map write) ++ rest = Expr.separated (others.map write) ++ other) :
    items = others ∧ rest = other := by
  induction items generalizing others with
  | nil =>
      cases others with
      | nil => exact ⟨rfl, same⟩
      | cons another others => exact absurd same (closing.noComma _)
  | cons item items inductionHypothesis =>
      cases others with
      | nil => exact absurd same.symm (closingToo.noComma _)
      | cons another others =>
          rw [List.forall_mem_cons] at each
          simp only [Expr.separated, List.map_cons, List.flatMap_cons, List.cons_append,
            List.append_assoc, List.cons.injEq, true_and] at same
          obtain ⟨rfl, sameBehind⟩ := each.1 (closes_separated _ closing.closes)
            (closes_separated _ closingToo.closes) same
          obtain ⟨rfl, sameRest⟩ := inductionHypothesis each.2 sameBehind
          exact ⟨rfl, sameRest⟩

/-- Items can be read off a text when each of them can be and the text closes them. -/
theorem commaSeparated_append_inj (each : ∀ item ∈ items, Readable write item)
    (closing : Closing write rest) (closingToo : Closing write other)
    (same : (commaSeparated (items.map write)).toList ++ rest =
      (commaSeparated (others.map write)).toList ++ other) :
    items = others ∧ rest = other := by
  cases items with
  | nil =>
      cases others with
      | nil => exact ⟨rfl, same⟩
      | cons another others =>
          rw [List.map_cons, Expr.toList_commaSeparated, List.append_assoc] at same
          exact absurd same (closing.noItem another _)
  | cons item items =>
      cases others with
      | nil =>
          rw [List.map_cons, Expr.toList_commaSeparated, List.append_assoc] at same
          exact absurd same.symm (closingToo.noItem item _)
      | cons another others =>
          rw [List.forall_mem_cons] at each
          rw [List.map_cons, List.map_cons, Expr.toList_commaSeparated,
            Expr.toList_commaSeparated, List.append_assoc, List.append_assoc] at same
          obtain ⟨rfl, sameBehind⟩ := each.1 (closes_separated _ closing.closes)
            (closes_separated _ closingToo.closes) same
          obtain ⟨rfl, sameRest⟩ := separated_append_inj each.2 closing closingToo sameBehind
          exact ⟨rfl, sameRest⟩

end

/-! Forms -/

/-- Words are made of letters, digits and the minus sign. -/
def inWords (char : Char) : Bool :=
  char.isAlphanum || char == '-'

/-- A text of word characters, one at least. -/
@[ext] structure Word where
  text : String
  nonempty : text.toList ≠ [] := by decide
  plain : text.toList.all inWords := by decide

/-- A form without parts. -/
inductive Leaf where
  | word (name : Word)
  | quoted (content : String)

/-- A word is written as it is, a text in quotes. -/
def Leaf.text : Leaf → String
  | .word name => name.text
  | .quoted content => Text.quoted content

/-- A leaf under a name. -/
structure Field where
  name : Word
  value : Leaf

/-- A field is written with a colon. -/
def Field.text (field : Field) : String :=
  field.name.text ++ ": " ++ field.value.text

/-- How a debugging text is put together: of a leaf, of a form in parentheses behind a name, of
forms in brackets, or of fields in braces behind a name. -/
inductive Form where
  | leaf (content : Leaf)
  | wrapped (name : Word) (inner : Form)
  | listed (items : List Form)
  | record (name : Word) (fields : List Field)

mutual

/-- The text of a form. -/
def Form.text : Form → String
  | .leaf content => content.text
  | .wrapped name inner => name.text ++ "(" ++ inner.text ++ ")"
  | .listed items => "[" ++ commaSeparated (Form.textEach items) ++ "]"
  | .record name fields =>
      name.text ++ " \x7b " ++ commaSeparated (fields.map Field.text) ++ " \x7d"

def Form.textEach : List Form → List String
  | [] => []
  | first :: others => first.text :: Form.textEach others

end

/-- Forms are written one by one. -/
theorem Form.textEach_eq_map (items : List Form) : textEach items = items.map text := by
  induction items with
  | nil => rfl
  | cons first others inductionHypothesis => rw [textEach, inductionHypothesis, List.map_cons]

/-- What closes a form does not go on with a word. -/
theorem not_inWords_of_closes (stops : closes rest) : ∀ char ∈ rest.head?, ¬ inWords char := by
  intro char head
  cases rest with
  | nil => cases head
  | cons first others =>
      cases head
      unfold closes at stops
      split at stops
      · cases ‹_ = []›
      · cases ‹_ :: _ = _›
        decide
      · cases ‹_ :: _ = _›
        simp only [Bool.or_eq_true, beq_iff_eq] at stops
        rcases stops with (rfl | rfl) | rfl
        all_goals decide

/-- A word has word characters alone. -/
theorem Word.all_inWords (word : Word) : ∀ char ∈ word.text.toList, inWords char :=
  List.all_eq_true.mp word.plain

/-- A word can be read off up to the first character that is not in words. -/
theorem Word.append_inj {word another : Word} (ends : ∀ char ∈ rest.head?, ¬ inWords char)
    (otherEnds : ∀ char ∈ other.head?, ¬ inWords char)
    (same : word.text.toList ++ rest = another.text.toList ++ other) :
    word = another ∧ rest = other := by
  obtain ⟨sameText, sameRest⟩ := run_append_inj word.all_inWords another.all_inWords ends
    otherEnds same
  exact ⟨Word.ext (String.toList_inj.mp sameText), sameRest⟩

/-- A word does not begin with a character that is not in words. -/
theorem Word.append_ne (word : Word) {char : Char} (outside : ¬ inWords char) :
    char :: rest ≠ word.text.toList ++ other := by
  intro same
  match isText : word.text.toList with
  | [] => exact word.nonempty isText
  | first :: others =>
      rw [isText] at same
      obtain ⟨rfl, _⟩ := List.cons.inj same
      exact outside (word.all_inWords char (by simp [isText]))

namespace Leaf

/-- The word that the leaf begins with. -/
def front : Leaf → List Char
  | .word name => name.text.toList
  | .quoted _ => []

/-- What stands behind that word. -/
def behind (rest : List Char) : Leaf → List Char
  | .word _ => rest
  | .quoted content => '"' :: (content.toList.flatMap escape ++ '"' :: rest)

/-- A leaf is written with its front and what is behind that. -/
theorem toList_text (leaf : Leaf) (rest : List Char) :
    leaf.text.toList ++ rest = leaf.front ++ leaf.behind rest := by
  cases leaf with
  | word name => rfl
  | quoted content => exact toList_quoted content rest

/-- The front of a leaf is a word or nothing. -/
theorem inWords_front (leaf : Leaf) : ∀ char ∈ leaf.front, inWords char := by
  cases leaf with
  | word name => exact name.all_inWords
  | quoted content => simp [front]

/-- Behind its front a leaf does not go on with a word. -/
theorem not_inWords_behind (leaf : Leaf) (stops : closes rest) :
    ∀ char ∈ (leaf.behind rest).head?, ¬ inWords char := by
  cases leaf with
  | word name => exact not_inWords_of_closes stops
  | quoted content =>
      rintro char ⟨⟩
      decide

/-- No leaf stands before a delimiter that opens. -/
theorem behind_ne (leaf : Leaf) (stops : closes rest) (opens : closes other = false)
    (noQuote : other.head? ≠ some '"') : leaf.behind rest ≠ other := by
  rintro rfl
  cases leaf with
  | word name => exact absurd stops (by rw [show closes rest = false from opens]; decide)
  | quoted content => exact noQuote rfl

/-- A leaf can be read off its text. -/
theorem readable (leaf : Leaf) : Readable Leaf.text leaf := by
  intro another rest other stops stopsToo same
  rw [toList_text, toList_text] at same
  obtain ⟨sameFront, sameBehind⟩ := run_append_inj leaf.inWords_front another.inWords_front
    (leaf.not_inWords_behind stops) (another.not_inWords_behind stopsToo) same
  cases leaf with
  | word name =>
      cases another with
      | word anotherName =>
          exact ⟨congrArg word (Word.ext (String.toList_inj.mp sameFront)), sameBehind⟩
      | quoted content => exact absurd sameFront name.nonempty
  | quoted content =>
      cases another with
      | word anotherName => exact absurd sameFront.symm anotherName.nonempty
      | quoted anotherContent =>
          obtain ⟨sameContent, sameRest⟩ := escapes_append_inj (List.cons.inj sameBehind).2
          exact ⟨congrArg quoted (String.toList_inj.mp sameContent), sameRest⟩

end Leaf

namespace Field

/-- A field is written with its name in front of its value. -/
theorem toList_text (field : Field) (rest : List Char) :
    field.text.toList ++ rest =
      field.name.text.toList ++ ':' :: ' ' :: (field.value.text.toList ++ rest) := by
  simp [Field.text]

/-- A field can be read off its text. -/
theorem readable (field : Field) : Readable Field.text field := by
  intro another rest other stops stopsToo same
  rw [toList_text, toList_text] at same
  have ends (more : List Char) : ∀ char ∈ (':' :: more).head?, ¬ inWords char := by
    rintro char ⟨⟩
    decide
  obtain ⟨sameName, sameBehind⟩ := Word.append_inj (ends _) (ends _) same
  obtain ⟨sameValue, sameRest⟩ := field.value.readable stops stopsToo
    (List.cons.inj (List.cons.inj sameBehind).2).2
  cases field
  cases another
  cases sameName
  cases sameValue
  exact ⟨rfl, sameRest⟩

/-- A brace closes the fields of a record. -/
theorem closing (rest : List Char) : Closing Field.text (' ' :: '\x7d' :: rest) where
  closes := rfl
  noComma := by simp
  noItem field more := by
    rw [toList_text]
    exact field.name.append_ne (by decide)

end Field

namespace Form

/-- The word that the form begins with. -/
def front : Form → List Char
  | .leaf content => content.front
  | .wrapped name _ => name.text.toList
  | .listed _ => []
  | .record name _ => name.text.toList

/-- What stands behind that word. -/
def behind (rest : List Char) : Form → List Char
  | .leaf content => content.behind rest
  | .wrapped _ inner => '(' :: (inner.text.toList ++ ')' :: rest)
  | .listed items => '[' :: ((commaSeparated (items.map text)).toList ++ ']' :: rest)
  | .record _ fields =>
      ' ' :: '\x7b' :: ' ' ::
        ((commaSeparated (fields.map Field.text)).toList ++ ' ' :: '\x7d' :: rest)

/-- A form is written with its front and what is behind that. -/
theorem toList_text (form : Form) (rest : List Char) :
    form.text.toList ++ rest = form.front ++ form.behind rest := by
  cases form with
  | leaf content => exact content.toList_text rest
  | wrapped name inner => simp [text, front, behind]
  | listed items => simp [text, front, behind, textEach_eq_map]
  | record name fields => simp [text, front, behind]

/-- The front of a form is a word or nothing. -/
theorem inWords_front (form : Form) : ∀ char ∈ form.front, inWords char := by
  cases form with
  | leaf content => exact content.inWords_front
  | wrapped name inner => exact name.all_inWords
  | listed items => simp [front]
  | record name fields => exact name.all_inWords

/-- Behind its front a form does not go on with a word. -/
theorem not_inWords_behind (form : Form) (stops : closes rest) :
    ∀ char ∈ (form.behind rest).head?, ¬ inWords char := by
  cases form with
  | leaf content => exact content.not_inWords_behind stops
  | wrapped | listed | record =>
      rintro char ⟨⟩
      decide

/-- A bracket closes the items of a list. -/
theorem closing (rest : List Char) : Closing Form.text (']' :: rest) where
  closes := rfl
  noComma := by simp
  noItem form more := by
    rw [toList_text]
    cases form with
    | leaf content =>
        cases content with
        | word name => exact name.append_ne (by decide)
        | quoted content => simp [front, behind, Leaf.front, Leaf.behind]
    | wrapped name inner => exact name.append_ne (by decide)
    | listed items => simp [front, behind]
    | record name fields => exact name.append_ne (by decide)

mutual

/-- A debugging text can be read in one way only, whatever stands behind it. -/
theorem readable (form : Form) : Readable Form.text form := by
  intro another rest other stops stopsToo sameText
  have same := sameText
  rw [toList_text, toList_text] at same
  -- The word in front is the same, and what stands behind it shows how the form goes on.
  obtain ⟨sameFront, sameBehind⟩ := run_append_inj form.inWords_front another.inWords_front
    (form.not_inWords_behind stops) (another.not_inWords_behind stopsToo) same
  match form with
  | .leaf content =>
      cases another with
      | leaf anotherContent =>
          obtain ⟨rfl, sameRest⟩ := content.readable stops stopsToo sameText
          exact ⟨rfl, sameRest⟩
      | wrapped | listed | record =>
          exact absurd sameBehind (content.behind_ne stops rfl (by simp [behind]))
  | .wrapped name inner =>
      cases another with
      | leaf content =>
          exact absurd sameBehind.symm (content.behind_ne stopsToo rfl (by simp [behind]))
      | wrapped anotherName anotherInner =>
          obtain ⟨rfl, sameRest⟩ := readable inner rfl rfl (List.cons.inj sameBehind).2
          obtain rfl : name = anotherName := Word.ext (String.toList_inj.mp sameFront)
          exact ⟨rfl, (List.cons.inj sameRest).2⟩
      | listed | record => simp [behind] at sameBehind
  | .listed items =>
      cases another with
      | leaf content =>
          exact absurd sameBehind.symm (content.behind_ne stopsToo rfl (by simp [behind]))
      | listed anotherItems =>
          obtain ⟨rfl, sameRest⟩ := commaSeparated_append_inj (readableEach items) (closing rest)
            (closing other) (List.cons.inj sameBehind).2
          exact ⟨rfl, (List.cons.inj sameRest).2⟩
      | wrapped | record => simp [behind] at sameBehind
  | .record name fields =>
      cases another with
      | leaf content =>
          exact absurd sameBehind.symm (content.behind_ne stopsToo rfl (by simp [behind]))
      | record anotherName anotherFields =>
          simp only [behind, List.cons.injEq, true_and] at sameBehind
          obtain ⟨rfl, sameRest⟩ := commaSeparated_append_inj (fun field _ => field.readable)
            (Field.closing rest) (Field.closing other) sameBehind
          obtain rfl : name = anotherName := Word.ext (String.toList_inj.mp sameFront)
          exact ⟨rfl, (List.cons.inj (List.cons.inj sameRest).2).2⟩
      | wrapped | listed => simp [behind] at sameBehind

/-- Each of several forms can be read off its text. -/
theorem readableEach (items : List Form) : ∀ item ∈ items, Readable Form.text item := by
  match items with
  | [] => simp
  | first :: others =>
      rw [List.forall_mem_cons]
      exact ⟨readable first, readableEach others⟩

end

/-- Forms are told apart by their texts. -/
theorem text_inj {form another : Form} (same : form.text = another.text) : form = another := by
  have sameChars : form.text.toList ++ [] = another.text.toList ++ [] := by rw [same]
  exact (form.readable rfl rfl sameChars).1

end Form

end Monkey.Text
