import Monkey.Proofs.Grammar.Completeness
import Monkey.Proofs.Token.Cutting
import Monkey.Reader.Bound

/-!
Whole programs: a text is read without an error exactly when the grammar derives its tokens, and
then the program that is read is the one that is derived.
-/

namespace Monkey

open Grammar

/-- The tokens of a text come before its end. -/
theorem Reader.proper_ofString (source : String) : (Reader.ofString source).Proper := by
  obtain ⟨lead, pieces, cutting, tokens⟩ := (Scanner.ofString source).cutting
  intro token member
  have listed : token ∈ pieces.map Piece.token := tokens ▸ member
  obtain ⟨piece, isPiece, rfl⟩ := List.mem_map.mp listed
  exact (cutting.wellFormed piece isPiece).kind_ne_eof

namespace Reader

variable {reader : Reader} {program : Monkey.Program Unit}

/-- A program that is read with no new error is derived. -/
theorem derives_program (proper : reader.Proper) (clean : reader.Clean reader.program.2) :
    Grammar.Program reader.program.1 reader.tokens := by
  have read := reader.program_eq
  obtain ⟨derives, atEnd⟩ := (Reading.sound_expression _).derives_statements _ _ read proper clean
  have reaches := Reading.forward_statements (Reading.forward_expression _) _ _ read
  have done : reader.program.2.tokens = [] :=
    (reaches.proper proper).tokens_eq_nil (List.mem_singleton.mp atEnd)
  rwa [done] at derives

/-- A program that is derived is read with no new error. -/
theorem program_of_derives (derives : Grammar.Program program reader.tokens) :
    reader.program.1 = program ∧ reader.program.2.errors = reader.errors := by
  obtain ⟨reached, read, _, errors⟩ := Reading.accepts_of_derives derives [.eof]
    (reader.tokens.length + 1) (reader.tokens.length + 1) reader (by simp)
    (List.mem_singleton.mpr rfl) rfl (Nat.lt_succ_self _) (Nat.lt_succ_self _)
  rw [reader.program_eq] at read
  obtain ⟨statements, rfl⟩ : reader.program.1.statements = program.statements ∧
      reader.program.2 = reached := by simpa using read
  exact ⟨congrArg Program.mk statements, errors⟩

end Reader

/-- A program is read by a reader that stands in front of all tokens. -/
theorem Program.read_eq (source : String) :
    Program.read source = ((Reader.ofString source).program.1,
      (Reader.ofString source).program.2.errors.toList) := rfl

/-- The programs of the grammar are read, and nothing else is read without an error. -/
theorem Program.read_eq_iff (source : String) (program : Monkey.Program Unit) :
    Program.read source = (program, []) ↔ Grammar.Program program (Token.list source) := by
  rw [Program.read_eq, Prod.mk.injEq]
  constructor
  · rintro ⟨rfl, errors⟩
    have clean : (Reader.ofString source).Clean (Reader.ofString source).program.2 := by
      rw [Reader.Clean, ← Array.length_toList, errors]
      exact Nat.zero_le _
    exact Reader.derives_program (Reader.proper_ofString source) clean
  · intro derives
    have derived : Grammar.Program program (Reader.ofString source).tokens := derives
    obtain ⟨same, errors⟩ := Reader.program_of_derives derived
    exact ⟨same, congrArg Array.toList errors⟩

end Monkey
