import Mathlib

/-!
# C strings

A string stands for a sequence of C characters, one `Char` a character, so that its
length is what `strlen` returns.  A C string has no NUL inside; a JSON string may
have one.

The checks below are the ones the records of the runtime share: bounded text,
identifiers over `[A-Za-z0-9_-]`, and zero-padded counters in record keys.
-/

namespace TurboAgent

/-- No NUL inside: the text can be read back as a C string of the same length. -/
def noNul (text : String) : Bool :=
  !text.toList.contains '\x00'

theorem noNul_empty : noNul "" = true := by decide

theorem noNul_append {left right : String} (leftPlain : noNul left = true)
    (rightPlain : noNul right = true) : noNul (left ++ right) = true := by
  simp only [noNul, String.toList_append, Bool.not_eq_true', List.contains_eq_mem,
    decide_eq_false_iff_not, List.mem_append, not_or] at leftPlain rightPlain ⊢
  exact ⟨leftPlain, rightPlain⟩

theorem charOf_toNat (byte : UInt8) : (Char.ofNat byte.toNat).toNat = byte.toNat := by
  have small := byte.toNat_lt
  have valid : byte.toNat.isValidChar := .inl (by omega)
  rw [Char.ofNat, dif_pos valid]
  rfl

theorem charOf_injective : Function.Injective fun byte : UInt8 => Char.ofNat byte.toNat := by
  intro left right same
  have codes := congrArg Char.toNat same
  dsimp only at codes
  rw [charOf_toNat, charOf_toNat] at codes
  exact UInt8.toNat_inj.mp codes

abbrev CString := { text : String // noNul text = true }

instance CString.lawfulBEq : LawfulBEq CString := inferInstance

/-- Non-empty C string of at most `max` characters. -/
def textValid (text : String) (max : Nat) : Bool :=
  !text.isEmpty && noNul text && text.length ≤ max

def isIdChar (ch : Char) : Bool :=
  ('a' ≤ ch && ch ≤ 'z') || ('A' ≤ ch && ch ≤ 'Z') ||
    ('0' ≤ ch && ch ≤ '9') || ch = '_' || ch = '-'

/-- Non-empty identifier of at most `max` characters. -/
def idValid (text : String) (max : Nat) : Bool :=
  !text.isEmpty && text.length ≤ max && text.toList.all isIdChar

variable {text : String}

theorem noNul_of_idChars (chars : text.toList.all isIdChar = true) : noNul text = true := by
  simp only [noNul, Bool.not_eq_true', List.contains_eq_mem, decide_eq_false_iff_not]
  intro member
  have isId := List.all_eq_true.mp chars '\x00' member
  exact absurd isId (by decide)

variable {max : Nat}

theorem idValid_iff :
    idValid text max = true ↔
      text ≠ "" ∧ text.length ≤ max ∧ text.toList.all isIdChar = true := by
  simp [idValid, and_assoc]

theorem textValid_iff :
    textValid text max = true ↔
      text ≠ "" ∧ noNul text = true ∧ text.length ≤ max := by
  simp [textValid, and_assoc]

theorem textValid_of_idValid (valid : idValid text max = true) : textValid text max = true := by
  obtain ⟨nonempty, bounded, chars⟩ := idValid_iff.mp valid
  exact textValid_iff.mpr ⟨nonempty, noNul_of_idChars chars, bounded⟩

end TurboAgent
