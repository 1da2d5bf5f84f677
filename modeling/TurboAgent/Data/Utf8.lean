import Mathlib

/-!
# UTF-8

The bytes of a text.  No character begins inside another, so that a text whose bytes begin with
those of a second text begins with the second text.
-/

namespace TurboAgent

def utf8 (text : String) : List UInt8 :=
  text.toList.flatMap String.utf8EncodeChar

theorem utf8_toByteArray (text : String) : (utf8 text).toByteArray = text.toList.utf8Encode :=
  rfl

theorem toList_prefix_of_utf8 {start text : String} {rest : List UInt8}
    (bytes : utf8 text = utf8 start ++ rest) : start.toList <+: text.toList := by
  apply List.isPrefix_of_utf8Encode_append_eq_utf8Encode rest.toByteArray
  rw [← utf8_toByteArray, ← utf8_toByteArray, bytes, List.toByteArray_append]

theorem utf8_injective : Function.Injective utf8 := by
  intro left right same
  have forth : left.toList <+: right.toList :=
    toList_prefix_of_utf8 (same.symm.trans (List.append_nil _).symm)
  have back : right.toList <+: left.toList :=
    toList_prefix_of_utf8 (same.trans (List.append_nil _).symm)
  exact String.toList_inj.mp (forth.eq_of_length_le back.length_le)

/-! ## Lead and continuation bytes -/

def LeadByte (byte : UInt8) : Prop := byte &&& 0xc0 ≠ 0x80 ∧ byte ≠ 0xff

def ContinuationByte (byte : UInt8) : Prop := byte &&& 0xc0 = 0x80 ∧ byte ≠ 0 ∧ byte ≠ 0xff

instance : DecidablePred LeadByte := fun byte =>
  inferInstanceAs (Decidable (byte &&& 0xc0 ≠ 0x80 ∧ byte ≠ 0xff))

instance : DecidablePred ContinuationByte := fun byte =>
  inferInstanceAs (Decidable (byte &&& 0xc0 = 0x80 ∧ byte ≠ 0 ∧ byte ≠ 0xff))

theorem byte_shapes : ∀ byte : UInt8,
    (byte ≤ 127 → LeadByte byte) ∧ ContinuationByte (byte &&& 63 ||| 128) ∧
    (LeadByte (byte &&& 31 ||| 192) ∧ (byte &&& 31 ||| 192) ≠ 0) ∧
    (LeadByte (byte &&& 15 ||| 224) ∧ (byte &&& 15 ||| 224) ≠ 0) ∧
    (LeadByte (byte &&& 7 ||| 240) ∧ (byte &&& 7 ||| 240) ≠ 0) := by
  decide +kernel

/-- The bytes of a character are a lead byte, which is zero for NUL only, and continuation
bytes. -/
theorem utf8EncodeChar_bytes (ch : Char) :
    ∃ lead rest, String.utf8EncodeChar ch = lead :: rest ∧ LeadByte lead ∧
      (lead = 0 → ch = '\x00') ∧ ∀ byte ∈ rest, ContinuationByte byte := by
  have small := Char.utf8Size_le_four ch
  have positive := Char.utf8Size_pos ch
  have continuation := fun byte => (byte_shapes byte).2.1
  interval_cases size : ch.utf8Size
  · rw [String.utf8EncodeChar_eq_singleton size]
    have bound : ch.val.toNat ≤ 127 := Char.utf8Size_eq_one_iff.mp size
    have low : ch.val.toUInt8 ≤ 127 := by
      rw [UInt8.le_iff_toNat_le, UInt32.toNat_toUInt8]
      exact Nat.le_trans (Nat.mod_le _ _) bound
    refine ⟨_, [], rfl, (byte_shapes _).1 low, ?_, List.forall_mem_nil _⟩
    intro zero
    have value := congrArg UInt8.toNat zero
    rw [UInt32.toNat_toUInt8, Nat.mod_eq_of_lt (by omega)] at value
    apply Char.ext
    exact UInt32.toNat_inj.mp value
  · rw [String.utf8EncodeChar_eq_cons_cons size]
    obtain ⟨lead, nonzero⟩ := (byte_shapes (ch.val >>> 6).toUInt8).2.2.1
    refine ⟨_, _, rfl, lead, fun zero => absurd zero nonzero, ?_⟩
    exact List.forall_mem_singleton.mpr (continuation _)
  · rw [String.utf8EncodeChar_eq_cons_cons_cons size]
    obtain ⟨lead, nonzero⟩ := (byte_shapes (ch.val >>> 12).toUInt8).2.2.2.1
    refine ⟨_, _, rfl, lead, fun zero => absurd zero nonzero, ?_⟩
    simp only [List.forall_mem_cons]
    exact ⟨continuation _, continuation _, List.forall_mem_nil _⟩
  · rw [String.utf8EncodeChar_eq_cons_cons_cons_cons size]
    obtain ⟨lead, nonzero⟩ := (byte_shapes (ch.val >>> 18).toUInt8).2.2.2.2
    refine ⟨_, _, rfl, lead, fun zero => absurd zero nonzero, ?_⟩
    simp only [List.forall_mem_cons]
    exact ⟨continuation _, continuation _, continuation _, List.forall_mem_nil _⟩

theorem utf8EncodeChar_shape {ch : Char} (notNul : ch ≠ '\x00') :
    ∃ lead rest, String.utf8EncodeChar ch = lead :: rest ∧ lead &&& 0xc0 ≠ 0x80 ∧ lead ≠ 0 ∧
      ∀ byte ∈ rest, byte &&& 0xc0 = 0x80 ∧ byte ≠ 0 := by
  obtain ⟨lead, rest, bytes, isLead, zero, others⟩ := utf8EncodeChar_bytes ch
  exact ⟨lead, rest, bytes, isLead.1, fun isZero => notNul (zero isZero), fun byte member =>
    ⟨(others byte member).1, (others byte member).2.1⟩⟩

theorem utf8EncodeChar_mark (ch : Char) : 0xff ∉ String.utf8EncodeChar ch := by
  obtain ⟨lead, rest, bytes, isLead, -, others⟩ := utf8EncodeChar_bytes ch
  rw [bytes, List.mem_cons, not_or]
  exact ⟨isLead.2.symm, fun member => (others _ member).2.2 rfl⟩

theorem utf8_mark (text : String) : 0xff ∉ utf8 text := by
  rw [utf8, List.mem_flatMap]
  rintro ⟨ch, -, member⟩
  exact utf8EncodeChar_mark ch member

theorem utf8_noZero {text : String} (plain : '\x00' ∉ text.toList) : 0 ∉ utf8 text := by
  rw [utf8, List.mem_flatMap]
  rintro ⟨ch, member, zero⟩
  have notNul : ch ≠ '\x00' := by
    rintro rfl
    exact plain member
  obtain ⟨lead, rest, bytes, -, nonzero, others⟩ := utf8EncodeChar_shape notNul
  rw [bytes] at zero
  rcases List.mem_cons.mp zero with rfl | later
  · exact nonzero rfl
  · exact (others 0 later).2 rfl

theorem utf8EncodeChar_nul : String.utf8EncodeChar '\x00' = [0] := by
  decide

end TurboAgent
