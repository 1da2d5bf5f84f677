import TurboAgent.Speech.Utf8
import TurboAgent.SpeechOutput.Model

/-!
# The gates on text

An answer passes `valid_plain_utf8` before it is spoken, as a transcript passes `valid_utf8`
before the agent reads it.  Each gate lets through exactly the encodings of the texts that it
is for.
-/

namespace TurboAgent.SpeechOutput

/-- A code point that is no C0 or C1 control, DEL, `<`, `>`, directional mark, override or
isolate, line or paragraph separator or byte order mark. -/
def PlainPoint (point : Nat) : Prop :=
  0x20 ≤ point ∧ ¬(0x7f ≤ point ∧ point ≤ 0x9f) ∧ point ≠ 0x3c ∧ point ≠ 0x3e ∧
    point ≠ 0x061c ∧ point ≠ 0x200e ∧ point ≠ 0x200f ∧ ¬(0x2028 ≤ point ∧ point ≤ 0x202e) ∧
    ¬(0x2066 ≤ point ∧ point ≤ 0x2069) ∧ point ≠ 0xfeff

theorem leadByte_eq (byte : Nat) : leadByte byte = Speech.leadByte byte := by
  unfold leadByte Speech.leadByte
  split_ifs <;> first | rfl | omega

theorem plainScalar_iff {byte extra bits point : Nat}
    (isLead : Speech.leadByte byte = some (extra, bits)) :
    plainScalar extra point = true ↔ Speech.Shortest extra point ∧ PlainPoint point := by
  have some : extra = 1 ∨ extra = 2 ∨ extra = 3 :=
    (Speech.leadByte_cases isLead).imp And.left (Or.imp And.left And.left)
  rw [Speech.shortest_iff, plainScalar, PlainPoint]
  simp only [Bool.not_eq_true', Bool.or_eq_false_iff, Bool.and_eq_false_iff, beq_eq_false_iff_ne,
    decide_eq_false_iff_not]
  omega

theorem plainBytes_round (rounds : Nat) (byte : UInt8) (bytes : List UInt8) :
    plainBytes (rounds + 1) (byte :: bytes) = true ↔
      ∃ ch rest, PlainPoint ch.toNat ∧ byte :: bytes = String.utf8EncodeChar ch ++ rest ∧
        plainBytes rounds rest = true := by
  rw [plainBytes]
  by_cases ascii : byte.toNat < 0x80
  · by_cases markup : byte = 60 ∨ byte = 62
    · have visible : 0x20 ≤ byte.toNat ∧ byte.toNat < 0x7f := by
        rcases markup with rfl | rfl <;> decide
      rw [if_pos visible, if_pos markup]
      refine iff_of_false Bool.false_ne_true ?_
      rintro ⟨ch, rest, plain, whole, -⟩
      have value := ((Speech.ascii_iff ascii).mp whole).1
      rcases markup with rfl | rfl
      · exact plain.2.2.1 value
      · exact plain.2.2.2.1 value
    by_cases visible : 0x20 ≤ byte.toNat ∧ byte.toNat < 0x7f
    · rw [if_pos visible, if_neg markup]
      have plain : PlainPoint byte.toNat := by
        have low : byte.toNat ≠ 0x3c := fun same => markup (.inl (UInt8.toNat_inj.mp same))
        have high : byte.toNat ≠ 0x3e := fun same => markup (.inr (UInt8.toNat_inj.mp same))
        unfold PlainPoint
        omega
      exact Speech.ascii_round ascii PlainPoint plain
    · rw [if_neg visible, leadByte, if_pos (by omega)]
      refine iff_of_false Bool.false_ne_true ?_
      rintro ⟨ch, rest, plain, whole, -⟩
      have value := ((Speech.ascii_iff ascii).mp whole).1
      unfold PlainPoint at plain
      omega
  rw [if_neg (by omega), leadByte_eq]
  cases isLead : Speech.leadByte byte.toNat with
  | none =>
      refine iff_of_false Bool.false_ne_true ?_
      rintro ⟨ch, rest, -, whole, -⟩
      exact absurd (Speech.leadByte_isSome ascii whole) (by simp [isLead])
  | some sequence => exact Speech.round_iff isLead fun point => plainScalar_iff isLead

/-- `valid_plain_utf8` accepts the encodings of the plain texts that are neither empty nor too
long. -/
theorem validPlainUtf8_iff (input : List UInt8) : validPlainUtf8 input = true ↔
    input ≠ [] ∧ input.length ≤ maxTextBytes ∧
      ∃ text : List Char, input = text.flatMap String.utf8EncodeChar ∧
        ∀ ch ∈ text, PlainPoint ch.toNat := by
  rw [validPlainUtf8]
  by_cases refused : input = [] ∨ maxTextBytes < input.length
  · rw [if_pos refused]
    refine iff_of_false Bool.false_ne_true ?_
    rintro ⟨filled, short, -⟩
    exact refused.elim filled (Nat.not_lt.mpr short)
  · rw [if_neg refused]
    rw [not_or, Nat.not_lt] at refused
    rw [Speech.accepts_iff (fun rounds => by cases rounds <;> rfl) plainBytes_round
      (Nat.le_refl _)]
    exact ⟨fun spelled => ⟨refused.1, refused.2, spelled⟩, fun whole => whole.2.2⟩

/-- Each gate lets through exactly the encodings of its texts. -/
theorem text_gates_exact (bytes : List UInt8) :
    (Speech.validUtf8 bytes = true ↔
      ∃ text : List Char, bytes = text.flatMap String.utf8EncodeChar ∧
        ∀ ch ∈ text, ch.toNat ≠ 0) ∧
    (validPlainUtf8 bytes = true ↔
      bytes ≠ [] ∧ bytes.length ≤ maxTextBytes ∧
        ∃ text : List Char, bytes = text.flatMap String.utf8EncodeChar ∧
          ∀ ch ∈ text, PlainPoint ch.toNat) :=
  ⟨Speech.validUtf8_iff bytes, validPlainUtf8_iff bytes⟩

end TurboAgent.SpeechOutput
