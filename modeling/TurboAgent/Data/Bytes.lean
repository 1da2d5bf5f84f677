import Mathlib

/-!
# Byte strings

C strings as the bytes before their terminator, with the number formats of `snprintf` and
the narrowing of a size to `int`.
-/

namespace TurboAgent

abbrev Bytes := List UInt8

def asciiByte (ch : Char) : UInt8 :=
  UInt8.ofNat ch.toNat

def asciiBytes (text : String) : Bytes :=
  text.toList.map asciiByte

/-- `%zu`. -/
def decimal (value : Nat) : Bytes :=
  (Nat.toDigits 10 value).map asciiByte

theorem asciiByte_toNat {ch : Char} (small : ch.toNat < 256) : (asciiByte ch).toNat = ch.toNat := by
  rw [asciiByte, UInt8.toNat_ofNat', Nat.mod_eq_of_lt small]

theorem digit_bounds {ch : Char} (digit : ch.isDigit = true) : 48 ≤ ch.toNat ∧ ch.toNat ≤ 57 := by
  simp only [Char.isDigit, Bool.and_eq_true, decide_eq_true_eq] at digit
  exact ⟨digit.1, digit.2⟩

theorem decimal_digits {value : Nat} {byte : UInt8} (member : byte ∈ decimal value) :
    48 ≤ byte.toNat ∧ byte.toNat ≤ 57 := by
  obtain ⟨ch, isDigit, rfl⟩ := List.mem_map.mp member
  have bounds := digit_bounds
    (Nat.isDigit_of_mem_toDigits (by decide) (by decide) isDigit)
  rw [asciiByte_toNat (by omega)]
  exact bounds

theorem decimal_injective : Function.Injective decimal := by
  intro left right same
  have back : ∀ value, (decimal value).map (fun byte => Char.ofNat byte.toNat) =
      Nat.toDigits 10 value := by
    intro value
    rw [decimal, List.map_map]
    conv_rhs => rw [← List.map_id (Nat.toDigits 10 value)]
    apply List.map_congr_left
    intro ch member
    have bounds := digit_bounds (Nat.isDigit_of_mem_toDigits (by decide) (by decide) member)
    rw [Function.comp_apply, asciiByte_toNat (by omega), Char.ofNat_toNat, id]
  have digits : Nat.toDigits 10 left = Nat.toDigits 10 right := by
    rw [← back left, ← back right, same]
  rw [← Nat.ofDigitChars_ten_toDigits (n := left), digits, Nat.ofDigitChars_ten_toDigits]

/-- A size as an `int`. -/
def toInt (size : Nat) : Int :=
  (BitVec.ofNat 32 size).toInt

theorem toInt_of_lt {size : Nat} (small : size < 2147483648) : toInt size = size := by
  rw [toInt, BitVec.toInt_eq_toNat_of_lt] <;> rw [BitVec.toNat_ofNat, Nat.mod_eq_of_lt] <;> omega

theorem toInt_neg {size : Nat} (large : 2147483648 ≤ size) (bounded : size < 4294967296) :
    toInt size < 0 := by
  rw [toInt, BitVec.toInt_eq_toNat_cond, BitVec.toNat_ofNat, Nat.mod_eq_of_lt bounded]
  split <;> omega

end TurboAgent
