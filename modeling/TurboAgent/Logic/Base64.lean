import Mathlib

/-!
# Base 64

Three bytes are written as four digits of six bits.  A group of one or two bytes is filled with
zeros and padded.  The digits are visible ASCII, and what was written can be told from them.
-/

namespace TurboAgent.Logic.Base64

/-- A digit of six bits. -/
def digit (value : Nat) : UInt8 :=
  if value < 26 then UInt8.ofNat (65 + value)
  else if value < 52 then UInt8.ofNat (71 + value)
  else if value < 62 then UInt8.ofNat (value - 4)
  else if value = 62 then 43
  else 47

/-- The sign of padding. -/
def pad : UInt8 := 61

/-- The text of a byte string. -/
def encode : List UInt8 → List UInt8
  | [] => []
  | [first] =>
      [digit (first.toNat / 4), digit (first.toNat % 4 * 16), pad, pad]
  | [first, second] =>
      [digit (first.toNat / 4), digit (first.toNat % 4 * 16 + second.toNat / 16),
        digit (second.toNat % 16 * 4), pad]
  | first :: second :: third :: rest =>
      digit (first.toNat / 4) :: digit (first.toNat % 4 * 16 + second.toNat / 16) ::
        digit (second.toNat % 16 * 4 + third.toNat / 64) :: digit (third.toNat % 64) :: encode rest

/-- The value of a digit. -/
def value (byte : UInt8) : Nat :=
  if byte = 43 then 62
  else if byte = 47 then 63
  else if byte < 58 then byte.toNat + 4
  else if byte < 91 then byte.toNat - 65
  else byte.toNat - 71

theorem value_digit : ∀ number : Fin 64, value (digit number) = number := by
  decide

theorem digit_ne_pad : ∀ number : Fin 64, digit number ≠ pad := by
  decide

theorem digit_visible : ∀ number : Fin 64, 43 ≤ digit number ∧ digit number ≤ 122 := by
  decide

theorem digit_inj {left right : Nat} (small : left < 64) (small' : right < 64)
    (same : digit left = digit right) : left = right :=
  (value_digit ⟨left, small⟩).symm.trans
    ((congrArg value same).trans (value_digit ⟨right, small'⟩))

theorem byte_lt (byte : UInt8) : byte.toNat < 256 :=
  byte.toNat_lt

/-- Digits and padding are visible, and no blank among them. -/
theorem encode_visible (bytes : List UInt8) : ∀ byte ∈ encode bytes, 43 ≤ byte ∧ byte ≤ 122 := by
  have visible : ∀ {number : Nat}, number < 64 → 43 ≤ digit number ∧ digit number ≤ 122 :=
    fun small => digit_visible ⟨_, small⟩
  have padding : 43 ≤ pad ∧ pad ≤ 122 := by decide
  fun_induction encode bytes with
  | case1 => simp
  | case2 first =>
      have bound := byte_lt first
      simp only [List.forall_mem_cons]
      exact ⟨visible (by omega), visible (by omega), padding, padding, List.forall_mem_nil _⟩
  | case3 first second =>
      have bound := byte_lt first
      have bound' := byte_lt second
      simp only [List.forall_mem_cons]
      exact ⟨visible (by omega), visible (by omega), visible (by omega), padding,
        List.forall_mem_nil _⟩
  | case4 first second third rest ih =>
      have bound := byte_lt first
      have bound' := byte_lt second
      have bound'' := byte_lt third
      simp only [List.forall_mem_cons]
      exact ⟨visible (by omega), visible (by omega), visible (by omega), visible (by omega), ih⟩

theorem toNat_inj {left right : UInt8} (same : left.toNat = right.toNat) : left = right :=
  UInt8.toNat_inj.mp same

/-- Different byte strings have different texts. -/
theorem encode_injective : Function.Injective encode := by
  intro left right same
  fun_induction encode left generalizing right with
  | case1 =>
      cases right with
      | nil => rfl
      | cons first right =>
          rcases right with _ | ⟨second, _ | ⟨third, rest⟩⟩ <;> simp [encode] at same
  | case2 first =>
      have bound := byte_lt first
      rcases right with _ | ⟨first', _ | ⟨second', _ | ⟨third', rest'⟩⟩⟩
      · simp [encode] at same
      · have bound' := byte_lt first'
        simp only [encode, List.cons.injEq] at same
        have high := digit_inj (by omega) (by omega) same.1
        have low := digit_inj (by omega) (by omega) same.2.1
        rw [toNat_inj (show first.toNat = first'.toNat by omega)]
      · have bound' := byte_lt second'
        simp only [encode, List.cons.injEq] at same
        exact absurd same.2.2.1.symm (digit_ne_pad ⟨_, by omega⟩)
      · have bound' := byte_lt second'
        have bound'' := byte_lt third'
        simp only [encode, List.cons.injEq] at same
        exact absurd same.2.2.1.symm (digit_ne_pad ⟨_, by omega⟩)
  | case3 first second =>
      have bound := byte_lt first
      have some_byte := byte_lt second
      rcases right with _ | ⟨first', _ | ⟨second', _ | ⟨third', rest'⟩⟩⟩
      · simp [encode] at same
      · simp only [encode, List.cons.injEq] at same
        exact absurd same.2.2.1 (digit_ne_pad ⟨_, by omega⟩)
      · have bound' := byte_lt first'
        have some_byte' := byte_lt second'
        simp only [encode, List.cons.injEq] at same
        have high := digit_inj (by omega) (by omega) same.1
        have middle := digit_inj (by omega) (by omega) same.2.1
        have low := digit_inj (by omega) (by omega) same.2.2.1
        rw [toNat_inj (show first.toNat = first'.toNat by omega),
          toNat_inj (show second.toNat = second'.toNat by omega)]
      · have bound' := byte_lt third'
        simp only [encode, List.cons.injEq] at same
        exact absurd same.2.2.2.1.symm (digit_ne_pad ⟨_, by omega⟩)
  | case4 first second third rest ih =>
      have bound := byte_lt first
      have some_byte := byte_lt second
      have last_byte := byte_lt third
      rcases right with _ | ⟨first', _ | ⟨second', _ | ⟨third', rest'⟩⟩⟩
      · simp [encode] at same
      · simp only [encode, List.cons.injEq] at same
        exact absurd same.2.2.1 (digit_ne_pad ⟨_, by omega⟩)
      · simp only [encode, List.cons.injEq] at same
        exact absurd same.2.2.2.1 (digit_ne_pad ⟨_, by omega⟩)
      · have bound' := byte_lt first'
        have some_byte' := byte_lt second'
        have last_byte' := byte_lt third'
        simp only [encode, List.cons.injEq] at same
        have a := digit_inj (by omega) (by omega) same.1
        have b := digit_inj (by omega) (by omega) same.2.1
        have c := digit_inj (by omega) (by omega) same.2.2.1
        have d := digit_inj (by omega) (by omega) same.2.2.2.1
        rw [toNat_inj (show first.toNat = first'.toNat by omega),
          toNat_inj (show second.toNat = second'.toNat by omega),
          toNat_inj (show third.toNat = third'.toNat by omega), ih same.2.2.2.2]

end TurboAgent.Logic.Base64
