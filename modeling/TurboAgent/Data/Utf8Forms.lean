import TurboAgent.Data.Utf8

/-!
# The four forms of a character

A character is one, two, three or four bytes, and each form is read back by its numbers: the
lead byte has the upper bits of the code point, every later byte six more of them.
-/

namespace TurboAgent

theorem utf8EncodeChar_eq_form {ch : Char} : String.utf8EncodeChar ch =
    if ch.toNat ≤ 0x7f then [UInt8.ofNat ch.toNat]
    else if ch.toNat ≤ 0x7ff then
      [UInt8.ofNat (ch.toNat / 64 % 32 + 0xc0), UInt8.ofNat (ch.toNat % 64 + 0x80)]
    else if ch.toNat ≤ 0xffff then
      [UInt8.ofNat (ch.toNat / 4096 % 16 + 0xe0), UInt8.ofNat (ch.toNat / 64 % 64 + 0x80),
        UInt8.ofNat (ch.toNat % 64 + 0x80)]
    else
      [UInt8.ofNat (ch.toNat / 262144 % 8 + 0xf0), UInt8.ofNat (ch.toNat / 4096 % 64 + 0x80),
        UInt8.ofNat (ch.toNat / 64 % 64 + 0x80), UInt8.ofNat (ch.toNat % 64 + 0x80)] :=
  rfl

theorem ofNat_eq_iff {number : Nat} {byte : UInt8} (small : number < 256) :
    UInt8.ofNat number = byte ↔ number = byte.toNat := by
  rw [← UInt8.toNat_inj, UInt8.toNat_ofNat_of_lt' small]

variable {ch : Char} {lead first second third : UInt8}

theorem toNat_lt_planes (ch : Char) : ch.toNat < 0x110000 := by
  rcases ch.valid with low | ⟨_, high⟩
  · exact Nat.lt_trans low (by decide)
  · exact high

theorem utf8EncodeChar_eq_one_iff :
    String.utf8EncodeChar ch = [lead] ↔ lead.toNat ≤ 0x7f ∧ ch.toNat = lead.toNat := by
  rw [utf8EncodeChar_eq_form]
  split_ifs with one two three
  · simp only [List.cons.injEq, and_true]
    rw [ofNat_eq_iff (by omega)]
    omega
  all_goals
    simp only [List.cons.injEq, reduceCtorEq, and_false, false_iff]
    omega

theorem utf8EncodeChar_eq_two_iff :
    String.utf8EncodeChar ch = [lead, first] ↔ lead.toNat / 32 = 6 ∧ first.toNat / 64 = 2 ∧
      ch.toNat = lead.toNat % 32 * 64 + first.toNat % 64 ∧ 0x80 ≤ ch.toNat := by
  have leadLt := lead.toNat_lt
  have firstLt := first.toNat_lt
  rw [utf8EncodeChar_eq_form]
  split_ifs with one two three
  · simp only [List.cons.injEq, reduceCtorEq, and_false, false_iff]
    omega
  · simp only [List.cons.injEq, and_true]
    rw [ofNat_eq_iff (by omega), ofNat_eq_iff (by omega)]
    omega
  all_goals
    simp only [List.cons.injEq, reduceCtorEq, and_false, false_iff]
    omega

theorem utf8EncodeChar_eq_three_iff :
    String.utf8EncodeChar ch = [lead, first, second] ↔ lead.toNat / 16 = 14 ∧
      first.toNat / 64 = 2 ∧ second.toNat / 64 = 2 ∧
      ch.toNat = (lead.toNat % 16 * 64 + first.toNat % 64) * 64 + second.toNat % 64 ∧
      0x800 ≤ ch.toNat := by
  have leadLt := lead.toNat_lt
  have firstLt := first.toNat_lt
  have secondLt := second.toNat_lt
  rw [utf8EncodeChar_eq_form]
  split_ifs with one two three
  · simp only [List.cons.injEq, reduceCtorEq, and_false, false_iff]
    omega
  · simp only [List.cons.injEq, reduceCtorEq, and_false, false_iff]
    omega
  · simp only [List.cons.injEq, and_true]
    rw [ofNat_eq_iff (by omega), ofNat_eq_iff (by omega), ofNat_eq_iff (by omega)]
    omega
  · simp only [List.cons.injEq, reduceCtorEq, and_false, false_iff]
    omega

theorem utf8EncodeChar_eq_four_iff :
    String.utf8EncodeChar ch = [lead, first, second, third] ↔ lead.toNat / 8 = 30 ∧
      first.toNat / 64 = 2 ∧ second.toNat / 64 = 2 ∧ third.toNat / 64 = 2 ∧
      ch.toNat = ((lead.toNat % 8 * 64 + first.toNat % 64) * 64 + second.toNat % 64) * 64 +
        third.toNat % 64 ∧ 0x10000 ≤ ch.toNat := by
  have planes := toNat_lt_planes ch
  have leadLt := lead.toNat_lt
  have firstLt := first.toNat_lt
  have secondLt := second.toNat_lt
  have thirdLt := third.toNat_lt
  rw [utf8EncodeChar_eq_form]
  split_ifs with one two three
  all_goals try
    simp only [List.cons.injEq, reduceCtorEq, and_false, false_iff]
    omega
  simp only [List.cons.injEq, and_true]
  rw [ofNat_eq_iff (by omega), ofNat_eq_iff (by omega), ofNat_eq_iff (by omega),
    ofNat_eq_iff (by omega)]
  omega

theorem utf8EncodeChar_cases {later : List UInt8}
    (bytes : String.utf8EncodeChar ch = lead :: later) :
    (later.length = 0 ∧ lead.toNat ≤ 0x7f ∧ ch.toNat = lead.toNat) ∨
      (later.length = 1 ∧ lead.toNat / 32 = 6) ∨ (later.length = 2 ∧ lead.toNat / 16 = 14) ∨
      (later.length = 3 ∧ lead.toNat / 8 = 30) := by
  have size : later.length + 1 ≤ 4 := by
    rw [← List.length_cons, ← bytes, String.length_utf8EncodeChar]
    exact Char.utf8Size_le_four ch
  rcases later with _ | ⟨first, _ | ⟨second, _ | ⟨third, _ | ⟨fourth, later⟩⟩⟩⟩
  · exact .inl ⟨rfl, utf8EncodeChar_eq_one_iff.mp bytes⟩
  · exact .inr (.inl ⟨rfl, (utf8EncodeChar_eq_two_iff.mp bytes).1⟩)
  · exact .inr (.inr (.inl ⟨rfl, (utf8EncodeChar_eq_three_iff.mp bytes).1⟩))
  · exact .inr (.inr (.inr ⟨rfl, (utf8EncodeChar_eq_four_iff.mp bytes).1⟩))
  · simp only [List.length_cons] at size
    omega

/-- The bytes with which characters begin: no overlong form and no plane beyond the last. -/
theorem utf8EncodeChar_lead {later : List UInt8}
    (bytes : String.utf8EncodeChar ch = lead :: later) :
    lead.toNat ≤ 0x7f ∨ (0xc2 ≤ lead.toNat ∧ lead.toNat ≤ 0xf4) := by
  have planes := toNat_lt_planes ch
  have leadLt := lead.toNat_lt
  rcases utf8EncodeChar_cases bytes with ⟨-, ascii, -⟩ | ⟨length, -⟩ | ⟨length, -⟩ | ⟨length, -⟩
  · exact .inl ascii
  · obtain ⟨first, rfl⟩ := List.length_eq_one_iff.mp length
    have form := utf8EncodeChar_eq_two_iff.mp bytes
    omega
  · obtain ⟨first, second, rfl⟩ := List.length_eq_two.mp length
    have form := utf8EncodeChar_eq_three_iff.mp bytes
    omega
  · obtain ⟨first, second, third, rfl⟩ := List.length_eq_three.mp length
    have form := utf8EncodeChar_eq_four_iff.mp bytes
    omega

/-- A character is given by any number that is no surrogate and in the seventeen planes. -/
theorem exists_char {point : Nat} (plane : point ≤ 0x10ffff)
    (apart : point < 0xd800 ∨ 0xdfff < point) : ∃ ch : Char, ch.toNat = point := by
  have valid : point.isValidChar := by
    rcases apart with low | high
    · exact .inl low
    · exact .inr ⟨high, by omega⟩
  exact ⟨Char.ofNatAux point valid, rfl⟩

theorem toNat_apart (ch : Char) : ch.toNat < 0xd800 ∨ 0xdfff < ch.toNat :=
  ch.valid.imp id And.left

end TurboAgent
