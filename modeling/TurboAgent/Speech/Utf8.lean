import TurboAgent.Data.Utf8Forms
import TurboAgent.Speech.Model

/-!
# The gate on transcripts

A transcript passes `valid_utf8` before the agent reads it.  The gate reads lead bytes,
continuation bytes and code points by hand; what it lets through is exactly the encodings of
the texts without NUL.
-/

namespace TurboAgent.Speech

/-! ## One sequence -/

variable {extra point : Nat} {bytes rest : List UInt8}

theorem continuation_eq_some {final : Nat} :
    continuation extra point bytes = some (final, rest) ↔
      ∃ read : List UInt8, bytes = read ++ rest ∧ read.length = extra ∧
        (∀ byte ∈ read, byte.toNat / 64 = 2) ∧
        final = read.foldl (fun point byte => point * 64 + byte.toNat % 64) point := by
  induction extra generalizing point bytes with
  | zero =>
      rw [continuation, Option.some.injEq, Prod.mk.injEq]
      constructor
      · rintro ⟨rfl, rfl⟩
        exact ⟨[], rfl, rfl, List.forall_mem_nil _, rfl⟩
      · rintro ⟨read, rfl, none, -, rfl⟩
        rw [List.length_eq_zero_iff.mp none]
        exact ⟨rfl, rfl⟩
  | succ extra ih =>
      cases bytes with
      | nil =>
          rw [continuation]
          refine iff_of_false (Option.some_ne_none _).symm ?_
          rintro ⟨read, bytes, length, -⟩
          rw [(List.append_eq_nil_iff.mp bytes.symm).1] at length
          cases length
      | cons byte bytes =>
          rw [continuation]
          split_ifs with apart
          · refine iff_of_false id ?_
            rintro ⟨read, bytes, length, each, -⟩
            cases read with
            | nil => cases length
            | cons first read =>
                rw [List.cons_append, List.cons.injEq] at bytes
                exact apart (bytes.1 ▸ each first List.mem_cons_self)
          · rw [ih]
            constructor
            · rintro ⟨read, rfl, rfl, each, rfl⟩
              exact ⟨byte :: read, rfl, rfl,
                List.forall_mem_cons.mpr ⟨not_not.mp apart, each⟩, rfl⟩
            · rintro ⟨read, bytes, length, each, value⟩
              cases read with
              | nil => cases length
              | cons first read =>
                  rw [List.cons_append, List.cons.injEq] at bytes
                  obtain ⟨rfl, rfl⟩ := bytes
                  exact ⟨read, rfl, Nat.succ.inj length,
                    (List.forall_mem_cons.mp each).2, value⟩

/-- A code point that is the shortest form of its length, and no surrogate. -/
structure Shortest (extra point : Nat) : Prop where
  least : (extra = 1 → 0x80 ≤ point) ∧ (extra = 2 → 0x800 ≤ point) ∧
    (extra = 3 → 0x10000 ≤ point)
  apart : point < 0xd800 ∨ 0xdfff < point
  plane : point ≤ 0x10ffff

variable {bits : Nat}

theorem leadByte_cases {byte : Nat} (isLead : leadByte byte = some (extra, bits)) :
    (extra = 1 ∧ 0xc2 ≤ byte ∧ byte ≤ 0xdf ∧ bits = byte % 32) ∨
      (extra = 2 ∧ 0xe0 ≤ byte ∧ byte ≤ 0xef ∧ bits = byte % 16) ∨
      (extra = 3 ∧ 0xf0 ≤ byte ∧ byte ≤ 0xf4 ∧ bits = byte % 8) := by
  unfold leadByte at isLead
  split_ifs at isLead with one two three <;>
    rw [Option.some.injEq, Prod.mk.injEq] at isLead <;>
    omega

variable {lead : UInt8} {ch : Char}

/-- A lead byte and its continuation bytes are a character exactly if their code point is the
shortest form of its length. -/
theorem form_iff (isLead : leadByte lead.toNat = some (extra, bits)) {read : List UInt8}
    (length : read.length = extra) :
    String.utf8EncodeChar ch = lead :: read ↔ (∀ byte ∈ read, byte.toNat / 64 = 2) ∧
      ch.toNat = read.foldl (fun point byte => point * 64 + byte.toNat % 64) bits ∧
      Shortest extra ch.toNat := by
  have plane := toNat_lt_planes ch
  have shortest : Shortest extra ch.toNat ↔ (extra = 1 → 0x80 ≤ ch.toNat) ∧
      (extra = 2 → 0x800 ≤ ch.toNat) ∧ (extra = 3 → 0x10000 ≤ ch.toNat) :=
    ⟨Shortest.least, fun least => ⟨least, toNat_apart ch, Nat.le_of_lt_succ plane⟩⟩
  rw [shortest]
  rcases leadByte_cases isLead with ⟨rfl, low, high, rfl⟩ | ⟨rfl, low, high, rfl⟩ |
    ⟨rfl, low, high, rfl⟩
  · obtain ⟨first, rfl⟩ := List.length_eq_one_iff.mp length
    have upper : lead.toNat / 32 = 6 := by omega
    rw [utf8EncodeChar_eq_two_iff]
    simp only [List.forall_mem_cons, List.not_mem_nil, false_implies, true_implies,
      implies_true, and_true, List.foldl_cons, List.foldl_nil]
    omega
  · obtain ⟨first, second, rfl⟩ := List.length_eq_two.mp length
    have upper : lead.toNat / 16 = 14 := by omega
    rw [utf8EncodeChar_eq_three_iff]
    simp only [List.forall_mem_cons, List.not_mem_nil, false_implies, true_implies,
      implies_true, and_true, List.foldl_cons, List.foldl_nil]
    omega
  · obtain ⟨first, second, third, rfl⟩ := List.length_eq_three.mp length
    have upper : lead.toNat / 8 = 30 := by omega
    rw [utf8EncodeChar_eq_four_iff]
    simp only [List.forall_mem_cons, List.not_mem_nil, false_implies, true_implies,
      implies_true, and_true, List.foldl_cons, List.foldl_nil]
    omega

theorem leadByte_isSome (high : ¬lead.toNat < 0x80)
    (whole : lead :: bytes = String.utf8EncodeChar ch ++ rest) :
    (leadByte lead.toNat).isSome = true := by
  obtain ⟨first, read, encoded, -⟩ := utf8EncodeChar_bytes ch
  rw [encoded, List.cons_append, List.cons.injEq] at whole
  obtain ⟨rfl, -⟩ := whole
  have bounds := utf8EncodeChar_lead encoded
  unfold leadByte
  split_ifs with one two three
  · rfl
  · rfl
  · rfl
  · omega

theorem shortest_iff : Shortest extra point ↔ ((extra = 1 → 0x80 ≤ point) ∧
    (extra = 2 → 0x800 ≤ point) ∧ (extra = 3 → 0x10000 ≤ point)) ∧
    (point < 0xd800 ∨ 0xdfff < point) ∧ point ≤ 0x10ffff :=
  ⟨fun shortest => ⟨shortest.least, shortest.apart, shortest.plane⟩,
    fun parts => ⟨parts.1, parts.2.1, parts.2.2⟩⟩

/-- A character that begins with a lead byte has its continuation bytes after it. -/
theorem length_of_lead (isLead : leadByte lead.toNat = some (extra, bits)) {read : List UInt8}
    (bytes : String.utf8EncodeChar ch = lead :: read) : read.length = extra := by
  have bounds := leadByte_cases isLead
  have form := utf8EncodeChar_cases bytes
  omega

/-- What is read after a lead byte is a character, and every character with that lead byte is
read. -/
theorem sequence_iff (isLead : leadByte lead.toNat = some (extra, bits)) :
    (continuation extra bits bytes = some (point, rest) ∧ Shortest extra point) ↔
      ∃ ch : Char, ch.toNat = point ∧ lead :: bytes = String.utf8EncodeChar ch ++ rest := by
  rw [continuation_eq_some]
  constructor
  · rintro ⟨⟨read, rfl, length, each, rfl⟩, shortest⟩
    obtain ⟨ch, value⟩ := exists_char shortest.plane shortest.apart
    refine ⟨ch, value, ?_⟩
    rw [(form_iff isLead length).mpr ⟨each, value, value ▸ shortest⟩]
    rfl
  · rintro ⟨ch, rfl, whole⟩
    obtain ⟨first, read, encoded, -⟩ := utf8EncodeChar_bytes ch
    rw [encoded, List.cons_append, List.cons.injEq] at whole
    obtain ⟨rfl, rfl⟩ := whole
    have length := length_of_lead isLead encoded
    obtain ⟨each, value, shortest⟩ := (form_iff isLead length).mp encoded
    exact ⟨⟨read, rfl, length, each, value⟩, shortest⟩

/-! ## Texts -/

/-- A loop that takes one allowed character in a round accepts the encodings of the texts of
allowed characters. -/
theorem accepts_iff {accepts : Nat → List UInt8 → Bool} {Allowed : Char → Prop}
    (nil : ∀ rounds, accepts rounds [] = true)
    (round : ∀ rounds byte bytes, accepts (rounds + 1) (byte :: bytes) = true ↔
      ∃ ch rest, Allowed ch ∧ byte :: bytes = String.utf8EncodeChar ch ++ rest ∧
        accepts rounds rest = true) {rounds : Nat} (enough : bytes.length ≤ rounds) :
    accepts rounds bytes = true ↔
      ∃ text : List Char, bytes = text.flatMap String.utf8EncodeChar ∧
        ∀ ch ∈ text, Allowed ch := by
  induction rounds generalizing bytes with
  | zero =>
      rw [List.length_eq_zero_iff.mp (Nat.le_zero.mp enough)]
      exact iff_of_true (nil 0) ⟨[], rfl, List.forall_mem_nil _⟩
  | succ rounds ih =>
      cases bytes with
      | nil => exact iff_of_true (nil _) ⟨[], rfl, List.forall_mem_nil _⟩
      | cons byte bytes =>
          have shorter : ∀ {ch rest}, byte :: bytes = String.utf8EncodeChar ch ++ rest →
              rest.length ≤ rounds := by
            intro ch rest whole
            have size := congrArg List.length whole
            have positive := Char.utf8Size_pos ch
            rw [List.length_append, String.length_utf8EncodeChar] at size
            omega
          rw [round]
          constructor
          · rintro ⟨ch, rest, allowed, whole, accepted⟩
            obtain ⟨text, rfl, each⟩ := (ih (shorter whole)).mp accepted
            exact ⟨ch :: text, whole, List.forall_mem_cons.mpr ⟨allowed, each⟩⟩
          · rintro ⟨text, whole, each⟩
            cases text with
            | nil => cases whole
            | cons ch text =>
                obtain ⟨allowed, each⟩ := List.forall_mem_cons.mp each
                rw [List.flatMap_cons] at whole
                exact ⟨ch, _, allowed, whole, (ih (shorter whole)).mpr ⟨text, rfl, each⟩⟩

/-- An ASCII byte is a character, and it is the first one of any text with that byte. -/
theorem ascii_iff {byte : UInt8} (ascii : byte.toNat < 0x80) :
    byte :: bytes = String.utf8EncodeChar ch ++ rest ↔
      ch.toNat = byte.toNat ∧ bytes = rest := by
  obtain ⟨lead, read, encoded, -⟩ := utf8EncodeChar_bytes ch
  constructor
  · intro whole
    rw [encoded, List.cons_append, List.cons.injEq] at whole
    obtain ⟨rfl, rfl⟩ := whole
    have form := utf8EncodeChar_cases encoded
    have single : read.length = 0 := by omega
    rw [List.length_eq_zero_iff.mp single]
    exact ⟨by omega, rfl⟩
  · rintro ⟨value, rfl⟩
    rw [utf8EncodeChar_eq_one_iff.mpr ⟨Nat.le_of_lt_succ ascii, value⟩]
    rfl

theorem ascii_round {byte : UInt8} (ascii : byte.toNat < 0x80) (Allowed : Nat → Prop)
    (allowed : Allowed byte.toNat) {again : List UInt8 → Bool} :
    again bytes = true ↔ ∃ ch rest, Allowed ch.toNat ∧
      byte :: bytes = String.utf8EncodeChar ch ++ rest ∧ again rest = true := by
  constructor
  · intro accepted
    obtain ⟨ch, value⟩ := exists_char (by omega) (.inl (by omega : byte.toNat < 0xd800))
    exact ⟨ch, bytes, value ▸ allowed, (ascii_iff ascii).mpr ⟨value, rfl⟩, accepted⟩
  · rintro ⟨ch, rest, -, whole, accepted⟩
    rw [((ascii_iff ascii).mp whole).2]
    exact accepted

theorem round_iff (isLead : leadByte lead.toNat = some (extra, bits)) {Allowed : Nat → Prop}
    {test : Nat → Bool} (tests : ∀ point, test point = true ↔ Shortest extra point ∧ Allowed point)
    {again : List UInt8 → Bool} :
    (match continuation extra bits bytes with
      | none => false
      | some (point, rest) => test point && again rest) = true ↔
      ∃ ch rest, Allowed ch.toNat ∧ lead :: bytes = String.utf8EncodeChar ch ++ rest ∧
        again rest = true := by
  constructor
  · intro accepted
    cases read : continuation extra bits bytes with
    | none =>
        rw [read] at accepted
        cases accepted
    | some result =>
        obtain ⟨point, rest⟩ := result
        simp only [read, Bool.and_eq_true, tests] at accepted
        obtain ⟨⟨shortest, allowed⟩, accepted⟩ := accepted
        obtain ⟨ch, rfl, whole⟩ := (sequence_iff isLead).mp ⟨read, shortest⟩
        exact ⟨ch, rest, allowed, whole, accepted⟩
  · rintro ⟨ch, rest, allowed, whole, accepted⟩
    obtain ⟨read, shortest⟩ := (sequence_iff isLead).mpr ⟨ch, rfl, whole⟩
    simp only [read, Bool.and_eq_true, tests]
    exact ⟨⟨shortest, allowed⟩, accepted⟩

theorem scalar_iff {byte : Nat} (isLead : leadByte byte = some (extra, bits)) :
    scalar extra point = true ↔ Shortest extra point ∧ point ≠ 0 := by
  have some : extra = 1 ∨ extra = 2 ∨ extra = 3 :=
    (leadByte_cases isLead).imp And.left (Or.imp And.left And.left)
  rw [shortest_iff, scalar]
  simp only [Bool.not_eq_true', Bool.or_eq_false_iff, Bool.and_eq_false_iff, beq_eq_false_iff_ne,
    decide_eq_false_iff_not]
  omega

theorem validBytes_round (rounds : Nat) (byte : UInt8) (bytes : List UInt8) :
    validBytes (rounds + 1) (byte :: bytes) = true ↔
      ∃ ch rest, ch.toNat ≠ 0 ∧ byte :: bytes = String.utf8EncodeChar ch ++ rest ∧
        validBytes rounds rest = true := by
  rw [validBytes]
  by_cases zero : byte = 0
  · subst zero
    rw [if_pos rfl]
    refine iff_of_false Bool.false_ne_true ?_
    rintro ⟨ch, rest, notNul, whole, -⟩
    exact notNul ((ascii_iff (by decide)).mp whole).1
  rw [if_neg zero]
  by_cases ascii : byte.toNat < 0x80
  · rw [if_pos ascii]
    have nonzero : byte.toNat ≠ 0 := fun isZero => zero (UInt8.toNat_inj.mp isZero)
    exact ascii_round ascii (· ≠ 0) nonzero
  rw [if_neg ascii]
  cases isLead : leadByte byte.toNat with
  | none =>
      refine iff_of_false Bool.false_ne_true ?_
      rintro ⟨ch, rest, -, whole, -⟩
      exact absurd (leadByte_isSome ascii whole) (by simp [isLead])
  | some sequence => exact round_iff isLead fun point => scalar_iff isLead

theorem validUtf8_iff (bytes : List UInt8) : validUtf8 bytes = true ↔
    ∃ text : List Char, bytes = text.flatMap String.utf8EncodeChar ∧ ∀ ch ∈ text, ch.toNat ≠ 0 := by
  refine accepts_iff (fun rounds => ?_) validBytes_round (Nat.le_refl _)
  cases rounds <;> rfl

end TurboAgent.Speech
