import TurboAgent.Data.JsonText

/-!
# The depth gate of manifests

`turbo_agent_job_file_verifier.c`: a manifest is an untrusted file, so that its nesting is bounded
before it is handed to the recursive JSON parser.
-/

namespace TurboAgent.Manifest

open JsonText

def maxDepth : Nat := 8

/-- The loop of `bounded_json` over what is left of the text. -/
def boundedFrom (depth : Nat) (quoted escaped : Bool) : Bytes → Bool
  | [] => !quoted && depth == 0
  | c :: rest =>
      if c = 0 then false
      else if quoted then
        if escaped then boundedFrom depth quoted false rest
        else if c = backslash then boundedFrom depth quoted true rest
        else if c = quote then boundedFrom depth false escaped rest
        else boundedFrom depth quoted escaped rest
      else if c = quote then boundedFrom depth true escaped rest
      else if isOpen c then
        if depth + 1 > maxDepth then false else boundedFrom (depth + 1) quoted escaped rest
      else if isClose c then
        if depth = 0 then false else boundedFrom (depth - 1) quoted escaped rest
      else boundedFrom depth quoted escaped rest

/-- `bounded_json`. -/
def boundedJson (s : Bytes) : Bool :=
  boundedFrom 0 false false s

section Steps

variable {depth : Nat} {byte : UInt8} {rest : Bytes}

theorem boundedFrom_plain (plain : isPlain byte = true) :
    boundedFrom depth false false (byte :: rest) = boundedFrom depth false false rest := by
  obtain ⟨nonzero, notQuote, notOpen, notClose⟩ := isPlain_iff.mp plain
  rw [boundedFrom, if_neg nonzero, if_neg Bool.false_ne_true, if_neg notQuote,
    if_neg (ne_true_of_eq_false notOpen), if_neg (ne_true_of_eq_false notClose)]

theorem boundedFrom_open (opens : isOpen byte = true) :
    boundedFrom depth false false (byte :: rest) =
      if depth + 1 > maxDepth then false else boundedFrom (depth + 1) false false rest := by
  obtain ⟨nonzero, notQuote, -⟩ := isOpen_apart opens
  rw [boundedFrom, if_neg nonzero, if_neg Bool.false_ne_true, if_neg notQuote,
    if_pos opens]

theorem boundedFrom_close (closes : isClose byte = true) :
    boundedFrom (depth + 1) false false (byte :: rest) = boundedFrom depth false false rest := by
  obtain ⟨nonzero, notQuote, notOpen⟩ := isClose_apart closes
  rw [boundedFrom, if_neg nonzero, if_neg Bool.false_ne_true, if_neg notQuote,
    if_neg (ne_true_of_eq_false notOpen), if_pos closes, if_neg (Nat.succ_ne_zero depth),
    Nat.add_sub_cancel]

theorem boundedFrom_quoted {body : Bytes} (quoted : Quoted body) :
    boundedFrom depth true false (body ++ quote :: rest) = boundedFrom depth false false rest := by
  induction quoted with
  | nil =>
      have apart : quote ≠ 0 ∧ quote ≠ backslash := by decide
      rw [List.nil_append, boundedFrom, if_neg apart.1, if_pos rfl, if_neg Bool.false_ne_true,
        if_neg apart.2, if_pos rfl]
  | plain nonzero notQuote notBackslash _ ih =>
      rw [List.cons_append, boundedFrom, if_neg nonzero, if_pos rfl, if_neg Bool.false_ne_true,
        if_neg notBackslash, if_neg notQuote, ih]
  | escape nonzero _ ih =>
      have apart : backslash ≠ 0 := by decide
      rw [List.cons_append, List.cons_append, boundedFrom, if_neg apart, if_pos rfl,
        if_neg Bool.false_ne_true, if_pos rfl, boundedFrom,
        if_neg nonzero, if_pos rfl, if_pos rfl, ih]

end Steps

/-- A nested text leaves the scanner at the depth at which it came to it, if it fits below the
bound. -/
theorem boundedFrom_nested {text : Bytes} {inner : Nat} (nested : Nested text inner)
    {depth : Nat} (within : depth ≤ maxDepth) (rest : Bytes) :
    boundedFrom depth false false (text ++ rest) =
      if depth + inner ≤ maxDepth then boundedFrom depth false false rest else false := by
  induction nested generalizing depth rest with
  | nil => rw [Nat.add_zero, if_pos within, List.nil_append]
  | plain plain =>
      rw [Nat.add_zero, if_pos within, List.singleton_append, boundedFrom_plain plain]
  | quoted quoted =>
      have apart : quote ≠ 0 := by decide
      rw [Nat.add_zero, if_pos within, List.cons_append, List.append_assoc, boundedFrom,
        if_neg apart, if_neg Bool.false_ne_true, if_pos rfl,
        List.singleton_append, boundedFrom_quoted quoted]
  | append _ _ leftIh rightIh =>
      rw [List.append_assoc, leftIh within, rightIh within]
      split_ifs <;> first | rfl | omega
  | bracket opens _ closes ih =>
      rw [List.cons_append, List.append_assoc, boundedFrom_open opens]
      split_ifs with exceeds fits fits
      · omega
      · rfl
      · rw [ih (by omega), if_pos (by omega), List.singleton_append, boundedFrom_close closes]
      · rw [ih (by omega), if_neg (by omega)]

theorem boundedJson_nested {text : Bytes} {depth : Nat} (nested : Nested text depth) :
    boundedJson text = true ↔ depth ≤ maxDepth := by
  have scanned := boundedFrom_nested nested (Nat.zero_le maxDepth) []
  rw [List.append_nil, Nat.zero_add] at scanned
  rw [boundedJson, scanned]
  by_cases fits : depth ≤ maxDepth
  · rw [if_pos fits]
    exact iff_of_true rfl fits
  · rw [if_neg fits]
    exact iff_of_false Bool.false_ne_true fits

/-- For every JSON text the gate accepts exactly if its objects and arrays nest at most eight
deep. -/
theorem boundedJson_exact {text : Bytes} {depth : Nat} (document : DocumentText text depth) :
    boundedJson text = true ↔ depth ≤ 8 :=
  boundedJson_nested document.nested

/-- `["[\"{"]`. -/
def quotedBrackets : Bytes :=
  ascii ['[', '"', '[', '\\', '"', '{', '"', ']']

theorem quotedBrackets_body : StringBody (ascii ['[', '\\', '"', '{']) :=
  .unescaped (by decide) (by decide) (by decide)
    (.escape (.inl rfl) (.unescaped (by decide) (by decide) (by decide) .nil))

theorem quotedBrackets_document : DocumentText quotedBrackets 1 := by
  have blank : Blank [] := List.forall_mem_nil _
  have isString : StringText (ascii ['"', '[', '\\', '"', '{', '"']) :=
    ⟨_, quotedBrackets_body, rfl⟩
  have element : Derives .elements ([] ++ ascii ['"', '[', '\\', '"', '{', '"'] ++ []) 0 :=
    .lastElement blank (.string isString) blank
  exact ⟨[], quotedBrackets, [], blank, .array element, blank, rfl⟩

theorem boundedJson_exact_sample : boundedJson quotedBrackets = true ↔ 1 ≤ 8 :=
  boundedJson_exact quotedBrackets_document

end TurboAgent.Manifest
