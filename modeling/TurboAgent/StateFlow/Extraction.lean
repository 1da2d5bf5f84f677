import TurboAgent.Data.JsonText

/-!
# The JSON value in a model's answer

`turbo_agent_state_flow.c`: a plan that does not parse as a whole is searched for its first JSON
object or array.  The scanner counts both kinds of brackets with one `int`.
-/

namespace TurboAgent.StateFlow

open JsonText

/-- `INT_MAX`. -/
def intMax : Nat := 2147483647

structure Scanner where
  seenStart : Bool
  (start depth : Nat)
  (inString escaped : Bool)
  deriving DecidableEq

/-- How the scanner ends: with a copy, with `NULL`, or by counting beyond the range of an `int`,
which C leaves undefined. -/
inductive Extracted where
  | copy (text : Bytes)
  | nothing
  | overflow
  deriving DecidableEq

/-- The loop of `turbo_agent_state_extract_first_json_value_local` over what is left of the text.
The depth is positive after the start, so that it can be decremented. -/
def extractFrom (text : Bytes) (i : Nat) (scanner : Scanner) : Bytes → Extracted
  | [] => .nothing
  | ch :: rest =>
      if ch = 0 then .nothing
      else if !scanner.seenStart then
        if isOpen ch then
          extractFrom text (i + 1) { scanner with seenStart := true, start := i, depth := 1 } rest
        else extractFrom text (i + 1) scanner rest
      else if scanner.inString then
        if scanner.escaped then extractFrom text (i + 1) { scanner with escaped := false } rest
        else if ch = backslash then
          extractFrom text (i + 1) { scanner with escaped := true } rest
        else if ch = quote then extractFrom text (i + 1) { scanner with inString := false } rest
        else extractFrom text (i + 1) scanner rest
      else if ch = quote then extractFrom text (i + 1) { scanner with inString := true } rest
      else if isOpen ch then
        if scanner.depth = intMax then .overflow
        else extractFrom text (i + 1) { scanner with depth := scanner.depth + 1 } rest
      else if isClose ch then
        if scanner.depth - 1 = 0 then
          .copy ((text.drop scanner.start).take (i + 1 - scanner.start))
        else extractFrom text (i + 1) { scanner with depth := scanner.depth - 1 } rest
      else extractFrom text (i + 1) scanner rest

def Scanner.initial : Scanner :=
  { seenStart := false, start := 0, depth := 0, inString := false, escaped := false }

/-- `turbo_agent_state_extract_first_json_value_local`: a text ends at its first zero byte, or at
the end of the list. -/
def extractFirstJsonValue (text : Bytes) : Extracted :=
  extractFrom text 0 .initial text

def Scanner.inside (start depth : Nat) : Scanner :=
  { seenStart := true, start, depth, inString := false, escaped := false }

def Scanner.within (start depth : Nat) : Scanner :=
  { seenStart := true, start, depth, inString := true, escaped := false }

section Steps

variable {text : Bytes} {i start depth : Nat} {ch : UInt8} {rest : Bytes}

theorem extractFrom_plain (plain : isPlain ch = true) :
    extractFrom text i (.inside start depth) (ch :: rest) =
      extractFrom text (i + 1) (.inside start depth) rest := by
  obtain ⟨nonzero, notQuote, notOpen, notClose⟩ := isPlain_iff.mp plain
  simp only [extractFrom, Scanner.inside, nonzero, notQuote, notOpen, notClose, if_false,
    Bool.not_true, Bool.false_eq_true]

theorem extractFrom_open (opens : isOpen ch = true) :
    extractFrom text i (.inside start depth) (ch :: rest) =
      if depth = intMax then .overflow
      else extractFrom text (i + 1) (.inside start (depth + 1)) rest := by
  obtain ⟨nonzero, notQuote, -⟩ := isOpen_apart opens
  simp only [extractFrom, Scanner.inside, nonzero, notQuote, opens, if_false, if_true,
    Bool.not_true, Bool.false_eq_true]
  rfl

theorem extractFrom_close (closes : isClose ch = true) :
    extractFrom text i (.inside start depth) (ch :: rest) =
      if depth - 1 = 0 then .copy ((text.drop start).take (i + 1 - start))
      else extractFrom text (i + 1) (.inside start (depth - 1)) rest := by
  obtain ⟨nonzero, notQuote, notOpen⟩ := isClose_apart closes
  simp only [extractFrom, Scanner.inside, nonzero, notQuote, notOpen, closes, if_false, if_true,
    Bool.not_true, Bool.false_eq_true]
  rfl

theorem extractFrom_quote :
    extractFrom text i (.inside start depth) (quote :: rest) =
      extractFrom text (i + 1) (.within start depth) rest := by
  have nonzero : quote ≠ 0 := by decide
  simp only [extractFrom, Scanner.inside, Scanner.within, nonzero, if_false, if_true,
    Bool.not_true, Bool.false_eq_true]

theorem extractFrom_quoted {body : Bytes} (quoted : Quoted body) :
    extractFrom text i (.within start depth) (body ++ quote :: rest) =
      extractFrom text (i + (body.length + 1)) (.inside start depth) rest := by
  induction quoted generalizing i with
  | nil =>
      have apart : quote ≠ 0 ∧ quote ≠ backslash := by decide
      simp only [List.nil_append, extractFrom, Scanner.inside, Scanner.within, apart.1, apart.2,
        if_false, if_true, Bool.not_true, Bool.false_eq_true, List.length_nil, Nat.zero_add]
  | @plain byte _ nonzero notQuote notBackslash _ ih =>
      have step : ∀ tail, extractFrom text i (.within start depth) (byte :: tail) =
          extractFrom text (i + 1) (.within start depth) tail := fun tail => by
        simp only [extractFrom, Scanner.within, nonzero, notQuote, notBackslash, if_false, if_true,
          Bool.not_true, Bool.false_eq_true]
      rw [List.cons_append, step, ih, List.length_cons]
      congr 1
      omega
  | @escape byte _ nonzero _ ih =>
      have apart : backslash ≠ 0 := by decide
      have step : ∀ tail, extractFrom text i (.within start depth) (backslash :: byte :: tail) =
          extractFrom text (i + 1 + 1) (.within start depth) tail := fun tail => by
        simp only [extractFrom, Scanner.within, nonzero, apart, if_false, if_true,
          Bool.not_true, Bool.false_eq_true]
      rw [List.cons_append, List.cons_append, step, ih, List.length_cons, List.length_cons]
      congr 1
      omega

end Steps

/-- A nested text behind the start leaves the scanner at the depth at which it came to it, if the
counter can hold its depth. -/
theorem extractFrom_nested {text part : Bytes} {inner : Nat} (nested : Nested part inner)
    {start depth : Nat} (positive : 0 < depth) (within : depth ≤ intMax) (i : Nat) (rest : Bytes) :
    extractFrom text i (.inside start depth) (part ++ rest) =
      if depth + inner ≤ intMax then
        extractFrom text (i + part.length) (.inside start depth) rest
      else .overflow := by
  induction nested generalizing depth i rest with
  | nil => rw [Nat.add_zero, if_pos within, List.nil_append, List.length_nil, Nat.add_zero]
  | plain plain =>
      rw [Nat.add_zero, if_pos within, List.singleton_append, extractFrom_plain plain,
        List.length_singleton]
  | quoted quoted =>
      rw [Nat.add_zero, if_pos within, List.cons_append, List.append_assoc, extractFrom_quote,
        List.singleton_append, extractFrom_quoted quoted, List.length_cons, List.length_append,
        List.length_singleton]
      congr 1
      omega
  | append _ _ leftIh rightIh =>
      rw [List.append_assoc, leftIh positive within, rightIh positive within, List.length_append,
        ← Nat.add_assoc]
      split_ifs <;> first | rfl | omega
  | bracket opens _ closes ih =>
      rw [List.cons_append, List.append_assoc, extractFrom_open opens]
      split_ifs with exceeds fits fits
      · omega
      · rfl
      · rw [ih (by omega) (by omega), if_pos (by omega), List.singleton_append,
          extractFrom_close closes, if_neg (by omega), Nat.add_sub_cancel, List.length_cons,
          List.length_append, List.length_singleton]
        congr 1
        omega
      · rw [ih (by omega) (by omega), if_neg (by omega)]

theorem extractFrom_skip {text before : Bytes}
    (skipped : before.all (fun ch => ch != 0 && !isOpen ch) = true) {scanner : Scanner}
    (unseen : scanner.seenStart = false) (i : Nat) (rest : Bytes) :
    extractFrom text i scanner (before ++ rest) =
      extractFrom text (i + before.length) scanner rest := by
  induction before generalizing i with
  | nil => rfl
  | cons ch others ih =>
      simp only [List.all_cons, Bool.and_eq_true, bne_iff_ne, Bool.not_eq_true'] at skipped
      rw [List.cons_append, extractFrom, if_neg skipped.1.1, unseen, if_pos Bool.not_false,
        if_neg (ne_true_of_eq_false skipped.1.2), ih (by simpa using skipped.2), List.length_cons]
      congr 1
      omega

/-- The whole scan over a text in which an object or an array follows a text without brackets. -/
theorem extractFirstJsonValue_embedded {before json after : Bytes} {depth : Nat}
    (skipped : before.all (fun ch => ch != 0 && !isOpen ch) = true)
    (container : ContainerText json depth) :
    extractFirstJsonValue (before ++ json ++ after) =
      if depth ≤ intMax then .copy json else .overflow := by
  obtain ⟨first, inner, last, innerDepth, opens, nested, closes, shape, rfl⟩ :=
    container.bracketed
  have nonzero := (isOpen_apart opens).1
  have copied : ((before ++ json ++ after).drop before.length).take
      (before.length + 1 + inner.length + 1 - before.length) = json := by
    have size : before.length + 1 + inner.length + 1 - before.length = json.length := by
      rw [shape, List.length_cons, List.length_append, List.length_singleton]
      omega
    rw [List.append_assoc, List.drop_left, size, List.take_left]
  have started : ∀ tail, extractFrom (before ++ json ++ after) before.length .initial
      (first :: tail) =
        extractFrom (before ++ json ++ after) (before.length + 1)
          (.inside before.length 1) tail := fun tail => by
    simp only [extractFrom, Scanner.initial, Scanner.inside, nonzero, opens, if_false, if_true,
      Bool.not_false]
  have unfolded : extractFirstJsonValue (before ++ json ++ after) =
      extractFrom (before ++ json ++ after) 0 .initial
        (before ++ first :: (inner ++ last :: after)) := by
    apply congrArg (extractFrom (before ++ json ++ after) 0 .initial)
    rw [shape]
    simp only [List.append_assoc, List.cons_append, List.nil_append]
  rw [unfolded, extractFrom_skip skipped rfl, Nat.zero_add, started,
    extractFrom_nested nested Nat.one_pos (by decide), Nat.add_comm 1 innerDepth]
  split_ifs
  · rw [extractFrom_close closes, if_pos rfl, copied]
  · rfl

/-- The extraction gives back exactly the embedded object or array, whatever is around it, if and
only if an `int` can count its nesting. -/
theorem extractFirstJsonValue_exact_iff {before json after : Bytes} {depth : Nat}
    (text : 0 ∉ before) (noBracket : asciiByte '{' ∉ before ∧ asciiByte '[' ∉ before)
    (container : ContainerText json depth) :
    extractFirstJsonValue (before ++ json ++ after) = .copy json ↔ depth ≤ 2147483647 := by
  have skipped : before.all (fun ch => ch != 0 && !isOpen ch) = true := by
    rw [List.all_eq_true]
    intro ch member
    rw [Bool.and_eq_true, bne_iff_ne, Bool.not_eq_true', Bool.eq_false_iff]
    refine ⟨fun zero => text (zero ▸ member), fun opens => ?_⟩
    rcases isOpen_iff.mp opens with rfl | rfl
    · exact noBracket.1 member
    · exact noBracket.2 member
  rw [extractFirstJsonValue_embedded skipped container]
  by_cases counted : depth ≤ intMax
  · rw [if_pos counted]
    exact iff_of_true rfl counted
  · rw [if_neg counted]
    exact iff_of_false (by rintro ⟨⟩) counted

theorem extractFirstJsonValue_exact_iff_sample :
    extractFirstJsonValue (ascii ['-', ' '] ++ ascii ['[', '"', ']', '"', ']'] ++ ascii ['!', ']'])
      = .copy (ascii ['[', '"', ']', '"', ']']) ↔ 1 ≤ 2147483647 := by
  have blank : Blank [] := List.forall_mem_nil _
  have isString : StringText (ascii ['"', ']', '"']) :=
    ⟨_, .unescaped (by decide) (by decide) (by decide) .nil, rfl⟩
  have element : Derives .elements ([] ++ ascii ['"', ']', '"'] ++ []) 0 :=
    .lastElement blank (.string isString) blank
  exact extractFirstJsonValue_exact_iff (by decide) (by decide)
    ⟨.array element, _, rfl, by decide⟩

/-! ## Nesting that an `int` cannot count -/

def nestedArrays (depth : Nat) : Bytes :=
  List.replicate depth (asciiByte '[') ++ List.replicate depth (asciiByte ']')

theorem nestedArrays_succ (depth : Nat) :
    nestedArrays (depth + 1) = asciiByte '[' :: (nestedArrays depth ++ [asciiByte ']']) := by
  rw [nestedArrays, nestedArrays, List.replicate_succ, List.replicate_succ', List.cons_append,
    List.append_assoc]

theorem nestedArrays_value (depth : Nat) : ValueText (nestedArrays (depth + 1)) (depth + 1) := by
  have blank : Blank [] := List.forall_mem_nil _
  induction depth with
  | zero => exact .emptyArray blank
  | succ depth ih =>
      rw [nestedArrays_succ]
      have element := Derives.lastElement blank ih blank
      rw [List.nil_append, List.append_nil] at element
      exact .array element

theorem nestedArrays_container (depth : Nat) :
    ContainerText (nestedArrays (depth + 1)) (depth + 1) := by
  refine ⟨nestedArrays_value depth, asciiByte '[', ?_, by decide⟩
  rw [nestedArrays_succ]
  rfl

/-- Nested one level deeper than an `int` can count, arrays are not extracted. -/
theorem extractFirstJsonValue_overflows :
    ¬ ∀ (before json after : Bytes) (depth : Nat), 0 ∉ before →
      asciiByte '{' ∉ before ∧ asciiByte '[' ∉ before → ContainerText json depth →
      extractFirstJsonValue (before ++ json ++ after) = .copy json := by
  intro claim
  have copied := claim [] (nestedArrays 2147483648) [] 2147483648 (by decide) (by decide)
    (nestedArrays_container 2147483647)
  rw [extractFirstJsonValue_embedded rfl (nestedArrays_container 2147483647),
    if_neg (by decide)] at copied
  cases copied

end TurboAgent.StateFlow
