import TurboAgent.Data.Json

/-!
# Server-sent events

A provider streams a response as frames: lines of which the ones that start with `data:`
carry a document, ended by an empty line.  The readers of the provider drop carriage
returns, cut the text at empty lines and join the data lines of a frame.

Parsing and serialization of JSON are parameters.  Memory is not exhausted.
-/

namespace TurboAgent.Provider

/-- `json_serialize` and `json_parse`. -/
structure JsonCodec where
  serialize : Json → CString
  parse : String → Option Json

/-- `json_get_int`. -/
def getInt (record : Json) (key : String) (default : Int) : Int :=
  match record.field key with
  | some (.number mantissa exponent) => mantissa.tdiv (10 ^ exponent)
  | _ => default

/-! ## Compact text -/

def quote (text : String) : List Char :=
  let escaped := text.toList.flatMap fun ch => if ch = '"' ∨ ch = '\\' then ['\\', ch] else [ch]
  '"' :: escaped ++ ['"']

mutual
def render : Json → List Char
  | .null => "null".toList
  | .bool value => (if value then "true" else "false").toList
  | .number mantissa exponent =>
      (toString mantissa).toList ++ if exponent = 0 then [] else "e-".toList ++ (toString exponent).toList
  | .string text => quote text
  | .array elements => '[' :: renderList elements ++ [']']
  | .object fields => '\x7b' :: renderFields fields ++ ['\x7d']

def renderList : List Json → List Char
  | [] => []
  | [value] => render value
  | value :: values => render value ++ ',' :: renderList values

def renderFields : List (String × Json) → List Char
  | [] => []
  | [(key, value)] => quote key ++ ':' :: render value
  | (key, value) :: fields => quote key ++ ':' :: render value ++ ',' :: renderFields fields
end

def knownCodec (known : List Json) : JsonCodec where
  serialize value :=
    let text := String.ofList (render value)
    if plain : noNul text = true then ⟨text, plain⟩ else ⟨"", noNul_empty⟩
  parse text := known.find? fun value => String.ofList (render value) == text

theorem knownCodec_parse (known : List Json) (chars : List Char) :
    (knownCodec known).parse (String.ofList chars) =
      known.find? fun value => render value == chars := by
  simp only [knownCodec]
  congr 1
  funext value
  rw [Bool.eq_iff_iff, beq_iff_eq, beq_iff_eq]
  exact ⟨fun same => by simpa using congrArg String.toList same, fun same => by rw [same]⟩

theorem knownCodec_faithful (known : List Json) (value : Json)
    (plain : (render value).contains '\x00' = false)
    (found : (known.find? fun other => render other == render value) = some value) :
    (knownCodec known).parse ((knownCodec known).serialize value).val = some value := by
  have text : noNul (String.ofList (render value)) = true := by
    simpa [noNul] using plain
  have written : ((knownCodec known).serialize value).val = String.ofList (render value) := by
    simp [knownCodec, text]
  rw [written, knownCodec_parse, found]

/-! ## Reading frames -/

/-- `turbo_agent_sse_normalize_newlines` and `turbo_provider_normalize_sse_newlines`; what follows
is a C string. -/
def normalizeNewlines (bytes : List Char) : List Char :=
  (bytes.filter (· ≠ '\r')).takeWhile (· ≠ '\x00')

/-- The text up to the first empty line, and what follows it. -/
def breakFrame : List Char → List Char × List Char
  | [] => ([], [])
  | '\n' :: '\n' :: rest => ([], rest)
  | ch :: rest =>
      let (frame, after) := breakFrame rest
      (ch :: frame, after)

/-- The frames of a text.  Every round takes a character, so its length is enough rounds. -/
def frames : (rounds : Nat) → List Char → List (List Char)
  | 0, _ => []
  | _, [] => []
  | rounds + 1, cursor =>
      let (frame, rest) := breakFrame cursor
      if frame = [] then frames rounds rest else frame :: frames rounds rest

/-- The value of a line that starts with `data:`. -/
def dataValue : List Char → Option (List Char)
  | 'd' :: 'a' :: 't' :: 'a' :: ':' :: value =>
      match value with
      | ' ' :: rest => some rest
      | _ => some value
  | _ => none

/-- One line of `turbo_agent_sse_collect_event_data`. -/
def collectLine (data line : List Char) : List Char :=
  match dataValue line with
  | none => data
  | some value => (if data = [] then [] else data ++ ['\n']) ++ value

/-- `turbo_agent_sse_collect_event_data` and `turbo_provider_collect_sse_event_data`. -/
def collectEventData (frame : List Char) : List Char :=
  (frame.splitOn '\n').foldl collectLine []

/-! ## Writing frames -/

/-- A line of a frame: one of another field, or data with or without a space before it. -/
inductive Line where
  | other (text : List Char)
  | data (spaced : Bool) (value : List Char)

namespace Line

def chars : Line → List Char
  | .other text => text
  | .data true value => ['d', 'a', 't', 'a', ':', ' '] ++ value
  | .data false value => ['d', 'a', 't', 'a', ':'] ++ value

def data? : Line → Option (List Char)
  | .other _ => none
  | .data _ value => some value

def Plain : Line → Prop
  | .other text => text ≠ [] ∧ '\n' ∉ text ∧ dataValue text = none
  | .data spaced value => value ≠ [] ∧ '\n' ∉ value ∧ (spaced = true ∨ value.head? ≠ some ' ')

end Line

def frameChars (lines : List Line) : List Char :=
  List.intercalate ['\n'] (lines.map Line.chars) ++ ['\n', '\n']

def payload (lines : List Line) : List Char :=
  List.intercalate ['\n'] (lines.filterMap Line.data?)

structure PlainFrame (lines : List Line) : Prop where
  plain : ∀ line ∈ lines, line.Plain
  some : lines ≠ []

/-! ## Reading what was written -/

section Frames

variable {line : Line}

theorem Line.Plain.newline (plain : line.Plain) : '\n' ∉ line.chars := by
  cases line with
  | other text => exact plain.2.1
  | data spaced value =>
      cases spaced with
      | true =>
          rw [chars, List.mem_append, not_or]
          exact ⟨by decide, plain.2.1⟩
      | false =>
          rw [chars, List.mem_append, not_or]
          exact ⟨by decide, plain.2.1⟩

theorem Line.Plain.chars_ne_nil (plain : line.Plain) : line.chars ≠ [] := by
  cases line with
  | other text => exact plain.1
  | data spaced value => cases spaced <;> simp [chars]

theorem dataValue_unspaced {value : List Char} (head : value.head? ≠ some ' ') :
    dataValue (Line.data false value).chars = some value := by
  change dataValue ('d' :: 'a' :: 't' :: 'a' :: ':' :: value) = some value
  rw [dataValue]
  intro rest same
  rw [same] at head
  exact head rfl

theorem Line.Plain.dataValue_chars (plain : line.Plain) : dataValue line.chars = line.data? := by
  cases line with
  | other text => exact plain.2.2
  | data spaced value =>
      cases spaced with
      | true => rfl
      | false =>
          obtain ⟨_, _, unspaced⟩ := plain
          exact dataValue_unspaced (by simpa using unspaced)

theorem breakFrame_line {line : List Char} (plain : '\n' ∉ line) (rest : List Char) :
    breakFrame (line ++ rest) = (line ++ (breakFrame rest).1, (breakFrame rest).2) := by
  induction line with
  | nil => rfl
  | cons ch line ih =>
      simp only [List.mem_cons, not_or] at plain
      rw [List.cons_append, breakFrame, ih plain.2]
      · rfl
      · intro tail first
        exact absurd first.symm plain.1

theorem breakFrame_newline {ch : Char} (other : ch ≠ '\n') (rest : List Char) :
    breakFrame ('\n' :: ch :: rest) =
      ('\n' :: (breakFrame (ch :: rest)).1, (breakFrame (ch :: rest)).2) := by
  rw [breakFrame]
  intro tail _ second
  simp only [List.cons.injEq] at second
  exact other second.1

theorem breakFrame_lines {lines : List (List Char)}
    (plain : ∀ line ∈ lines, '\n' ∉ line ∧ line ≠ []) (rest : List Char) :
    breakFrame (List.intercalate ['\n'] lines ++ rest) =
      (List.intercalate ['\n'] lines ++ (breakFrame rest).1, (breakFrame rest).2) := by
  induction lines with
  | nil => rfl
  | cons line lines ih =>
      obtain ⟨newline, filled⟩ := plain line List.mem_cons_self
      cases lines with
      | nil =>
          rw [List.intercalate_singleton]
          exact breakFrame_line newline rest
      | cons next lines =>
          have rest' := ih fun line member => plain line (List.mem_cons_of_mem _ member)
          obtain ⟨newline', filled'⟩ := plain next (by simp)
          obtain ⟨ch, tail, nextChars⟩ := List.exists_cons_of_ne_nil filled'
          have other : ch ≠ '\n' := by
            intro same
            rw [nextChars, same] at newline'
            simp at newline'
          obtain ⟨tail', joined⟩ : ∃ tail',
              List.intercalate ['\n'] (next :: lines) = ch :: tail' := by
            cases lines with
            | nil => exact ⟨tail, by simp [nextChars]⟩
            | cons third lines =>
                exact ⟨tail ++ '\n' :: List.intercalate ['\n'] (third :: lines), by
                  rw [List.intercalate_cons_cons, nextChars]
                  simp⟩
          rw [List.intercalate_cons_cons, List.append_assoc, List.append_assoc,
            breakFrame_line newline]
          rw [joined] at rest' ⊢
          rw [List.singleton_append, List.cons_append, breakFrame_newline other,
            ← List.cons_append, rest']
          simp

variable {text : List Char}

theorem breakFrame_length (some : text ≠ []) : (breakFrame text).2.length < text.length := by
  fun_induction breakFrame text with
  | case1 => exact absurd rfl some
  | case2 rest =>
      simp only [List.length_cons]
      omega
  | case3 ch rest others frame after broken ih =>
      rw [broken] at ih
      cases rest with
      | nil =>
          simp only [breakFrame, Prod.mk.injEq] at broken
          simp [← broken.2]
      | cons next rest => exact Nat.lt_succ_of_lt (ih (by simp))

theorem frames_enough {rounds : Nat} (enough : text.length ≤ rounds) :
    frames rounds text = frames text.length text := by
  induction rounds using Nat.strong_induction_on generalizing text with
  | _ rounds ih =>
      cases text with
      | nil => cases rounds <;> rfl
      | cons ch rest =>
          cases rounds with
          | zero => simp at enough
          | succ rounds =>
              have shorter := breakFrame_length (List.cons_ne_nil ch rest)
              rw [List.length_cons] at enough shorter
              have here := ih rounds (Nat.lt_succ_self _)
                (Nat.le_trans (Nat.le_of_lt_succ shorter) (Nat.le_of_succ_le_succ enough))
              have there : frames rest.length (breakFrame (ch :: rest)).2 =
                  frames (breakFrame (ch :: rest)).2.length (breakFrame (ch :: rest)).2 := by
                rcases Nat.lt_or_eq_of_le (Nat.le_of_succ_le_succ enough) with less | same
                · exact ih rest.length (Nat.lt_succ_of_lt less) (Nat.le_of_lt_succ shorter)
                · rw [same]
                  exact here
              rw [List.length_cons, frames, frames]
              · simp only [here, there]
              · simp
              · simp

def framesOf (text : List Char) : List (List Char) :=
  frames text.length text

theorem intercalate_ne_nil {texts : List (List Char)} (some : texts ≠ [])
    (filled : ∀ text ∈ texts, text ≠ []) : List.intercalate ['\n'] texts ≠ [] := by
  cases texts with
  | nil => exact absurd rfl some
  | cons text texts =>
      have first := filled text List.mem_cons_self
      cases texts with
      | nil => simpa using first
      | cons next texts => simp [List.intercalate_cons_cons]

@[simp] theorem framesOf_nil : framesOf [] = [] := rfl

theorem framesOf_broken {frame rest : List Char} (some : text ≠ [])
    (broken : breakFrame text = (frame, rest)) :
    framesOf text = if frame = [] then framesOf rest else frame :: framesOf rest := by
  have shorter := breakFrame_length some
  obtain ⟨ch, tail, rfl⟩ := List.exists_cons_of_ne_nil some
  rw [broken, List.length_cons] at shorter
  rw [framesOf, List.length_cons, frames]
  · simp only [broken, frames_enough (Nat.le_of_lt_succ shorter), framesOf]
  · simp

variable {lines : List Line}

theorem framesOf_frame (plain : PlainFrame lines) (rest : List Char) :
    framesOf (frameChars lines ++ rest) =
      List.intercalate ['\n'] (lines.map Line.chars) :: framesOf rest := by
  have chars : ∀ line ∈ lines.map Line.chars, '\n' ∉ line ∧ line ≠ [] := by
    intro line member
    obtain ⟨line, known, rfl⟩ := List.mem_map.mp member
    exact ⟨(plain.plain line known).newline, (plain.plain line known).chars_ne_nil⟩
  have broken := breakFrame_lines chars ('\n' :: '\n' :: rest)
  rw [breakFrame, List.append_nil] at broken
  have filled : List.intercalate ['\n'] (lines.map Line.chars) ≠ [] :=
    intercalate_ne_nil (by simpa using plain.some) fun line member => (chars line member).2
  have text : frameChars lines ++ rest =
      List.intercalate ['\n'] (lines.map Line.chars) ++ '\n' :: '\n' :: rest := by
    simp [frameChars]
  rw [text, framesOf_broken (by simp) broken, if_neg filled]

theorem foldl_collectLine (plain : ∀ line ∈ lines, line.Plain) (data : List Char)
    (filled : data ≠ []) :
    (lines.map Line.chars).foldl collectLine data =
      List.intercalate ['\n'] (data :: lines.filterMap Line.data?) := by
  induction lines generalizing data with
  | nil => simp
  | cons line lines ih =>
      have here := (plain line List.mem_cons_self).dataValue_chars
      have rest := fun line member => plain line (List.mem_cons_of_mem _ member)
      rw [List.map_cons, List.foldl_cons, collectLine, here]
      cases value : line.data? with
      | none =>
          rw [List.filterMap_cons_none value]
          exact ih rest data filled
      | some value' =>
          rw [List.filterMap_cons_some value, List.intercalate_cons_cons]
          simp only [if_neg filled]
          rw [ih rest _ (by simp [filled])]
          cases lines.filterMap Line.data? with
          | nil => simp
          | cons next others => simp [List.intercalate_cons_cons]

theorem collectEventData_frame (plain : PlainFrame lines) :
    collectEventData (List.intercalate ['\n'] (lines.map Line.chars)) = payload lines := by
  have newlines : ∀ line ∈ lines.map Line.chars, '\n' ∉ line := by
    intro line member
    obtain ⟨line, known, rfl⟩ := List.mem_map.mp member
    exact (plain.plain line known).newline
  have some : lines.map Line.chars ≠ [] := by simpa using plain.some
  rw [collectEventData, List.splitOn_intercalate _ newlines some, payload]
  clear some newlines
  obtain ⟨plain, -⟩ := plain
  -- lines before the first data line leave the buffer empty
  induction lines with
  | nil => rfl
  | cons line lines ih =>
      have here := plain line List.mem_cons_self
      have rest := fun line member => plain line (List.mem_cons_of_mem _ member)
      rw [List.map_cons, List.foldl_cons, collectLine, here.dataValue_chars]
      cases line with
      | other text => exact ih rest
      | data spaced value =>
          have filled : value ≠ [] := here.1
          simp only [Line.data?, if_true, List.nil_append]
          rw [foldl_collectLine rest value filled]
          rfl

end Frames

end TurboAgent.Provider
