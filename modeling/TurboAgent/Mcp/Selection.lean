import TurboAgent.Mcp.Response

/-!
# Which message of a stream is the response

The events of a stream are what stands between its empty lines, whatever its lines end with; the
last event needs no empty line behind it.  The first event that carries the message decides, and
it does so as the message would by itself.
-/

namespace TurboAgent.Mcp

open Runtime

/-! ## The events of a stream -/

/-- The lines of a stream, which end with a line feed or with a carriage return and a line feed. -/
def streamLines (body : Bytes) : List Bytes :=
  (body.splitOn 10).map stripReturn

/-- The events that are made up of lines: the values of their data lines. -/
def eventsOf (lines : List Bytes) : List (List Bytes) :=
  (lines.splitOnP (· == [])).map fun event => event.filterMap dataValue

/-- The data of an event: its values, with a line feed between two of them. -/
def joined (values : List Bytes) : Bytes :=
  [10].intercalate values

/-- The data of the first event that is a message with the id. -/
def selected (reader : JsonReader) (requestId : UInt64) (events : List (List Bytes)) :
    Option Bytes :=
  (events.map joined).find? fun data => (reader.parse data).any (carries reader requestId)

@[simp] theorem joined_nil : joined [] = [] := rfl

theorem joined_append {values : List Bytes} (filled : values ≠ []) (value : Bytes) :
    joined (values ++ [value]) = joined values ++ 10 :: value := by
  induction values with
  | nil => exact absurd rfl filled
  | cons first values ih =>
      cases values with
      | nil => simp [joined]
      | cons second values =>
          have rest := ih (by simp)
          change [10].intercalate (first :: second :: (values ++ [value])) =
            [10].intercalate (first :: second :: values) ++ 10 :: value
          rw [List.intercalate_cons_cons, List.intercalate_cons_cons, List.append_assoc _ _ (_ :: _)]
          exact congrArg (first ++ [10] ++ ·) rest

@[simp] theorem eventsOf_nil : eventsOf [] = [[]] := rfl

theorem eventsOf_empty (lines : List Bytes) : eventsOf ([] :: lines) = [] :: eventsOf lines := by
  rw [eventsOf, List.splitOnP_cons_eq_if_modifyHead]
  rfl

variable {line : Bytes}

theorem eventsOf_line (filled : line ≠ []) (lines : List Bytes) :
    eventsOf (line :: lines) =
      (eventsOf lines).modifyHead ((dataValue line).toList ++ ·) := by
  have other : (line == ([] : Bytes)) = false := beq_eq_false_iff_ne.mpr filled
  rw [eventsOf, eventsOf, List.splitOnP_cons_eq_if_modifyHead, other, if_neg (by decide)]
  cases List.splitOnP (· == ([] : Bytes)) lines with
  | nil => rfl
  | cons event events =>
      rw [List.modifyHead_cons, List.map_cons, List.map_cons, List.modifyHead_cons,
        List.filterMap_cons]
      cases dataValue line <;> rfl

theorem streamLines_cases (rest : Bytes) :
    streamLines rest = stripReturn (firstLine rest) :: streamLines (afterLine rest) ∨
      (streamLines rest = [stripReturn (firstLine rest)] ∧ afterLine rest = []) := by
  by_cases ended : 10 ∈ rest
  · left
    obtain ⟨line, after, split, clean⟩ := List.eq_append_cons_of_mem ended
    subst split
    have first : firstLine (line ++ 10 :: after) = line := by
      rw [firstLine, List.takeWhile_append_of_pos, List.takeWhile_cons_of_neg (by decide),
        List.append_nil]
      intro byte member
      exact decide_eq_true fun same => clean (same ▸ member)
    have behind : afterLine (line ++ 10 :: after) = after := by
      rw [afterLine, first, List.drop_append, List.drop_of_length_le (Nat.le_succ _)]
      simp
    rw [streamLines, List.splitOn_append_cons_self_of_not_mem clean, first, behind]
    rfl
  · right
    have all : firstLine rest = rest := by
      refine List.takeWhile_eq_self_iff.mpr fun byte member => ?_
      exact decide_eq_true fun same => ended (same ▸ member)
    rw [streamLines, List.splitOn_eq_singleton ended, afterLine, all]
    exact ⟨rfl, List.drop_eq_nil_of_le (Nat.le_succ _)⟩

/-! ## The data of an event -/

section

variable {reader : JsonReader} {requestId : UInt64}

/-- The data that the loop has gathered of the values of an event: line feeds in front are
missing. -/
def Gathers (values : List Bytes) (eventData : Bytes) : Prop :=
  ∃ count, joined values = List.replicate count 10 ++ eventData

theorem Gathers.nil : Gathers [] [] :=
  ⟨0, rfl⟩

theorem Gathers.append {values : List Bytes} {eventData : Bytes} (gathers : Gathers values eventData)
    (value : Bytes) : Gathers (values ++ [value]) (appendData eventData value) := by
  obtain ⟨count, same⟩ := gathers
  by_cases first : values = []
  · subst first
    have none : eventData = [] := (List.append_eq_nil_iff.mp same.symm).2
    exact ⟨0, by rw [none]; simp [joined, appendData]⟩
  · rw [Gathers, joined_append first, same, appendData]
    split
    next none =>
      refine ⟨count + 1, ?_⟩
      rw [none, List.append_nil, List.nil_append, List.replicate_succ', List.append_assoc]
      rfl
    next => exact ⟨count, by simp⟩

theorem parse_gathers {values : List Bytes} {eventData : Bytes} (gathers : Gathers values eventData) :
    reader.parse (joined values) = reader.parse eventData := by
  obtain ⟨count, same⟩ := gathers
  rw [same]
  clear same
  induction count with
  | zero => rfl
  | succ count ih => rw [List.replicate_succ, List.cons_append, reader.parse_newline, ih]

/-- Data with one more value is longer by the value and at most a line feed. -/
theorem appendData_length (eventData value : Bytes) :
    (appendData eventData value).length ≤ eventData.length + 1 + value.length := by
  rw [appendData, List.length_append]
  split
  next => exact Nat.add_le_add_right (Nat.zero_le _) _
  next => exact Nat.le_of_eq (by simp)

theorem dataValue_length {value : Bytes} (carried : dataValue line = some value) :
    value.length + 5 ≤ line.length := by
  have some_prefix : (asciiBytes "data:").length = 5 := rfl
  unfold dataValue at carried
  split at carried
  next begins =>
    have long := (List.isPrefixOf_iff_prefix.mp begins).length_le
    have left : (line.drop 5).length = line.length - 5 := List.length_drop
    split at carried
    next value' spaced =>
      cases carried
      rw [spaced, List.length_cons] at left
      omega
    next =>
      cases carried
      omega
  next => cases carried

theorem stripReturn_length (line : Bytes) : (stripReturn line).length ≤ line.length := by
  unfold stripReturn
  split
  next => exact (List.dropLast_prefix line).length_le
  next => exact Nat.le_refl _

theorem afterLine_room {rest : Bytes} (filled : firstLine rest ≠ []) :
    (firstLine rest).length + (afterLine rest).length ≤ rest.length := by
  have short : (firstLine rest).length ≤ rest.length :=
    (List.takeWhile_prefix fun byte => decide (byte ≠ 10)).length_le
  have some_byte := List.length_pos_of_ne_nil filled
  rw [afterLine, List.length_drop]
  omega

/-! ## The loop -/

/-- What the parser for messages makes of data that is a message, where a failure is not silent. -/
def answer (reader : JsonReader) (requestId : UInt64) (data : Bytes) : Parsed :=
  match (reader.parse data).map (responseMatches reader requestId) with
  | some (.found result) => ⟨.ok, some result, []⟩
  | some (.failed message) => streamFailure .error message
  | _ => streamFailure .error []

def outcome (reader : JsonReader) (requestId : UInt64) (events : List (List Bytes)) : Parsed :=
  ((selected reader requestId events).map (answer reader requestId)).getD (streamFailure .error [])

variable {root : Json}

theorem responseMatches_other :
    responseMatches reader requestId root = .other ↔ carries reader requestId root = false := by
  unfold responseMatches
  split
  next other => exact iff_of_true rfl other
  next => split <;> simp_all

theorem outcome_cons {values : List Bytes} {eventData : Bytes} (gathers : Gathers values eventData)
    (events : List (List Bytes)) : outcome reader requestId (values :: events) =
      (dispatch reader requestId eventData).getD (outcome reader requestId events) := by
  have parsed : reader.parse (joined values) = reader.parse eventData := parse_gathers gathers
  have found : selected reader requestId (values :: events) =
      if (reader.parse eventData).any (carries reader requestId) then some (joined values)
      else selected reader requestId events := by
    rw [selected, List.map_cons, List.find?_cons, parsed]
    cases (reader.parse eventData).any (carries reader requestId) <;> rfl
  rw [outcome, found, dispatch]
  by_cases empty : eventData = []
  · rw [if_pos empty, empty, reader.parse_nil]
    rfl
  · rw [if_neg empty]
    cases document : reader.parse eventData with
    | none => rfl
    | some root =>
        simp only [Option.any_some]
        by_cases carried : carries reader requestId root = true
        · rw [if_pos carried, Option.map_some, Option.getD_some, answer, parsed, document,
            Option.map_some]
          cases matched : responseMatches reader requestId root with
          | other => exact absurd (carried.symm.trans (responseMatches_other.mp matched)) (by decide)
          | failed message => rfl
          | found result => rfl
        · rw [if_neg carried, responseMatches_other.mpr (Bool.eq_false_iff.mpr carried)]
          rfl

theorem outcome_end : outcome reader requestId (eventsOf (streamLines [])) =
    streamFailure .error [] := by
  have none : eventsOf (streamLines []) = [[], []] := rfl
  rw [none, outcome_cons Gathers.nil, outcome_cons Gathers.nil]
  rfl

/-- The first event is made up of the values so far and those of the lines up to an empty one. -/
def gathered (values lines : List Bytes) : List (List Bytes) :=
  (eventsOf lines).modifyHead (values ++ ·)

theorem gathered_nil (lines : List Bytes) : gathered [] lines = eventsOf lines := by
  rw [gathered]
  cases eventsOf lines <;> rfl

theorem gathered_empty (values lines : List Bytes) :
    gathered values ([] :: lines) = values :: eventsOf lines := by
  rw [gathered, eventsOf_empty, List.modifyHead_cons, List.append_nil]

theorem gathered_line (values : List Bytes) (filled : line ≠ []) (lines : List Bytes) :
    gathered values (line :: lines) = gathered (values ++ (dataValue line).toList) lines := by
  rw [gathered, gathered, eventsOf_line filled]
  cases eventsOf lines with
  | nil => rfl
  | cons event events =>
      rw [List.modifyHead_cons, List.modifyHead_cons, List.modifyHead_cons, List.append_assoc]

theorem outcome_lines {values : List Bytes} {eventData : Bytes} (gathers : Gathers values eventData)
    (rest : Bytes) : outcome reader requestId (gathered values (streamLines rest)) =
      outcome reader requestId
        (gathered values (stripReturn (firstLine rest) :: streamLines (afterLine rest))) := by
  have ends : ∀ {values eventData}, Gathers values eventData →
      outcome reader requestId (gathered values []) =
        outcome reader requestId (gathered values (streamLines [])) := by
    intro values eventData gathers
    have gone : gathered values [] = [values] := by
      rw [gathered, eventsOf_nil, List.modifyHead_cons, List.append_nil]
    have ended : gathered values (streamLines []) = values :: [[]] := gathered_empty values []
    rw [gone, ended, outcome_cons gathers, outcome_cons gathers, outcome_cons Gathers.nil]
    rfl
  rcases streamLines_cases rest with more | ⟨last, ended⟩
  · rw [more]
  · rw [last, ended]
    by_cases empty : stripReturn (firstLine rest) = []
    · rw [empty, gathered_empty, gathered_empty, outcome_cons gathers, outcome_cons gathers,
        outcome_end, eventsOf_nil, outcome_cons Gathers.nil]
      rfl
    · rw [gathered_line values empty, gathered_line values empty]
      cases dataValue (stripReturn (firstLine rest)) with
      | none => exact ends (by simpa using gathers)
      | some value => exact ends (gathers.append value)

/-- The loop comes to what the events come to: the values so far belong to the first one. -/
theorem sseLoop_eq {maxResponseBytes : Nat} (rest : Bytes) {values : List Bytes} {eventData : Bytes}
    (gathers : Gathers values eventData) (fits : eventData.length + rest.length ≤ maxResponseBytes) :
    sseLoop reader maxResponseBytes requestId rest eventData =
      outcome reader requestId (gathered values (streamLines rest)) := by
  rw [sseLoop]
  rw [outcome_lines gathers rest]
  split
  next empty =>
    rw [empty, gathered_empty, outcome_cons gathers]
    cases dispatch reader requestId eventData with
    | some parsed => rfl
    | none =>
        simp only [Option.getD_none]
        split
        next last =>
          rw [last]
          exact outcome_end.symm
        next more =>
          have some_rest : rest ≠ [] := fun gone => more (by rw [gone, afterLine_nil])
          have shorter := afterLine_lt some_rest
          rw [sseLoop_eq (afterLine rest) Gathers.nil (by simp; omega), gathered_nil]
  next filled =>
    have line : firstLine rest ≠ [] := fun gone => filled (by rw [gone]; rfl)
    have some_rest : rest ≠ [] := fun gone => line (by rw [gone, firstLine_nil])
    have room := afterLine_room line
    have shorter := afterLine_lt some_rest
    rw [gathered_line values filled]
    cases carried : dataValue (stripReturn (firstLine rest)) with
    | none =>
        simp only
        rw [sseLoop_eq (afterLine rest) gathers (by omega)]
        simp
    | some value =>
        have short := dataValue_length carried
        have stripped := stripReturn_length (firstLine rest)
        have longer := appendData_length eventData value
        simp only
        rw [if_neg (by omega), sseLoop_eq (afterLine rest) (gathers.append value) (by omega)]
        rfl
termination_by rest.length

/-- The answer of a message is that of the parser for messages, with some text for a failure. -/
theorem answer_eq {data : Bytes} (document : reader.parse data = some root)
    (carried : carries reader requestId root = true) :
    (answer reader requestId data).status = (parseJsonResponse reader requestId data).status ∧
    (answer reader requestId data).result = (parseJsonResponse reader requestId data).result ∧
    ((parseJsonResponse reader requestId data).lastError ≠ [] →
      (answer reader requestId data).lastError =
        (parseJsonResponse reader requestId data).lastError) := by
  have filled : data ≠ [] := by
    intro empty
    rw [empty, reader.parse_nil] at document
    cases document
  rw [answer, parseJsonResponse, if_neg filled, document, Option.map_some]
  cases matched : responseMatches reader requestId root with
  | other => exact absurd (carried.symm.trans (responseMatches_other.mp matched)) (by decide)
  | found result => simp [matched]
  | failed message =>
      simp only [matched]
      exact ⟨rfl, rfl, fun filled => if_neg filled⟩

theorem parseJsonResponse_error {data : Bytes} {error : Json}
    (document : reader.parse data = some root) (carried : carries reader requestId root = true)
    (failed : root.field "error" = some error) :
    (parseJsonResponse reader requestId data).status = .error := by
  have filled : data ≠ [] := by
    intro empty
    rw [empty, reader.parse_nil] at document
    cases document
  have matched : responseMatches reader requestId root = .failed (errorMessage error) := by
    rw [responseMatches, carried, if_neg (by decide), failed]
  rw [parseJsonResponse, if_neg filled, document]
  simp only [matched]
  rfl

end

/-- The first event that is a message with the id decides, as the message would by itself; without
one the stream fails. -/
theorem parseSseResponse_selects (reader : JsonReader) (maxResponseBytes : Nat) (requestId : UInt64)
    (body : Bytes) (fits : body.length ≤ maxResponseBytes) :
    (∀ data, selected reader requestId (eventsOf (streamLines body)) = some data →
      (parseSseResponse reader maxResponseBytes requestId body).status =
        (parseJsonResponse reader requestId data).status ∧
      (parseSseResponse reader maxResponseBytes requestId body).result =
        (parseJsonResponse reader requestId data).result ∧
      ((parseJsonResponse reader requestId data).lastError ≠ [] →
        (parseSseResponse reader maxResponseBytes requestId body).lastError =
          (parseJsonResponse reader requestId data).lastError) ∧
      ∀ root error, reader.parse data = some root → root.field "error" = some error →
        (parseSseResponse reader maxResponseBytes requestId body).status = .error) ∧
    (selected reader requestId (eventsOf (streamLines body)) = none →
      parseSseResponse reader maxResponseBytes requestId body =
        failure .error (asciiBytes "MCP SSE stream contained no matching response")) := by
  have result : parseSseResponse reader maxResponseBytes requestId body =
      outcome reader requestId (eventsOf (streamLines body)) := by
    rw [parseSseResponse, sseLoop_eq body Gathers.nil (by simpa using fits), gathered_nil]
  rw [result, outcome]
  constructor
  · intro data chosen
    have found : (reader.parse data).any (carries reader requestId) = true :=
      List.find?_some (p := fun data => (reader.parse data).any (carries reader requestId)) chosen
    obtain ⟨root, document, carried⟩ := (Option.any_eq_true _ _).mp found
    obtain ⟨status, result, text⟩ := answer_eq document carried
    rw [chosen, Option.map_some, Option.getD_some]
    refine ⟨status, result, text, fun other error same failed => ?_⟩
    obtain rfl := Option.some.inj (document.symm.trans same)
    exact status.trans (parseJsonResponse_error document carried failed)
  · intro none
    rw [none]
    rfl

def sampleMessage : Json :=
  .object [("jsonrpc", .string "2.0"), ("id", .int 1), ("result", .bool true)]

/-- A reader that knows one document, of the text `x`. -/
def sampleReader : JsonReader where
  parse text := if text.dropWhile (· == 10) = [120] then some sampleMessage else none
  numberText
    | .number mantissa _ => decimal mantissa.toNat
    | _ => []
  parse_newline text := by rw [List.dropWhile_cons_of_pos rfl]
  parse_nil := rfl

/-- A stream of another event and of the message, without an empty line at its end. -/
def sampleBody : Bytes :=
  [58, 13, 10, 13, 10] ++ asciiBytes "data: x"

theorem parseSseResponse_selects_sample :
    (∀ data, selected sampleReader 1 (eventsOf (streamLines sampleBody)) = some data →
      (parseSseResponse sampleReader 64 1 sampleBody).status =
        (parseJsonResponse sampleReader 1 data).status) ∧
    (selected sampleReader 1 (eventsOf (streamLines sampleBody)) = none →
      parseSseResponse sampleReader 64 1 sampleBody =
        failure .error (asciiBytes "MCP SSE stream contained no matching response")) :=
  have selects := parseSseResponse_selects sampleReader 64 1 sampleBody (by decide)
  ⟨fun data chosen => (selects.1 data chosen).1, selects.2⟩

example : selected sampleReader 1 (eventsOf (streamLines sampleBody)) = some [120] := by
  decide

end TurboAgent.Mcp
