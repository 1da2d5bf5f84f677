import TurboAgent.Provider.Sse

/-!
# Events written as frames

A stream of events is a list of lines: data, other fields and empty lines.  The loop over its frames
ends, and reads back the events that do not begin with an empty line of data.
-/

namespace TurboAgent.Provider

/-! ## The loop over frames -/

/-- The loop over the frames of a text, for so many rounds; none if it has not ended by then. -/
def frameLoop : (rounds : Nat) → List Char → Option (List (List Char))
  | _, [] => some []
  | 0, _ :: _ => none
  | rounds + 1, ch :: rest =>
      let (frame, after) := breakFrame (ch :: rest)
      if frame = [] then frameLoop rounds after
      else (frameLoop rounds after).map (frame :: ·)

theorem frameLoop_ends {rounds : Nat} : ∀ {text : List Char}, text.length ≤ rounds →
    frameLoop rounds text = some (framesOf text) := by
  induction rounds with
  | zero =>
      intro text enough
      rw [List.eq_nil_of_length_eq_zero (Nat.le_zero.mp enough)]
      rfl
  | succ rounds ih =>
      intro text enough
      cases text with
      | nil => rfl
      | cons ch rest =>
          have shorter := breakFrame_length (List.cons_ne_nil ch rest)
          cases broken : breakFrame (ch :: rest) with
          | mk frame after =>
              rw [broken] at shorter
              rw [frameLoop, broken, framesOf_broken (List.cons_ne_nil ch rest) broken]
              simp only [ih (Nat.le_of_lt_succ (Nat.lt_of_lt_of_le shorter enough)),
                Option.map_some]
              split <;> rfl

def frameData (frame : List Char) : List (List Char) :=
  (frame.splitOn '\n').filterMap dataValue

/-- The data of the events of a stream: what is collected from the frames with a data line. -/
def recovered (bytes : List Char) : List (List Char) :=
  ((framesOf (normalizeNewlines bytes)).filter fun frame => frameData frame ≠ []).map
    collectEventData

/-! ## Streams of lines -/

/-- The line is what it says, and can stand in a stream. -/
def Line.Writable : Line → Prop
  | .other text => text ≠ [] ∧ (∀ ch ∈ text, ch ≠ '\n' ∧ ch ≠ '\r' ∧ ch ≠ '\x00') ∧
      dataValue text = none
  | .data _ value =>
      (∀ ch ∈ value, ch ≠ '\n' ∧ ch ≠ '\r' ∧ ch ≠ '\x00') ∧ value.head? ≠ some ' '

/-- Lines that hold the events: each is a run of lines, up to an empty line or the end, and its
data lines are those of the run.  A run may have no data. -/
inductive Written : List (List (List Char)) → List (Option Line) → Prop where
  | nil : Written [] []
  | blank {events : List (List (List Char))} {stream : List (Option Line)} :
      Written events stream → Written events (none :: stream)
  | event {events : List (List (List Char))} {stream : List (Option Line)} {lines : List Line} :
      (∀ line ∈ lines, line.Writable) → lines ≠ [] → (∀ next ∈ stream.head?, next = none) →
      Written events stream →
      Written ((if lines.filterMap Line.data? = [] then [] else [lines.filterMap Line.data?]) ++
        events) (lines.map some ++ stream)

/-- The characters of a line, which may be empty. -/
def lineChars (line : Option Line) : List Char :=
  (line.map Line.chars).getD []

def lineEnd (crlf : Bool) : List Char :=
  if crlf then ['\r', '\n'] else ['\n']

/-- The bytes of a stream, with an end of its own after each line but the last one. -/
def streamText : List (Bool × Option Line) → List Char
  | [] => []
  | [(_, line)] => lineChars line
  | (crlf, line) :: next :: stream =>
      lineChars line ++ lineEnd crlf ++ streamText (next :: stream)

/-- The text of a stream without carriage returns. -/
def plainText (stream : List (Option Line)) : List Char :=
  List.intercalate ['\n'] (stream.map lineChars)

section

variable {events : List (List (List Char))} {stream : List (Option Line)} {lines : List Line}
variable {line : Line}

theorem Line.Writable.chars (writable : line.Writable) :
    ∀ ch ∈ line.chars, ch ≠ '\n' ∧ ch ≠ '\r' ∧ ch ≠ '\x00' := by
  cases line with
  | other text => exact writable.2.1
  | data spaced value =>
      intro ch member
      have field : ∀ ch ∈ ['d', 'a', 't', 'a', ':', ' '], ch ≠ '\n' ∧ ch ≠ '\r' ∧ ch ≠ '\x00' := by
        simp
      cases spaced with
      | true =>
          rcases List.mem_append.mp member with front | inner
          · exact field ch front
          · exact writable.1 ch inner
      | false =>
          rcases List.mem_append.mp member with front | inner
          · exact field ch (List.mem_append_left [' '] front)
          · exact writable.1 ch inner

theorem Line.Writable.filled (writable : line.Writable) : '\n' ∉ line.chars ∧ line.chars ≠ [] := by
  refine ⟨fun member => (writable.chars _ member).1 rfl, ?_⟩
  cases line with
  | other text => exact writable.1
  | data spaced value => cases spaced <;> simp [Line.chars]

theorem Line.Writable.dataValue_chars (writable : line.Writable) :
    dataValue line.chars = line.data? := by
  cases line with
  | other text => exact writable.2.2
  | data spaced value =>
      cases spaced with
      | true => rfl
      | false => exact dataValue_unspaced writable.2

theorem Written.writable (written : Written events stream) :
    ∀ line, some line ∈ stream → line.Writable := by
  induction written with
  | nil => simp
  | blank _ ih =>
      intro line member
      rcases List.mem_cons.mp member with same | later
      · cases same
      · exact ih line later
  | event writable _ _ _ ih =>
      intro line member
      rcases List.mem_append.mp member with inner | later
      · obtain ⟨same, known, equal⟩ := List.mem_map.mp inner
        cases equal
        exact writable line known
      · exact ih line later

/-! ## Reading -/

theorem plainText_singleton (line : Option Line) : plainText [line] = lineChars line := by
  rw [plainText, List.map_singleton, List.intercalate_singleton]

theorem plainText_cons (line next : Option Line) (stream : List (Option Line)) :
    plainText (line :: next :: stream) = lineChars line ++ '\n' :: plainText (next :: stream) := by
  rw [plainText, List.map_cons, List.map_cons, List.intercalate_cons_cons, List.append_assoc]
  rfl

theorem lineChars_plain {line : Option Line} (writable : ∀ inner, line = some inner → inner.Writable) :
    ∀ ch ∈ lineChars line, ch ≠ '\n' ∧ ch ≠ '\r' ∧ ch ≠ '\x00' := by
  cases line with
  | none => exact List.forall_mem_nil _
  | some inner => exact (writable inner rfl).chars

theorem normalizeNewlines_streamText {stream : List (Bool × Option Line)}
    (writable : ∀ line, some line ∈ stream.map Prod.snd → line.Writable) :
    (streamText stream).filter (· ≠ '\r') = plainText (stream.map Prod.snd) ∧
      '\x00' ∉ plainText (stream.map Prod.snd) := by
  have plain : ∀ entry ∈ stream, ∀ ch ∈ lineChars entry.2, ch ≠ '\n' ∧ ch ≠ '\r' ∧ ch ≠ '\x00' :=
    fun entry member => lineChars_plain fun inner same =>
      writable inner (same ▸ List.mem_map_of_mem member)
  clear writable
  have kept : ∀ entry ∈ stream, (lineChars entry.2).filter (· ≠ '\r') = lineChars entry.2 :=
    fun entry member => List.filter_eq_self.mpr fun ch inner =>
      decide_eq_true (plain entry member ch inner).2.1
  fun_induction streamText stream with
  | case1 => exact ⟨rfl, List.not_mem_nil⟩
  | case2 crlf line =>
      rw [List.map_singleton, plainText_singleton]
      refine ⟨kept _ (List.mem_singleton_self _), fun nul => ?_⟩
      exact (plain _ (List.mem_singleton_self _) _ nul).2.2 rfl
  | case3 crlf line next stream ih =>
      obtain ⟨text, noNul⟩ := ih (fun entry member => plain entry (List.mem_cons_of_mem _ member))
        (fun entry member => kept entry (List.mem_cons_of_mem _ member))
      have ending : (lineEnd crlf).filter (· ≠ '\r') = ['\n'] := by cases crlf <;> decide
      rw [List.map_cons, List.map_cons, plainText_cons, List.filter_append, List.filter_append,
        kept _ List.mem_cons_self, ending, text, List.append_assoc]
      refine ⟨rfl, fun nul => ?_⟩
      rcases List.mem_append.mp nul with here | later
      · exact (plain _ List.mem_cons_self _ here).2.2 rfl
      · rcases List.mem_cons.mp later with newline | rest
        · cases newline
        · exact noNul rest

def dataOf (text : List Char) : List (List (List Char)) :=
  ((framesOf text).map frameData).filter (· ≠ [])

theorem frameData_newline (frame : List Char) : frameData ('\n' :: frame) = frameData frame := by
  have split : ('\n' :: frame).splitOn '\n' = [] :: frame.splitOn '\n' := by
    simp [List.splitOn, List.splitOnP_cons_eq_if_splitOnPPrepend]
  rw [frameData, split, List.filterMap_cons_none rfl]
  rfl

theorem dataOf_newline (text : List Char) : dataOf ('\n' :: text) = dataOf text := by
  induction length : text.length using Nat.strong_induction_on generalizing text with
  | _ size ih =>
      cases text with
      | nil => decide
      | cons ch rest =>
          by_cases newline : ch = '\n'
          · subst newline
            have first : framesOf ('\n' :: '\n' :: rest) = framesOf rest := by
              rw [framesOf_broken (List.cons_ne_nil _ _) (by rw [breakFrame]), if_pos rfl]
            rw [dataOf, first]
            exact (ih rest.length (by rw [← length, List.length_cons]; omega) rest rfl).symm
          · -- the empty line goes into the frame that follows
            have broken : breakFrame (ch :: rest) =
                (ch :: (breakFrame rest).1, (breakFrame rest).2) :=
              @breakFrame_line [ch] (by simpa using Ne.symm newline) rest
            have whole := framesOf_broken (List.cons_ne_nil ch rest) broken
            have led := framesOf_broken (List.cons_ne_nil '\n' (ch :: rest))
              (breakFrame_newline newline rest)
            rw [if_neg (List.cons_ne_nil _ _)] at whole led
            rw [dataOf, dataOf, led, whole, broken, List.map_cons, List.map_cons,
              frameData_newline]

theorem frameData_lines {lines : List (List Char)} (plain : ∀ line ∈ lines, '\n' ∉ line)
    (some : lines ≠ []) :
    frameData (List.intercalate ['\n'] lines) = lines.filterMap dataValue := by
  rw [frameData, List.splitOn_intercalate _ plain some]

theorem filterMap_chars (writable : ∀ line ∈ lines, line.Writable) :
    (lines.map Line.chars).filterMap dataValue = lines.filterMap Line.data? := by
  rw [List.filterMap_map]
  exact List.filterMap_congr fun line member => (writable line member).dataValue_chars

theorem plainText_append (some : lines ≠ []) {line : Option Line} :
    plainText (lines.map Option.some ++ line :: stream) =
      List.intercalate ['\n'] (lines.map Line.chars) ++ '\n' :: plainText (line :: stream) := by
  induction lines with
  | nil => exact absurd rfl some
  | cons first lines ih =>
      cases lines with
      | nil =>
          rw [List.map_singleton, List.singleton_append, plainText_cons, List.map_singleton,
            List.intercalate_singleton]
          rfl
      | cons second lines =>
          have rest := ih (List.cons_ne_nil _ _)
          simp only [List.map_cons, List.cons_append] at rest ⊢
          rw [plainText_cons, rest, List.intercalate_cons_cons]
          simp [lineChars]

theorem plainText_lines (lines : List Line) :
    plainText (lines.map some) = List.intercalate ['\n'] (lines.map Line.chars) := by
  rw [plainText, List.map_map]
  rfl

theorem breakFrame_end : breakFrame ['\n'] = (['\n'], []) := by
  decide

theorem dataOf_broken {text frame rest : List Char} (filled : frame ≠ [])
    (broken : breakFrame text = (frame, rest)) :
    dataOf text = (if frameData frame = [] then [] else [frameData frame]) ++ dataOf rest := by
  have some : text ≠ [] := by
    rintro rfl
    cases broken
    exact filled rfl
  rw [dataOf, framesOf_broken some broken, if_neg filled, List.map_cons, List.filter_cons]
  split
  next data => rw [if_neg (of_decide_eq_true data)]; rfl
  next empty =>
    rw [if_pos (by simpa using empty)]
    rfl

theorem dataOf_lines (writable : ∀ line ∈ lines, line.Writable) (some : lines ≠ [])
    (ended : ∀ next ∈ stream.head?, next = none) :
    dataOf (plainText (lines.map Option.some ++ stream)) =
      (if lines.filterMap Line.data? = [] then [] else [lines.filterMap Line.data?]) ++
        dataOf (plainText stream) := by
  have plain : ∀ line ∈ lines.map Line.chars, '\n' ∉ line ∧ line ≠ [] := by
    intro line member
    obtain ⟨line, known, rfl⟩ := List.mem_map.mp member
    exact (writable line known).filled
  have some' : lines.map Line.chars ≠ [] := by simpa using some
  have filled := intercalate_ne_nil some' fun line member => (plain line member).2
  have read : frameData (List.intercalate ['\n'] (lines.map Line.chars)) =
      lines.filterMap Line.data? := by
    rw [frameData_lines (fun line member => (plain line member).1) some', filterMap_chars writable]
  have broken := breakFrame_lines plain
  cases stream with
  | nil =>
      rw [List.append_nil, plainText_lines]
      have here := broken []
      rw [List.append_nil, breakFrame, List.append_nil] at here
      rw [dataOf_broken filled here, read]
      rfl
  | cons next stream =>
      obtain rfl := ended next rfl
      rw [plainText_append some]
      cases stream with
      | nil =>
          -- the text ends with the line
          have here := broken ['\n']
          rw [breakFrame_end] at here
          have text : List.intercalate ['\n'] (lines.map Line.chars ++ [[]]) =
              List.intercalate ['\n'] (lines.map Line.chars) ++ ['\n'] := by
            have appended := @plainText_append [] lines some none
            rw [plainText_singleton, plainText, List.map_append, List.map_map] at appended
            exact appended
          have read' : frameData (List.intercalate ['\n'] (lines.map Line.chars) ++ ['\n']) =
              lines.filterMap Line.data? := by
            rw [← text, frameData_lines, List.filterMap_append, filterMap_chars writable]
            · exact List.append_nil _
            · exact List.forall_mem_append.mpr ⟨fun line inner => (plain line inner).1,
                  List.forall_mem_singleton.mpr List.not_mem_nil⟩
            · simp
          change dataOf (List.intercalate ['\n'] (lines.map Line.chars) ++ ['\n']) = _
          rw [dataOf_broken (by simp) here, read']
          rfl
      | cons next stream =>
          rw [plainText_cons]
          have here := broken ('\n' :: '\n' :: plainText (next :: stream))
          rw [breakFrame, List.append_nil] at here
          change dataOf (List.intercalate ['\n'] (lines.map Line.chars) ++
            '\n' :: '\n' :: plainText (next :: stream)) = _
          rw [dataOf_broken filled here, read]
          congr 1
          exact (dataOf_newline _).symm

theorem plainText_blank (stream : List (Option Line)) :
    dataOf (plainText (none :: stream)) = dataOf (plainText stream) := by
  cases stream with
  | nil => rfl
  | cons next stream =>
      rw [plainText_cons]
      exact dataOf_newline _

theorem dataOf_written (written : Written events stream) : dataOf (plainText stream) = events := by
  induction written with
  | nil => rfl
  | blank _ ih => rw [plainText_blank, ih]
  | event writable some ended _ ih => rw [dataOf_lines writable some ended, ih]

/-! ## Joining -/

/-- The data lines of an event, joined by a line feed. -/
def joined (event : List (List Char)) : List Char :=
  List.intercalate ['\n'] event

def gather (data value : List Char) : List Char :=
  (if data = [] then [] else data ++ ['\n']) ++ value

theorem collectEventData_eq (frame : List Char) :
    collectEventData frame = (frameData frame).foldl gather [] := by
  rw [collectEventData, frameData, List.foldl_filterMap]
  congr 1
  funext data line
  rw [collectLine]
  cases dataValue line <;> rfl

theorem foldl_gather {data : List Char} (filled : data ≠ []) (event : List (List Char)) :
    event.foldl gather data = joined (data :: event) := by
  induction event generalizing data with
  | nil => exact (List.intercalate_singleton ..).symm
  | cons value event ih =>
      rw [List.foldl_cons, gather, if_neg filled, ih (by simp [filled]), joined, joined,
        List.intercalate_cons_cons]
      cases event with
      | nil => simp
      | cons next event => simp [List.intercalate_cons_cons]

theorem joined_length_cons (value : List Char) {event : List (List Char)} (some : event ≠ []) :
    (joined (value :: event)).length = value.length + 1 + (joined event).length := by
  obtain ⟨next, event, rfl⟩ := List.exists_cons_of_ne_nil some
  rw [joined, List.intercalate_cons_cons, List.length_append, List.length_append]
  rfl

theorem foldl_gather_length (event : List (List Char)) :
    (event.foldl gather []).length ≤ (joined event).length := by
  induction event with
  | nil => exact Nat.le_refl _
  | cons value event ih =>
      by_cases empty : value = []
      · subst empty
        cases event with
        | nil => exact Nat.zero_le _
        | cons next event =>
            rw [joined_length_cons [] (List.cons_ne_nil next event)]
            exact Nat.le_trans ih (Nat.le_add_left ..)
      · rw [List.foldl_cons, gather, if_pos rfl, List.nil_append, foldl_gather empty]

/-- What the loop collects is the joined event, unless empty lines stand before others. -/
theorem foldl_gather_iff (event : List (List Char)) :
    event.foldl gather [] = joined event ↔ event.length ≤ 1 ∨ event.head? ≠ some [] := by
  rcases event with _ | ⟨value, _ | ⟨next, event⟩⟩
  · exact iff_of_true rfl (.inl (Nat.zero_le 1))
  · refine iff_of_true ?_ (.inl (Nat.le_refl 1))
    exact (List.intercalate_singleton ..).symm
  · by_cases empty : value = []
    · subst empty
      refine iff_of_false (fun same => ?_) (by simp)
      have shorter := foldl_gather_length (next :: event)
      have lengths := congrArg List.length same
      rw [joined_length_cons [] (List.cons_ne_nil next event), List.foldl_cons, gather, if_pos rfl,
        List.nil_append] at lengths
      omega
    · refine iff_of_true ?_ (.inr (by simpa using empty))
      rw [List.foldl_cons, gather, if_pos rfl, List.nil_append, foldl_gather empty]

theorem recovered_streamText {stream : List (Bool × Option Line)}
    (written : Written events (stream.map Prod.snd)) :
    recovered (streamText stream) = events.map fun event => event.foldl gather [] := by
  obtain ⟨text, plain⟩ := normalizeNewlines_streamText written.writable
  have normalized : normalizeNewlines (streamText stream) = plainText (stream.map Prod.snd) := by
    rw [normalizeNewlines, text]
    refine List.takeWhile_eq_self_iff.mpr fun ch member => decide_eq_true ?_
    rintro rfl
    exact plain member
  have collected : collectEventData = (fun event => event.foldl gather []) ∘ frameData :=
    funext collectEventData_eq
  rw [recovered, normalized, collected, ← List.map_map, ← dataOf_written written, dataOf,
    List.filter_map]
  rfl

end

/-- The loop over frames ends for every text.  It reads back the events of a stream if and only if
none of them has an empty line of data before others. -/
theorem recovered_written {events : List (List (List Char))} {stream : List (Bool × Option Line)}
    (written : Written events (stream.map Prod.snd)) :
    (∀ text rounds, text.length ≤ rounds → frameLoop rounds text = some (framesOf text)) ∧
    (recovered (streamText stream) = events.map joined ↔
      ∀ event ∈ events, event.length ≤ 1 ∨ event.head? ≠ some []) := by
  refine ⟨fun text rounds => frameLoop_ends, ?_⟩
  rw [recovered_streamText written, List.map_inj_left]
  exact forall₂_congr fun event _ => foldl_gather_iff event

def sampleStream : List (Bool × Option Line) :=
  [(true, some (.data false [])), (false, some (.data true ['x'])), (false, none)]

theorem sampleStream_written : Written [[[], ['x']]] (sampleStream.map Prod.snd) :=
  @Written.event [] [none] [.data false [], .data true ['x']] (by simp [Line.Writable]) (by simp)
    (by simp) (.blank .nil)

theorem recovered_written_sample :
    recovered (streamText sampleStream) = [joined [[], ['x']]] ↔
      ∀ event ∈ [[[], ['x']]], event.length ≤ 1 ∨ event.head? ≠ some ([] : List Char) :=
  (recovered_written sampleStream_written).2

/-- The empty line is lost. -/
theorem recovered_loses : ¬ ∀ events stream, Written events (stream.map Prod.snd) →
    recovered (streamText stream) = events.map joined := by
  intro all
  have same := all _ _ sampleStream_written
  exact absurd same (by decide)

end TurboAgent.Provider
