import TurboAgent.Codex.Stdio
import TurboAgent.Logic.Lines

/-!
# Lines of the transport

The lines that are read are the lines that were sent, however they arrive, as long as no chunk
brings the buffer above its limit.  The limit is one of the whole buffer and not of a line, so
whether lines are read depends on where the chunks fall.
-/

namespace TurboAgent.Codex

open Logic.Lines

variable {maxLineBytes : Nat} {input : List UInt8} {wakes : List Wake}

def Wake.chunk : Wake → Option (List UInt8)
  | .arrived chunk _ => some chunk.1
  | _ => none

def chunksOf (wakes : List Wake) : List (List UInt8) := wakes.filterMap Wake.chunk

/-- The bytes that are still to be read as lines. -/
def remaining (input : List UInt8) (wakes : List Wake) : List UInt8 :=
  input ++ (chunksOf wakes).flatten

/-- Every chunk fits behind the bytes of the line that it goes on with. -/
def Fits (limit : Nat) : (start : List UInt8) → List (List UInt8) → Prop
  | _, [] => True
  | start, chunk :: chunks => start.length + chunk.length ≤ limit ∧
      Fits limit (unended lineFeed (start ++ chunk)) chunks

def FitsAt (maxLineBytes : Nat) (input : List UInt8) (wakes : List Wake) : Prop :=
  Fits (bufferLimit maxLineBytes) (unended lineFeed input) (chunksOf wakes)

/-- Chunks fit exactly if each of them fits behind what those before it have left. -/
theorem fits_iff {limit : Nat} {start : List UInt8} {chunks : List (List UInt8)} :
    Fits limit (unended lineFeed start) chunks ↔
      ∀ before chunk after, chunks = before ++ chunk :: after →
        (unended lineFeed (start ++ before.flatten)).length + chunk.length ≤ limit := by
  induction chunks generalizing start with
  | nil => simp [Fits]
  | cons first chunks ih =>
      rw [Fits, ← unended_append, ih]
      constructor
      · rintro ⟨fits, later⟩ before chunk after split
        cases before with
        | nil =>
            obtain ⟨rfl, rfl⟩ := List.cons.inj split
            rwa [List.flatten_nil, List.append_nil]
        | cons other before =>
            obtain ⟨rfl, rfl⟩ := List.cons.inj split
            rw [List.flatten_cons, ← List.append_assoc]
            exact later before chunk after rfl
      · intro each
        constructor
        · have here := each [] first chunks rfl
          rwa [List.flatten_nil, List.append_nil] at here
        · rintro before chunk after rfl
          have there := each (first :: before) chunk after rfl
          rwa [List.flatten_cons, ← List.append_assoc] at there

/-! ## One call -/

theorem takeLine_none (clean : lineFeed ∉ input) :
    takeLine ⟨maxLineBytes, input, false⟩ =
      (.error .enoent, ⟨maxLineBytes, input, false⟩) := if_pos clean

theorem takeLine_line {line text : List UInt8} (clean : lineFeed ∉ line)
    (split : input = line ++ lineFeed :: text) :
    takeLine ⟨maxLineBytes, input, false⟩ =
      if maxLineBytes < (stripReturn line).length then
        (.error .emsgsize, ⟨maxLineBytes, input, false⟩)
      else (.ok (stripReturn line), ⟨maxLineBytes, text, false⟩) := by
  have marked : lineFeed ∈ input := by
    rw [split]
    simp
  have all : ∀ ch ∈ line, (ch != lineFeed) = true := by
    intro ch member
    rw [bne_iff_ne]
    rintro rfl
    exact clean member
  have taken : input.takeWhile (· != lineFeed) = line ∧
      (input.dropWhile (· != lineFeed)).tail = text := by
    rw [split, List.takeWhile_append_of_pos all, List.dropWhile_append_of_pos all]
    simp
  rw [takeLine, if_neg (by exact not_not.mpr marked)]
  dsimp only
  rw [taken.1, taken.2]

theorem appendInput_fits {data : List UInt8}
    (fits : input.length + data.length ≤ bufferLimit maxLineBytes) :
    appendInput ⟨maxLineBytes, input, false⟩ data =
      if maxLineBytes < (input ++ data).length ∧ lineFeed ∉ input ++ data then
        (.error .emsgsize, ⟨maxLineBytes, input ++ data, false⟩)
      else (.ok (), ⟨maxLineBytes, input ++ data, false⟩) := by
  rw [appendInput]
  dsimp only
  rw [if_neg (by omega)]

theorem appendInput_beyond {data : List UInt8}
    (beyond : bufferLimit maxLineBytes < input.length + data.length) :
    appendInput ⟨maxLineBytes, input, false⟩ data =
      (.error .emsgsize, ⟨maxLineBytes, input, false⟩) := by
  rw [appendInput]
  dsimp only
  rw [if_pos (by omega)]

/-- What a call does: it waits, takes the first line, or fails. -/
inductive Reads (maxLineBytes : Nat) (input : List UInt8) (wakes : List Wake) :
    Option (Returned × Stdio × List Wake) → Prop where
  | waits : ended lineFeed (remaining input wakes) = [] → FitsAt maxLineBytes input wakes →
      Reads maxLineBytes input wakes none
  | line {line text : List UInt8} {later : List Wake} :
      ended lineFeed (remaining input wakes) = line :: ended lineFeed (remaining text later) →
      unended lineFeed (remaining input wakes) = unended lineFeed (remaining text later) →
      (stripReturn line).length ≤ maxLineBytes →
      (FitsAt maxLineBytes input wakes ↔ FitsAt maxLineBytes text later) →
      (remaining text later).length + later.length <
        (remaining input wakes).length + wakes.length →
      Reads maxLineBytes input wakes
        (some (.ok (stripReturn line), ⟨maxLineBytes, text, false⟩, later))
  | fails {status : Status} {text : List UInt8} {later : List Wake} : status ≠ .emsgsize →
      remaining input wakes = remaining text later →
      (FitsAt maxLineBytes input wakes ↔ FitsAt maxLineBytes text later) →
      later.length < wakes.length →
      Reads maxLineBytes input wakes
        (some (.error status, ⟨maxLineBytes, text, false⟩, later))
  | tooLong {line text : List UInt8} {later : List Wake} :
      line ∈ ended lineFeed (remaining input wakes) →
      maxLineBytes < (stripReturn line).length →
      Reads maxLineBytes input wakes
        (some (.error .emsgsize, ⟨maxLineBytes, text, false⟩, later))
  | full {text : List UInt8} {later : List Wake} :
      ¬FitsAt maxLineBytes input wakes ∨ unended lineFeed (remaining input wakes) ≠ [] →
      Reads maxLineBytes input wakes
        (some (.error .emsgsize, ⟨maxLineBytes, text, false⟩, later))

theorem Reads.onward {more : List UInt8} {later : List Wake}
    {result : Option (Returned × Stdio × List Wake)} (reads : Reads maxLineBytes more later result)
    (same : remaining input wakes = remaining more later)
    (fits : FitsAt maxLineBytes input wakes ↔ FitsAt maxLineBytes more later)
    (fewer : later.length < wakes.length) : Reads maxLineBytes input wakes result := by
  cases reads with
  | waits none small => exact .waits (same ▸ none) (fits.mpr small)
  | line first last short small less =>
      refine .line (same ▸ first) (same ▸ last) short (fits.trans small) ?_
      rw [same]
      omega
  | fails other text small less =>
      exact .fails other (same.trans text) (fits.trans small) (by omega)
  | tooLong member long => exact .tooLong (same ▸ member) long
  | full bad => exact .full (bad.imp (mt fits.mp) fun some => same ▸ some)

theorem reads_taken (marked : lineFeed ∈ input) :
    Reads maxLineBytes input wakes (some ((takeLine ⟨maxLineBytes, input, false⟩).1,
      (takeLine ⟨maxLineBytes, input, false⟩).2, wakes)) ∧
        (takeLine ⟨maxLineBytes, input, false⟩).1 ≠ .error .enoent := by
  obtain ⟨split, clean⟩ := exists_line marked
  generalize input.takeWhile (· != lineFeed) = line at split clean
  generalize (input.dropWhile (· != lineFeed)).tail = text at split
  have first : ended lineFeed (remaining input wakes) =
      line :: ended lineFeed (remaining text wakes) := by
    rw [remaining, split, List.append_assoc, List.cons_append, ended_line clean]
    rfl
  rw [takeLine_line clean split]
  split_ifs with long
  · exact ⟨.tooLong (first ▸ List.mem_cons_self) long, by simp⟩
  · refine ⟨.line first ?_ (Nat.not_lt.mp long) ?_ ?_, by simp⟩
    · rw [remaining, split, List.append_assoc, List.cons_append, unended_line clean]
      rfl
    · rw [FitsAt, split, unended_line clean]
      rfl
    · rw [remaining, split]
      simp only [remaining, List.length_append, List.length_cons]
      omega

variable {wake : Wake}

theorem chunksOf_quiet (quiet : wake.chunk = none) (wakes : List Wake) :
    chunksOf (wake :: wakes) = chunksOf wakes := List.filterMap_cons_none quiet

theorem Reads.quiet (quiet : wake.chunk = none) {result : Option (Returned × Stdio × List Wake)}
    (reads : Reads maxLineBytes input wakes result) :
    Reads maxLineBytes input (wake :: wakes) result := by
  refine reads.onward ?_ ?_ ?_
  · rw [remaining, chunksOf_quiet quiet]
    rfl
  · rw [FitsAt, chunksOf_quiet quiet]
    rfl
  · exact Nat.lt_succ_self _

theorem reads_error (quiet : wake.chunk = none) {status : Status} (other : status ≠ .emsgsize) :
    Reads maxLineBytes input (wake :: wakes)
      (some (.error status, ⟨maxLineBytes, input, false⟩, wakes)) := by
  refine .fails other ?_ ?_ ?_
  · rw [remaining, chunksOf_quiet quiet]
    rfl
  · rw [FitsAt, chunksOf_quiet quiet]
    rfl
  · exact Nat.lt_succ_self _

theorem arrived_same {chunk : Chunk} {late : Bool} (clean : lineFeed ∉ input)
    (fits : input.length + chunk.1.length ≤ bufferLimit maxLineBytes) :
    remaining input (.arrived chunk late :: wakes) = remaining (input ++ chunk.1) wakes ∧
      (FitsAt maxLineBytes input (.arrived chunk late :: wakes) ↔
        FitsAt maxLineBytes (input ++ chunk.1) wakes) := by
  have chunks : chunksOf (.arrived chunk late :: wakes) = chunk.1 :: chunksOf wakes := rfl
  constructor
  · rw [remaining, chunks, List.flatten_cons, ← List.append_assoc]
    rfl
  · rw [FitsAt, chunks, unended_clean clean, Fits]
    exact and_iff_right fits

/-- A buffer with more than a line, and still no line in it, ends too late or does not fit. -/
theorem not_fits_long (clean : lineFeed ∉ input) (some : input ≠ [])
    (long : maxLineBytes < input.length) :
    ¬FitsAt maxLineBytes input wakes ∨ unended lineFeed (remaining input wakes) ≠ [] := by
  cases arriving : chunksOf wakes with
  | nil =>
      right
      rw [remaining, arriving, List.flatten_nil, List.append_nil, unended_clean clean]
      exact some
  | cons chunk chunks =>
      left
      have positive : 0 < chunk.length := by
        have member : chunk ∈ chunksOf wakes := arriving ▸ List.mem_cons_self
        obtain ⟨wake, -, isChunk⟩ := List.mem_filterMap.mp member
        cases wake with
        | arrived arrived late =>
            cases isChunk
            exact List.length_pos_iff.mpr arrived.2.1
        | _ => cases isChunk
      have limit : bufferLimit maxLineBytes ≤ maxLineBytes + 1 := Nat.mod_le _ _
      rw [FitsAt, arriving, unended_clean clean, Fits]
      omega

theorem readLoop_reads (clean : lineFeed ∉ input) :
    Reads maxLineBytes input wakes (readLoop ⟨maxLineBytes, input, false⟩ wakes) := by
  induction wakes generalizing input with
  | nil =>
      refine .waits ?_ trivial
      rw [remaining]
      exact (congrArg _ (List.append_nil _)).trans (ended_clean clean)
  | cons wake wakes ih =>
      cases wake with
      | interrupted late =>
          rw [readLoop]
          split_ifs
          · exact reads_error rfl Status.noConfusion
          · exact (ih clean).quiet rfl
      | failed => exact reads_error rfl Status.noConfusion
      | timedOut => exact reads_error rfl Status.noConfusion
      | readInterrupted => exact (ih clean).quiet rfl
      | closed =>
          rw [readLoop]
          refine reads_error rfl ?_
          split_ifs <;> exact Status.noConfusion
      | arrived chunk late =>
          rw [readLoop]
          by_cases fits : input.length + chunk.1.length ≤ bufferLimit maxLineBytes
          · obtain ⟨text, same⟩ := @arrived_same maxLineBytes input wakes chunk late clean fits
            have onward := fun result reads =>
              @Reads.onward maxLineBytes input _ _ _ result reads text same (Nat.lt_succ_self _)
            rw [appendInput_fits fits]
            by_cases long : maxLineBytes < (input ++ chunk.1).length ∧
              lineFeed ∉ input ++ chunk.1
            · have some : input ++ chunk.1 ≠ [] :=
                List.append_ne_nil_of_right_ne_nil _ chunk.2.1
              rw [if_pos long]
              exact onward _ (.full (not_fits_long long.2 some long.1))
            · rw [if_neg long]
              dsimp only
              by_cases marked : lineFeed ∈ input ++ chunk.1
              · obtain ⟨reads, found⟩ := @reads_taken maxLineBytes _ wakes marked
                rw [if_pos found]
                exact onward _ reads
              · rw [takeLine_none marked, if_neg (by simp)]
                split_ifs
                · exact .fails Status.noConfusion text same (Nat.lt_succ_self _)
                · exact onward _ (ih marked)
          · rw [appendInput_beyond (Nat.not_le.mp fits)]
            refine .full (.inl ?_)
            rw [FitsAt, unended_clean clean]
            exact fun small => fits small.1

theorem readImpl_reads : Reads maxLineBytes input wakes
    (readImpl ⟨maxLineBytes, input, false⟩ wakes) := by
  rw [readImpl, if_neg (by simp)]
  dsimp only
  by_cases marked : lineFeed ∈ input
  · obtain ⟨reads, found⟩ := @reads_taken maxLineBytes _ wakes marked
    rw [if_pos found]
    exact reads
  · rw [takeLine_none marked, if_neg (by simp)]
    exact readLoop_reads marked

/-! ## Calls -/

def linesOf (results : List Returned) : List (List UInt8) := results.filterMap Except.toOption

@[simp] theorem linesOf_ok (line : List UInt8) (results : List Returned) :
    linesOf (.ok line :: results) = line :: linesOf results := rfl

@[simp] theorem linesOf_error (status : Status) (results : List Returned) :
    linesOf (.error status :: results) = linesOf results := rfl

def reading (maxLineBytes : Nat) (input : List UInt8) (wakes : List Wake) (calls : Nat) :
    List Returned := readCalls calls ⟨maxLineBytes, input, false⟩ wakes

/-- No line is too long, and the last one is ended. -/
structure Legal (maxLineBytes : Nat) (text : List UInt8) : Prop where
  short : ∀ line ∈ ended lineFeed text, (stripReturn line).length ≤ maxLineBytes
  last : unended lineFeed text = []

theorem reading_sized (legal : Legal maxLineBytes (remaining input wakes))
    (fits : FitsAt maxLineBytes input wakes) (calls : Nat) :
    .error .emsgsize ∉ reading maxLineBytes input wakes calls := by
  induction calls generalizing input wakes with
  | zero => exact List.not_mem_nil
  | succ calls ih =>
      rw [reading, readCalls]
      have reads := @readImpl_reads maxLineBytes input wakes
      generalize readImpl ⟨maxLineBytes, input, false⟩ wakes = result at reads
      cases reads with
      | waits => exact List.not_mem_nil
      | line first last short small =>
          dsimp only
          refine List.not_mem_cons_of_ne_of_not_mem (by simp)
            (ih ⟨?_, last ▸ legal.last⟩ (small.mp fits))
          intro line member
          exact legal.short line (first ▸ List.mem_cons_of_mem _ member)
      | fails other text small =>
          dsimp only
          refine List.not_mem_cons_of_ne_of_not_mem ?_ (ih (text ▸ legal) (small.mp fits))
          intro same
          exact other (Except.error.inj same).symm
      | tooLong member long => exact absurd (legal.short _ member) (Nat.not_le.mpr long)
      | full bad =>
          rcases bad with small | last
          · exact absurd fits small
          · exact absurd legal.last last

/-- Calls return the lines in order as long as none fails for its size; a call that waits has
read all of them, and then the chunks have all fit. -/
theorem reading_lines {calls : Nat}
    (sized : .error .emsgsize ∉ reading maxLineBytes input wakes calls) :
    linesOf (reading maxLineBytes input wakes calls) <+:
        (ended lineFeed (remaining input wakes)).map stripReturn ∧
      ((reading maxLineBytes input wakes calls).length < calls →
        linesOf (reading maxLineBytes input wakes calls) =
            (ended lineFeed (remaining input wakes)).map stripReturn ∧
          FitsAt maxLineBytes input wakes) ∧
      (reading maxLineBytes input wakes calls).length ≤
        (remaining input wakes).length + wakes.length := by
  induction calls generalizing input wakes with
  | zero => exact ⟨List.nil_prefix, fun less => absurd less (Nat.not_lt_zero _), Nat.zero_le _⟩
  | succ calls ih =>
      rw [reading, readCalls] at sized ⊢
      have reads := @readImpl_reads maxLineBytes input wakes
      generalize readImpl ⟨maxLineBytes, input, false⟩ wakes = result at reads sized ⊢
      cases reads with
      | waits none small =>
          refine ⟨List.nil_prefix, fun _ => ⟨?_, small⟩, Nat.zero_le _⟩
          rw [none]
          rfl
      | line first last short small less =>
          dsimp only at sized ⊢
          obtain ⟨before, whole, few⟩ := ih (List.not_mem_of_not_mem_cons sized)
          rw [linesOf_ok, first, List.map_cons, List.length_cons]
          refine ⟨List.prefix_cons_inj _ |>.mpr before, fun waits => ?_, by
            rw [reading] at few
            omega⟩
          obtain ⟨same, fits⟩ := whole (Nat.lt_of_succ_lt_succ waits)
          exact ⟨congrArg _ same, small.mpr fits⟩
      | fails other text small less =>
          dsimp only at sized ⊢
          obtain ⟨before, whole, few⟩ := ih (List.not_mem_of_not_mem_cons sized)
          rw [linesOf_error, text, List.length_cons]
          refine ⟨before, fun waits => ?_, by
            rw [reading] at few
            omega⟩
          obtain ⟨same, fits⟩ := whole (Nat.lt_of_succ_lt_succ waits)
          exact ⟨same, small.mpr fits⟩
      | tooLong => exact absurd List.mem_cons_self sized
      | full => exact absurd List.mem_cons_self sized

theorem reading_short (calls : Nat) {line : List UInt8}
    (returned : .ok line ∈ reading maxLineBytes input wakes calls) :
    line.length ≤ maxLineBytes := by
  induction calls generalizing input wakes with
  | zero => cases returned
  | succ calls ih =>
      rw [reading, readCalls] at returned
      have reads := @readImpl_reads maxLineBytes input wakes
      generalize readImpl ⟨maxLineBytes, input, false⟩ wakes = result at reads returned
      cases reads with
      | waits => cases returned
      | line first last short small less =>
          rcases List.mem_cons.mp returned with same | later
          · rw [Except.ok.inj same]
            exact short
          · exact ih later
      | fails => exact ih (List.mem_of_ne_of_mem (by simp) returned)
      | tooLong => exact ih (List.mem_of_ne_of_mem (by simp) returned)
      | full => exact ih (List.mem_of_ne_of_mem (by simp) returned)

/-! ## Lines that are sent -/

/-- The bytes of lines, each with whether it is ended by a carriage return and a line feed or
by a line feed alone. -/
def encode (lines : List (List UInt8 × Bool)) : List UInt8 :=
  lines.flatMap fun line =>
    line.1 ++ if line.2 then [carriageReturn, lineFeed] else [lineFeed]

def Sendable (maxLineBytes : Nat) (lines : List (List UInt8 × Bool)) : Prop :=
  ∀ line ∈ lines, lineFeed ∉ line.1 ∧ line.1.length ≤ maxLineBytes

/-- What is asked of a transport: no read fails for its size, the reads return the lines in
order, and once a read waits they have returned all of them. -/
structure Delivers (maxLineBytes : Nat) (lines : List (List UInt8)) (wakes : List Wake) :
    Prop where
  sized : ∀ calls, .error .emsgsize ∉ readCalls calls (opened maxLineBytes) wakes
  ordered : ∀ calls, linesOf (readCalls calls (opened maxLineBytes) wakes) <+: lines
  whole : ∀ calls, (readCalls calls (opened maxLineBytes) wakes).length < calls →
    linesOf (readCalls calls (opened maxLineBytes) wakes) = lines

def rawLine (line : List UInt8 × Bool) : List UInt8 :=
  line.1 ++ if line.2 then [carriageReturn] else []

theorem encode_eq (lines : List (List UInt8 × Bool)) :
    encode lines = (lines.map rawLine).flatMap (· ++ [lineFeed]) := by
  have each : ∀ line : List UInt8 × Bool, rawLine line ++ [lineFeed] =
      line.1 ++ if line.2 then [carriageReturn, lineFeed] else [lineFeed] := by
    rintro ⟨line, crlf⟩
    cases crlf <;> simp [rawLine]
  rw [encode, List.flatMap_map]
  simp only [each]

theorem stripReturn_rawLine (line : List UInt8 × Bool) : stripReturn (rawLine line) = line.1 ↔
    (line.2 = false → line.1.getLast? ≠ some carriageReturn) := by
  obtain ⟨line, crlf⟩ := line
  cases crlf with
  | true => simp [rawLine, stripReturn]
  | false =>
      simp only [rawLine, Bool.false_eq_true, if_false, List.append_nil, true_implies]
      unfold stripReturn
      split_ifs with returned
      · refine iff_of_false (fun same => ?_) (not_not.mpr returned)
        have some : line ≠ [] := by
          rintro rfl
          cases returned
        have lengths := congrArg List.length same
        rw [List.length_dropLast] at lengths
        have := List.length_pos_iff.mpr some
        omega
      · exact iff_of_true rfl returned

theorem length_stripReturn_le (line : List UInt8) : (stripReturn line).length ≤ line.length := by
  unfold stripReturn
  split_ifs
  · rw [List.length_dropLast]
    omega
  · exact Nat.le_refl _

theorem length_stripReturn_rawLine (line : List UInt8 × Bool) :
    (stripReturn (rawLine line)).length ≤ line.1.length := by
  by_cases crlf : line.2 = true
  · rw [(stripReturn_rawLine line).mpr fun bare => absurd (crlf.symm.trans bare) (by decide)]
  · have bare : rawLine line = line.1 := by simp [rawLine, crlf]
    rw [bare]
    exact length_stripReturn_le _

section Sent

variable {lines : List (List UInt8 × Bool)}

theorem clean_rawLines (sendable : Sendable maxLineBytes lines) :
    ∀ line ∈ lines.map rawLine, lineFeed ∉ line := by
  intro line member fed
  obtain ⟨sent, isSent, rfl⟩ := List.mem_map.mp member
  rcases List.mem_append.mp fed with inside | atEnd
  · exact (sendable sent isSent).1 inside
  · split_ifs at atEnd
    · exact absurd (List.mem_singleton.mp atEnd) (by decide)
    · cases atEnd

theorem legal_encode (sendable : Sendable maxLineBytes lines) :
    Legal maxLineBytes (encode lines) where
  short := by
    intro line member
    rw [encode_eq, ended_flatMap (clean_rawLines sendable)] at member
    obtain ⟨sent, isSent, rfl⟩ := List.mem_map.mp member
    exact (length_stripReturn_rawLine sent).trans (sendable sent isSent).2
  last := by rw [encode_eq, unended_flatMap (clean_rawLines sendable)]

/-- The chunks, each behind the bytes since the last line feed before it, are within the
limit of the buffer. -/
def Fitting (maxLineBytes : Nat) (chunks : List (List UInt8)) : Prop :=
  ∀ before chunk after, chunks = before ++ chunk :: after →
    (unended lineFeed before.flatten).length + chunk.length ≤ bufferLimit maxLineBytes

theorem fitting_iff : Fitting maxLineBytes (chunksOf wakes) ↔ FitsAt maxLineBytes [] wakes := by
  rw [FitsAt, fits_iff]
  rfl

theorem delivers_iff (sendable : Sendable maxLineBytes lines)
    (sent : (chunksOf wakes).flatten = encode lines) :
    Delivers maxLineBytes (lines.map Prod.fst) wakes ↔
      (∀ line ∈ lines, line.2 = false → line.1.getLast? ≠ some carriageReturn) ∧
        Fitting maxLineBytes (chunksOf wakes) := by
  have text : remaining [] wakes = encode lines := sent
  have read : (ended lineFeed (remaining [] wakes)).map stripReturn =
      lines.map fun line => stripReturn (rawLine line) := by
    rw [text, encode_eq, ended_flatMap (clean_rawLines sendable), List.map_map]
    rfl
  have same : (lines.map fun line => stripReturn (rawLine line)) = lines.map Prod.fst ↔
      ∀ line ∈ lines, line.2 = false → line.1.getLast? ≠ some carriageReturn := by
    rw [List.map_inj_left]
    simp only [stripReturn_rawLine]
  rw [← same, fitting_iff, ← read]
  constructor
  · intro delivers
    obtain ⟨-, whole, few⟩ := reading_lines
      (delivers.sized ((remaining [] wakes).length + wakes.length + 1))
    have waits := Nat.lt_succ_of_le few
    exact ⟨(whole waits).1.symm.trans (delivers.whole _ waits), (whole waits).2⟩
  · rintro ⟨all, fits⟩
    have sized := reading_sized (text ▸ legal_encode sendable) fits
    rw [← all]
    exact ⟨sized, fun calls => (reading_lines (sized calls)).1,
      fun calls waits => ((reading_lines (sized calls)).2.1 waits).1⟩

end Sent

/-- No line above the limit is returned; and lines are delivered exactly if their ends can be
told and every chunk fits. -/
theorem framing_exact (maxLineBytes : Nat) (wakes : List Wake) :
    (∀ calls line, .ok line ∈ readCalls calls (opened maxLineBytes) wakes →
      line.length ≤ maxLineBytes) ∧
    ∀ lines, Sendable maxLineBytes lines → (chunksOf wakes).flatten = encode lines →
      (Delivers maxLineBytes (lines.map Prod.fst) wakes ↔
        (∀ line ∈ lines, line.2 = false → line.1.getLast? ≠ some carriageReturn) ∧
          Fitting maxLineBytes (chunksOf wakes)) :=
  ⟨fun calls _ => reading_short calls, fun _ => delivers_iff⟩

/-- The lines `ab` and `cd`. -/
def pairLines : List (List UInt8 × Bool) := [([97, 98], false), ([99, 100], false)]

theorem pairLines_sendable : Sendable 4 pairLines := by
  simp [Sendable, pairLines, lineFeed]

theorem firstChunk_valid : ([97, 98, 10] : List UInt8) ≠ [] ∧
    ([97, 98, 10] : List UInt8).length ≤ readChunkBytes := by decide

theorem secondChunk_valid : ([99, 100, 10] : List UInt8) ≠ [] ∧
    ([99, 100, 10] : List UInt8).length ≤ readChunkBytes := by decide

theorem pairChunk_valid : ([97, 98, 10, 99, 100, 10] : List UInt8) ≠ [] ∧
    ([97, 98, 10, 99, 100, 10] : List UInt8).length ≤ readChunkBytes := by decide

theorem framing_exact_sample : Delivers 4 [[97, 98], [99, 100]]
    [.arrived ⟨_, firstChunk_valid⟩ false, .arrived ⟨_, secondChunk_valid⟩ false] := by
  refine ((framing_exact 4 [.arrived ⟨_, firstChunk_valid⟩ false,
    .arrived ⟨_, secondChunk_valid⟩ false]).2 pairLines pairLines_sendable (by decide)).mpr
      ⟨?_, ?_⟩
  · decide
  · rw [fitting_iff]
    exact ⟨by decide, by decide, trivial⟩

/-- Two lines in one chunk are refused under a limit that each of them keeps. -/
theorem chunk_of_lines_refused : Sendable 4 pairLines ∧
    (chunksOf [.arrived ⟨_, pairChunk_valid⟩ false]).flatten = encode pairLines ∧
      ¬Delivers 4 (pairLines.map Prod.fst) [.arrived ⟨_, pairChunk_valid⟩ false] := by
  refine ⟨pairLines_sendable, by decide, fun delivers => ?_⟩
  have refused : readCalls 1 (opened 4) [.arrived ⟨_, pairChunk_valid⟩ false] =
      [.error .emsgsize] := by decide
  have sized := delivers.sized 1
  rw [refused] at sized
  exact sized List.mem_cons_self

end TurboAgent.Codex
