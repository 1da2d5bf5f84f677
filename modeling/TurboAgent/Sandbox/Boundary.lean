import TurboAgent.Sandbox.Model

/-!
# The boundary of a sandboxed tool

Whatever a guest calls, a read copies the part of the input that it asks for, and the output is
what the accepted writes wrote, one after the other.  The size of the output stays below its limit,
so no size wraps.  A tool call succeeds only if no write was turned down.
-/

namespace TurboAgent.Sandbox

/-! ## Blocks -/

section

variable {block data : Bytes} {place : Nat}

theorem memcpy_length (room : place + data.length ≤ block.length) :
    (memcpy block place data).length = block.length := by
  simp only [memcpy, List.length_append, List.length_take, List.length_drop]
  omega

theorem memcpy_take (room : place ≤ block.length) :
    (memcpy block place data).take (place + data.length) = block.take place ++ data := by
  have size : (block.take place ++ data).length = place + data.length := by
    simp only [List.length_append, List.length_take]
    omega
  rw [memcpy, ← size, List.take_left]

theorem memcpy_span (room : place ≤ block.length) :
    ((memcpy block place data).drop place).take data.length = data := by
  have size : (block.take place).length = place := List.length_take_of_le room
  rw [memcpy, List.append_assoc, List.drop_left' size, List.take_left]

end

/-! ## Reads and writes -/

section

/-- A read of the input that succeeds. -/
def Answered.Reads (answered : Answered) (offset destination capacity count : BitVec 32) : Prop :=
  answered.call.function = .toolInputRead ∧
    answered.call.arguments = [.i32 offset, .i32 destination, .i32 capacity] ∧
      answered.returned.result = .ok count ∧ count ≠ -1

/-- Each read that succeeds copies what there is of the input at its offset, up to its capacity,
into the memory, and nothing else changes there. -/
def Answered.ReadExact (answered : Answered) (input : Bytes) : Prop :=
  ∀ offset destination capacity count, answered.Reads offset destination capacity count →
    offset.toNat ≤ input.length ∧
      count.toNat = min capacity.toNat (input.length - offset.toNat) ∧
      (count ≠ 0 → destination.toNat + count.toNat ≤ answered.call.memory.length) ∧
      answered.returned.memory = memcpy answered.call.memory destination.toNat
        ((input.drop offset.toNat).take count.toNat)

/-- The size of the input is asked for. -/
def Answered.SizeExact (answered : Answered) (input : Bytes) : Prop :=
  answered.call.function = .toolInputSize → ∀ size, answered.returned.result = .ok size →
    size.toNat = input.length

/-- What is in the memory after a read, at its destination. -/
def Answered.copied (answered : Answered) : Bytes :=
  match answered.call.arguments, answered.returned.result with
  | [_, .i32 destination, _], .ok count =>
      (answered.returned.memory.drop destination.toNat).take count.toNat
  | _, _ => []

/-- Reads that succeed, each at the offset where the one before it ended. -/
def Consecutive : Nat → List Answered → Prop
  | _, [] => True
  | place, answered :: rest => ∃ offset destination capacity count,
      answered.Reads offset destination capacity count ∧ offset.toNat = place ∧
        Consecutive (place + count.toNat) rest

/-- The span of a write that returned 0. -/
def Answered.written (answered : Answered) : Bytes :=
  if answered.call.function = .toolOutputWrite ∧ answered.returned.result = .ok 0 then
    match answered.call.arguments with
    | [.i32 source, .i32 length] => (answered.call.memory.drop source.toNat).take length.toNat
    | _ => []
  else []

/-- The arithmetic of sizes is that of natural numbers. -/
def Answered.Unwrapped (answered : Answered) : Prop :=
  answered.before.outputSize.toNat ≤ answered.before.outputLimit.toNat ∧
    (answered.before.outputLimit - answered.before.outputSize).toNat =
      answered.before.outputLimit.toNat - answered.before.outputSize.toNat ∧
    (answered.before.outputLimit + 1).toNat = answered.before.outputLimit.toNat + 1 ∧
    answered.returned.io.outputSize.toNat =
      answered.before.outputSize.toNat + answered.written.length

variable (span : MemorySpan) {io : Io}

theorem MemorySpan.check_inside {span : MemorySpan} {memory : Bytes} {address : BitVec 32} {size : Nat}
    (granted : span.check memory address size = .ok) :
    size = 0 ∨ address.toNat + size ≤ memory.length := by
  by_cases empty : size = 0
  · exact .inl empty
  · rw [check, if_neg empty] at granted
    exact .inr (span.inside granted)

theorem readExact_answer (call : HostCall) :
    (⟨call, io, call.answer span io⟩ : Answered).ReadExact io.input := by
  rintro offset destination capacity count ⟨isRead, arguments, returned, succeeds⟩
  obtain ⟨function, _, memory⟩ := call
  subst isRead arguments
  simp only [HostCall.answer, hostInputRead] at returned ⊢
  split_ifs at returned ⊢ with signed beyond refused large
  · exact absurd (Except.ok.inj returned).symm succeeds
  · have size : count.toNat = min capacity.toNat (io.input.length - offset.toNat) := by
      rw [← Except.ok.inj returned, BitVec.toNat_ofNat, Nat.mod_eq_of_lt (by omega)]
    refine ⟨by omega, size, ?_, by rw [size]⟩
    intro nonzero
    rcases MemorySpan.check_inside (not_not.mp refused) with empty | inside
    · have isZero : count.toNat = 0 := size.trans empty
      exact (nonzero (BitVec.eq_of_toNat_eq isZero)).elim
    · rw [size]
      exact inside

/-- The state of a call whose accepted writes wrote `written`. -/
structure Io.Sound (io : Io) (input : Bytes) (limit : BitVec 64) (written : Bytes) : Prop where
  sameInput : io.input = input
  sameLimit : io.outputLimit = limit
  bounded : limit.toNat + 1 < 2 ^ 64
  size : io.outputSize.toNat = written.length
  fits : written.length ≤ limit.toNat
  block : io.output.length = limit.toNat + 1
  filled : io.output.take (written.length + 1) = written ++ [0]

variable {input written : Bytes} {limit : BitVec 64}

theorem Io.Sound.remaining (sound : io.Sound input limit written) :
    (io.outputLimit - io.outputSize).toNat = limit.toNat - written.length := by
  have within : io.outputSize ≤ io.outputLimit := by
    rw [BitVec.le_def, sound.size, sound.sameLimit]
    exact sound.fits
  rw [BitVec.toNat_sub_of_le within, sound.sameLimit, sound.size]

theorem Io.Sound.before (sound : io.Sound input limit written) :
    io.output.take written.length = written := by
  have shorter := congrArg (List.take written.length) sound.filled
  rwa [List.take_take, Nat.min_eq_left (Nat.le_succ _), List.take_left] at shorter

/-- A write that is accepted goes behind what was written. -/
theorem Io.Sound.append (sound : io.Sound input limit written) {data : Bytes} {size : BitVec 64}
    (isSize : size.toNat = data.length) (room : data.length ≤ limit.toNat - written.length) :
    Io.Sound { io with
      output := memcpy (memcpy io.output io.outputSize.toNat data)
        (io.outputSize + size).toNat [0]
      outputSize := io.outputSize + size } input limit (written ++ data) := by
  have fits := sound.fits
  have bounded := sound.bounded
  have block := sound.block
  have total : (io.outputSize + size).toNat = written.length + data.length := by
    rw [BitVec.toNat_add, sound.size, isSize, Nat.mod_eq_of_lt (by omega)]
  have length : (memcpy io.output written.length data).length = io.output.length :=
    memcpy_length (by omega)
  have filled : (memcpy io.output written.length data).take (written.length + data.length) =
      written ++ data := by
    rw [memcpy_take (by omega), sound.before]
  constructor
  · exact sound.sameInput
  · exact sound.sameLimit
  · exact bounded
  · rw [total, List.length_append]
  · rw [List.length_append]
    omega
  · rw [total, sound.size, memcpy_length (by rw [length, List.length_singleton]; omega), length,
      block]
  · rw [total, sound.size, List.length_append, ← List.length_singleton (a := (0 : UInt8)),
      memcpy_take (by omega), filled]

/-- What a write can come to: it fails, it is turned down, or it is accepted. -/
theorem hostOutputWrite_cases (io : Io) (memory : Bytes) (arguments : List Value) :
    (∃ status, (hostOutputWrite span io memory arguments).result = .error status ∧
      (hostOutputWrite span io memory arguments).io = io) ∨
    ((hostOutputWrite span io memory arguments).result = .ok (-1) ∧
      (hostOutputWrite span io memory arguments).io = { io with outputOverflow := true }) ∨
    ∃ source length data, arguments = [.i32 source, .i32 length] ∧
      data = (memory.drop source.toNat).take length.toNat ∧ data.length = length.toNat ∧
      ¬io.outputLimit - io.outputSize < length.setWidth 64 ∧
      (hostOutputWrite span io memory arguments).result = .ok 0 ∧
      (hostOutputWrite span io memory arguments).io = { io with
        output := memcpy (memcpy io.output io.outputSize.toNat data)
          (io.outputSize + length.setWidth 64).toNat [0]
        outputSize := io.outputSize + length.setWidth 64 } := by
  unfold hostOutputWrite
  split
  next source length =>
    dsimp only
    split_ifs with signed full refused
    · exact .inl ⟨_, rfl, rfl⟩
    · exact .inr (.inl ⟨rfl, rfl⟩)
    · exact .inl ⟨_, rfl, rfl⟩
    · refine .inr (.inr ⟨source, length, _, rfl, rfl, ?_, full, rfl, rfl⟩)
      rw [List.length_take, List.length_drop]
      rcases MemorySpan.check_inside (not_not.mp refused) with empty | inside <;> omega
  next => exact .inl ⟨_, rfl, rfl⟩

theorem written_of_refused {answered : Answered} (refused : answered.returned.result ≠ .ok 0) :
    answered.written = [] :=
  if_neg fun accepted => refused accepted.2

theorem Io.Sound.outputWrite (sound : io.Sound input limit written) (memory : Bytes)
    (arguments : List Value) :
    (hostOutputWrite span io memory arguments).io.Sound input limit
      (written ++ (⟨⟨.toolOutputWrite, arguments, memory⟩, io,
        hostOutputWrite span io memory arguments⟩ : Answered).written) := by
  rcases hostOutputWrite_cases span io memory arguments with
    ⟨status, failed, same⟩ | ⟨refused, same⟩ |
    ⟨source, length, data, rfl, rfl, copied, room, accepted, appended⟩
  · rw [same, written_of_refused (by rw [failed]; simp), List.append_nil]
    exact sound
  · rw [same, written_of_refused (by rw [refused]; decide), List.append_nil]
    exact ⟨sound.sameInput, sound.sameLimit, sound.bounded, sound.size, sound.fits, sound.block,
      sound.filled⟩
  · have size : (length.setWidth 64).toNat = length.toNat := by
      rw [BitVec.toNat_setWidth, Nat.mod_eq_of_lt (by omega)]
    rw [BitVec.lt_def, sound.remaining, size] at room
    rw [appended, Answered.written, if_pos ⟨rfl, accepted⟩]
    exact sound.append (size.trans copied.symm) (by omega)

theorem hostInputRead_io (memory : Bytes) (arguments : List Value) :
    (hostInputRead span io memory arguments).io = io := by
  unfold hostInputRead
  split
  · dsimp only
    split_ifs <;> rfl
  · rfl

theorem hostInputSize_io (memory : Bytes) (arguments : List Value) :
    (hostInputSize io memory arguments).io = io := by
  unfold hostInputSize
  split
  · split_ifs <;> rfl
  · rfl

theorem Io.Sound.answer (sound : io.Sound input limit written) (call : HostCall) :
    (call.answer span io).io.Sound input limit
      (written ++ (⟨call, io, call.answer span io⟩ : Answered).written) := by
  obtain ⟨function, arguments, memory⟩ := call
  cases function with
  | toolInputSize =>
      simpa [HostCall.answer, hostInputSize_io, Answered.written] using sound
  | toolInputRead =>
      simpa [HostCall.answer, hostInputRead_io, Answered.written] using sound
  | toolOutputWrite => exact sound.outputWrite span memory arguments

theorem answer_accepted (call : HostCall) (kept : (call.answer span io).io.outputOverflow = false) :
    io.outputOverflow = false ∧ (call.function = .toolOutputWrite → ∀ value,
      (call.answer span io).result = .ok value → value = 0) := by
  obtain ⟨function, arguments, memory⟩ := call
  cases function with
  | toolInputSize =>
      rw [HostCall.answer, hostInputSize_io] at kept
      exact ⟨kept, by simp⟩
  | toolInputRead =>
      rw [HostCall.answer, hostInputRead_io] at kept
      exact ⟨kept, by simp⟩
  | toolOutputWrite =>
      rw [HostCall.answer] at kept ⊢
      rcases hostOutputWrite_cases span io memory arguments with
        ⟨status, failed, same⟩ | ⟨refused, same⟩ | ⟨_, _, _, -, -, -, -, accepted, appended⟩
      · rw [same] at kept
        exact ⟨kept, fun _ value returned => by rw [failed] at returned; cases returned⟩
      · rw [same] at kept
        cases kept
      · rw [appended] at kept
        refine ⟨kept, fun _ value returned => ?_⟩
        rw [accepted] at returned
        exact (Except.ok.inj returned).symm

theorem sizeExact_answer (call : HostCall) :
    (⟨call, io, call.answer span io⟩ : Answered).SizeExact io.input := by
  obtain ⟨function, arguments, memory⟩ := call
  rintro isSize size returned
  subst isSize
  simp only [HostCall.answer] at returned
  unfold hostInputSize at returned
  split at returned
  · split_ifs at returned with large
    rw [← Except.ok.inj returned, BitVec.toNat_ofNat, Nat.mod_eq_of_lt (by omega)]
  · cases returned

theorem Io.Sound.unwrapped (sound : io.Sound input limit written) (call : HostCall) :
    (⟨call, io, call.answer span io⟩ : Answered).Unwrapped := by
  refine ⟨?_, ?_, ?_, ?_⟩
  · rw [sound.size, sound.sameLimit]
    exact sound.fits
  · rw [sound.remaining, sound.sameLimit, sound.size]
  · rw [sound.sameLimit, BitVec.toNat_add]
    exact Nat.mod_eq_of_lt sound.bounded
  · rw [(sound.answer span call).size, List.length_append, sound.size]

theorem copied_of_reads {answered : Answered} {offset destination capacity count : BitVec 32}
    (exact : answered.ReadExact input) (reads : answered.Reads offset destination capacity count) :
    answered.copied = (input.drop offset.toNat).take count.toNat ∧
      answered.copied.length = count.toNat := by
  obtain ⟨within, isCount, inside, copied⟩ := exact _ _ _ _ reads
  have length : ((input.drop offset.toNat).take count.toNat).length = count.toNat := by
    rw [List.length_take, List.length_drop]
    omega
  have same : answered.copied = (input.drop offset.toNat).take count.toNat := by
    rw [Answered.copied, reads.2.1, reads.2.2.1]
    dsimp only
    by_cases zero : count = 0
    · rw [zero]
      rfl
    · have room := inside zero
      have back := @memcpy_span answered.call.memory
        ((input.drop offset.toNat).take count.toNat) destination.toNat (by omega)
      rw [length] at back
      rw [copied, back]
  exact ⟨same, same ▸ length⟩

/-- Consecutive reads copy what follows in the input. -/
theorem Consecutive.copied {place : Nat} {reads : List Answered}
    (consecutive : Consecutive place reads) (exact : ∀ each ∈ reads, each.ReadExact input) :
    (reads.map Answered.copied).flatten <+: input.drop place := by
  induction reads generalizing place with
  | nil => exact List.nil_prefix
  | cons each rest ih =>
      obtain ⟨offset, destination, capacity, count, reads, rfl, next⟩ := consecutive
      have copied := copied_of_reads (exact each List.mem_cons_self) reads
      have behind := ih next fun other member => exact other (List.mem_cons_of_mem _ member)
      rw [← List.drop_drop] at behind
      rw [List.map_cons, List.flatten_cons, copied.1]
      conv_rhs => rw [← List.take_append_drop count.toNat (input.drop offset.toNat)]
      exact (List.prefix_append_right_inj _).mpr behind

/-- A prefix behind which a read with room finds nothing is the input. -/
theorem Answered.ReadExact.ends {last : Answered} {offset destination capacity : BitVec 32}
    {copied : Bytes} (exact : last.ReadExact input) (begins : copied <+: input)
    (reads : last.Reads offset destination capacity 0) (room : capacity ≠ 0)
    (behind : offset.toNat = copied.length) : copied = input := by
  obtain ⟨within, nothing, -⟩ := exact _ _ _ _ reads
  have nonzero : capacity.toNat ≠ 0 := fun zero => room (BitVec.eq_of_toNat_eq zero)
  have isZero : (0 : BitVec 32).toNat = 0 := rfl
  exact begins.eq_of_length (by omega)

/-! ## A session -/

theorem Io.Sound.answerAll (sound : io.Sound input limit written) (calls : List HostCall) :
    (answerAll span calls io).2.Sound input limit
      (written ++ ((answerAll span calls io).1.map Answered.written).flatten) := by
  induction calls generalizing io written with
  | nil => simpa [Sandbox.answerAll] using sound
  | cons call calls ih =>
      have rest := ih (sound.answer span call)
      rw [List.append_assoc] at rest
      exact rest

theorem Io.Sound.answered (sound : io.Sound input limit written) (calls : List HostCall) :
    ∀ each ∈ (Sandbox.answerAll span calls io).1,
      each.SizeExact input ∧ each.ReadExact input ∧ each.Unwrapped := by
  induction calls generalizing io written with
  | nil => simp [Sandbox.answerAll]
  | cons call calls ih =>
      intro each member
      rcases List.mem_cons.mp member with rfl | later
      · have sizes := @sizeExact_answer span io call
        have reads := @readExact_answer span io call
        rw [sound.sameInput] at sizes reads
        exact ⟨sizes, reads, sound.unwrapped span call⟩
      · exact ih (sound.answer span call) each later

theorem answerAll_accepted (calls : List HostCall)
    (kept : (answerAll span calls io).2.outputOverflow = false) :
    io.outputOverflow = false ∧ ∀ each ∈ (answerAll span calls io).1,
      each.call.function = .toolOutputWrite → ∀ value, each.returned.result = .ok value →
        value = 0 := by
  induction calls generalizing io with
  | nil => exact ⟨kept, by simp [answerAll]⟩
  | cons call calls ih =>
      obtain ⟨behind, rest⟩ := ih kept
      obtain ⟨before, accepted⟩ := answer_accepted span call behind
      refine ⟨before, fun each member => ?_⟩
      rcases List.mem_cons.mp member with rfl | later
      · exact accepted
      · exact rest each later

/-! ## Calls of tools -/

theorem Io.sound_opened (contents : Nat → UInt8) (below : limit ≠ BitVec.allOnes 64) :
    (Io.opened input limit contents).Sound input limit [] := by
  have bounded : limit.toNat + 1 < 2 ^ 64 := by
    have apart : limit.toNat ≠ (BitVec.allOnes 64).toNat := fun same =>
      below (BitVec.eq_of_toNat_eq same)
    rw [BitVec.toNat_allOnes] at apart
    omega
  have block : ((List.range (limit + 1).toNat).map contents).length = limit.toNat + 1 := by
    rw [List.length_map, List.length_range, BitVec.toNat_add]
    exact Nat.mod_eq_of_lt bounded
  refine ⟨rfl, rfl, bounded, rfl, Nat.zero_le _, ?_, rfl⟩
  rw [opened, memcpy_length (by rw [block, List.length_singleton]; omega), block]

theorem call_cases (input : Bytes) (limit : BitVec 64) (attempt : Attempt) :
    ((call span input limit attempt).session = none ∧
      (call span input limit attempt).status ≠ .ok) ∨
    ∃ contents, limit ≠ BitVec.allOnes 64 ∧ call span input limit attempt =
      finish attempt.reported (answerAll span attempt.calls (.opened input limit contents)) := by
  unfold call
  by_cases refused : limit = 0 ∨ limit = BitVec.allOnes 64 ∨ 2147483647 < input.length
  · rw [if_pos refused]
    exact .inl ⟨rfl, by simp⟩
  rw [if_neg refused]
  cases attempt.block with
  | none => exact .inl ⟨rfl, by simp⟩
  | some contents =>
      dsimp only
      split_ifs with interrupted gate
      · refine .inl ⟨rfl, ?_⟩
        cases reason : attempt.interrupted with
        | none => exact absurd reason interrupted
        | cancelled | deadline => decide
      · exact .inl ⟨rfl, gate⟩
      · exact .inr ⟨contents, fun same => refused (.inr (.inl same)), rfl⟩

theorem finish_session (reported : Reported) (session : List Answered × Io) :
    (finish reported session).session = some session := by
  unfold finish
  dsimp only
  split
  · rfl
  split
  · rfl
  split
  · split <;> rfl
  · rfl

theorem mapStatus_ok {status : WasmStatus} {reason : InterruptReason} {overflow : Bool}
    (succeeds : mapStatus status reason overflow = .ok) : status = .ok ∧ overflow = false := by
  cases overflow with
  | true => cases succeeds
  | false => cases status <;> cases reason <;> first | exact ⟨rfl, rfl⟩ | cases succeeds

theorem finish_ok {reported : Reported} {session : List Answered × Io}
    (succeeds : (finish reported session).status = .ok) :
    reported.status = .ok ∧ session.2.outputOverflow = false ∧ reported.trapped = false ∧
      (∃ guestStatus, reported.results = [.i32 guestStatus] ∧
        (finish reported session).guestStatus = some guestStatus) ∧
      0 ∉ session.2.output.take session.2.outputSize.toNat ∧
      (finish reported session).output = some (session.2.output.takeWhile (· ≠ 0)) := by
  unfold finish at succeeds ⊢
  dsimp only at succeeds ⊢
  by_cases mapped : mapStatus reported.status reported.reason session.2.outputOverflow = .ok
  swap
  · rw [if_pos mapped] at succeeds
    exact absurd succeeds mapped
  rw [if_neg (not_not.mpr mapped)] at succeeds ⊢
  obtain ⟨known, kept⟩ := mapStatus_ok mapped
  cases trapped : reported.trapped with
  | true =>
      rw [trapped, if_pos rfl] at succeeds
      cases succeeds
  | false =>
      rw [trapped, if_neg (by decide)] at succeeds
      rw [if_neg (by decide)]
      split at succeeds
      next guestStatus results =>
        rw [results]
        by_cases broken : (session.2.output.take session.2.outputSize.toNat).contains 0 = true
        · rw [if_pos broken] at succeeds
          cases succeeds
        · rw [if_neg broken]
          exact ⟨known, kept, rfl, ⟨guestStatus, rfl, rfl⟩, by simpa using broken, rfl⟩
      next => cases succeeds

/-- The string in the output is what was written, if there is no NUL in it. -/
theorem Io.Sound.text (sound : io.Sound input limit written) :
    io.output.take io.outputSize.toNat = written ∧
      (0 ∉ written → io.output.takeWhile (· ≠ 0) = written) := by
  refine ⟨by rw [sound.size, sound.before], fun noNul => ?_⟩
  rw [← List.take_append_drop (written.length + 1) io.output, sound.filled, List.append_assoc,
    List.takeWhile_append_of_pos]
  · simp
  · intro byte member
    exact decide_eq_true fun zero => noNul (zero ▸ member)

end

/-! ## The boundary -/

/-- The engine does not report success if a host function failed. -/
def Attempt.Propagates (attempt : Attempt) (answered : List Answered) : Prop :=
  attempt.reported.status = .ok → ∀ each ∈ answered, ∃ value, each.returned.result = .ok value

theorem invoke_cases (span : MemorySpan) (runtime : Runtime) (name : Bytes)
    (argumentsJson : Option Bytes) (attempt : Attempt) :
    ((invokeWithContext span runtime name argumentsJson attempt).session = none ∧
      (invokeWithContext span runtime name argumentsJson attempt).status ≠ .ok) ∨
    ∃ io session, io.Sound (inputOf argumentsJson) runtime.maxOutputBytes [] ∧
      session = answerAll span attempt.calls io ∧
      (invokeWithContext span runtime name argumentsJson attempt).session = some session ∧
      ((invokeWithContext span runtime name argumentsJson attempt).status = .ok →
        (finish attempt.reported session).status = .ok ∧
        (finish attempt.reported session).guestStatus = some 0 ∧
        (invokeWithContext span runtime name argumentsJson attempt).output =
          (finish attempt.reported session).output) := by
  unfold invokeWithContext
  split
  · exact .inl ⟨rfl, by simp⟩
  split
  swap
  · exact .inl ⟨rfl, by simp⟩
  dsimp only
  rcases call_cases span (inputOf argumentsJson) runtime.maxOutputBytes attempt with
    ⟨unrun, fails⟩ | ⟨contents, below, ran⟩
  · rw [if_pos (.inl fails)]
    exact .inl ⟨unrun, by rw [if_neg fails]; exact fails⟩
  refine .inr ⟨_, _, Io.sound_opened contents below, rfl, ?_⟩
  rw [ran]
  split
  next failed =>
    refine ⟨finish_session _ _, fun succeeds => ?_⟩
    rcases failed with fails | _
    · rw [if_neg fails] at succeeds
      exact absurd succeeds fails
    · split_ifs at succeeds with fine
      · exact absurd succeeds fine
  next passed =>
    obtain ⟨succeeds, guest⟩ := not_or.mp passed
    exact ⟨finish_session _ _, fun _ => ⟨not_not.mp succeeds, not_not.mp guest, rfl⟩⟩

/-- Whatever the guest calls, sizes and reads of its input are exact, the output is what the
accepted writes wrote, within the limit, and no size wraps.  A tool call succeeds only if no write
was turned down, the engine and the guest report success, and there is no NUL in the output, and
then it returns that output. -/
theorem tool_io_exact (span : MemorySpan) (runtime : Runtime) (name : Bytes)
    (argumentsJson : Option Bytes) (attempt : Attempt) :
    (∀ session, (invokeWithContext span runtime name argumentsJson attempt).session = some session →
      (∀ each ∈ session.1, each.SizeExact (inputOf argumentsJson) ∧
        each.ReadExact (inputOf argumentsJson) ∧ each.Unwrapped) ∧
      (∀ reads, reads.Sublist session.1 → Consecutive 0 reads →
        (reads.map Answered.copied).flatten <+: inputOf argumentsJson ∧
        ∀ last ∈ session.1, ∀ offset destination capacity,
          last.Reads offset destination capacity 0 → capacity ≠ 0 →
            offset.toNat = (reads.map Answered.copied).flatten.length →
              (reads.map Answered.copied).flatten = inputOf argumentsJson) ∧
      session.2.output.take session.2.outputSize.toNat =
        (session.1.map Answered.written).flatten ∧
      (session.1.map Answered.written).flatten.length ≤ runtime.maxOutputBytes.toNat) ∧
    ((invokeWithContext span runtime name argumentsJson attempt).status = .ok →
      ∃ session, (invokeWithContext span runtime name argumentsJson attempt).session =
          some session ∧
        (∀ each ∈ session.1, each.call.function = .toolOutputWrite → ∀ value,
          each.returned.result = .ok value → value = 0) ∧
        (attempt.Propagates session.1 → ∀ each ∈ session.1,
          each.call.function = .toolOutputWrite → each.returned.result = .ok 0) ∧
        attempt.reported.status = .ok ∧ attempt.reported.trapped = false ∧
        attempt.reported.results = [.i32 0] ∧
        0 ∉ (session.1.map Answered.written).flatten ∧
        (invokeWithContext span runtime name argumentsJson attempt).output =
          some (session.1.map Answered.written).flatten) := by
  rcases invoke_cases span runtime name argumentsJson attempt with
    ⟨unrun, fails⟩ | ⟨io, session, opened, rfl, ran, passed⟩
  · refine ⟨fun session isSession => ?_, fun succeeds => absurd succeeds fails⟩
    rw [unrun] at isSession
    cases isSession
  have sound := opened.answerAll span attempt.calls
  rw [List.nil_append] at sound
  have each := opened.answered span attempt.calls
  constructor
  · intro session isSession
    obtain rfl := Option.some.inj (ran.symm.trans isSession)
    refine ⟨each, fun reads part consecutive => ?_, sound.text.1, sound.fits⟩
    have begins := consecutive.copied fun answered member =>
      (each answered (part.subset member)).2.1
    rw [List.drop_zero] at begins
    exact ⟨begins, fun last member offset destination capacity =>
      fun read room behind => (each last member).2.1.ends begins read room behind⟩
  · intro succeeds
    obtain ⟨finished, guest, output⟩ := passed succeeds
    obtain ⟨reported, kept, untrapped, ⟨guestStatus, results, isGuest⟩, noNul, isOutput⟩ :=
      finish_ok finished
    obtain rfl := Option.some.inj (isGuest.symm.trans guest)
    have accepted := (answerAll_accepted span attempt.calls kept).2
    rw [sound.text.1] at noNul
    refine ⟨_, ran, accepted, fun propagates answered member isWrite => ?_, reported, untrapped,
      results, noNul, ?_⟩
    · obtain ⟨value, returned⟩ := propagates reported answered member
      rw [returned, accepted answered member isWrite value returned]
    · rw [output, isOutput, sound.text.2 noNul]

/-- A primitive that hands out every span within the memory. -/
def wholeMemory : MemorySpan where
  status memory address size :=
    if address.toNat + size ≤ memory.length then .ok else .trapped
  inside granted := of_not_not fun outside => by rw [if_neg outside] at granted; cases granted

/-- A guest that writes its input to its output. -/
def echoAttempt : Attempt where
  block := some fun _ => 7
  interrupted := .none
  gate := .ok
  calls := [⟨.toolInputRead, [.i32 0, .i32 1, .i32 8], [0, 0, 0, 0]⟩,
    ⟨.toolOutputWrite, [.i32 1, .i32 2], [0, 123, 125, 0]⟩]
  reported := ⟨.ok, false, [.i32 0], .none⟩

theorem tool_io_exact_echo : ∃ session,
    (invokeWithContext wholeMemory ⟨[[101]], 16, 8⟩ [101] none echoAttempt).session =
      some session ∧
    (∀ each ∈ session.1, each.ReadExact [123, 125]) ∧
    (invokeWithContext wholeMemory ⟨[[101]], 16, 8⟩ [101] none echoAttempt).output =
      some (session.1.map Answered.written).flatten := by
  have exact := tool_io_exact wholeMemory ⟨[[101]], 16, 8⟩ [101] none echoAttempt
  obtain ⟨session, ran, -, -, -, -, -, -, output⟩ := exact.2 (by decide)
  exact ⟨session, ran, fun each member => ((exact.1 session ran).1 each member).2.1, output⟩

end TurboAgent.Sandbox
