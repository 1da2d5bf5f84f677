import TurboAgent.Harness.EventStream

/-!
# The event stream loses nothing

The queue holds the events after the acknowledged one up to the last one, numbered without
gaps, and their messages are the end of the history of the emitted messages.  A client whose
cursor is not behind the acknowledgement reads the rest of that history.
-/

namespace TurboAgent.Harness

/-! ## Limits -/

theorem sizeSub_of_le {left right : Nat} (le : right ≤ left) (small : left < sizeModulus) :
    sizeSub left right = left - right := by
  simp only [sizeSub, sizeModulus] at small ⊢
  omega

structure StreamConfig.Roomy (config : StreamConfig) : Prop where
  count : 8 ≤ config.maxEventCount
  single : 0 < config.maxSingleEventBytes
  reserve : sizeMul controlEventReserve config.maxSingleEventBytes =
    controlEventReserve * config.maxSingleEventBytes
  bytes : (controlEventReserve + 1) * config.maxSingleEventBytes ≤ config.maxEventBytes

theorem StreamConfig.roomy {config : StreamConfig} (valid : config.valid = true) :
    config.Roomy := by
  simp only [StreamConfig.valid, Bool.and_eq_true, decide_eq_true_eq, ne_eq, decide_not,
    Bool.not_eq_true', decide_eq_false_iff_not] at valid
  obtain ⟨⟨⟨⟨⟨⟨⟨⟨⟨count, -⟩, -⟩, single⟩, -⟩, small⟩, bytes⟩, -⟩, -⟩, -⟩ := valid
  simp only [sizeMul, controlEventReserve, sizeModulus] at small bytes ⊢
  refine ⟨count, Nat.pos_of_ne_zero single, ?_, ?_⟩
  · simp only [sizeMul, sizeModulus, controlEventReserve]
    omega
  · simp only [controlEventReserve]
    omega

namespace StreamConfig.Roomy

variable {config : StreamConfig}

theorem eventLimit_waiting (roomy : config.Roomy) :
    config.eventLimit true = config.maxEventCount - controlEventReserve := by
  have count := roomy.count
  simp only [StreamConfig.eventLimit, if_true]
  exact sizeSub_of_le (by simp only [controlEventReserve]; omega) config.count_size

theorem byteLimit_waiting (roomy : config.Roomy) :
    config.byteLimit true =
      config.maxEventBytes - controlEventReserve * config.maxSingleEventBytes := by
  have bytes := roomy.bytes
  simp only [StreamConfig.byteLimit, if_true, roomy.reserve]
  refine sizeSub_of_le ?_ config.bytes_size
  simp only [controlEventReserve] at bytes ⊢
  omega

theorem eventLimit_le (roomy : config.Roomy) (waitForCapacity : Bool) :
    config.eventLimit waitForCapacity ≤ config.maxEventCount := by
  cases waitForCapacity with
  | true =>
      rw [roomy.eventLimit_waiting]
      exact Nat.sub_le _ _
  | false => exact Nat.le_refl _

theorem byteLimit_le (roomy : config.Roomy) (waitForCapacity : Bool) :
    config.byteLimit waitForCapacity ≤ config.maxEventBytes := by
  cases waitForCapacity with
  | true =>
      rw [roomy.byteLimit_waiting]
      exact Nat.sub_le _ _
  | false => exact Nat.le_refl _

/-- An event that is not refused for its size fits below the limit of waiting emissions. -/
theorem single_le_byteLimit (roomy : config.Roomy) :
    config.maxSingleEventBytes ≤ config.byteLimit true := by
  have bytes := roomy.bytes
  rw [roomy.byteLimit_waiting]
  simp only [controlEventReserve] at bytes ⊢
  omega

end StreamConfig.Roomy

/-! ## The queue -/

variable {Message : Type}

structure Connection.Intact (config : StreamConfig) (emitted : List Message)
    (connection : Connection Message) : Prop where
  /-- Sequence numbers are consecutive, from the acknowledged one to the last one. -/
  sequences : connection.events.map (·.sequence) =
    List.range' (connection.acknowledgedSequence + 1)
      (connection.nextSequence - connection.acknowledgedSequence)
  acknowledged_le : connection.acknowledgedSequence ≤ connection.nextSequence
  exact : connection.nextSequence ≤ maxExactInteger
  messages : connection.events.map (·.message) =
    emitted.drop connection.acknowledgedSequence
  length : emitted.length = connection.nextSequence
  bytes : connection.eventBytes = (connection.events.map (·.bytes)).sum
  count_le : connection.events.length ≤ config.maxEventCount
  bytes_le : connection.eventBytes ≤ config.maxEventBytes

namespace Connection.Intact

variable {config : StreamConfig} {emitted : List Message} {connection : Connection Message}

theorem congr (intact : connection.Intact config emitted) (closed : Bool) (error : Status) :
    ({ connection with closed, streamError := error } : Connection Message).Intact
      config emitted :=
  { intact with }

theorem setStreamError (intact : connection.Intact config emitted) (error : Status) :
    (connection.setStreamError error).Intact config emitted := by
  rw [Connection.setStreamError]
  split
  next => exact intact.congr connection.closed error
  next => exact intact

theorem push (intact : connection.Intact config emitted) (bytes : Nat) (message : Message)
    (room : connection.events.length < config.maxEventCount)
    (fits : connection.eventBytes + bytes ≤ config.maxEventBytes)
    (exact_ : connection.nextSequence < maxExactInteger) :
    (connection.push bytes message).Intact config (emitted ++ [message]) := by
  have acknowledged := intact.acknowledged_le
  have length := intact.length
  exact {
    sequences := by
      simp only [Connection.push, List.map_append, intact.sequences, List.map_cons, List.map_nil]
      rw [Nat.sub_add_comm acknowledged, List.range'_1_concat]
      congr 2
      omega
    acknowledged_le := Nat.le_succ_of_le acknowledged
    exact := exact_
    messages := by
      simp only [Connection.push, List.map_append, intact.messages, List.map_cons, List.map_nil]
      rw [List.drop_append_of_le_length (by omega)]
    length := by simp [Connection.push, length]
    bytes := by simp [Connection.push, intact.bytes]
    count_le := by
      rw [Connection.push, List.length_append]
      exact room
    bytes_le := fits }

theorem rollback_push {bytes : Nat}
    (fits : connection.eventBytes + bytes < sizeModulus) (message : Message) (error : Status) :
    ({ connection.push bytes message with streamError := error } : Connection Message).rollback =
      { connection with streamError := error } := by
  have back : sizeSub (connection.eventBytes + bytes) bytes = connection.eventBytes := by
    rw [sizeSub_of_le (Nat.le_add_left _ _) fits, Nat.add_sub_cancel]
  simp [Connection.rollback, Connection.push, back]

theorem front (intact : connection.Intact config emitted) {first : Event Message}
    {rest : List (Event Message)} (queued : connection.events = first :: rest) :
    first.sequence = connection.acknowledgedSequence + 1 ∧
      connection.acknowledgedSequence < connection.nextSequence ∧
      rest.map (·.sequence) = List.range' (connection.acknowledgedSequence + 1 + 1)
        (connection.nextSequence - (connection.acknowledgedSequence + 1)) := by
  have sequences := intact.sequences
  rw [queued, List.map_cons] at sequences
  cases room : connection.nextSequence - connection.acknowledgedSequence with
  | zero =>
      rw [room] at sequences
      cases sequences
  | succ left =>
      rw [room, List.range'_succ] at sequences
      obtain ⟨first, rest⟩ := List.cons.inj sequences
      have left' : connection.nextSequence - (connection.acknowledgedSequence + 1) = left := by
        omega
      exact ⟨first, by omega, left' ▸ rest⟩

theorem pop (intact : connection.Intact config emitted) {first : Event Message}
    {rest : List (Event Message)} (queued : connection.events = first :: rest) :
    ({ connection with
      events := rest
      eventBytes := sizeSub connection.eventBytes first.bytes
      acknowledgedSequence := first.sequence } : Connection Message).Intact config emitted := by
  obtain ⟨sequence, below, sequences⟩ := intact.front queued
  have bytes := intact.bytes
  have messages := intact.messages
  have count := intact.count_le
  rw [queued, List.map_cons] at bytes messages
  rw [queued, List.length_cons] at count
  rw [List.sum_cons] at bytes
  have small := Nat.lt_of_le_of_lt intact.bytes_le config.bytes_size
  have left : sizeSub connection.eventBytes first.bytes = (rest.map (·.bytes)).sum := by
    rw [sizeSub_of_le (by omega) small]
    omega
  exact {
    sequences := by
      rw [sequence]
      exact sequences
    acknowledged_le := by
      rw [sequence]
      exact below
    exact := intact.exact
    messages := by
      rw [sequence, ← List.drop_drop, ← messages]
      rfl
    length := intact.length
    bytes := left
    count_le := by
      dsimp only
      omega
    bytes_le := by
      have total := intact.bytes_le
      dsimp only
      omega }

theorem acknowledged_max (intact : connection.Intact config emitted) {through : Nat}
    (known : through ≤ connection.nextSequence)
    (done : ∀ first ∈ connection.events.head?, through < first.sequence) :
    max connection.acknowledgedSequence through = connection.acknowledgedSequence := by
  cases queued : connection.events with
  | nil =>
      have sequences := congrArg List.length intact.sequences
      simp only [queued, List.map_nil, List.length_nil, List.length_range'] at sequences
      omega
  | cons first rest =>
      obtain ⟨sequence, -, -⟩ := intact.front queued
      have below := done first (by simp [queued])
      omega

theorem enqueue (intact : connection.Intact config emitted) (roomy : config.Roomy)
    (size : Message → Option Nat) (waitForCapacity : Bool) (message : Message) :
    let result := connection.enqueue config size waitForCapacity message
    result.2.Intact config
      (if result.1 = .returns .ok then emitted ++ [message] else emitted) := by
  rw [Connection.enqueue]
  split
  next => simpa using intact
  next bytes _ =>
    split
    next => simpa using intact.setStreamError .emsgsize
    split
    next =>
      cases waitForCapacity with
      | true => simpa using intact
      | false => simpa using intact
    next room =>
      split
      next => simpa using intact
      next open_ =>
        split
        next failed => simpa [failed] using intact
        next working =>
          split
          next => simpa using intact.congr connection.closed .erange
          next exact_ =>
            have capacity : connection.full config waitForCapacity bytes = false := by
              by_contra full
              rw [Bool.not_eq_false] at full
              exact room ⟨by simpa using open_, by simpa using working, full⟩
            simp only [Connection.full, Bool.or_eq_false_iff, decide_eq_false_iff_not,
              Nat.not_le, Nat.not_lt] at capacity
            obtain ⟨⟨count, below⟩, left⟩ := capacity
            have limit := roomy.byteLimit_le waitForCapacity
            have small := Nat.lt_of_le_of_lt limit config.bytes_size
            rw [sizeSub_of_le (Nat.le_of_lt below) small] at left
            simp only [if_true]
            refine intact.push bytes message ?_ ?_ (Nat.lt_of_not_le exact_)
            · exact Nat.lt_of_lt_of_le count (roomy.eventLimit_le waitForCapacity)
            · omega

/-- What a pair leaves: both events at the end of the queue, or no change but an error of the
stream. -/
theorem enqueuePair_cases (intact : connection.Intact config emitted) (roomy : config.Roomy)
    (size : Message → Option Nat) (first : Message) (firstTaken : Bool) (second : Message)
    (secondTaken : Bool) :
    let result := connection.enqueuePair config size first firstTaken second secondTaken
    (result.1 ≠ .ok ∧ ∃ error, result.2 = { connection with streamError := error }) ∨
      (result.1 = .ok ∧ ∃ firstBytes secondBytes,
        result.2 = (connection.push firstBytes first).push secondBytes second ∧
          connection.events.length + 2 ≤ config.maxEventCount ∧
          connection.eventBytes + firstBytes + secondBytes ≤ config.maxEventBytes ∧
          connection.nextSequence + 2 ≤ maxExactInteger) := by
  have count := roomy.count
  have total := intact.bytes_le
  have small := config.bytes_size
  have failed : ∀ error, ∃ error', connection.setStreamError error =
      { connection with streamError := error' } := by
    intro error
    rw [Connection.setStreamError]
    split
    next => exact ⟨error, rfl⟩
    next => exact ⟨connection.streamError, rfl⟩
  rw [Connection.enqueuePair]
  split
  next => exact .inl ⟨by simp, connection.streamError, rfl⟩
  next firstBytes _ =>
    split
    next => exact .inl ⟨by simp, failed .emsgsize⟩
    split
    next => exact .inl ⟨by simp, connection.streamError, rfl⟩
    next secondBytes _ =>
      split
      next => exact .inl ⟨by simp, failed .emsgsize⟩
      split
      next => exact .inl ⟨by simp, connection.streamError, rfl⟩
      split
      next broken => exact .inl ⟨broken, connection.streamError, rfl⟩
      split
      next => exact .inl ⟨by simp, connection.streamError, rfl⟩
      next room =>
        split
        next => exact .inl ⟨by simp, .erange, rfl⟩
        next exact_ =>
          rw [sizeSub_of_le (by omega) config.count_size,
            sizeSub_of_le total small] at room
          rw [Connection.pushPair]
          split
          next => exact .inl ⟨by simp, .enomem, rfl⟩
          dsimp only
          split
          next =>
            refine .inl ⟨by simp, .enomem, rollback_push ?_ first .enomem⟩
            omega
          refine .inr ⟨rfl, firstBytes, secondBytes, rfl, by omega, by omega, ?_⟩
          simp only [maxExactInteger] at exact_ ⊢
          omega

theorem enqueuePair (intact : connection.Intact config emitted) (roomy : config.Roomy)
    (size : Message → Option Nat) (first : Message) (firstTaken : Bool) (second : Message)
    (secondTaken : Bool) :
    let result := connection.enqueuePair config size first firstTaken second secondTaken
    result.2.Intact config
      (if result.1 = .ok then emitted ++ [first, second] else emitted) := by
  dsimp only
  rcases intact.enqueuePair_cases roomy size first firstTaken second secondTaken with
    ⟨refused, error, same⟩ | ⟨taken, firstBytes, secondBytes, same, count, bytes, exact_⟩
  · rw [if_neg refused, same]
    exact intact.congr connection.closed error
  · rw [if_pos taken, same]
    have one := intact.push firstBytes first (by omega) (by omega) (by omega)
    have two := one.push secondBytes second
      (by simp only [Connection.push, List.length_append, List.length_singleton]; omega)
      (by simpa [Connection.push] using bytes) (by simp only [Connection.push]; omega)
    simpa using two

/-- A round of an acknowledgement removes the oldest event or changes nothing. -/
theorem ackRound_cases (intact : connection.Intact config emitted) {through : Nat}
    (known : through ≤ connection.nextSequence) :
    (connection.ackRound through).2 = connection ∨
      ∃ first rest, connection.events = first :: rest ∧ first.sequence ≤ through ∧
        (connection.ackRound through).2 = { connection with
          events := rest
          eventBytes := sizeSub connection.eventBytes first.bytes
          acknowledgedSequence := first.sequence } := by
  rw [Connection.ackRound]
  split
  next empty =>
    left
    dsimp only
    rw [intact.acknowledged_max known (by simp [empty])]
  next first rest queued =>
    split
    next below =>
      left
      dsimp only
      rw [intact.acknowledged_max known (by simpa [queued] using below)]
    next reached => exact .inr ⟨first, rest, queued, Nat.le_of_not_lt reached, rfl⟩

end Connection.Intact

/-! ## Replays -/

theorem filter_after {events : List (Event Message)} {start count after : Nat}
    (sequences : events.map (·.sequence) = List.range' (start + 1) count) (behind : start ≤ after) :
    events.filter (fun event => after < event.sequence) = events.drop (after - start) := by
  induction events generalizing start count with
  | nil => simp
  | cons first rest ih =>
      cases count with
      | zero => cases sequences
      | succ count =>
          by_cases here : start = after
          · subst here
            have later : ∀ event ∈ first :: rest, start < event.sequence := by
              intro event member
              have listed := List.mem_map_of_mem (f := Event.sequence) member
              rw [sequences, List.mem_range'_1] at listed
              omega
            rw [Nat.sub_self, List.drop_zero, List.filter_eq_self]
            exact fun event member => decide_eq_true (later event member)
          · rw [List.map_cons, List.range'_succ] at sequences
            obtain ⟨sequence, sequences⟩ := List.cons.inj sequences
            have skipped : ¬after < first.sequence := by omega
            have left : after - start = after - (start + 1) + 1 := by omega
            rw [List.filter_cons_of_neg (by simpa using skipped), left, List.drop_succ_cons]
            exact ih sequences (by omega)

structure Replay.Continues (replay : Replay Message) (emitted : List Message)
    (after nextSequence : Nat) : Prop where
  sequences : replay.events.map (·.sequence) = List.range' (after + 1) replay.events.length
  messages : replay.events.map (·.message) = (emitted.drop after).take replay.events.length
  next : replay.nextSequence = after + replay.events.length
  within : replay.nextSequence ≤ nextSequence
  hasMore : replay.hasMore = decide (replay.nextSequence < nextSequence)
  progress : replay.hasMore = true → replay.events ≠ []

section Window

variable {config : StreamConfig} {emitted : List Message} {connection : Connection Message}
  {after : Nat}

def Connection.window (connection : Connection Message) (after limit : Nat) :
    List (Event Message) :=
  (connection.events.drop (after - connection.acknowledgedSequence)).take limit

theorem Connection.Intact.window_sequences (intact : connection.Intact config emitted)
    (behind : connection.acknowledgedSequence ≤ after) (limit : Nat) :
    (connection.window after limit).map (·.sequence) =
      List.range' (after + 1) (min limit (connection.nextSequence - after)) := by
  have start : connection.acknowledgedSequence + 1 +
      (after - connection.acknowledgedSequence) = after + 1 := by omega
  have left : connection.nextSequence - connection.acknowledgedSequence -
      (after - connection.acknowledgedSequence) = connection.nextSequence - after := by omega
  rw [window, List.map_take, List.map_drop, intact.sequences, List.drop_range', Nat.mul_one,
    start, left]
  rcases Nat.le_total limit (connection.nextSequence - after) with few | many
  · rw [List.take_range'_of_length_ge few, Nat.min_eq_left few]
  · rw [List.take_range'_of_length_le many, Nat.min_eq_right many]

theorem Connection.Intact.window_length (intact : connection.Intact config emitted)
    (behind : connection.acknowledgedSequence ≤ after) (limit : Nat) :
    (connection.window after limit).length = min limit (connection.nextSequence - after) := by
  simpa using congrArg List.length (intact.window_sequences behind limit)

theorem Connection.Intact.window_messages (intact : connection.Intact config emitted)
    (behind : connection.acknowledgedSequence ≤ after) (limit : Nat) :
    (connection.window after limit).map (·.message) =
      (emitted.drop after).take (connection.window after limit).length := by
  have position : connection.acknowledgedSequence +
      (after - connection.acknowledgedSequence) = after := by omega
  have total : (emitted.drop after).length = connection.nextSequence - after := by
    rw [List.length_drop, intact.length]
  rw [intact.window_length behind limit, window, List.map_take, List.map_drop, intact.messages,
    List.drop_drop, position]
  rcases Nat.le_total limit (connection.nextSequence - after) with few | many
  · rw [Nat.min_eq_left few]
  · rw [Nat.min_eq_right many, List.take_of_length_le (by omega),
      List.take_of_length_le (by omega)]

theorem Connection.Intact.window_last (intact : connection.Intact config emitted)
    (behind : connection.acknowledgedSequence ≤ after) (limit : Nat) :
    ((connection.window after limit).getLast?.map (·.sequence)).getD after =
      after + (connection.window after limit).length := by
  rw [← List.getLast?_map, intact.window_sequences behind limit, List.getLast?_range',
    intact.window_length behind limit]
  split
  next none => simp [none]
  next => simp

theorem Connection.Intact.replay (intact : connection.Intact config emitted) {limit : Nat}
    {copied : Bool} {replay : Replay Message} (known : after ≤ connection.nextSequence)
    (replayed : connection.replay config after limit copied = .ok replay) :
    replay.Continues emitted after connection.nextSequence := by
  rw [Connection.replay] at replayed
  split at replayed
  next => cases replayed
  next params =>
    split at replayed
    next => cases replayed
    next behind =>
      split at replayed
      next => cases replayed
      split at replayed
      next => cases replayed
      simp only [not_or, Nat.not_lt] at params
      have behind := Nat.le_of_not_lt behind
      have length := intact.window_length behind limit
      have selected : (connection.events.filter fun event => after < event.sequence).take
          limit = connection.window after limit := by
        rw [filter_after intact.sequences behind, Connection.window]
      simp only [selected, intact.window_last behind limit] at replayed
      cases replayed
      exact {
        sequences := by
          rw [length]
          exact intact.window_sequences behind limit
        messages := intact.window_messages behind limit
        next := rfl
        within := by
          dsimp only
          rw [length]
          omega
        hasMore := rfl
        progress := by
          intro more empty
          change connection.window after limit = [] at empty
          rw [empty, List.length_nil] at length
          simp only [empty, List.length_nil, decide_eq_true_eq] at more
          omega }

end Window

/-! ## Runs -/

theorem Stream.emittedBy_extends (stream : Stream Message) (status : Status)
    (messages : List Message) : stream.emitted <+: stream.emittedBy status messages := by
  rw [emittedBy]
  split
  next => exact List.prefix_append _ _
  next => exact List.prefix_refl _

theorem Connection.enqueue_acknowledged (config : StreamConfig) (size : Message → Option Nat)
    (waitForCapacity : Bool) (message : Message) (connection : Connection Message) :
    (connection.enqueue config size waitForCapacity message).2.acknowledgedSequence =
      connection.acknowledgedSequence := by
  fun_cases Connection.enqueue config size waitForCapacity message connection
  case case2 =>
    rw [Connection.setStreamError]
    split <;> rfl
  all_goals rfl

/-- The subtractions that a section evaluates, with the larger operand first. -/
def Stream.subtractions (config : StreamConfig) (size : Message → Option Nat)
    (stream : Stream Message) : Action Message → List (Nat × Nat)
  | .emit waitForCapacity message =>
      match size message with
      | none => []
      | some bytes =>
          if config.maxSingleEventBytes < bytes then []
          else
            let byteLimit := config.byteLimit waitForCapacity
            (if waitForCapacity then [(config.maxEventCount, controlEventReserve),
              (config.maxEventBytes, sizeMul controlEventReserve config.maxSingleEventBytes)]
            else []) ++
            -- the comparison before it guards this one
            (if byteLimit ≤ stream.connection.eventBytes then []
            else [(byteLimit, stream.connection.eventBytes)])
  | .emitPair first _ _ _ =>
      match size first with
      | none => []
      | some firstBytes =>
          (config.maxEventBytes, 0) ::
          if config.maxSingleEventBytes < firstBytes then []
          else [(config.maxEventBytes, firstBytes), (config.maxEventCount, 2),
            (config.maxEventBytes, stream.connection.eventBytes)]
  | .ackStart _ | .ackContinue _ =>
      (stream.connection.events.head?.map fun event =>
        (stream.connection.eventBytes, event.bytes)).toList
  | _ => []

/-- What holds of a stream whatever runs on it. -/
structure Stream.Intact (config : StreamConfig) (stream : Stream Message) : Prop where
  connection : stream.connection.Intact config stream.emitted
  acknowledging : ∀ through ∈ stream.acknowledging,
    through ≤ stream.connection.nextSequence

/-- What else a section does to an intact stream. -/
structure Stream.Proceeds (stream next : Stream Message) : Prop where
  acknowledged : stream.connection.acknowledgedSequence ≤ next.connection.acknowledgedSequence
  numbered : stream.connection.nextSequence ≤ next.connection.nextSequence
  emitted : stream.emitted <+: next.emitted

namespace Stream.Intact

variable {config : StreamConfig} {stream : Stream Message}

theorem numbered_le {connection : Connection Message} {emitted : List Message}
    (intact : stream.Intact config) (next : connection.Intact config emitted)
    (grown : stream.emitted <+: emitted) :
    stream.connection.nextSequence ≤ connection.nextSequence := by
  have shorter := grown.length_le
  rw [intact.connection.length, next.length] at shorter
  exact shorter

theorem emits (intact : stream.Intact config) {connection : Connection Message}
    {emitted : List Message} (next : connection.Intact config emitted)
    (grown : stream.emitted <+: emitted)
    (same : connection.acknowledgedSequence = stream.connection.acknowledgedSequence) :
    ({ stream with connection, emitted } : Stream Message).Intact config ∧
      stream.Proceeds { stream with connection, emitted } := by
  have numbered := intact.numbered_le next grown
  refine ⟨⟨next, ?_⟩, ⟨Nat.le_of_eq same.symm, numbered, grown⟩⟩
  intro through pending
  exact Nat.le_trans (intact.acknowledging through pending) numbered

theorem acknowledges (intact : stream.Intact config) {through : Nat}
    (known : through ≤ stream.connection.nextSequence) (others : List Nat)
    (pending : ∀ other ∈ others, other ≤ stream.connection.nextSequence) :
    (stream.acknowledge through (stream.connection.ackRound through) others).Intact config ∧
      stream.Proceeds
        (stream.acknowledge through (stream.connection.ackRound through) others) := by
  have waiting : ∀ other ∈ (stream.acknowledge through (stream.connection.ackRound through)
      others).acknowledging, other ≤ stream.connection.nextSequence := by
    intro other member
    rw [Stream.acknowledge] at member
    dsimp only at member
    split at member
    next =>
      rcases List.mem_cons.mp member with rfl | member
      · exact known
      · exact pending other member
    next => exact pending other member
  rw [Stream.acknowledge] at waiting ⊢
  rcases intact.connection.ackRound_cases known with same | ⟨first, rest, queued, -, popped⟩
  · rw [same]
    exact ⟨⟨intact.connection, waiting⟩, ⟨Nat.le_refl _, Nat.le_refl _, List.prefix_refl _⟩⟩
  · obtain ⟨sequence, -, -⟩ := intact.connection.front queued
    rw [popped]
    refine ⟨⟨intact.connection.pop queued, waiting⟩, ⟨?_, Nat.le_refl _, List.prefix_refl _⟩⟩
    dsimp only
    omega

theorem emit (intact : stream.Intact config) (roomy : config.Roomy)
    (size : Message → Option Nat) (waitForCapacity : Bool) (message : Message) :
    (stream.perform config size (.emit waitForCapacity message)).Intact config ∧
      stream.Proceeds (stream.perform config size (.emit waitForCapacity message)) := by
  have next := intact.connection.enqueue roomy size waitForCapacity message
  have same := Connection.enqueue_acknowledged config size waitForCapacity message
    stream.connection
  rw [Stream.perform]
  split
  next connection enqueued =>
    rw [enqueued] at next same
    exact intact.emits next (List.prefix_refl _) same
  next status connection enqueued =>
    simp only [enqueued, Attempt.returns.injEq] at next same
    exact intact.emits next (stream.emittedBy_extends status [message]) same

theorem emitPair (intact : stream.Intact config) (roomy : config.Roomy)
    (size : Message → Option Nat) (first : Message) (firstTaken : Bool) (second : Message)
    (secondTaken : Bool) :
    (stream.perform config size (.emitPair first firstTaken second secondTaken)).Intact config ∧
      stream.Proceeds
        (stream.perform config size (.emitPair first firstTaken second secondTaken)) := by
  have next := intact.connection.enqueuePair roomy size first firstTaken second secondTaken
  have same : (stream.connection.enqueuePair config size first firstTaken second
      secondTaken).2.acknowledgedSequence = stream.connection.acknowledgedSequence := by
    rcases intact.connection.enqueuePair_cases roomy size first firstTaken second secondTaken
      with ⟨-, error, same⟩ | ⟨-, firstBytes, secondBytes, same, -⟩
    · rw [same]
    · rw [same]
      rfl
  exact intact.emits next (stream.emittedBy_extends _ [first, second]) same

theorem perform (intact : stream.Intact config) (roomy : config.Roomy)
    (size : Message → Option Nat) (action : Action Message) :
    (stream.perform config size action).Intact config ∧
      stream.Proceeds (stream.perform config size action) := by
  have refl : ∀ next : Stream Message, next.connection = stream.connection →
      next.acknowledging = stream.acknowledging → next.emitted = stream.emitted →
      next.Intact config ∧ stream.Proceeds next := by
    intro next connection acknowledging emitted
    refine ⟨⟨?_, ?_⟩, ⟨?_, ?_, ?_⟩⟩
    · rw [connection, emitted]
      exact intact.connection
    · rw [connection, acknowledging]
      exact intact.acknowledging
    · rw [connection]
    · rw [connection]
    · exact emitted ▸ List.prefix_refl _
  cases action with
  | emit waitForCapacity message => exact intact.emit roomy size waitForCapacity message
  | emitPair first firstTaken second secondTaken =>
      exact intact.emitPair roomy size first firstTaken second secondTaken
  | fail error =>
      refine intact.emits (intact.connection.setStreamError error) (List.prefix_refl _) ?_
      rw [Connection.setStreamError]
      split <;> rfl
  | wait => exact refl _ rfl rfl rfl
  | replay limit copied =>
      rw [Stream.perform]
      split
      next => exact refl _ rfl rfl rfl
      next => exact refl _ rfl rfl rfl
  | ackStart through =>
      rw [Stream.perform, Connection.ackStart]
      split
      next => exact refl _ rfl rfl rfl
      split
      next => exact refl _ rfl rfl rfl
      split
      next => exact refl _ rfl rfl rfl
      next known =>
        exact intact.acknowledges (Nat.le_of_not_lt known) _ intact.acknowledging
  | ackContinue through =>
      rw [Stream.perform]
      split
      next pending =>
        have others : ∀ other ∈ stream.acknowledging.erase through,
            other ≤ stream.connection.nextSequence := fun other member =>
          intact.acknowledging other (List.mem_of_mem_erase member)
        rw [Connection.ackContinue]
        split
        next =>
          exact ⟨⟨intact.connection, others⟩,
            ⟨Nat.le_refl _, Nat.le_refl _, List.prefix_refl _⟩⟩
        next => exact intact.acknowledges (intact.acknowledging through pending) _ others
      next => exact refl _ rfl rfl rfl
  | close =>
      exact intact.emits (intact.connection.congr true stream.connection.streamError)
        (List.prefix_refl _) rfl

theorem run (intact : stream.Intact config) (roomy : config.Roomy)
    (size : Message → Option Nat) (actions : List (Action Message)) :
    (stream.run config size actions).Intact config := by
  induction actions generalizing stream with
  | nil => exact intact
  | cons action actions ih => exact ih (intact.perform roomy size action).1

theorem opened : (Stream.opened : Stream Message).Intact config where
  connection := by
    refine ⟨rfl, Nat.le_refl _, Nat.zero_le _, rfl, rfl, rfl, Nat.zero_le _, Nat.zero_le _⟩
  acknowledging := fun _ none => nomatch none

theorem subtractions_le (intact : stream.Intact config) (roomy : config.Roomy)
    (size : Message → Option Nat) (action : Action Message) :
    ∀ operands ∈ stream.subtractions config size action, operands.2 ≤ operands.1 := by
  have count := roomy.count
  have bytes := roomy.bytes
  have total := intact.connection.bytes_le
  have reserve : sizeMul controlEventReserve config.maxSingleEventBytes ≤
      config.maxEventBytes := by
    rw [roomy.reserve]
    simp only [controlEventReserve] at bytes ⊢
    omega
  have released : ∀ operands ∈ (stream.connection.events.head?.map fun event =>
      (stream.connection.eventBytes, event.bytes)).toList, operands.2 ≤ operands.1 := by
    have sum := intact.connection.bytes
    cases queued : stream.connection.events with
    | nil => simp
    | cons first rest =>
        rw [queued, List.map_cons, List.sum_cons] at sum
        simp only [List.head?_cons, Option.map_some, Option.toList_some, List.mem_singleton,
          forall_eq]
        omega
  intro operands member
  cases action with
  | emit waitForCapacity message =>
      simp only [Stream.subtractions] at member
      split at member
      next => cases member
      split at member
      next => cases member
      rcases List.mem_append.mp member with limits | guarded
      · split at limits
        next =>
          simp only [List.mem_cons, List.not_mem_nil, or_false] at limits
          rcases limits with rfl | rfl
          · simp only [controlEventReserve]
            omega
          · exact reserve
        next => cases limits
      · split at guarded
        next => cases guarded
        next below =>
          rw [List.mem_singleton.mp guarded]
          exact Nat.le_of_not_le below
  | emitPair first firstTaken second secondTaken =>
      simp only [Stream.subtractions] at member
      split at member
      next => cases member
      next firstBytes _ =>
        rcases List.mem_cons.mp member with rfl | rest
        · exact Nat.zero_le _
        · split at rest
          next => cases rest
          next small =>
            simp only [controlEventReserve] at bytes
            simp only [List.mem_cons, List.not_mem_nil, or_false] at rest
            rcases rest with rfl | rfl | rfl <;> dsimp only <;> omega
  | ackStart through => exact released operands member
  | ackContinue through => exact released operands member
  | fail error => cases member
  | wait => cases member
  | replay limit copied => cases member
  | close => cases member

end Stream.Intact

theorem Connection.not_waits_of_empty {config : StreamConfig} (roomy : config.Roomy)
    (size : Message → Option Nat) (message : Message) {connection : Connection Message}
    {emitted : List Message} (intact : connection.Intact config emitted)
    (empty : connection.events = []) :
    (connection.enqueue config size true message).1 ≠ .waits := by
  have count := roomy.count
  have single := roomy.single
  have fits := roomy.single_le_byteLimit
  have limit := Nat.lt_of_le_of_lt (roomy.byteLimit_le true) config.bytes_size
  have none : connection.eventBytes = 0 := by
    rw [intact.bytes, empty]
    rfl
  intro waits
  rw [Connection.enqueue] at waits
  split at waits
  next => cases waits
  next bytes _ =>
    split at waits
    next => cases waits
    next small =>
      split at waits
      next full =>
        have full := full.2.2
        simp only [Connection.full, empty, none, List.length_nil, Bool.or_eq_true,
          decide_eq_true_eq, roomy.eventLimit_waiting, controlEventReserve,
          sizeSub_of_le (Nat.zero_le _) limit] at full
        omega
      split at waits
      next => cases waits
      split at waits
      next => cases waits
      split at waits
      next => cases waits
      next => cases waits

/-! ## The client -/

/-- Acknowledgements are only of what the client has read. -/
def Stream.AcknowledgesRead (config : StreamConfig) (size : Message → Option Nat) :
    Stream Message → List (Action Message) → Prop
  | _, [] => True
  | stream, action :: actions =>
      (∀ through, action = .ackStart through → through ≤ stream.client.after) ∧
        AcknowledgesRead config size (stream.perform config size action) actions

/-- The client has read the history up to its cursor, and nothing after it is
acknowledged. -/
structure Stream.Read (stream : Stream Message) : Prop where
  behind : stream.connection.acknowledgedSequence ≤ stream.client.after
  known : stream.client.after ≤ stream.connection.nextSequence
  pending : ∀ through ∈ stream.acknowledging, through ≤ stream.client.after
  sequences : stream.client.received.map (·.sequence) = List.range' 1 stream.client.after
  messages : stream.client.received.map (·.message) = stream.emitted.take stream.client.after

namespace Stream.Read

variable {config : StreamConfig} {stream : Stream Message}

theorem of_proceeds (read : stream.Read) (intact : stream.Intact config) {next : Stream Message}
    (proceeds : stream.Proceeds next) (client : next.client = stream.client)
    (behind : next.connection.acknowledgedSequence ≤ stream.client.after)
    (pending : ∀ through ∈ next.acknowledging, through ≤ stream.client.after) : next.Read where
  behind := client ▸ behind
  known := client ▸ Nat.le_trans read.known proceeds.numbered
  pending := client ▸ pending
  sequences := client ▸ read.sequences
  messages := by
    obtain ⟨more, grown⟩ := proceeds.emitted
    have inside : stream.client.after ≤ stream.emitted.length := by
      rw [intact.connection.length]
      exact read.known
    rw [client, read.messages, ← grown, List.take_append_of_le_length inside]

theorem replay (read : stream.Read) {replay : Replay Message}
    (continues : replay.Continues stream.emitted stream.client.after
      stream.connection.nextSequence) :
    ({ stream with
      client := ⟨replay.nextSequence, stream.client.received ++ replay.events⟩ } :
        Stream Message).Read where
  behind := by
    dsimp only
    rw [continues.next]
    exact Nat.le_trans read.behind (Nat.le_add_right _ _)
  known := continues.within
  pending := by
    intro through member
    dsimp only
    rw [continues.next]
    exact Nat.le_trans (read.pending through member) (Nat.le_add_right _ _)
  sequences := by
    rw [List.map_append, read.sequences, continues.sequences, continues.next,
      ← List.range'_append_1, Nat.add_comm 1]
  messages := by
    rw [List.map_append, read.messages, continues.messages, continues.next, List.take_add]

theorem acknowledges (read : stream.Read) (intact : stream.Intact config) {through : Nat}
    (isRead : through ≤ stream.client.after) (others : List Nat)
    (pending : ∀ other ∈ others, other ≤ stream.client.after) :
    (stream.acknowledge through (stream.connection.ackRound through) others).Read := by
  have known := Nat.le_trans isRead read.known
  have all : ∀ other ∈ others, other ≤ stream.connection.nextSequence := fun other member =>
    Nat.le_trans (pending other member) read.known
  refine read.of_proceeds intact (intact.acknowledges known others all).2 rfl ?_ ?_
  · rw [Stream.acknowledge]
    rcases intact.connection.ackRound_cases known with same | ⟨first, rest, -, reached, popped⟩
    · rw [same]
      exact read.behind
    · rw [popped]
      exact Nat.le_trans reached isRead
  · intro other member
    rw [Stream.acknowledge] at member
    dsimp only at member
    split at member
    next =>
      rcases List.mem_cons.mp member with rfl | member
      · exact isRead
      · exact pending other member
    next => exact pending other member

theorem of_others (read : stream.Read) (intact : stream.Intact config) {next : Stream Message}
    (proceeds : stream.Proceeds next) (client : next.client = stream.client)
    (acknowledging : next.acknowledging = stream.acknowledging)
    (same : next.connection.acknowledgedSequence = stream.connection.acknowledgedSequence) :
    next.Read :=
  read.of_proceeds intact proceeds client (same ▸ read.behind) (acknowledging ▸ read.pending)

theorem perform (read : stream.Read) (intact : stream.Intact config) (roomy : config.Roomy)
    (size : Message → Option Nat) (action : Action Message)
    (isRead : ∀ through, action = .ackStart through → through ≤ stream.client.after) :
    (stream.perform config size action).Read := by
  have proceeds := (intact.perform roomy size action).2
  cases action with
  | emit waitForCapacity message =>
      have same := Connection.enqueue_acknowledged config size waitForCapacity message
        stream.connection
      rw [Stream.perform] at proceeds ⊢
      split at proceeds
      next connection enqueued =>
        rw [enqueued] at same
        exact read.of_others intact proceeds rfl rfl same
      next status connection enqueued =>
        rw [enqueued] at same
        exact read.of_others intact proceeds rfl rfl same
  | emitPair first firstTaken second secondTaken =>
      refine read.of_others intact proceeds rfl rfl ?_
      rcases intact.connection.enqueuePair_cases roomy size first firstTaken second secondTaken
        with ⟨-, error, same⟩ | ⟨-, firstBytes, secondBytes, same, -⟩
      · rw [Stream.perform]
        dsimp only
        rw [same]
      · rw [Stream.perform]
        dsimp only
        rw [same]
        rfl
  | fail error =>
      refine read.of_others intact proceeds rfl rfl ?_
      rw [Stream.perform, Connection.setStreamError]
      split <;> rfl
  | wait => exact read
  | replay limit copied =>
      rw [Stream.perform]
      split
      next => exact read
      next replay replayed =>
        exact read.replay (intact.connection.replay read.known replayed)
  | ackStart through =>
      rw [Stream.perform, Connection.ackStart]
      split
      next => exact ⟨read.behind, read.known, read.pending, read.sequences, read.messages⟩
      split
      next => exact ⟨read.behind, read.known, read.pending, read.sequences, read.messages⟩
      split
      next => exact ⟨read.behind, read.known, read.pending, read.sequences, read.messages⟩
      next => exact read.acknowledges intact (isRead through rfl) _ read.pending
  | ackContinue through =>
      rw [Stream.perform]
      split
      next pending =>
        have others : ∀ other ∈ stream.acknowledging.erase through,
            other ≤ stream.client.after := fun other member =>
          read.pending other (List.mem_of_mem_erase member)
        rw [Connection.ackContinue]
        split
        next => exact ⟨read.behind, read.known, others, read.sequences, read.messages⟩
        next => exact read.acknowledges intact (read.pending through pending) _ others
      next => exact read
  | close => exact read.of_others intact proceeds rfl rfl rfl

theorem run (read : stream.Read) (intact : stream.Intact config) (roomy : config.Roomy)
    (size : Message → Option Nat) {actions : List (Action Message)}
    (acknowledges : stream.AcknowledgesRead config size actions) :
    (stream.run config size actions).Read := by
  induction actions generalizing stream with
  | nil => exact read
  | cons action actions ih =>
      obtain ⟨isRead, rest⟩ := acknowledges
      exact ih (read.perform intact roomy size action isRead)
        (intact.perform roomy size action).1 rest

theorem opened : (Stream.opened : Stream Message).Read :=
  ⟨Nat.le_refl _, Nat.le_refl _, (fun _ none => nomatch none), rfl, rfl⟩

end Stream.Read

/-! ## The stream loses nothing -/

structure Stream.Lossless (config : StreamConfig) (size : Message → Option Nat)
    (stream : Stream Message) : Prop where
  /-- The queue is the end of the history, numbered without gaps and within the limits. -/
  intact : stream.connection.Intact config stream.emitted
  /-- What is acknowledged stays so. -/
  acknowledged : ∀ action, stream.connection.acknowledgedSequence ≤
    (stream.perform config size action).connection.acknowledgedSequence
  /-- No subtraction wraps. -/
  subtractions : ∀ action, ∀ operands ∈ stream.subtractions config size action,
    operands.2 ≤ operands.1
  /-- A pair is queued as a whole or not at all. -/
  pairs : ∀ first firstTaken second secondTaken,
    let result := stream.connection.enqueuePair config size first firstTaken second secondTaken
    (result.1 ≠ .ok ∧ ∃ error, result.2 = { stream.connection with streamError := error }) ∨
      (result.1 = .ok ∧ ∃ firstBytes secondBytes,
        result.2 = (stream.connection.push firstBytes first).push secondBytes second)
  /-- An emission does not wait on an empty queue. -/
  waits : stream.connection.events = [] → ∀ message,
    (stream.connection.enqueue config size true message).1 ≠ .waits

/-- What a client that acknowledges only what it has read gets. -/
structure Stream.Delivered (config : StreamConfig) (stream : Stream Message) : Prop where
  /-- It has read the history up to its cursor, in order. -/
  sequences : stream.client.received.map (·.sequence) = List.range' 1 stream.client.after
  messages : stream.client.received.map (·.message) = stream.emitted.take stream.client.after
  /-- A replay from its cursor goes on, and one without more has read everything. -/
  replays : ∀ limit copied replay,
    stream.connection.replay config stream.client.after limit copied = .ok replay →
      (replay.hasMore = true → replay.events ≠ []) ∧
      (replay.hasMore = false →
        (stream.client.received ++ replay.events).map (·.message) = stream.emitted)

/-- For every order of emissions, pairs, replays, acknowledgements and a close, the stream
loses no event, and a client that acknowledges what it has read gets every event once and in
order. -/
theorem Stream.run_lossless (config : StreamConfig) (valid : config.valid = true)
    (size : Message → Option Nat) (actions : List (Action Message)) :
    ((Stream.opened : Stream Message).run config size actions).Lossless config size ∧
      ((Stream.opened : Stream Message).AcknowledgesRead config size actions →
        ((Stream.opened : Stream Message).run config size actions).Delivered config) := by
  have roomy := StreamConfig.roomy valid
  have opened : (Stream.opened : Stream Message).Intact config := Stream.Intact.opened
  have intact := opened.run roomy size actions
  refine ⟨?_, ?_⟩
  · exact {
      intact := intact.connection
      acknowledged := fun action => (intact.perform roomy size action).2.acknowledged
      subtractions := intact.subtractions_le roomy size
      pairs := by
        intro first firstTaken second secondTaken
        rcases intact.connection.enqueuePair_cases roomy size first firstTaken second
          secondTaken with refused | ⟨taken, firstBytes, secondBytes, same, -⟩
        · exact .inl refused
        · exact .inr ⟨taken, firstBytes, secondBytes, same⟩
      waits := fun empty message =>
        Connection.not_waits_of_empty roomy size message intact.connection empty }
  · intro acknowledges
    have read := Stream.Read.opened.run opened roomy size acknowledges
    refine ⟨read.sequences, read.messages, ?_⟩
    intro limit copied replay replayed
    have continues := intact.connection.replay read.known replayed
    refine ⟨continues.progress, ?_⟩
    intro complete
    have last := continues.within
    have hasMore := continues.hasMore
    rw [complete, eq_comm, decide_eq_false_iff_not, Nat.not_lt] at hasMore
    have after := (read.replay continues).messages
    dsimp only at after
    rw [after, List.take_of_length_le]
    rw [intact.connection.length]
    exact hasMore

def sampleStreamConfig : StreamConfig :=
  ⟨8, 400, 100, 4, by decide, by decide, by decide⟩

/-- Three events, two of them read and acknowledged while a fourth is emitted. -/
def sampleActions : List (Action String) :=
  [.emit true "first", .emitPair "second" true "third" true, .replay 2 true, .ackStart 2,
    .emit false "fourth", .ackContinue 2]

theorem Stream.run_lossless_sample :
    let stream := Stream.opened.run sampleStreamConfig (some ·.length) sampleActions
    stream.connection.events.map (·.message) = ["third", "fourth"] ∧
      stream.client.received.map (·.message) = ["first", "second"] ∧
      stream.Lossless sampleStreamConfig (some ·.length) ∧ stream.Delivered sampleStreamConfig := by
  have lossless := Stream.run_lossless sampleStreamConfig (by decide +kernel) (some ·.length)
    sampleActions
  refine ⟨by decide +kernel, by decide +kernel, lossless.1, lossless.2 ?_⟩
  refine ⟨by simp, by simp, by simp, ?_, by simp, by simp, trivial⟩
  intro through same
  cases same
  decide +kernel

end TurboAgent.Harness
