import TurboAgent.Runtime.Status

/-!
# The event stream of a connection

A connection of the harness keeps its events in a bounded queue until its client has
acknowledged them.  Item events wait for capacity and leave a reserve; control events fail
when the queue is full; a pair is queued as a whole.  A client replays events after a
cursor and acknowledges what it has read.

Every function below is one critical section of the event mutex.  An acknowledgement gives
the mutex up after every event it removes, so it is a sequence of sections.  Sizes are
`size_t` and their subtraction wraps.
-/

namespace TurboAgent.Harness

/-- `TURBO_AGENT_HARNESS_MAX_EXACT_JSON_INTEGER`. -/
def maxExactInteger : Nat := 9007199254740991

/-- `TURBO_AGENT_HARNESS_CONTROL_EVENT_RESERVE`. -/
def controlEventReserve : Nat := 3

/-- Values of `size_t`. -/
def sizeModulus : Nat := 18446744073709551616

/-- Subtraction of `size_t`. -/
def sizeSub (left right : Nat) : Nat :=
  (left + (sizeModulus - right % sizeModulus)) % sizeModulus

/-- Multiplication of `size_t`. -/
def sizeMul (left right : Nat) : Nat :=
  left * right % sizeModulus

/-- The limits of `turbo_agent_harness_server_config_t` that concern events. -/
structure StreamConfig where
  (maxEventCount maxEventBytes maxSingleEventBytes maxReplayEvents : Nat)
  count_size : maxEventCount < sizeModulus
  bytes_size : maxEventBytes < sizeModulus
  single_size : maxSingleEventBytes < sizeModulus

/-- `turbo_agent_harness_server_config_valid`, for the limits. -/
def StreamConfig.valid (config : StreamConfig) : Bool :=
  8 ≤ config.maxEventCount && config.maxEventCount ≤ maxExactInteger &&
  config.maxEventBytes ≠ 0 && config.maxSingleEventBytes ≠ 0 &&
  config.maxSingleEventBytes ≤ config.maxEventBytes &&
  config.maxSingleEventBytes ≤ (sizeModulus - 1) / (controlEventReserve + 1) &&
  sizeMul (controlEventReserve + 1) config.maxSingleEventBytes ≤ config.maxEventBytes &&
  config.maxReplayEvents ≠ 0 && config.maxReplayEvents ≤ maxExactInteger &&
  config.maxReplayEvents ≤ config.maxEventCount

/-- `turbo_agent_harness_event_t`. -/
structure Event (Message : Type) where
  (sequence bytes : Nat)
  message : Message
  deriving DecidableEq

/-- The stream of `turbo_agent_harness_connection_t`. -/
structure Connection (Message : Type) where
  events : List (Event Message)
  (eventBytes nextSequence acknowledgedSequence : Nat)
  closed : Bool
  streamError : Status
  deriving DecidableEq

namespace Connection

variable {Message : Type}

/-- `turbo_agent_harness_server_open_connection`. -/
def opened : Connection Message :=
  ⟨[], 0, 0, 0, false, .ok⟩

/-- `turbo_agent_harness_connection_set_stream_error`. -/
def setStreamError (connection : Connection Message) (error : Status) : Connection Message :=
  if connection.streamError = .ok then { connection with streamError := error } else connection

def push (connection : Connection Message) (bytes : Nat) (message : Message) :
    Connection Message :=
  { connection with
    nextSequence := connection.nextSequence + 1
    events := connection.events ++ [⟨connection.nextSequence + 1, bytes, message⟩]
    eventBytes := connection.eventBytes + bytes }

def rollback (connection : Connection Message) : Connection Message :=
  match connection.events.getLast? with
  | none => connection
  | some event => { connection with
      events := connection.events.dropLast
      eventBytes := sizeSub connection.eventBytes event.bytes
      nextSequence := connection.nextSequence - 1 }

end Connection

/-- How an attempt to emit ends: it waits for capacity or returns a status. -/
inductive Attempt where
  | waits
  | returns (status : Status)
  deriving DecidableEq

section Emission

variable {Message : Type}

/-- Queued events below which an emission goes ahead. -/
def StreamConfig.eventLimit (config : StreamConfig) (waitForCapacity : Bool) : Nat :=
  if waitForCapacity then sizeSub config.maxEventCount controlEventReserve
  else config.maxEventCount

/-- Queued bytes below which an emission goes ahead. -/
def StreamConfig.byteLimit (config : StreamConfig) (waitForCapacity : Bool) : Nat :=
  if waitForCapacity then
    sizeSub config.maxEventBytes (sizeMul controlEventReserve config.maxSingleEventBytes)
  else config.maxEventBytes

namespace Connection

def full (config : StreamConfig) (waitForCapacity : Bool) (bytes : Nat)
    (connection : Connection Message) : Bool :=
  config.eventLimit waitForCapacity ≤ connection.events.length ||
  config.byteLimit waitForCapacity ≤ connection.eventBytes ||
  sizeSub (config.byteLimit waitForCapacity) connection.eventBytes < bytes

/-- `turbo_agent_harness_connection_enqueue` from its lock to its wait or its end; `size` is
the length of the serialized message.  The queue has its reserve, so it grows. -/
def enqueue (config : StreamConfig) (size : Message → Option Nat) (waitForCapacity : Bool)
    (message : Message) (connection : Connection Message) : Attempt × Connection Message :=
  match size message with
  | none => (.returns .enomem, connection)
  | some bytes =>
      if config.maxSingleEventBytes < bytes ∨ config.maxEventBytes < bytes then
        (.returns .emsgsize, connection.setStreamError .emsgsize)
      else if !connection.closed ∧ connection.streamError = .ok ∧
          connection.full config waitForCapacity bytes then
        (if waitForCapacity then .waits else .returns .ebusy, connection)
      else if connection.closed then (.returns .eshutdown, connection)
      else if connection.streamError ≠ .ok then (.returns connection.streamError, connection)
      else if maxExactInteger ≤ connection.nextSequence then
        (.returns .erange, { connection with streamError := .erange })
      else (.returns .ok, connection.push bytes message)

/-- The pushes of a pair.  The flags tell whether the queue took the events. -/
def pushPair (firstBytes : Nat) (first : Message) (firstTaken : Bool) (secondBytes : Nat)
    (second : Message) (secondTaken : Bool) (connection : Connection Message) :
    Status × Connection Message :=
  if !firstTaken then (.enomem, { connection with streamError := .enomem })
  else
    let connection := connection.push firstBytes first
    if !secondTaken then (.enomem, { connection with streamError := .enomem }.rollback)
    else (.ok, connection.push secondBytes second)

/-- `turbo_agent_harness_connection_enqueue_pair`. -/
def enqueuePair (config : StreamConfig) (size : Message → Option Nat) (first : Message)
    (firstTaken : Bool) (second : Message) (secondTaken : Bool)
    (connection : Connection Message) : Status × Connection Message :=
  match size first with
  | none => (.enomem, connection)
  | some firstBytes =>
      if config.maxSingleEventBytes < firstBytes ∨
          sizeSub config.maxEventBytes 0 < firstBytes then
        (.emsgsize, connection.setStreamError .emsgsize)
      else
        match size second with
        | none => (.enomem, connection)
        | some secondBytes =>
            if config.maxSingleEventBytes < secondBytes ∨
                sizeSub config.maxEventBytes firstBytes < secondBytes then
              (.emsgsize, connection.setStreamError .emsgsize)
            else if connection.closed then (.eshutdown, connection)
            else if connection.streamError ≠ .ok then (connection.streamError, connection)
            else if sizeSub config.maxEventCount 2 < connection.events.length ∨
                sizeSub config.maxEventBytes connection.eventBytes <
                  firstBytes + secondBytes then (.ebusy, connection)
            else if maxExactInteger - 2 < connection.nextSequence then
              (.erange, { connection with streamError := .erange })
            else connection.pushPair firstBytes first firstTaken secondBytes second secondTaken

end Connection

end Emission

/-! ## Reading -/

/-- `turbo_agent_harness_rpc` errors of a replay. -/
inductive ReplayError where
  | invalidParams
  | notFound
  | streamFailed
  | internal
  deriving DecidableEq

structure Replay (Message : Type) where
  events : List (Event Message)
  nextSequence : Nat
  hasMore : Bool
  deriving DecidableEq

/-- What a section of an acknowledgement leaves to do. -/
inductive AckProgress where
  | more
  | done (status : Status)
  deriving DecidableEq

namespace Connection

variable {Message : Type}

/-- `turbo_agent_harness_dispatch_event_replay`; `copied` tells whether the result could be
built. -/
def replay (config : StreamConfig) (after limit : Nat) (copied : Bool)
    (connection : Connection Message) : Except ReplayError (Replay Message) :=
  if maxExactInteger < after ∨ limit < 1 ∨ config.maxReplayEvents < limit then
    .error .invalidParams
  else if after < connection.acknowledgedSequence then .error .notFound
  else if connection.streamError ≠ .ok then .error .streamFailed
  else if !copied then .error .internal
  else
    let selected := (connection.events.filter fun event => after < event.sequence).take limit
    let next := (selected.getLast?.map (·.sequence)).getD after
    .ok ⟨selected, next, next < connection.nextSequence⟩

/-- One round of the loop of `turbo_agent_harness_connection_ack_events`. -/
def ackRound (through : Nat) (connection : Connection Message) :
    AckProgress × Connection Message :=
  match connection.events with
  | [] => (.done .ok, { connection with
      acknowledgedSequence := max connection.acknowledgedSequence through })
  | front :: rest =>
      if through < front.sequence then (.done .ok, { connection with
        acknowledgedSequence := max connection.acknowledgedSequence through })
      else (.more, { connection with
        events := rest
        eventBytes := sizeSub connection.eventBytes front.bytes
        acknowledgedSequence := front.sequence })

/-- The first section of `turbo_agent_harness_connection_ack_events`. -/
def ackStart (through : Nat) (connection : Connection Message) :
    AckProgress × Connection Message :=
  if maxExactInteger < through then (.done .einval, connection)
  else if connection.closed then (.done .eshutdown, connection)
  else if connection.nextSequence < through then (.done .einval, connection)
  else connection.ackRound through

/-- A further section, after the released event is destroyed. -/
def ackContinue (through : Nat) (connection : Connection Message) :
    AckProgress × Connection Message :=
  if connection.closed then (.done .eshutdown, connection)
  else connection.ackRound through

end Connection

/-! ## The stream and its client -/

/-- A client: the cursor of its next replay and what it has read. -/
structure Client (Message : Type) where
  after : Nat
  received : List (Event Message)

/-- A connection with its client and the acknowledgements under way.  `emitted` is the
history of the messages that were emitted with success; no code reads it. -/
structure Stream (Message : Type) where
  connection : Connection Message
  acknowledging : List Nat
  client : Client Message
  emitted : List Message

/-- The sections that run on a connection, in any order. -/
inductive Action (Message : Type) where
  | emit (waitForCapacity : Bool) (message : Message)
  | emitPair (first : Message) (firstTaken : Bool) (second : Message) (secondTaken : Bool)
  | fail (error : Status)
  | wait
  | replay (limit : Nat) (copied : Bool)
  | ackStart (through : Nat)
  | ackContinue (through : Nat)
  | close

namespace Stream

variable {Message : Type}

def opened : Stream Message :=
  ⟨.opened, [], ⟨0, []⟩, []⟩

def emittedBy (status : Status) (messages : List Message) (stream : Stream Message) :
    List Message :=
  if status = .ok then stream.emitted ++ messages else stream.emitted

def acknowledge (through : Nat) (section_ : AckProgress × Connection Message)
    (others : List Nat) (stream : Stream Message) : Stream Message :=
  { stream with
    connection := section_.2
    acknowledging := match section_.1 with
      | .more => through :: others
      | .done _ => others }

def perform (config : StreamConfig) (size : Message → Option Nat) (stream : Stream Message) :
    Action Message → Stream Message
  | .emit waitForCapacity message =>
      match stream.connection.enqueue config size waitForCapacity message with
      | (.waits, connection) => { stream with connection }
      | (.returns status, connection) => { stream with
          connection
          emitted := stream.emittedBy status [message] }
  | .emitPair first firstTaken second secondTaken =>
      let result := stream.connection.enqueuePair config size first firstTaken second secondTaken
      { stream with
        connection := result.2
        emitted := stream.emittedBy result.1 [first, second] }
  | .fail error => { stream with connection := stream.connection.setStreamError error }
  | .wait => stream
  | .replay limit copied =>
      match stream.connection.replay config stream.client.after limit copied with
      | .error _ => stream
      | .ok replay => { stream with
          client := ⟨replay.nextSequence, stream.client.received ++ replay.events⟩ }
  | .ackStart through =>
      stream.acknowledge through (stream.connection.ackStart through) stream.acknowledging
  | .ackContinue through =>
      if through ∈ stream.acknowledging then
        stream.acknowledge through (stream.connection.ackContinue through)
          (stream.acknowledging.erase through)
      else stream
  | .close => { stream with connection := { stream.connection with closed := true } }

def run (config : StreamConfig) (size : Message → Option Nat) (stream : Stream Message)
    (actions : List (Action Message)) : Stream Message :=
  actions.foldl (perform config size) stream

end Stream

end TurboAgent.Harness
