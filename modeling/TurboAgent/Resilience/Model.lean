import TurboAgent.Data.Json
import TurboAgent.Logic.Loop

/-!
# Retries of a transport

A request goes to the transport until an attempt succeeds, fails for good or would take too
long to repeat.  Between two attempts the agent waits: the delay doubles with every attempt, is
replaced by what the provider asks for, and is shifted by an offset that comes from the number
of the attempt.

The transport, the clock and the cancel token answer by the number of the attempt.  No argument
is missing and allocations succeed.
-/

namespace TurboAgent.Resilience

open Logic

/-- The codes that the transport functions return. -/
inductive Status where
  | ok
  | eproto
  | erange
  | eio
  | etimedout
  | ecanceled
  /-- A code of the transport or of the cancel token. -/
  | code (value : Int)
  deriving DecidableEq

def Status.ofInt (value : Int) : Status :=
  if value = 0 then .ok else .code value

/-- `turbo_agent_retry_policy_t`. -/
structure RetryPolicy where
  structSize : Nat
  (abiVersion maxAttempts baseDelayMs maxDelayMs maxElapsedMs requestTimeoutMs : UInt32)
  (connectTimeoutMs jitterPercent : UInt32)
  honorRetryAfter : Bool
  deriving DecidableEq

/-- `sizeof(turbo_agent_retry_policy_t)` with eight bytes to a `size_t`. -/
def policySize : Nat := 48

/-- `TURBO_AGENT_RETRY_POLICY_ABI_VERSION`. -/
def policyAbiVersion : UInt32 := 1

/-- `turbo_agent_retry_policy_init`. -/
def retryPolicyInit : RetryPolicy where
  structSize := policySize
  abiVersion := policyAbiVersion
  maxAttempts := 1
  baseDelayMs := 250
  maxDelayMs := 8000
  maxElapsedMs := 30000
  requestTimeoutMs := 30000
  connectTimeoutMs := 10000
  jitterPercent := 0
  honorRetryAfter := false

/-- `turbo_agent_retry_policy_valid`. -/
def RetryPolicy.valid (policy : RetryPolicy) : Bool :=
  policySize ≤ policy.structSize && policy.abiVersion == policyAbiVersion &&
    0 < policy.maxAttempts && 0 < policy.baseDelayMs && policy.baseDelayMs ≤ policy.maxDelayMs &&
    0 < policy.maxElapsedMs && 0 < policy.requestTimeoutMs && 0 < policy.connectTimeoutMs &&
    policy.jitterPercent ≤ 100

/-- `turbo_agent_transport_response_t`. -/
structure TransportResponse where
  structSize : Nat
  abiVersion : UInt32
  (transportStatus httpStatus : Int)
  retryAfterMs : UInt32
  retryable : Bool
  (providerRequestId body : Option String)
  deriving DecidableEq

/-- `sizeof(turbo_agent_transport_response_t)` with eight bytes to a pointer. -/
def responseSize : Nat := 48

/-- `TURBO_AGENT_TRANSPORT_V2_ABI_VERSION`. -/
def transportAbiVersion : UInt32 := 1

/-! ## The delay before the next attempt -/

/-- Double a delay a number of times, until it reaches the bound. -/
def doubled (bound : Nat) : Nat → Nat → Nat
  | 0, delay => delay
  | shift + 1, delay =>
      if delay < bound then
        doubled bound shift (if (2 ^ 64 - 1) / 2 < delay then 2 ^ 64 - 1 else delay * 2)
      else delay

def steadyDelay (policy : RetryPolicy) (completedAttempts : Nat) (retryAfterMs : UInt32) : Nat :=
  let bound := policy.maxDelayMs.toNat
  let backoff := min (doubled bound (completedAttempts - 1) policy.baseDelayMs.toNat) bound
  if policy.honorRetryAfter && backoff < retryAfterMs.toNat && retryAfterMs.toNat ≤ bound then
    retryAfterMs.toNat
  else backoff

def jitterSpan (delay : Nat) (percent : UInt32) : Nat :=
  delay * percent.toNat % 2 ^ 64 / 100

/-- The number that the jitter of an attempt comes from. -/
def jitterSeed (completedAttempts : Nat) : Nat :=
  (completedAttempts * 1103515245 + 12345) % 2 ^ 64

/-- The number of offsets that the jitter can have. -/
def jitterWidth (span : Nat) : Nat :=
  if (2 ^ 64 - 2) / 2 < span then 2 ^ 64 - 1 else span * 2 + 1

def jitterOffset (completedAttempts span : Nat) : Int :=
  if jitterWidth span = 0 then 0
  else ((jitterSeed completedAttempts % jitterWidth span : Nat) : Int) - span

def jittered (delay completedAttempts : Nat) (percent : UInt32) : Nat :=
  if percent = 0 then delay
  else
    let offset := jitterOffset completedAttempts (jitterSpan delay percent)
    if offset < 0 ∧ (delay : Int) < -offset then 0 else (delay + offset).toNat

/-- `turbo_agent_retry_delay`. -/
def retryDelay (policy : RetryPolicy) (completedAttempts : Nat) (retryAfterMs : UInt32) : Nat :=
  min (jittered (steadyDelay policy completedAttempts retryAfterMs) completedAttempts
    policy.jitterPercent) (2 ^ 32 - 1)

/-! ## The record of an attempt -/

inductive AttemptOutcome where
  | succeeded
  | failed
  | elapsedLimit
  | retryScheduled
  deriving DecidableEq

def AttemptOutcome.text : AttemptOutcome → String
  | .succeeded => "succeeded"
  | .failed => "failed"
  | .elapsedLimit => "elapsed_limit"
  | .retryScheduled => "retry_scheduled"

def attemptRecord (attempt : Nat) (response : TransportResponse) (outcome : AttemptOutcome)
    (delayMs : Nat) (started finished : UInt64) : Json :=
  .object ([("retryable", .bool response.retryable), ("schema_version", .int 1),
    ("attempt", .int attempt), ("transport_status", .int response.transportStatus),
    ("http_status", .int response.httpStatus), ("delay_ms", .int delayMs),
    ("started_mono_ms", .int started.toNat), ("finished_mono_ms", .int finished.toNat),
    ("outcome", .string outcome.text)] ++
      match response.providerRequestId with
      | none => []
      | some requestId => [("provider_request_id", .string requestId)])

/-- `turbo_agent_attempt_append`. -/
def attemptAppend (state : Option Json) (attempt : Nat) (response : TransportResponse)
    (outcome : AttemptOutcome) (delayMs : Nat) (started finished : UInt64) :
    Except Status (Option Json) :=
  match state with
  | none => .ok none
  | some state =>
      if state.isObject = false then .error .eproto
      else if 2 ^ 63 - 1 < started.toNat ∨ 2 ^ 63 - 1 < finished.toNat then .error .erange
      else
        let record := attemptRecord attempt response outcome delayMs started finished
        match state.field "provider_attempts" with
        | none => .ok (some (state.set "provider_attempts" (.array [record])))
        | some (.array attempts) =>
            .ok (some (state.set "provider_attempts" (.array (attempts ++ [record]))))
        | some _ => .error .eproto

def attemptAppended (state : Option Json) (attempt : Nat) (response : TransportResponse)
    (outcome : AttemptOutcome) (delayMs : Nat) (started finished : UInt64) : Option Json :=
  match attemptAppend state attempt response outcome delayMs started finished with
  | .ok state => state
  | .error _ => state

/-! ## Attempts -/

inductive Checkpoint where
  | before
  | refused
  | waited
  | interrupted
  deriving DecidableEq

/-- What an execution meets: the answers of the clock, the token and the transport. -/
structure Environment where
  executionStart : UInt64
  (started finished : Nat → UInt64)
  /-- The execution has a cancel token. -/
  cancelToken : Bool
  /-- `turbo_cancel_token_check`. -/
  check : Nat → Checkpoint → Int
  /-- `turbo_cancel_token_wait` is cut short. -/
  signaled : Nat → Bool
  /-- The transport: what it returns and the response it leaves. -/
  transport : Nat → Int × TransportResponse

inductive Event where
  | invoked (attempt : Nat) (code : Int) (response : TransportResponse)
  | scheduled (attempt : Nat) (retryAfterMs : UInt32) (delayMs : Nat) (finished : UInt64)
  deriving DecidableEq

/-- What an execution returns, leaves and has done. -/
structure Result where
  status : Status
  response : Option String
  state : Option Json
  lastProviderRequestId : Option String
  log : List Event
  deriving DecidableEq

structure Progress where
  attempt : Nat
  state : Option Json
  log : List Event
  deriving DecidableEq

def succeeded (code : Int) (response : TransportResponse) : Bool :=
  code == 0 && response.transportStatus == 0 && response.body.isSome

def wellFormed (response : TransportResponse) : Bool :=
  responseSize ≤ response.structSize && response.abiVersion == transportAbiVersion

/-- The status of an attempt that is not repeated. -/
def failureStatus (code : Int) (response : TransportResponse) : Status :=
  if response.transportStatus ≠ 0 then .ofInt response.transportStatus
  else if code ≠ 0 then .ofInt code
  else .eio

/-- The delay does not fit into what is left of the time. -/
def tooLate (policy : RetryPolicy) (start finished : UInt64) (delayMs : Nat) : Bool :=
  policy.maxElapsedMs.toUInt64 < finished - start ||
    (policy.maxElapsedMs.toUInt64 - (finished - start)).toNat < delayMs

/-- `turbo_agent_retry_wait` after an attempt. -/
def retryWait (environment : Environment) (attempt : Nat) : Status :=
  if environment.cancelToken = false then .ok
  else if environment.signaled attempt then .ofInt (environment.check attempt .waited)
  else .ok

/-- The status of an execution whose wait did not end well. -/
def interruptedStatus (environment : Environment) (attempt : Nat) : Status :=
  if environment.cancelToken then .ofInt (environment.check attempt .interrupted) else .ecanceled

/-- What comes after an attempt that may be repeated. -/
def reschedule (policy : RetryPolicy) (environment : Environment) (progress : Progress)
    (response : TransportResponse) (log : List Event) : Progress ⊕ Result :=
  let attempt := progress.attempt
  let started := environment.started attempt
  let finished := environment.finished attempt
  let delayMs := retryDelay policy attempt response.retryAfterMs
  if tooLate policy environment.executionStart finished delayMs then
    .inr ⟨.etimedout, response.body,
      attemptAppended progress.state attempt response .elapsedLimit 0 started finished, none, log⟩
  else
    match attemptAppend progress.state attempt response .retryScheduled delayMs started finished with
    | .error _ => .inr ⟨.eio, none, progress.state, none, log⟩
    | .ok state =>
        let log := log ++ [.scheduled attempt response.retryAfterMs delayMs finished]
        if retryWait environment attempt ≠ .ok then
          .inr ⟨interruptedStatus environment attempt, none, state, none, log⟩
        else .inl ⟨attempt + 1, state, log⟩

/-- What an attempt does with the answer of the transport. -/
def conclude (policy : RetryPolicy) (environment : Environment) (progress : Progress) (code : Int)
    (response : TransportResponse) (log : List Event) : Progress ⊕ Result :=
  let attempt := progress.attempt
  let started := environment.started attempt
  let finished := environment.finished attempt
  if wellFormed response = false then .inr ⟨.eproto, none, progress.state, none, log⟩
  else if succeeded code response then
    match attemptAppend progress.state attempt response .succeeded 0 started finished with
    | .error _ => .inr ⟨.eio, none, progress.state, none, log⟩
    | .ok state => .inr ⟨.ok, response.body, state, response.providerRequestId, log⟩
  else if response.retryable = false ∨ attempt = policy.maxAttempts.toNat then
    .inr ⟨failureStatus code response, response.body,
      attemptAppended progress.state attempt response .failed 0 started finished, none, log⟩
  else reschedule policy environment progress response log

def round (policy : RetryPolicy) (environment : Environment) (progress : Progress) :
    Progress ⊕ Result :=
  let attempt := progress.attempt
  if policy.maxAttempts.toNat < attempt then
    .inr ⟨.eio, none, progress.state, none, progress.log⟩
  else if environment.cancelToken && environment.check attempt .before != 0 then
    .inr ⟨.ofInt (environment.check attempt .refused), none, progress.state, none, progress.log⟩
  else
    let (code, response) := environment.transport attempt
    conclude policy environment progress code response
      (progress.log ++ [.invoked attempt code response])

inductive Transport where
  /-- `transport_v2`. -/
  | v2
  /-- `turbo_agent_http_transport` as the plain transport. -/
  | http
  /-- Another plain transport. -/
  | plain
  deriving DecidableEq

def plainTransport (environment : Environment) (records : Bool) (state : Option Json) : Result :=
  let (code, response) := environment.transport 1
  let log := [.invoked 1 code response]
  if records then
    match attemptAppend state 1 response (if code = 0 then .succeeded else .failed) 0
        (environment.started 1) (environment.finished 1) with
    | .error status => ⟨status, none, state, none, log⟩
    | .ok state => ⟨.ofInt code, response.body, state, none, log⟩
  else ⟨.ofInt code, response.body, state, none, log⟩

/-- `turbo_agent_resilient_transport`: no result if the attempts do not come to an end. -/
def resilientTransport (transport : Transport) (policy : RetryPolicy) (environment : Environment)
    (state : Option Json) : Option Result :=
  match transport with
  | .http => some (plainTransport environment true state)
  | .plain => some (plainTransport environment false state)
  | .v2 =>
      Loop.rounds (round policy environment) (policy.maxAttempts.toNat + 1) ⟨1, state, []⟩

end TurboAgent.Resilience
