import TurboAgent.Runtime.Store

/-!
# The tool executor

A batch of tool calls is checked as a whole, journaled call by call, and then
dispatched.  Two collections guard a call's effect: its journal record, inserted
as `planned` and overwritten as `started` and `committed`, and a claim, inserted
once by the owner that may enter the callback.  Both live under the hash of the
call's effect identity.

The definitions follow the executor of the agent for a runtime that has a store.
Registry, policy and schema checks are functions of the batch; the cancel token,
the pool, the clock and the callback are questions to the environment.
-/

namespace TurboAgent.ToolExecutor

open Logic

/-- What makes two tool calls the same effect. -/
structure EffectIdentity where
  (runId turnKey callId : String)
  deriving DecidableEq

/-- `turbo_tool_execution_mode_t`. -/
inductive ExecutionMode where
  | sequential
  | parallelSafe
  | exclusive
  deriving DecidableEq

def ExecutionMode.code : ExecutionMode → Int
  | .sequential => 0
  | .parallelSafe => 1
  | .exclusive => 2

/-- `turbo_tool_idempotency_t`. -/
inductive Idempotency where
  | none
  | keyed
  | readOnly
  deriving DecidableEq

def Idempotency.code : Idempotency → Int
  | .none => 0
  | .keyed => 1
  | .readOnly => 2

/-- `turbo_tool_execution_policy_t`. -/
structure ExecutionPolicy where
  mode : ExecutionMode
  idempotency : Idempotency
  deriving DecidableEq

/-- `turbo_agent_tool_execution_t`: one call of a batch with its result. -/
structure ToolCall where
  (callId toolName argumentsJson : String)
  policy : ExecutionPolicy
  status : ToolStatus
  output : Option String
  detail : Option Json
  (detailCaptureFailed replayed : Bool)
  turnKey : String
  (policyReason legacyTurnKey : Option String)

structure ToolOutcome where
  status : ToolStatus
  output : Option String
  detail : Option Json
  detailCaptureFailed : Bool

/-- Journal phases; `admitted` is the phase of a claim. -/
inductive Phase where
  | planned
  | started
  | committed
  | admitted
  deriving DecidableEq

def Phase.text : Phase → String
  | .planned => "planned"
  | .started => "started"
  | .committed => "committed"
  | .admitted => "admitted"

/-- `turbo_agent_tool_executor_config_t`. -/
structure Config where
  (maxWorkers maxBatchCalls maxArgumentsBytes maxOutputBytes : Nat)

/-- What the executor reads from the tool registry and the agent policy, which do
not change during a batch.  `capabilities` is the status of the capability lookup;
`deniedBy` is the reason of a policy that does not allow the tool. -/
structure Registry where
  resolveName : String → ToolStatus × Option String
  executionPolicy : String → Option ExecutionPolicy
  capabilities : String → ToolStatus
  deniedBy : String → Option (Option String)
  argumentsValid : String → String → Bool

/-- The task of one call: its thread and run, and the limits of the executor. -/
structure Task where
  config : Config
  (threadId runId : String)
  call : ToolCall

/-- Questions of the executor to its environment. -/
inductive Query where
  /-- `turbo_agent_tool_cancel_status` -/
  | cancelStatus
  /-- `turbo_agent_tool_batch_acquire` -/
  | batchAcquire
  /-- `turbo_agent_runtime_make_timestamp` -/
  | timestamp
  /-- the callback behind `turbo_tool_registry_execute_with_context` -/
  | runTool (toolName argumentsJson : String)
  /-- `cmeta_threadpool_try_submit` of the task of one call -/
  | trySubmit (index : Nat) (task : Task)
  /-- `cmeta_threadpool_wait`, with the calls as their tasks left them -/
  | wait

@[reducible] def Query.Reply : Query → Type
  | .cancelStatus => ToolStatus
  | .batchAcquire => ToolStatus
  | .timestamp => String
  | .runTool _ _ => ToolOutcome
  | .trySubmit _ _ => Bool
  | .wait => Nat → ToolCall

/-- The executor's view of the runtime store.  An event is the entry of the
callback of an effect. -/
@[reducible] def signature : StoreSignature :=
  runtimeStore EffectIdentity Query Query.Reply

abbrev Prog := StoreProgram signature

def ask (query : Query) : Prog query.Reply :=
  StoreProgram.ask (S := signature) query

def enter (identity : EffectIdentity) : Prog Unit :=
  StoreProgram.emit (S := signature) identity

/-- What `turbo_agent_tool_executor_execute` returns: a status of the executor or,
from a failed capability lookup, the status of the registry. -/
inductive ReturnCode where
  | status (status : Status)
  | tool (status : ToolStatus)
  deriving DecidableEq

/-- Results of the executor's agents: a batch with its calls, or the call of one
pool task. -/
inductive AgentResult where
  | batch (code : ReturnCode) (calls : List ToolCall)
  | task (call : ToolCall)

section Executor

variable (sha256 : String → String)

/-- `turbo_agent_tool_sha256_parts`: hexadecimal digest of two strings with the
first one's NUL as separator. -/
def sha256Parts (first second : String) : String :=
  sha256 (first ++ "\x00" ++ second)

/-- `turbo_agent_tool_journal_id`. -/
def journalId (identity : EffectIdentity) : String :=
  sha256Parts sha256 (sha256Parts sha256 identity.runId identity.turnKey)
    identity.callId

/-- `turbo_agent_tool_journal_record`. -/
def journalRecord (id threadId runId : String) (call : ToolCall) (phase : Phase)
    (timestamp : String) : Json :=
  let base := [
    ("schema_version", Json.int 1),
    ("journal_id", .string id),
    ("thread_id", .string threadId),
    ("run_id", .string runId),
    ("call_id", .string call.callId),
    ("turn_key", .string call.turnKey),
    ("tool_name", .string call.toolName),
    ("arguments_hash", .string (sha256Parts sha256 call.toolName call.argumentsJson)),
    ("execution_mode", .int call.policy.mode.code),
    ("idempotency", .int call.policy.idempotency.code),
    ("phase", .string phase.text),
    ("updated_at", .string timestamp),
    ("status", .int call.status.code)]
  let output := match call.output with
    | some text => [("output", Json.string text)]
    | none => []
  let detail := match call.detail with
    | some value => [("detail", value)]
    | none => []
  .object (if phase = .committed then base ++ output ++ detail else base)

/-- `turbo_agent_tool_journal_write`: a plain write into the journal. -/
def journalWrite (id threadId runId : String) (call : ToolCall) (phase : Phase) :
    Prog Status := do
  let timestamp ← ask .timestamp
  match ← storePut .toolJournal id
      (journalRecord sha256 id threadId runId call phase timestamp) with
  | .ok => return .ok
  | _ => return .eio

/-- `turbo_agent_tool_journal_create`: an insert into the journal or the claims. -/
def journalCreate (collection : Collection) (id threadId runId : String)
    (call : ToolCall) (phase : Phase) : Prog Status := do
  let timestamp ← ask .timestamp
  storeCreate collection id
    (journalRecord sha256 id threadId runId call phase timestamp)

/-- `turbo_agent_tool_journal_string_equals`. -/
def stringEquals (record : Json) (key expected : String) : Bool :=
  record.field key == some (.string expected)

/-- The checks of `turbo_agent_tool_journal_load` on a record it found. -/
def recordMatches (id threadId runId : String) (call : ToolCall) (record : Json) :
    Bool :=
  Json.asInt64 (record.field "schema_version") Json.int64Min == 1 &&
  stringEquals record "journal_id" id &&
  stringEquals record "thread_id" threadId &&
  stringEquals record "run_id" runId &&
  stringEquals record "call_id" call.callId &&
  stringEquals record "turn_key" call.turnKey &&
  stringEquals record "tool_name" call.toolName &&
  stringEquals record "arguments_hash"
    (sha256Parts sha256 call.toolName call.argumentsJson) &&
  Json.asInt64 (record.field "execution_mode") Json.int64Min == call.policy.mode.code &&
  Json.asInt64 (record.field "idempotency") Json.int64Min ==
    call.policy.idempotency.code &&
  (ToolStatus.ofCode (Json.asInt64 (record.field "status") Json.int64Max)).isSome &&
  (match record.field "output" with
    | none => true
    | some (.string text) => noNul text
    | some _ => false)

/-- `turbo_agent_tool_journal_load`. -/
def journalLoad (id threadId runId : String) (call : ToolCall) :
    Prog (Except Status Json) := do
  match ← storeGet .toolJournal id with
  | .error .unclassified =>
      match ← storeList .toolJournal "journal_id" id with
      | none => return .error .eio
      | some records => return .error (if records.isEmpty then .enoent else .eio)
  | .error status => return .error status
  | .ok record =>
      if recordMatches sha256 id threadId runId call record then
        return .ok record
      else
        return .error .eproto

/-- The part of `turbo_agent_tool_prepare_journal` that takes over the outcome of
a stored record. -/
def replayRecord (config : Config) (call : ToolCall) (record : Json) :
    Status × ToolCall :=
  if stringEquals record "phase" Phase.started.text then
    (.ok, { call with status := .unknownSideEffect, replayed := true })
  else if stringEquals record "phase" Phase.committed.text then
    let saved := (ToolStatus.ofCode
      (Json.asInt64 (record.field "status") Json.int64Max)).getD .error
    let (status, output) := match record.field "output" with
      | some (.string text) =>
          if config.maxOutputBytes < text.length then (.outputLimit, call.output)
          else (saved, some text)
      | _ => (saved, call.output)
    let detail := match record.field "detail" with
      | some value => some value
      | none => call.detail
    (.ok, { call with status, output, detail, replayed := true })
  else if stringEquals record "phase" Phase.planned.text then
    (.ok, call)
  else
    (.eproto, call)

/-- The lookup of `turbo_agent_tool_prepare_journal`: the call's own record, or the
record of its legacy key, which only blocks the call. -/
def journalLookup (id threadId runId : String) (call : ToolCall) :
    Prog (Except Status Json) := do
  match ← journalLoad sha256 id threadId runId call with
  | .error .enoent =>
      match call.legacyTurnKey with
      | none => return .error .enoent
      | some legacyTurnKey =>
          let legacyCall := { call with turnKey := legacyTurnKey }
          let legacyId := journalId sha256 ⟨runId, legacyTurnKey, call.callId⟩
          match ← journalLoad sha256 legacyId threadId runId legacyCall with
          | .ok _ => return .error .ebusy
          | .error status => return .error status
  | other => return other

/-- `turbo_agent_tool_prepare_journal`. -/
def prepareJournal (task : Task) : Prog (Status × ToolCall) := do
  let id := journalId sha256 ⟨task.runId, task.call.turnKey, task.call.callId⟩
  match ← journalLookup sha256 id task.threadId task.runId task.call with
  | .ok record => return replayRecord task.config task.call record
  | .error .enoent =>
      let call := { task.call with status := .ok }
      match ← journalCreate sha256 .toolJournal id task.threadId task.runId call .planned with
      | .ok => return (.ok, call)
      | .ealready =>
          match ← journalLoad sha256 id task.threadId task.runId call with
          | .ok record => return replayRecord task.config call record
          | .error status => return (status, call)
      | status => return (status, call)
  | .error status => return (status, task.call)

/-- The call after its callback returned: a lost detail or an oversized output
replaces the result. -/
def settleOutcome (config : Config) (call : ToolCall) (outcome : ToolOutcome) :
    ToolCall :=
  let call := { call with
    status := outcome.status
    output := outcome.output
    detail := outcome.detail
    detailCaptureFailed := outcome.detailCaptureFailed }
  let call := if call.detailCaptureFailed then
      { call with output := none, status := .outOfMemory }
    else call
  match call.output with
  | some text =>
      if config.maxOutputBytes < text.length then
        { call with output := none, status := .outputLimit }
      else call
  | none => call

/-- The part of `turbo_agent_tool_execute_one` after the claim was inserted: the
start is journaled, the callback entered and its result journaled. -/
def executeClaimed (task : Task) (identity : EffectIdentity) : Prog ToolCall := do
  let id := journalId sha256 identity
  match ← journalWrite sha256 id task.threadId task.runId task.call .started with
  | .ok =>
      enter identity
      let outcome ← ask (.runTool task.call.toolName task.call.argumentsJson)
      let call := settleOutcome task.config task.call outcome
      match ← journalWrite sha256 id task.threadId task.runId call .committed with
      | .ok => return call
      | _ => return { call with output := none, status := .unknownSideEffect }
  | _ => return { task.call with status := .unknownSideEffect, replayed := true }

/-- `turbo_agent_tool_execute_one`. -/
def executeOne (task : Task) : Prog ToolCall := do
  let call := task.call
  if call.replayed then return call
  let cancelStatus ← ask .cancelStatus
  if cancelStatus ≠ .ok then return { call with status := cancelStatus }
  let identity : EffectIdentity := ⟨task.runId, call.turnKey, call.callId⟩
  match ← journalCreate sha256 .toolClaims (journalId sha256 identity) task.threadId
      task.runId call .admitted with
  | .ok => executeClaimed sha256 task identity
  | .ealready =>
      let (status, replay) ← prepareJournal sha256 task
      if status ≠ .ok || !replay.replayed then
        return { replay with
          output := none, detail := none, status := .unknownSideEffect, replayed := true }
      return replay
  | .enotsup => return { call with status := .error, replayed := true }
  | _ => return { call with status := .unknownSideEffect, replayed := true }

end Executor

/-- A batch as `turbo_agent_tool_executor_execute` receives it. -/
structure Batch where
  config : Config
  (threadId runId : String)
  registry : Registry
  calls : List ToolCall

/-- The first checks of a batch, in call order: argument size, then a collision
with an earlier call's turn key and call id. -/
def checkCalls (maxArgumentsBytes : Nat) : List ToolCall → List ToolCall → Status
  | _, [] => .ok
  | earlier, call :: calls =>
      if maxArgumentsBytes < call.argumentsJson.length then .emsgsize
      else if earlier.any fun previous =>
          previous.turnKey == call.turnKey && previous.callId == call.callId then .eproto
      else checkCalls maxArgumentsBytes (earlier ++ [call]) calls

/-- Canonical name and policy of a call; `none` ends the batch. -/
def resolveCall (registry : Registry) (call : ToolCall) : Option ToolCall :=
  if call.replayed then some call
  else
    match registry.resolveName call.toolName with
    | (.notFound, _) => some { call with status := .notFound, replayed := true }
    | (.ok, some name) =>
        (registry.executionPolicy name).map fun policy =>
          { call with toolName := name, policy }
    | _ => none

/-- Capability and policy check of a call, with the code the lookup leaves. -/
def authorizeCall (registry : Registry) (code : ReturnCode) (call : ToolCall) :
    ReturnCode × ToolCall :=
  if call.status = .notFound then (code, call)
  else
    let lookup := registry.capabilities call.toolName
    if lookup ≠ .ok then
      (.tool lookup, { call with
        status := .error, replayed := true
        policyReason := some "tool_capability_metadata_unavailable" })
    else
      match registry.deniedBy call.toolName with
      | none => (.tool lookup, call)
      | some reason =>
          (.tool lookup, { call with
            status := .error, replayed := true
            policyReason := some (reason.getD "tool_policy_denied") })

/-- The capability and policy checks of a batch, in call order. -/
def authorizeCalls (registry : Registry) :
    ReturnCode → List ToolCall → ReturnCode × List ToolCall
  | code, [] => (code, [])
  | code, call :: calls =>
      let (code, call) := authorizeCall registry code call
      let (code, calls) := authorizeCalls registry code calls
      (code, call :: calls)

/-- Maximal leading group of parallel-safe calls. -/
def parallelPrefix (calls : List ToolCall) : List ToolCall × List ToolCall :=
  calls.span fun call => call.policy.mode = .parallelSafe

section Batch

variable (sha256 : String → String)

/-- Journal preparation of a batch; the first failure ends it. -/
def prepareCalls (batch : Batch) : ReturnCode → List ToolCall →
    Prog (ReturnCode × List ToolCall)
  | code, [] => return (code, [])
  | code, call :: calls => do
      if call.replayed then
        let (code, calls) ← prepareCalls batch code calls
        return (code, call :: calls)
      let (status, call) ← prepareJournal sha256
        ⟨batch.config, batch.threadId, batch.runId, call⟩
      if status ≠ .ok then return (.status status, call :: calls)
      let (code, calls) ← prepareCalls batch (.status .ok) calls
      return (code, call :: calls)

/-- Submission of one wave of a parallel group.  A call the pool does not take is
marked as rejected; the others run as agents of their own. -/
def submitWave (batch : Batch) : Nat → List ToolCall → Prog (List (Bool × ToolCall))
  | _, [] => return []
  | index, call :: calls => do
      let accepted ← ask (.trySubmit index
        ⟨batch.config, batch.threadId, batch.runId, call⟩)
      let rest ← submitWave batch (index + 1) calls
      if accepted then return (true, call) :: rest
      return (false, { call with status := .backpressure, replayed := true }) :: rest

/-- The waves of `turbo_agent_tool_execute_parallel_group`. -/
def executeWaves (batch : Batch) : Nat → List (List ToolCall) → Prog (List ToolCall)
  | _, [] => return []
  | index, wave :: waves => do
      let submitted ← submitWave batch index wave
      let finished ← ask .wait
      let rest ← executeWaves batch (index + wave.length) waves
      return submitted.mapIdx (fun offset (accepted, call) =>
        if accepted then finished (index + offset) else call) ++ rest

/-- Dispatch of the calls of a batch, in groups.  `fuel` bounds the number of
groups; the length of the list is enough.  A parallel group resets the code. -/
def dispatchCalls (batch : Batch) : Nat → Nat → ReturnCode → List ToolCall →
    Prog (ReturnCode × List ToolCall)
  | 0, _, code, calls => return (code, calls)
  | _, _, code, [] => return (code, [])
  | fuel + 1, index, code, call :: calls => do
      if call.policy.mode = .parallelSafe then
        let (group, rest) := parallelPrefix (call :: calls)
        let done ← executeWaves batch index (group.toChunks batch.config.maxWorkers)
        let (code, others) ←
          dispatchCalls batch fuel (index + group.length) (.status .ok) rest
        return (code, done ++ others)
      let call ← executeOne sha256 ⟨batch.config, batch.threadId, batch.runId, call⟩
      let (code, others) ← dispatchCalls batch fuel (index + 1) code calls
      return (code, call :: others)

/-- `turbo_agent_tool_executor_execute` on a runtime with a store. -/
def execute (batch : Batch) : Prog (ReturnCode × List ToolCall) := do
  if batch.calls.isEmpty || batch.config.maxBatchCalls < batch.calls.length then
    return (.status .einval, batch.calls)
  match checkCalls batch.config.maxArgumentsBytes [] batch.calls with
  | .ok =>
      let queueStatus ← ask .batchAcquire
      if queueStatus ≠ .ok then
        return (.status .ok, batch.calls.map fun call =>
          if call.replayed then call else { call with status := queueStatus })
      match batch.calls.mapM (resolveCall batch.registry) with
      | none => return (.status .eproto, batch.calls)
      | some calls =>
          let (code, calls) := authorizeCalls batch.registry (.status .ok) calls
          if calls.any fun call => !call.replayed &&
              !batch.registry.argumentsValid call.toolName call.argumentsJson then
            return (.status .eproto, calls)
          let (code, calls) ← prepareCalls sha256 batch code calls
          match code with
          | .status .ok | .tool _ =>
              dispatchCalls sha256 batch calls.length 0 code calls
          | _ => return (code, calls)
  | status => return (.status status, batch.calls)

/-- Agents of the executor: a batch, or the pool task of one of its calls. -/
abbrev Agent := List Nat

/-- An accepted pool task runs `turbo_agent_tool_execute_one` as a further agent. -/
def spawn (agent : Agent) : (op : StoreOp signature) → op.Answer →
    Option (Agent × Prog AgentResult)
  | .ask (.trySubmit index task), accepted =>
      if accepted then
        some (index :: agent, executeOne sha256 task >>= fun call => .done (.task call))
      else none
  | _, _ => none

abbrev machine : Machine signature.interface Agent AgentResult :=
  World.forkingMachine signature (spawn sha256)

def batchProgram (batch : Batch) : Prog AgentResult := do
  let (code, calls) ← execute sha256 batch
  return .batch code calls

end Batch

end TurboAgent.ToolExecutor
