import TurboAgent.Data.Json
import TurboAgent.Runtime.Status

/-!
# The model router

The router admits tasks to endpoints, one task an endpoint at a time.  A task runs one
execution after another: the first one from its submission, the next ones from reviews
of a tool loop that waits for an approval.  Groups own several tasks until all of them
are released together.

The host makes one call after another.  What a call learns from outside (clock,
authority snapshots, allocation, thread pool) is an argument of its model, and the
worker of an execution publishes its end as a step of its own.
-/

namespace TurboAgent.Router

/-- `TURBO_AGENT_ROUTER_MAX_ENDPOINTS`. -/
def maxEndpoints : Nat := 16

/-- `TURBO_AGENT_ROUTER_MAX_MODEL_TURNS`. -/
def maxModelTurnsLimit : Nat := 16

/-- `TURBO_AGENT_ROUTER_MAX_REVIEW_RESUMES`. -/
def maxReviewResumes : Nat := 32

def maxExactInteger : Nat := 9007199254740991

/-- `UINT64_MAX`. -/
def uint64Max : Nat := 18446744073709551615

/-- `turbo_agent_router_role_t`. -/
inductive Role where
  | plan
  | execute
  deriving DecidableEq

def Role.bit : Role → Nat
  | .plan => 1
  | .execute => 2

/-- `TURBO_AGENT_ROUTER_TOOL_PROPOSALS`. -/
def toolProposals : Nat := 4

/-- A snapshot of the tool authority of an agent. -/
structure Authority where
  (capabilityMask generation : Nat)
  deriving DecidableEq

def delegateBit : Nat := 4

/-- `turbo_agent_router_endpoint_t` with what the router reads of its agent; agents,
runtimes and registries are identities. -/
structure EndpointConfig where
  id : String
  (agent runtime registry : Nat)
  (model provider : String)
  (roles capabilities maxDifficulty maxInputTokens maxOutputTokens inputPriceMicros : Nat)
  outputPriceMicros : Nat
  deriving DecidableEq

/-- The checks of `turbo_agent_router_create` on one endpoint. -/
def EndpointConfig.valid (config : EndpointConfig) (authorityAgent : Nat) : Bool :=
  idValid config.id 64 && config.agent ≠ authorityAgent &&
  config.roles ≠ 0 && config.roles ≤ 3 && config.capabilities ≠ 0 && config.capabilities ≤ 7 &&
  config.maxDifficulty ≤ 100 && config.maxInputTokens ≠ 0 && config.maxInputTokens ≤ 1000000 &&
  config.maxOutputTokens ≠ 0 && config.maxOutputTokens ≤ 1000000 &&
  config.inputPriceMicros ≤ 1000000000 && config.outputPriceMicros ≤ 1000000000

/-- The comparison of `turbo_agent_router_create` with an earlier endpoint. -/
def EndpointConfig.apart (config previous : EndpointConfig) : Bool :=
  config.id ≠ previous.id && config.agent ≠ previous.agent && config.runtime ≠ previous.runtime

/-- The loop of `turbo_agent_router_create` over its endpoints. -/
def configsValid (authorityAgent : Nat) : List EndpointConfig → List EndpointConfig → Bool
  | _, [] => true
  | previous, config :: configs =>
      config.valid authorityAgent && previous.all config.apart &&
        configsValid authorityAgent (previous ++ [config]) configs

/-- `router_endpoint_t`. -/
structure Endpoint where
  config : EndpointConfig
  busy : Bool
  deriving DecidableEq

/-- `turbo_agent_router_request_t`. -/
structure Request where
  role : Role
  (difficulty requiredCapabilities inputTokens outputTokens budgetMicros timeoutMs : Nat)
  heartbeatTimeoutMs : Nat
  (threadId parentRunId : String)
  deriving DecidableEq

/-- The checks of `router_submit` on its request. -/
def Request.valid (request : Request) : Bool :=
  request.difficulty ≤ 100 && request.inputTokens ≠ 0 && request.inputTokens ≤ 1000000 &&
  request.requiredCapabilities ≠ 0 && request.requiredCapabilities ≤ 7 &&
  request.outputTokens ≠ 0 && request.outputTokens ≤ 1000000 &&
  request.budgetMicros ≤ maxExactInteger &&
  request.timeoutMs ≠ 0 && request.timeoutMs ≤ 86400000 &&
  request.heartbeatTimeoutMs ≠ 0 && request.heartbeatTimeoutMs ≤ request.timeoutMs &&
  idValid request.threadId 64 && request.parentRunId ≠ ""

/-! ## Executions -/

/-- `turbo_agent_execution_status_t`. -/
inductive ExecutionStatus where
  | queued
  | running
  | completed
  | interrupted
  | cancelled
  | timedOut
  | failed
  deriving DecidableEq

/-- `turbo_agent_execution_is_terminal`. -/
def ExecutionStatus.terminal : ExecutionStatus → Bool
  | .queued | .running => false
  | _ => true

/-- The summary of a run, as far as the router reads it. -/
structure Summary where
  (threadId parentAgentRunId runId status : String)
  checkpointId : Option String
  deriving DecidableEq

/-- The final state of a run, as far as the router reads it: the reason of
`router_tool_loop`, whether a review is required, the current failure kind, the number of
pending tool calls and the output text of the last model event. -/
structure RunState where
  loopReason : Option String
  reviewRequired : Bool
  failureKind : Option String
  pendingToolCalls : Nat
  outputText : Option String
  deriving DecidableEq

/-- `turbo_agent_execution_t`. -/
structure Execution where
  id : String
  status : ExecutionStatus
  operationRc : Status
  summary : Option Summary
  state : Option RunState
  resultTaken : Bool
  deriving DecidableEq

def Execution.work (execution : Execution) : Execution :=
  if execution.status = .queued then { execution with status := .running } else execution

def Execution.queue (id : String) : Execution :=
  ⟨id, .queued, .ebusy, none, none, false⟩

/-- `turbo_agent_execution_wait` without waiting. -/
def Execution.finished (execution : Execution) : Bool :=
  execution.status.terminal

/-- `turbo_agent_execution_status_from_summary`. -/
def statusFromSummary (summary : Option Summary) : ExecutionStatus :=
  match summary with
  | none => .failed
  | some summary =>
      if summary.status = "completed" then .completed
      else if summary.status = "interrupted" then .interrupted
      else if summary.status = "cancelled" then .cancelled
      else if summary.status = "timed_out" then .timedOut
      else .failed

/-- The end of `turbo_agent_execution_worker`. -/
def Execution.publish (execution : Execution) (rc : Status) (summary : Option Summary)
    (state : Option RunState) : Execution :=
  { execution with
    operationRc := rc
    summary
    state
    status := if rc = .ok then statusFromSummary summary else .failed }

/-! ## Tasks -/

/-- `turbo_agent_router_task_s`; `handle` stands for its address and `endpoint` is an
index. -/
structure Task where
  (handle endpoint : Nat)
  execution : Execution
  (identityExecution reviewCheckpoint reviewRunId : Option String)
  (deadlineMs maxModelTurns modelTurns reviewResumes : Nat)
  (pendingReview reviewCancelled : Bool)
  (parentAuthority childAuthority : Authority)
  (threadId parentRunId : String)
  admissionId : Option String
  (startedMs observedMs heartbeatMs estimatedMicros budgetMicros heartbeatTimeoutMs : Nat)
  role : Role
  (unresponsive taken : Bool)
  group : Option Nat
  deriving DecidableEq

def Task.toolLoop (task : Task) : Bool :=
  task.maxModelTurns ≠ 0

/-- `turbo_agent_router_task_id`. -/
def Task.taskId (task : Task) : String :=
  task.identityExecution.getD task.execution.id

/-- `router_loop_complete`: the hook of a tool loop between the run and the end of its
execution. -/
def Task.loopComplete (task : Task) (summary : Option Summary) (state : Option RunState) :
    Status × Task :=
  match summary, state with
  | some summary, some state =>
      if summary.status = "interrupted" ∧ state.loopReason = some "approval_pending" ∧
          summary.checkpointId.any (· ≠ "") ∧ state.reviewRequired then
        if summary.runId = "" ∨ 128 < summary.runId.length then (.eproto, task)
        else (.ok, { task with
          reviewCheckpoint := summary.checkpointId
          reviewRunId := some summary.runId
          pendingReview := true })
      else (.ok, { task with
        reviewCheckpoint := none
        reviewRunId := none
        pendingReview := false })
  | _, _ => (.ok, { task with
      reviewCheckpoint := none
      reviewRunId := none
      pendingReview := false })

/-- The worker of a task publishes the result of its run, once. -/
def Task.finish (task : Task) (rc : Status) (summary : Option Summary)
    (state : Option RunState) : Task :=
  if task.execution.finished then task
  else if rc = .ok ∧ task.toolLoop then
    let (rc, task) := task.loopComplete summary state
    { task with execution := task.execution.publish rc summary state }
  else { task with execution := task.execution.publish rc summary state }

/-- What the runtime reports of a run besides the thread and the parent that its task gave
it. -/
structure RunReport where
  (runId status : String)
  checkpointId : Option String
  deriving DecidableEq

def Task.summarize (task : Task) (report : RunReport) : Summary :=
  ⟨task.threadId, task.parentRunId, report.runId, report.status, report.checkpointId⟩

/-- `turbo_agent_router_task_cancel`; signalling the execution, with the result
`signalled`, changes nothing here. -/
def Task.cancel (task : Task) (signalled : Status) : Status × Task :=
  if task.group.isSome then (.ebusy, task)
  else if task.toolLoop ∧ task.execution.status = .interrupted ∧ task.pendingReview then
    (.ok, { task with reviewCancelled := true })
  else (signalled, task)

/-- `turbo_agent_router_task_poll_internal`; `cancelled` is the result of the
cancellation of an unresponsive execution. -/
def Task.pollInternal (task : Task) (nowMs : Nat) (cancelled : Status) : Status × Task :=
  if nowMs < task.observedMs ∨ maxExactInteger < nowMs then (.einval, task)
  else
    let task := { task with observedMs := nowMs }
    if task.unresponsive then (.ecanceled, task)
    else if task.execution.finished then (.ok, task)
    else if nowMs - task.heartbeatMs < task.heartbeatTimeoutMs then (.ok, task)
    else
      (if cancelled = .ok ∨ cancelled = .ealready then .ecanceled else cancelled,
        { task with unresponsive := true })

/-- `turbo_agent_router_task_poll`. -/
def Task.poll (task : Task) (nowMs : Nat) (cancelled : Status) : Status × Task :=
  if task.group.isSome then (.ebusy, task) else task.pollInternal nowMs cancelled

/-- `turbo_agent_router_task_heartbeat`. -/
def Task.heartbeat (task : Task) (nowMs : Nat) (cancelled : Status) : Status × Task :=
  match task.poll nowMs cancelled with
  | (.ok, task) =>
      if task.execution.finished then (.ealready, task)
      else (.ok, { task with heartbeatMs := nowMs })
  | (status, task) => (status, task)

/-- `router_task_take_result`; `recorded` is the result of the observation that a host
records before it. -/
def Task.takeResult (task : Task) (authorityCurrent : Bool) (recorded : Status) :
    Status × Task :=
  if task.group.isSome then (.ebusy, task)
  else if task.taken then (.ealready, task)
  else if !task.execution.finished then (.ebusy, task)
  else if task.unresponsive then (.ecanceled, task)
  else if !authorityCurrent then (.eperm, task)
  else if recorded ≠ .ok then (recorded, task)
  else if task.execution.resultTaken then (.ealready, task)
  else (.ok, { task with
    taken := true
    execution := { task.execution with summary := none, state := none, resultTaken := true } })

/-- What `router_task_review` learns from outside. -/
structure ReviewWorld where
  authorityCurrent : Bool
  nowMs : Nat
  (prepared resumed : Status)
  executionId : String

/-- `router_task_review`. -/
def Task.review (task : Task) (approved : Bool) (world : ReviewWorld) : Status × Task :=
  if !task.toolLoop then (.einval, task)
  else if !task.execution.finished then (.ebusy, task)
  else if task.unresponsive || task.reviewCancelled then (.ecanceled, task)
  else if !world.authorityCurrent then (.eperm, task)
  else if task.execution.status ≠ .interrupted ∨ !task.pendingReview ∨
      task.reviewCheckpoint.isNone then (.einval, task)
  else if maxReviewResumes ≤ task.reviewResumes then (.erange, task)
  else if task.deadlineMs ≤ world.nowMs ∨ world.nowMs < task.observedMs then (.etimedout, task)
  else if world.prepared ≠ .ok then (world.prepared, task)
  else if world.resumed ≠ .ok then (world.resumed, task)
  else (.ok, { task with
    reviewCancelled := !approved
    execution := .queue world.executionId
    identityExecution := some (task.identityExecution.getD task.execution.id)
    reviewResumes := task.reviewResumes + 1
    taken := false
    heartbeatMs := world.nowMs
    observedMs := world.nowMs })

/-! ## The router -/

/-- `turbo_agent_router_group_s`. -/
structure Group where
  handle : Nat
  id : String
  members : List Nat
  observedMs : Nat
  failureCode : Status
  (inputBuilt resultsTaken : Bool)
  deriving DecidableEq

/-- The code that `group_halt` keeps: the first one. -/
def Group.halt (group : Group) (reason : Status) : Status :=
  if group.failureCode = .ok then reason else group.failureCode

/-- `turbo_agent_router_s` with the tasks and groups that the host holds; `nextHandle` is
the handle of the next task or group. -/
structure State where
  endpoints : List Endpoint
  (authorityAgent authorityRegistry toolTaskLimit toolTaskCount : Nat)
  tasks : List Task
  groups : List Group
  nextHandle : Nat
  deriving DecidableEq

/-- `turbo_agent_router_create`. -/
def State.create (configs : List EndpointConfig) (authorityAgent authorityRegistry : Nat) :
    Except Status State :=
  if configs = [] ∨ maxEndpoints < configs.length then .error .einval
  else if !configsValid authorityAgent [] configs then .error .einval
  else .ok {
    endpoints := configs.map fun config => ⟨config, false⟩
    authorityAgent
    authorityRegistry
    toolTaskLimit := 1
    toolTaskCount := 0
    tasks := []
    groups := []
    nextHandle := 0 }

namespace State

def task? (state : State) (handle : Nat) : Option Task :=
  state.tasks.find? fun task => task.handle = handle

def updateTask (state : State) (handle : Nat) (change : Task → Task) : State :=
  { state with tasks := state.tasks.map fun task =>
      if task.handle = handle then change task else task }

def setBusy (state : State) (index : Nat) (busy : Bool) : State :=
  { state with endpoints := state.endpoints.modify index fun endpoint =>
      { endpoint with busy } }

def anyBusy (state : State) : Bool :=
  state.endpoints.any (·.busy)

/-- `turbo_agent_router_set_tool_task_limit`. -/
def setToolTaskLimit (state : State) (limit : Nat) : Status × State :=
  if limit = 0 ∨ maxEndpoints < limit then (.einval, state)
  else if state.anyBusy then (.ebusy, state)
  else (.ok, { state with toolTaskLimit := limit })

/-- `router_estimated_cost`. -/
def estimatedCost (config : EndpointConfig) (request : Request) : Nat :=
  (request.inputTokens * config.inputPriceMicros + 999999) / 1000000 +
    (request.outputTokens * config.outputPriceMicros + 999999) / 1000000

/-- What `router_submit` learns from outside: the snapshots of the authority, whether the
authority agent has a `before_tool` guardrail and tools, the clock, whether the task could
be built, and the start of the execution. -/
structure SubmitWorld where
  parentAuthority : Option Authority
  childAuthority : Nat → Option Authority
  guarded : Bool
  nowMs : Nat
  (built started : Status)
  executionId : String

/-- An endpoint that the loop of `router_submit` has chosen so far. -/
structure Selection where
  index : Nat
  authority : Authority
  cost : Nat
  deriving DecidableEq

/-- The endpoint can serve the request within its budget. -/
def qualified (state : State) (request : Request) (maxModelTurns : Nat)
    (config : EndpointConfig) : Bool :=
  config.roles &&& request.role.bit ≠ 0 && request.difficulty ≤ config.maxDifficulty &&
  (config.capabilities &&& request.requiredCapabilities) = request.requiredCapabilities &&
  request.inputTokens ≤ config.maxInputTokens && request.outputTokens ≤ config.maxOutputTokens &&
  (maxModelTurns = 0 || config.registry = state.authorityRegistry) &&
  estimatedCost config request * (if maxModelTurns = 0 then 1 else maxModelTurns) ≤
    request.budgetMicros

/-- One round of the loop of `router_submit` over the endpoints. -/
def consider (state : State) (request : Request) (maxModelTurns : Nat) (world : SubmitWorld)
    (parent : Authority) (chosen : Option Selection × Bool) (candidate : Endpoint × Nat) :
    Option Selection × Bool :=
  if !state.qualified request maxModelTurns candidate.1.config then chosen
  else if candidate.1.busy then (chosen.1, true)
  else
    match world.childAuthority candidate.2 with
    | none => chosen
    | some child =>
        if child.capabilityMask &&& parent.capabilityMask ≠ child.capabilityMask then chosen
        else
          let cost := estimatedCost candidate.1.config request *
            (if maxModelTurns = 0 then 1 else maxModelTurns)
          if chosen.1.all fun best => cost < best.cost then
            (some ⟨candidate.2, child, cost⟩, chosen.2)
          else chosen

/-- The loop of `router_submit` over the endpoints. -/
def select (state : State) (request : Request) (maxModelTurns : Nat) (world : SubmitWorld)
    (parent : Authority) : Option Selection × Bool :=
  state.endpoints.zipIdx.foldl (state.consider request maxModelTurns world parent) (none, false)

/-- The admission checks of `router_submit` before the choice of an endpoint. -/
def checkAdmission (state : State) (request : Request) (maxModelTurns : Nat) (world : SubmitWorld) :
    Except Status Authority :=
  if !request.valid then .error .einval
  else if state.toolTaskLimit = 1 ∧ state.toolTaskCount ≠ 0 then .error .ebusy
  else if maxModelTurns ≠ 0 ∧ (maxModelTurns < 2 ∨ maxModelTurnsLimit < maxModelTurns ∨
      request.role ≠ .execute ∨ request.requiredCapabilities &&& toolProposals = 0) then
    .error .einval
  else if maxModelTurns ≠ 0 ∧ state.toolTaskLimit ≤ state.toolTaskCount then .error .ebusy
  else if maxModelTurns ≠ 0 ∧ state.toolTaskLimit = 1 ∧ state.anyBusy then .error .ebusy
  else if maxModelTurns ≠ 0 ∧ !world.guarded then .error .eperm
  else
    match world.parentAuthority with
    | none => .error .eperm
    | some parent =>
        if parent.capabilityMask &&& delegateBit = 0 then .error .eperm else .ok parent

/-- The task that `router_submit` builds. -/
def buildTask (handle : Nat) (request : Request) (maxModelTurns : Nat)
    (admissionId : Option String) (world : SubmitWorld) (parent : Authority)
    (selection : Selection) : Task where
  handle
  endpoint := selection.index
  execution := .queue world.executionId
  identityExecution := none
  reviewCheckpoint := none
  reviewRunId := none
  deadlineMs := world.nowMs + request.timeoutMs
  maxModelTurns
  modelTurns := 0
  reviewResumes := 0
  pendingReview := false
  reviewCancelled := false
  parentAuthority := parent
  childAuthority := selection.authority
  threadId := request.threadId
  parentRunId := request.parentRunId
  admissionId
  startedMs := world.nowMs
  observedMs := world.nowMs
  heartbeatMs := world.nowMs
  estimatedMicros := selection.cost
  budgetMicros := request.budgetMicros
  heartbeatTimeoutMs := request.heartbeatTimeoutMs
  role := request.role
  unresponsive := false
  taken := false
  group := none

/-- The start of the execution of a new task: the flags are set before it and taken back
when it fails. -/
def start (state : State) (task : Task) (started : Status) : Status × State :=
  let marked := state.setBusy task.endpoint true
  let marked := if task.toolLoop then
      { marked with toolTaskCount := marked.toolTaskCount + 1 } else marked
  if started ≠ .ok then
    let restored := marked.setBusy task.endpoint false
    (started, if task.toolLoop then
      { restored with toolTaskCount := restored.toolTaskCount - 1 } else restored)
  else (.ok, { marked with
    tasks := task :: marked.tasks
    nextHandle := marked.nextHandle + 1 })

/-- The check of a host runtime and the id of its record: the runtime is not one of an
endpoint. -/
def hostRefused (state : State) (host : Option (Nat × String)) : Bool :=
  host.any fun pair => !idValid pair.2 64 ||
    state.endpoints.any fun endpoint => endpoint.config.runtime = pair.1

/-- `router_submit`; a host runtime and an admission id come together. -/
def submit (state : State) (request : Request) (maxModelTurns : Nat)
    (admission : Option (Nat × String)) (world : SubmitWorld) : Status × State :=
  if state.hostRefused admission then (.einval, state)
  else
    match state.checkAdmission request maxModelTurns world with
    | .error status => (status, state)
    | .ok parent =>
        match state.select request maxModelTurns world parent with
        | (none, busy) => (if busy then .ebusy else .enoent, state)
        | (some selection, _) =>
            if uint64Max - world.nowMs < request.timeoutMs then (.erange, state)
            else if world.built ≠ .ok then (world.built, state)
            else state.start (buildTask state.nextHandle request maxModelTurns
              (admission.map (·.2)) world parent selection) world.started

/-- `turbo_agent_router_submit_tool_loop`. -/
def submitToolLoop (state : State) (request : Request) (maxModelTurns : Nat)
    (world : SubmitWorld) : Status × State :=
  if maxModelTurns = 0 then (.einval, state)
  else state.submit request maxModelTurns none world

def onTask (state : State) (handle : Nat) (change : Task → Status × Task) : Status × State :=
  match state.task? handle with
  | none => (.einval, state)
  | some task => ((change task).1, state.updateTask handle fun task => (change task).2)

/-- `router_task_review` with the intent that a host records before it. -/
def reviewTask (state : State) (handle : Nat) (approved : Bool) (intent : Option (Nat × String))
    (world : ReviewWorld) : Status × State :=
  if state.hostRefused intent then (.einval, state)
  else state.onTask handle (·.review approved world)

/-- `turbo_agent_router_task_release`. -/
def releaseTask (state : State) (handle : Nat) : Status × State :=
  match state.task? handle with
  | none => (.ok, state)
  | some task =>
      if task.group.isSome then (.ebusy, state)
      else if !task.execution.finished then (.ebusy, state)
      else
        let released := state.setBusy task.endpoint false
        (.ok, { released with
          toolTaskCount := if task.toolLoop then released.toolTaskCount - 1
            else released.toolTaskCount
          tasks := released.tasks.filter fun other => other.handle ≠ handle })

/-- The checks of `turbo_agent_router_group_adopt` on one task, after the tasks before
it. -/
def adoptable (first : Task) (previous : List Task) (task : Task) : Status :=
  if task.toolLoop ∨ 128 < task.parentRunId.length then .einval
  else if task.group.isSome then .ebusy
  else if task.taken then .ealready
  else if task.parentRunId ≠ first.parentRunId then .einval
  else if previous.any fun other => other.handle = task.handle ∨ other.threadId = task.threadId then
    .einval
  else .ok

/-- The loop of `turbo_agent_router_group_adopt`. -/
def adoptCheck (first : Task) : List Task → List Task → Status
  | _, [] => .ok
  | previous, task :: tasks =>
      match adoptable first previous task with
      | .ok => adoptCheck first (previous ++ [task]) tasks
      | status => status

/-- `turbo_agent_router_group_adopt`; `allocated` tells whether the group could be
built. -/
def adoptGroup (state : State) (id : String) (handles : List Nat) (allocated : Bool) :
    Status × State :=
  if !idValid id 64 ∨ handles.length < 2 ∨ maxEndpoints < handles.length then (.einval, state)
  else
    match handles.mapM state.task? with
    | none => (.einval, state)
    | some [] => (.einval, state)
    | some (first :: rest) =>
        match adoptCheck first [] (first :: rest) with
        | .ok =>
            if !allocated then (.enomem, state)
            else
              let group : Group := ⟨state.nextHandle, id, handles,
                (first :: rest).foldl (fun observed task => max observed task.observedMs) 0,
                .ok, false, false⟩
              (.ok, { state with
                tasks := state.tasks.map fun task =>
                  if task.handle ∈ handles then { task with group := some state.nextHandle }
                  else task
                groups := group :: state.groups
                nextHandle := state.nextHandle + 1 })
        | status => (status, state)

/-- `group_terminal`. -/
def groupTerminal (state : State) (group : Group) : Bool :=
  group.members.all fun handle => (state.task? handle).all (·.execution.finished)

def updateGroup (state : State) (groupHandle : Nat) (change : Group → Group) : State :=
  { state with groups := state.groups.map fun group =>
      if group.handle = groupHandle then change group else group }

/-- What a call on a group learns from outside about each member: whether its authority
is current, and the result of the cancellation of an unresponsive execution. -/
structure GroupWorld where
  authorityCurrent : Nat → Bool
  cancelled : Nat → Status

/-- `group_member_failure`. -/
def memberFailure (task : Task) (authorityCurrent : Bool) : Status :=
  if !authorityCurrent then .eperm
  else if task.unresponsive then .ecanceled
  else if !task.execution.finished then .ok
  else
    match task.execution.status with
    | .timedOut => .etimedout
    | .cancelled => .ecanceled
    | .failed => .eio
    | .completed =>
        if task.taken then .ok
        else if task.execution.resultTaken then .ealready
        else
          match task.execution.summary, task.execution.state with
          | some _, some state =>
              if state.pendingToolCalls ≠ 0 ∨ state.failureKind.any (· ≠ "") then .eproto else .ok
          | _, _ => .eproto
    | _ => .eproto

/-- One round of `turbo_agent_router_group_poll`: the first failure so far and the router
after the observation of a member. -/
def pollMember (world : GroupWorld) (nowMs : Nat) (first : Status × State) (handle : Nat) :
    Status × State :=
  match first.2.task? handle with
  | none => first
  | some task =>
      let polled := task.pollInternal nowMs (world.cancelled handle)
      let failure := memberFailure polled.2 (world.authorityCurrent handle)
      (if first.1 ≠ .ok then first.1 else if polled.1 ≠ .ok then polled.1 else failure,
        first.2.updateTask handle fun task =>
          (task.pollInternal nowMs (world.cancelled handle)).2)

/-- `turbo_agent_router_group_poll`; the signals to the executions change nothing here. -/
def pollGroup (state : State) (groupHandle nowMs : Nat) (world : GroupWorld) : Status × State :=
  match state.groups.find? fun group => group.handle = groupHandle with
  | none => (.einval, state)
  | some group =>
      if nowMs < group.observedMs ∨ maxExactInteger < nowMs then (.einval, state)
      else if group.resultsTaken then (.ealready, state)
      else
        let state := state.updateGroup groupHandle fun group => { group with observedMs := nowMs }
        let (first, state) := group.members.foldl (pollMember world nowMs) (.ok, state)
        if first = .ok ∧ group.failureCode = .ok then (.ok, state)
        else
          let code := group.halt first
          (code, state.updateGroup groupHandle fun group => { group with failureCode := code })

/-- `turbo_agent_router_group_heartbeat`. -/
def heartbeatGroup (state : State) (groupHandle index nowMs : Nat) (world : GroupWorld) :
    Status × State :=
  match state.groups.find? fun group => group.handle = groupHandle with
  | none => (.einval, state)
  | some group =>
      match group.members[index]? with
      | none => (.einval, state)
      | some handle =>
          match state.pollGroup groupHandle nowMs world with
          | (.ok, state) =>
              if (state.task? handle).any (·.execution.finished) then (.ealready, state)
              else (.ok, state.updateTask handle fun task => { task with heartbeatMs := nowMs })
          | (status, state) => (status, state)

/-- `turbo_agent_router_group_cancel`; the signals to the executions change nothing
here. -/
def cancelGroup (state : State) (groupHandle : Nat) : Status × State :=
  match state.groups.find? fun group => group.handle = groupHandle with
  | none => (.einval, state)
  | some group =>
      if group.failureCode ≠ .ok ∨ group.resultsTaken then (.ealready, state)
      else (.ok, state.updateGroup groupHandle fun group =>
        { group with failureCode := group.halt .ecanceled })

/-- One round of `turbo_agent_router_group_release`. -/
def releaseMember (state : State) (handle : Nat) : State :=
  ((state.updateTask handle fun task => { task with group := none }).releaseTask handle).2

/-- `turbo_agent_router_group_release`. -/
def releaseGroup (state : State) (groupHandle : Nat) : Status × State :=
  match state.groups.find? fun group => group.handle = groupHandle with
  | none => (.ok, state)
  | some group =>
      if !state.groupTerminal group then (.ebusy, state)
      else
        let released := group.members.foldl releaseMember state
        (.ok, { released with
          groups := released.groups.filter fun other => other.handle ≠ groupHandle })

end State

end TurboAgent.Router
