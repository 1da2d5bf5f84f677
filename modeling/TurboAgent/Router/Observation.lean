import TurboAgent.Router.Occupancy

/-!
# Observations of router tasks

An observation is the record a host keeps of a task.  It is built from the fields that
submission, review, heartbeat, poll and the execution set, and it is checked against the
schema before it is stored.  Whether every task passes the check is a question about all
calls that set these fields.
-/

namespace TurboAgent.Router

/-- `TURBO_AGENT_ROUTER_OBSERVATION_MAX_BYTES`. -/
def observationMaxBytes : Nat := 16384

def ExecutionStatus.number : ExecutionStatus → Nat
  | .queued => 0
  | .running => 1
  | .completed => 2
  | .interrupted => 3
  | .cancelled => 4
  | .timedOut => 5
  | .failed => 6

/-- `INT_MIN`. -/
def intMin : Int := -2147483648

/-- `INT_MAX`. -/
def intMax : Int := 2147483647

/-- The numbers of the status codes: a C `int` that is zero for success only. -/
structure StatusCodes where
  code : Status → Int
  zero : ∀ status, code status = 0 ↔ status = .ok
  range : ∀ status, intMin ≤ code status ∧ code status ≤ intMax

/-! ## The record -/

structure Observation where
  (observationId recordedAt taskId executionId endpoint model provider : String)
  role : Role
  (threadId parentRunId : String)
  status : ExecutionStatus
  resultCode : Option Int
  (runId checkpointId runtimeStatus failureKind : Option String)
  (unresponsive authorityCurrent approvalPending : Bool)
  (maxModelTurns reviewResumes startedMs observedMs heartbeatMs deadlineMs estimatedMicros : Nat)
  budgetMicros : Nat

def nullableText (text : Option String) : Json :=
  text.elim .null .string

def Observation.json (observation : Observation) : Json :=
  .object [
    ("schema_version", .int 1),
    ("observation_id", .string observation.observationId),
    ("semantics", .string "historical_host_observation"),
    ("clock_domain", .string "origin_process_monotonic"),
    ("recorded_at", .string observation.recordedAt),
    ("task_id", .string observation.taskId),
    ("execution_id", .string observation.executionId),
    ("endpoint", .string observation.endpoint),
    ("model", .string observation.model),
    ("provider", .string observation.provider),
    ("role", .string (match observation.role with
      | .plan => "plan"
      | .execute => "execute")),
    ("thread_id", .string observation.threadId),
    ("parent_run_id", .string observation.parentRunId),
    ("execution_status", .int observation.status.number),
    ("runtime_result_code", observation.resultCode.elim .null .int),
    ("runtime_run_id", nullableText observation.runId),
    ("runtime_checkpoint_id", nullableText observation.checkpointId),
    ("runtime_status", nullableText observation.runtimeStatus),
    ("failure_kind", nullableText observation.failureKind),
    ("unresponsive", .bool observation.unresponsive),
    ("authority_current", .bool observation.authorityCurrent),
    ("approval_pending", .bool observation.approvalPending),
    ("max_model_turns", .int observation.maxModelTurns),
    ("review_resumes", .int observation.reviewResumes),
    ("started_mono_ms", .int observation.startedMs),
    ("observed_mono_ms", .int observation.observedMs),
    ("heartbeat_mono_ms", .int observation.heartbeatMs),
    ("deadline_mono_ms", .int observation.deadlineMs),
    ("estimated_cost_micros", .int observation.estimatedMicros),
    ("budget_micros", .int observation.budgetMicros),
    ("actual_cost_micros", .null)]

/-! ## The check -/

def observationFields : List String :=
  ["schema_version", "observation_id", "semantics", "clock_domain", "recorded_at",
    "task_id", "execution_id", "endpoint", "model", "provider", "role", "thread_id",
    "parent_run_id", "execution_status", "runtime_result_code", "runtime_run_id",
    "runtime_checkpoint_id", "runtime_status", "failure_kind", "unresponsive",
    "authority_current", "approval_pending", "max_model_turns", "review_resumes",
    "started_mono_ms", "observed_mono_ms", "heartbeat_mono_ms", "deadline_mono_ms",
    "estimated_cost_micros", "budget_micros", "actual_cost_micros"]

def observationIds : List String :=
  ["observation_id", "task_id", "execution_id", "endpoint", "thread_id"]

/-- The fields with a text and the limit of each. -/
def observationTexts : List (String × Nat) :=
  [("parent_run_id", 128), ("model", 1024), ("provider", 1024), ("recorded_at", 31),
    ("semantics", 64), ("clock_domain", 64), ("role", 16)]

def observationNullable : List String :=
  ["runtime_run_id", "runtime_checkpoint_id", "runtime_status", "failure_kind"]

def observationBooleans : List String :=
  ["unresponsive", "authority_current", "approval_pending"]

def observationNumbers : List String :=
  ["started_mono_ms", "observed_mono_ms", "heartbeat_mono_ms", "deadline_mono_ms",
    "estimated_cost_micros", "budget_micros"]

/-- The run statuses that have an execution status of their own. -/
def terminalStatus : List String :=
  ["completed", "interrupted", "cancelled", "timed_out"]

/-- `observation_text`. -/
def observationText (record : Json) (key : String) (limit : Nat) (nullable : Bool) : Status :=
  match record.field key with
  | some .null => if nullable then .ok else .eproto
  | some (.string text) =>
      if text = "" ∨ !noNul text then .eproto
      else if limit < text.length then .enobufs
      else .ok
  | _ => .eproto

/-- `observation_integer`. -/
def observationInteger (record : Json) (key : String) : Int :=
  Json.asInt64 (record.field key) Json.int64Min

/-- The loop over the keys of a record: each is a field, and none comes twice. -/
def observationKeys : List String → List String → Bool
  | _, [] => true
  | seen, key :: keys =>
      observationFields.contains key && !seen.contains key && observationKeys (key :: seen) keys

def firstFailure : List Status → Status
  | [] => .ok
  | .ok :: checks => firstFailure checks
  | status :: _ => status

/-- `json_type(value) == JSON_NULL` for a field. -/
def fieldNull (record : Json) (key : String) : Bool :=
  record.field key = some .null

/-- `json_type(value) == JSON_BOOL` for a field. -/
def fieldBool (record : Json) (key : String) : Bool :=
  match record.field key with
  | some (.bool _) => true
  | _ => false

/-- `json_get_bool` with default false. -/
def getBool (record : Json) (key : String) : Bool :=
  record.field key = some (.bool true)

/-- An identifier of `observation_validate`. -/
def observationIdentifier (record : Json) (key : String) : Status :=
  match observationText record key 64 false with
  | .ok => if (record.getString key).any (idValid · 64) then .ok else .eproto
  | status => status

def constantsValid (record : Json) (id : String) : Bool :=
  observationInteger record "schema_version" = 1 &&
  record.getString "observation_id" = some id &&
  record.getString "semantics" = some "historical_host_observation" &&
  record.getString "clock_domain" = some "origin_process_monotonic" &&
  (record.getString "role" = some "plan" || record.getString "role" = some "execute") &&
  fieldNull record "actual_cost_micros"

def numberValid (record : Json) (key : String) : Bool :=
  0 ≤ observationInteger record key && observationInteger record key ≤ maxExactInteger

/-- The order of the times and costs of a record. -/
def timesValid (record : Json) : Bool :=
  let integer := observationInteger record
  integer "started_mono_ms" ≤ integer "observed_mono_ms" &&
  integer "started_mono_ms" ≤ integer "heartbeat_mono_ms" &&
  integer "heartbeat_mono_ms" ≤ integer "observed_mono_ms" &&
  integer "started_mono_ms" < integer "deadline_mono_ms" &&
  integer "deadline_mono_ms" - integer "started_mono_ms" ≤ 86400000 &&
  integer "estimated_cost_micros" ≤ integer "budget_micros"

def countersValid (record : Json) : Bool :=
  let status := observationInteger record "execution_status"
  let turns := observationInteger record "max_model_turns"
  let resumes := observationInteger record "review_resumes"
  0 ≤ status && status ≤ 6 && (turns = 0 || (2 ≤ turns && turns ≤ maxModelTurnsLimit)) &&
  0 ≤ resumes && resumes ≤ maxReviewResumes && (turns ≠ 0 || resumes = 0) &&
  (resumes ≠ 0 || record.getString "task_id" = record.getString "execution_id")

/-- The rules for a record of a task that has not ended. -/
def openValid (record : Json) : Bool :=
  fieldNull record "runtime_result_code" && !getBool record "approval_pending" &&
  observationNullable.all (fieldNull record)

/-- The rules for a record of a task that has ended. -/
def endedValid (record : Json) : Bool :=
  let status := observationInteger record "execution_status"
  let operation := observationInteger record "runtime_result_code"
  let runtimeStatus := record.getString "runtime_status"
  intMin ≤ operation && operation ≤ intMax && (operation = 0 || status = 6) &&
  (record.getString "runtime_run_id").isSome = runtimeStatus.isSome &&
  (runtimeStatus.isSome || fieldNull record "runtime_checkpoint_id") &&
  (operation ≠ 0 ||
    (if status < 6 then
      runtimeStatus.isSome && runtimeStatus = terminalStatus[(status - 2).toNat]?
    else runtimeStatus.all fun text => !terminalStatus.contains text)) &&
  (!getBool record "approval_pending" ||
    (status = 3 && observationInteger record "max_model_turns" ≠ 0 &&
      (record.getString "runtime_checkpoint_id").isSome))

def recordKeys : Json → List String
  | .object fields => fields.map (·.1)
  | _ => []

/-- `observation_validate`. -/
def observationValidate (record : Json) (id : String) : Status :=
  if !record.isObject ∨ record.size ≠ observationFields.length then .eproto
  else if !observationKeys [] (recordKeys record) then .eproto
  else
    match firstFailure (observationIds.map (observationIdentifier record) ++
        observationTexts.map (fun text => observationText record text.1 text.2 false) ++
        observationNullable.map (observationText record · 128 true)) with
    | .ok =>
        if !constantsValid record id then .eproto
        else if !observationBooleans.all (fieldBool record) then .eproto
        else if !observationNumbers.all (numberValid record) then .eproto
        else if !timesValid record then .eproto
        else if !countersValid record then .eproto
        else if observationInteger record "execution_status" < 2 then
          if openValid record then .ok else .eproto
        else if endedValid record then .ok else .eproto
    | status => status

/-! ## The record of a task -/

/-- What building a record learns from outside: the time, whether the authority is current,
and the length of the text of a JSON value, unless there is no memory for it. -/
structure ObservationWorld where
  timestamp : Option String
  authorityCurrent : Bool
  textLength : Json → Option Nat

/-- `observation_size`. -/
def ObservationWorld.size (world : ObservationWorld) (record : Json) : Status :=
  match world.textLength record with
  | none => .enomem
  | some length => if observationMaxBytes < length then .enobufs else .ok

/-- The checks of `turbo_agent_router_task_observation_internal` on the summary of a run. -/
def Task.summaryConforms (task : Task) (summary : Summary) : Bool :=
  textValid summary.runId 128 && textValid summary.status 128 &&
  summary.checkpointId.all (textValid · 128) && textValid summary.threadId 64 &&
  textValid summary.parentAgentRunId 128 && summary.threadId = task.threadId &&
  summary.parentAgentRunId = task.parentRunId

def Task.observedSummary (task : Task) : Option Summary :=
  if task.execution.finished then task.execution.summary else none

def Task.observation (codes : StatusCodes) (task : Task) (config : EndpointConfig)
    (authorityCurrent : Bool) (id timestamp : String) : Observation where
  observationId := id
  recordedAt := timestamp
  taskId := task.taskId
  executionId := task.execution.id
  endpoint := config.id
  model := config.model
  provider := config.provider
  role := task.role
  threadId := task.threadId
  parentRunId := task.parentRunId
  status := task.execution.status
  resultCode := if task.execution.finished then some (codes.code task.execution.operationRc)
    else none
  runId := task.observedSummary.map (·.runId)
  checkpointId := task.observedSummary.bind (·.checkpointId)
  runtimeStatus := task.observedSummary.map (·.status)
  failureKind := if task.execution.finished then task.execution.state.bind (·.failureKind)
    else none
  unresponsive := task.unresponsive
  authorityCurrent
  approvalPending := task.execution.finished && task.execution.status = .interrupted &&
    task.pendingReview && !task.reviewCancelled
  maxModelTurns := task.maxModelTurns
  reviewResumes := task.reviewResumes
  startedMs := task.startedMs
  observedMs := task.observedMs
  heartbeatMs := task.heartbeatMs
  deadlineMs := task.deadlineMs
  estimatedMicros := task.estimatedMicros
  budgetMicros := task.budgetMicros

/-- `turbo_agent_router_task_observation_internal`. -/
def Task.observe (codes : StatusCodes) (task : Task) (config : EndpointConfig)
    (world : ObservationWorld) (id : String) : Except Status Json :=
  if !idValid id 64 then .error .einval
  else if task.execution.finished ∧ task.execution.resultTaken then .error .ealready
  else if !task.observedSummary.all task.summaryConforms then .error .eproto
  else if maxExactInteger < task.startedMs ∨ maxExactInteger < task.observedMs ∨
      maxExactInteger < task.heartbeatMs ∨ maxExactInteger < task.deadlineMs then .error .enobufs
  else
    match world.timestamp with
    | none => .error .eio
    | some timestamp =>
        let record := (task.observation codes config world.authorityCurrent id timestamp).json
        match observationValidate record id with
        | .ok =>
            match world.size record with
            | .ok => .ok record
            | status => .error status
        | status => .error status

/-- `turbo_agent_router_task_record_observation`; `stored` is the answer of the host's store
to the record. -/
def State.recordObservation (codes : StatusCodes) (state : State) (task : Task)
    (config : EndpointConfig) (world : ObservationWorld) (host : Nat × String) (stored : Status) :
    Status :=
  if state.hostRefused (some host) then .einval
  else
    match task.observe codes config world host.2 with
    | .error status => status
    | .ok _ => stored

/-! ## Records that pass the check -/

/-- The values of a record that passes the check. -/
structure Observation.Valid (observation : Observation) : Prop where
  observationId : idValid observation.observationId 64
  taskId : idValid observation.taskId 64
  executionId : idValid observation.executionId 64
  endpoint : idValid observation.endpoint 64
  threadId : idValid observation.threadId 64
  parentRunId : textValid observation.parentRunId 128
  model : textValid observation.model 1024
  provider : textValid observation.provider 1024
  recordedAt : textValid observation.recordedAt 31
  runId : observation.runId.all (textValid · 128)
  checkpointId : observation.checkpointId.all (textValid · 128)
  runtimeStatus : observation.runtimeStatus.all (textValid · 128)
  failureKind : observation.failureKind.all (textValid · 128)
  started_le : observation.startedMs ≤ observation.heartbeatMs
  heartbeat_le : observation.heartbeatMs ≤ observation.observedMs
  observed_le : observation.observedMs ≤ maxExactInteger
  started_lt : observation.startedMs < observation.deadlineMs
  deadline_le : observation.deadlineMs ≤ observation.startedMs + 86400000
  deadline_exact : observation.deadlineMs ≤ maxExactInteger
  estimated_le : observation.estimatedMicros ≤ observation.budgetMicros
  budget_le : observation.budgetMicros ≤ maxExactInteger
  turns : observation.maxModelTurns = 0 ∨
    2 ≤ observation.maxModelTurns ∧ observation.maxModelTurns ≤ maxModelTurnsLimit
  resumes : observation.reviewResumes ≤ maxReviewResumes
  resumed : observation.reviewResumes ≠ 0 → observation.maxModelTurns ≠ 0
  identity : observation.reviewResumes = 0 → observation.taskId = observation.executionId
  running : observation.status.terminal = false →
    observation.resultCode = none ∧ observation.approvalPending = false ∧
    observation.runId = none ∧ observation.checkpointId = none ∧
    observation.runtimeStatus = none ∧ observation.failureKind = none
  ended : observation.status.terminal = true → ∃ code, observation.resultCode = some code ∧
    (intMin ≤ code ∧ code ≤ intMax) ∧ (code ≠ 0 → observation.status = .failed) ∧
    (observation.runId.isSome = observation.runtimeStatus.isSome) ∧
    (observation.runtimeStatus = none → observation.checkpointId = none) ∧
    (code = 0 → observation.status =
      match observation.runtimeStatus with
      | none => .failed
      | some text => statusFromSummary (some ⟨"", "", "", text, none⟩)) ∧
    (observation.approvalPending → observation.status = .interrupted ∧
      observation.maxModelTurns ≠ 0 ∧ observation.checkpointId.isSome)

theorem firstFailure_ok {checks : List Status} (passed : ∀ status ∈ checks, status = .ok) :
    firstFailure checks = .ok := by
  induction checks with
  | nil => rfl
  | cons status checks ih =>
      rw [passed status List.mem_cons_self]
      exact ih fun other member => passed other (List.mem_cons_of_mem _ member)

theorem of_firstFailure_ok {checks : List Status} (passed : firstFailure checks = .ok) :
    ∀ status ∈ checks, status = .ok := by
  induction checks with
  | nil => exact fun _ member => nomatch member
  | cons head checks ih =>
      cases head <;> simp only [firstFailure, reduceCtorEq] at passed
      intro status member
      rcases List.mem_cons.mp member with rfl | member
      · rfl
      · exact ih passed status member

variable {record : Json} {key : String} {limit : Nat}

theorem observationText_string {text : String} (stored : record.field key = some (.string text))
    (valid : textValid text limit) (nullable : Bool) :
    observationText record key limit nullable = .ok := by
  obtain ⟨nonempty, plain, bounded⟩ := textValid_iff.mp valid
  simp [observationText, stored, nonempty, plain, Nat.not_lt.mpr bounded]

variable {text : Option String}

theorem observationText_nullable (stored : record.field key = some (nullableText text))
    (valid : text.all (textValid · limit)) : observationText record key limit true = .ok := by
  cases text with
  | none => simp [observationText, stored, nullableText]
  | some text => exact observationText_string stored (by simpa using valid) true

theorem observationIdentifier_ok {id : String} (stored : record.field key = some (.string id))
    (valid : idValid id 64) : observationIdentifier record key = .ok := by
  have text := textValid_of_idValid valid
  have plain := (textValid_iff.mp text).2.1
  simp [observationIdentifier, observationText_string stored text, Json.getString_of_field stored plain,
    valid]

theorem observationInteger_nat {number : Nat} (stored : record.field key = some (.int number))
    (bounded : number ≤ maxExactInteger) : observationInteger record key = number := by
  rw [observationInteger, stored]
  apply Json.asInt64_int
  · exact Int.le_trans (by decide) (Int.natCast_nonneg number)
  · exact Int.le_trans (Int.ofNat_le.mpr bounded) (by decide)

theorem getString_nullable (stored : record.field key = some (nullableText text))
    (valid : text.all (textValid · limit)) : record.getString key = text := by
  cases text with
  | none => simp [Json.getString, stored, nullableText]
  | some text =>
      exact Json.getString_of_field stored (textValid_iff.mp (by simpa using valid)).2.1

namespace Observation

variable {observation : Observation}

theorem json_keys : observationKeys [] observationFields = true := by
  decide +kernel

theorem Valid.ids (valid : observation.Valid) :
    ∀ key ∈ observationIds, observationIdentifier observation.json key = .ok := by
  simp only [observationIds, List.forall_mem_cons]
  refine ⟨?_, ?_, ?_, ?_, ?_, fun _ member => nomatch member⟩
  · exact observationIdentifier_ok rfl valid.observationId
  · exact observationIdentifier_ok rfl valid.taskId
  · exact observationIdentifier_ok rfl valid.executionId
  · exact observationIdentifier_ok rfl valid.endpoint
  · exact observationIdentifier_ok rfl valid.threadId

theorem Valid.texts (valid : observation.Valid) :
    ∀ text ∈ observationTexts, observationText observation.json text.1 text.2 false = .ok := by
  have role : textValid (match observation.role with
      | .plan => "plan"
      | .execute => "execute") 16 = true := by
    cases observation.role <;> decide +kernel
  simp only [observationTexts, List.forall_mem_cons]
  refine ⟨?_, ?_, ?_, ?_, ?_, ?_, ?_, fun _ member => nomatch member⟩
  · exact observationText_string rfl valid.parentRunId false
  · exact observationText_string rfl valid.model false
  · exact observationText_string rfl valid.provider false
  · exact observationText_string rfl valid.recordedAt false
  · exact observationText_string rfl (by decide +kernel) false
  · exact observationText_string rfl (by decide +kernel) false
  · exact observationText_string rfl role false

theorem Valid.nullable (valid : observation.Valid) :
    ∀ key ∈ observationNullable, observationText observation.json key 128 true = .ok := by
  simp only [observationNullable, List.forall_mem_cons]
  refine ⟨?_, ?_, ?_, ?_, fun _ member => nomatch member⟩
  · exact observationText_nullable rfl valid.runId
  · exact observationText_nullable rfl valid.checkpointId
  · exact observationText_nullable rfl valid.runtimeStatus
  · exact observationText_nullable rfl valid.failureKind

theorem Valid.constants (valid : observation.Valid) :
    constantsValid observation.json observation.observationId = true := by
  have schema : observationInteger observation.json "schema_version" = 1 := rfl
  have id : observation.json.getString "observation_id" = some observation.observationId :=
    Json.getString_of_field rfl (textValid_iff.mp (textValid_of_idValid valid.observationId)).2.1
  have semantics : observation.json.getString "semantics" = some "historical_host_observation" :=
    Json.getString_of_field rfl (by decide +kernel)
  have clock : observation.json.getString "clock_domain" = some "origin_process_monotonic" :=
    Json.getString_of_field rfl (by decide +kernel)
  have role : observation.json.getString "role" = some "plan" ∨
      observation.json.getString "role" = some "execute" := by
    cases chosen : observation.role with
    | plan =>
        refine .inl (Json.getString_of_field ?_ (by decide +kernel))
        show some (Json.string (match observation.role with
          | .plan => "plan"
          | .execute => "execute")) = some (.string "plan")
        rw [chosen]
    | execute =>
        refine .inr (Json.getString_of_field ?_ (by decide +kernel))
        show some (Json.string (match observation.role with
          | .plan => "plan"
          | .execute => "execute")) = some (.string "execute")
        rw [chosen]
  have cost : fieldNull observation.json "actual_cost_micros" = true := rfl
  simp [constantsValid, schema, id, semantics, clock, cost, role]

theorem Valid.integers (valid : observation.Valid) :
    observationInteger observation.json "started_mono_ms" = observation.startedMs ∧
    observationInteger observation.json "observed_mono_ms" = observation.observedMs ∧
    observationInteger observation.json "heartbeat_mono_ms" = observation.heartbeatMs ∧
    observationInteger observation.json "deadline_mono_ms" = observation.deadlineMs ∧
    observationInteger observation.json "estimated_cost_micros" = observation.estimatedMicros ∧
    observationInteger observation.json "budget_micros" = observation.budgetMicros := by
  have heartbeat := Nat.le_trans valid.heartbeat_le valid.observed_le
  refine ⟨?_, ?_, ?_, ?_, ?_, ?_⟩
  · exact observationInteger_nat rfl (Nat.le_trans valid.started_le heartbeat)
  · exact observationInteger_nat rfl valid.observed_le
  · exact observationInteger_nat rfl heartbeat
  · exact observationInteger_nat rfl valid.deadline_exact
  · exact observationInteger_nat rfl (Nat.le_trans valid.estimated_le valid.budget_le)
  · exact observationInteger_nat rfl valid.budget_le

theorem Valid.numbers (valid : observation.Valid) :
    observationNumbers.all (numberValid observation.json) = true := by
  obtain ⟨started, observed, heartbeat, deadline, estimated, budget⟩ := valid.integers
  have bounds := valid.observed_le
  have exact := valid.deadline_exact
  have costs := valid.budget_le
  have first := valid.started_le
  have second := valid.heartbeat_le
  have third := valid.estimated_le
  simp only [observationNumbers, List.all_cons, List.all_nil, numberValid, started, observed,
    heartbeat, deadline, estimated, budget, Bool.and_eq_true, decide_eq_true_eq, Bool.and_true]
  omega

theorem Valid.times (valid : observation.Valid) : timesValid observation.json = true := by
  obtain ⟨started, observed, heartbeat, deadline, estimated, budget⟩ := valid.integers
  have first := valid.started_le
  have second := valid.heartbeat_le
  have third := valid.started_lt
  have fourth := valid.deadline_le
  have fifth := valid.estimated_le
  simp only [timesValid, started, observed, heartbeat, deadline, estimated, budget,
    Bool.and_eq_true, decide_eq_true_eq]
  omega

theorem status_integer :
    observationInteger observation.json "execution_status" = observation.status.number :=
  observationInteger_nat rfl (by cases observation.status <;> decide)

theorem Valid.turns_integer (valid : observation.Valid) :
    observationInteger observation.json "max_model_turns" = observation.maxModelTurns := by
  refine observationInteger_nat rfl ?_
  rcases valid.turns with none | ⟨-, bounded⟩
  · simp [none]
  · exact Nat.le_trans bounded (by decide)

theorem Valid.counters (valid : observation.Valid) : countersValid observation.json = true := by
  have resumes : observationInteger observation.json "review_resumes" =
      observation.reviewResumes :=
    observationInteger_nat rfl (Nat.le_trans valid.resumes (by decide))
  have taskId : observation.json.getString "task_id" = some observation.taskId :=
    Json.getString_of_field rfl (textValid_iff.mp (textValid_of_idValid valid.taskId)).2.1
  have executionId : observation.json.getString "execution_id" = some observation.executionId :=
    Json.getString_of_field rfl (textValid_iff.mp (textValid_of_idValid valid.executionId)).2.1
  have status : observation.status.number ≤ 6 := by cases observation.status <;> decide
  have bounded := valid.resumes
  have turns := valid.turns
  have resumed := valid.resumed
  have identity := valid.identity
  simp only [countersValid, status_integer, valid.turns_integer, resumes, taskId, executionId,
    Bool.and_eq_true, Bool.or_eq_true, decide_eq_true_eq, Option.some.injEq]
  refine ⟨⟨⟨⟨⟨⟨?_, ?_⟩, ?_⟩, ?_⟩, ?_⟩, ?_⟩, ?_⟩ <;> try omega
  by_cases zero : observation.reviewResumes = 0
  · exact .inr (identity zero)
  · exact .inl (by omega)

theorem Valid.opens (valid : observation.Valid) (running : observation.status.terminal = false) :
    openValid observation.json = true := by
  obtain ⟨code, pending, run, checkpoint, status, kind⟩ := valid.running running
  have codeNull : observation.json.field "runtime_result_code" =
      some (observation.resultCode.elim .null .int) := rfl
  have pendingField : observation.json.field "approval_pending" =
      some (.bool observation.approvalPending) := rfl
  have runNull : observation.json.field "runtime_run_id" = some (nullableText observation.runId) :=
    rfl
  have checkpointNull : observation.json.field "runtime_checkpoint_id" =
      some (nullableText observation.checkpointId) := rfl
  have statusNull : observation.json.field "runtime_status" =
      some (nullableText observation.runtimeStatus) := rfl
  have kindNull : observation.json.field "failure_kind" =
      some (nullableText observation.failureKind) := rfl
  simp [openValid, fieldNull, getBool, observationNullable, codeNull, pendingField, runNull,
    checkpointNull, statusNull, kindNull, code, pending, run, checkpoint, status, kind,
    nullableText]

theorem terminal_text {status : ExecutionStatus} (matching : status = match text with
      | none => .failed
      | some text => statusFromSummary (some ⟨"", "", "", text, none⟩)) :
    (if (status.number : Int) < 6 then
      text.isSome && text = terminalStatus[((status.number : Int) - 2).toNat]?
    else text.all fun text => !terminalStatus.contains text) = true := by
  cases text with
  | none =>
      subst matching
      simp [ExecutionStatus.number]
  | some text =>
      subst matching
      simp only [statusFromSummary]
      split
      next completed =>
        subst completed
        rfl
      next notCompleted =>
        split
        next interrupted =>
          subst interrupted
          rfl
        next notInterrupted =>
          split
          next cancelled =>
            subst cancelled
            rfl
          next notCancelled =>
            split
            next timedOut =>
              subst timedOut
              rfl
            next notTimedOut =>
              simp [ExecutionStatus.number, terminalStatus, notCompleted, notInterrupted,
                notCancelled, notTimedOut]

theorem Valid.ends (valid : observation.Valid) (terminal : observation.status.terminal = true) :
    endedValid observation.json = true := by
  obtain ⟨code, result, range, failed, runs, checkpoints, matching, pending⟩ :=
    valid.ended terminal
  have operation : observationInteger observation.json "runtime_result_code" = code := by
    have stored : observation.json.field "runtime_result_code" =
        some (observation.resultCode.elim .null .int) := rfl
    rw [observationInteger, stored, result]
    exact Json.asInt64_int (Int.le_trans (by decide) range.1) (Int.le_trans range.2 (by decide))
  have runtimeStatus : observation.json.getString "runtime_status" = observation.runtimeStatus :=
    getString_nullable rfl valid.runtimeStatus
  have runId : observation.json.getString "runtime_run_id" = observation.runId :=
    getString_nullable rfl valid.runId
  have checkpointId : observation.json.getString "runtime_checkpoint_id" =
      observation.checkpointId :=
    getString_nullable rfl valid.checkpointId
  have checkpointNull : fieldNull observation.json "runtime_checkpoint_id" =
      observation.checkpointId.isNone := by
    have stored : observation.json.field "runtime_checkpoint_id" =
        some (nullableText observation.checkpointId) := rfl
    cases found : observation.checkpointId <;> simp [fieldNull, stored, found, nullableText]
  have approval : getBool observation.json "approval_pending" = observation.approvalPending := by
    have stored : observation.json.field "approval_pending" =
        some (.bool observation.approvalPending) := rfl
    simp [getBool, stored]
  have failedNumber : code = 0 ∨ (observation.status.number : Int) = 6 := by
    by_cases success : code = 0
    · exact .inl success
    · rw [failed success]
      exact .inr rfl
  have texts : code ≠ 0 ∨ (if (observation.status.number : Int) < 6 then
      observation.runtimeStatus.isSome && observation.runtimeStatus =
        terminalStatus[((observation.status.number : Int) - 2).toNat]?
      else observation.runtimeStatus.all fun text => !terminalStatus.contains text) = true := by
    by_cases success : code = 0
    · exact .inr (terminal_text (matching success))
    · exact .inl success
  simp only [endedValid, status_integer, operation, runtimeStatus, runId, checkpointId,
    checkpointNull, approval, valid.turns_integer, Bool.and_eq_true, Bool.or_eq_true,
    decide_eq_true_eq]
  refine ⟨⟨⟨⟨⟨range, failedNumber⟩, runs⟩, ?_⟩, texts⟩, ?_⟩
  · cases found : observation.runtimeStatus with
    | none => exact .inr (by simp [checkpoints found])
    | some text => exact .inl rfl
  · cases waiting : observation.approvalPending with
    | false => exact .inl rfl
    | true =>
        obtain ⟨interrupted, turns, checkpoint⟩ := pending waiting
        refine .inr ⟨⟨?_, ?_⟩, checkpoint⟩
        · rw [interrupted]
          rfl
        · simpa using turns

theorem Valid.validate (valid : observation.Valid) :
    observationValidate observation.json observation.observationId = .ok := by
  have passed : firstFailure (observationIds.map (observationIdentifier observation.json) ++
      observationTexts.map (fun text => observationText observation.json text.1 text.2 false) ++
      observationNullable.map (observationText observation.json · 128 true)) = .ok := by
    apply firstFailure_ok
    simp only [List.mem_append, List.mem_map]
    rintro status ((⟨key, member, rfl⟩ | ⟨text, member, rfl⟩) | ⟨key, member, rfl⟩)
    · exact valid.ids key member
    · exact valid.texts text member
    · exact valid.nullable key member
  have booleans : observationBooleans.all (fieldBool observation.json) = true := rfl
  have number : (observationInteger observation.json "execution_status" < 2) ↔
      observation.status.terminal = false := by
    rw [status_integer]
    cases observation.status <;> decide
  have shape : ¬((!observation.json.isObject) = true ∨
      observation.json.size ≠ observationFields.length) := by
    rintro (notObject | size)
    · cases notObject
    · exact size rfl
  have keys : observationKeys [] (recordKeys observation.json) = true := json_keys
  rw [observationValidate, if_neg shape, passed]
  simp only [keys, valid.constants, booleans, valid.numbers, valid.times, valid.counters,
    Bool.not_true, Bool.false_eq_true, if_false]
  split
  next running => rw [if_pos (valid.opens (number.mp running))]
  next ended =>
    rw [number, Bool.not_eq_false] at ended
    rw [if_pos (valid.ends ended)]

theorem validate_empty_kind (empty : observation.failureKind = some "") (id : String) :
    observationValidate observation.json id ≠ .ok := by
  have refused : observationText observation.json "failure_kind" 128 true = .eproto := by
    have stored : observation.json.field "failure_kind" =
        some (nullableText observation.failureKind) := rfl
    simp [observationText, stored, empty, nullableText]
  intro passed
  rw [observationValidate] at passed
  split at passed
  next => cases passed
  split at passed
  next => cases passed
  split at passed
  next texts =>
    have kind := of_firstFailure_ok texts (observationText observation.json "failure_kind" 128 true)
      (List.mem_append_right _ (List.mem_map_of_mem (by simp [observationNullable])))
    rw [refused] at kind
    cases kind
  next failed => exact failed passed

end Observation

end TurboAgent.Router
