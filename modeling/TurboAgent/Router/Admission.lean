import TurboAgent.Router.Observation
import TurboAgent.Router.Selection

/-!
# Admission intents

Before the execution of a task is queued, a host may have a record written of the route that was
chosen.  The record is checked before it is stored and again when it is loaded, and the check
computes the cost once more.  A string holds one character for each byte.
-/

namespace TurboAgent.Router

/-- `TURBO_AGENT_ROUTER_ADMISSION_MAX_BYTES`. -/
def admissionMaxBytes : Nat := 16384

/-- The fields of `turbo_agent_runtime_parent_link_t` beside the run of the parent. -/
structure ParentLink where
  (parentToolCallId parentToolName parentGraphRunId callFrameId : Option String)
  deriving DecidableEq

/-! ## The record -/

structure Admission where
  (admissionId recordedAt taskId endpoint model provider : String)
  role : Role
  (threadId parentRunId : String)
  parent : ParentLink
  (difficulty requiredCapabilities : Nat)
  (inputTokens outputTokens inputPriceMicros outputPriceMicros : Nat)
  (estimatedMicros budgetMicros maxModelTurns heartbeatTimeoutMs startedMs deadlineMs : Nat)

def Role.text : Role → String
  | .plan => "plan"
  | .execute => "execute"

def Admission.json (admission : Admission) : Json :=
  .object [
    ("schema_version", .int 1),
    ("admission_id", .string admission.admissionId),
    ("semantics", .string "pre_dispatch_intent"),
    ("clock_domain", .string "origin_process_monotonic"),
    ("recorded_at", .string admission.recordedAt),
    ("task_id", .string admission.taskId),
    ("endpoint", .string admission.endpoint),
    ("model", .string admission.model),
    ("provider", .string admission.provider),
    ("role", .string admission.role.text),
    ("thread_id", .string admission.threadId),
    ("parent_run_id", .string admission.parentRunId),
    ("parent_tool_call_id", nullableText admission.parent.parentToolCallId),
    ("parent_tool_name", nullableText admission.parent.parentToolName),
    ("parent_graph_run_id", nullableText admission.parent.parentGraphRunId),
    ("call_frame_id", nullableText admission.parent.callFrameId),
    ("difficulty", .int admission.difficulty),
    ("required_model_capabilities", .int admission.requiredCapabilities),
    ("input_tokens_estimate", .int admission.inputTokens),
    ("output_tokens_estimate", .int admission.outputTokens),
    ("input_price_micros_per_million", .int admission.inputPriceMicros),
    ("output_price_micros_per_million", .int admission.outputPriceMicros),
    ("estimated_cost_micros", .int admission.estimatedMicros),
    ("budget_micros", .int admission.budgetMicros),
    ("max_model_turns", .int admission.maxModelTurns),
    ("heartbeat_timeout_ms", .int admission.heartbeatTimeoutMs),
    ("started_mono_ms", .int admission.startedMs),
    ("deadline_mono_ms", .int admission.deadlineMs)]

/-! ## The check -/

def admissionFields : List String :=
  ["schema_version", "admission_id", "semantics", "clock_domain", "recorded_at",
    "task_id", "endpoint", "model", "provider", "role", "thread_id", "parent_run_id",
    "parent_tool_call_id", "parent_tool_name", "parent_graph_run_id", "call_frame_id",
    "difficulty", "required_model_capabilities", "input_tokens_estimate",
    "output_tokens_estimate", "input_price_micros_per_million",
    "output_price_micros_per_million", "estimated_cost_micros", "budget_micros",
    "max_model_turns", "heartbeat_timeout_ms", "started_mono_ms", "deadline_mono_ms"]

def admissionIds : List String :=
  ["admission_id", "task_id", "endpoint", "thread_id"]

/-- The fields of the parent with an identifier or null. -/
def admissionParentIds : List String :=
  ["parent_tool_call_id", "parent_graph_run_id", "call_frame_id"]

/-- The other fields with a text, the limit of each, and whether it may be null. -/
def admissionTexts : List (String × Nat × Bool) :=
  [("parent_run_id", 128, false), ("parent_tool_name", 1024, true), ("model", 1024, false),
    ("provider", 1024, false), ("recorded_at", 31, false), ("semantics", 64, false),
    ("clock_domain", 64, false), ("role", 16, false)]

def admissionNumbers : List String :=
  ["difficulty", "required_model_capabilities", "input_tokens_estimate",
    "output_tokens_estimate", "input_price_micros_per_million",
    "output_price_micros_per_million", "estimated_cost_micros", "budget_micros",
    "max_model_turns", "heartbeat_timeout_ms", "started_mono_ms", "deadline_mono_ms"]

/-- `admission_text`, which reads a text as an observation does. -/
def admissionText (record : Json) (key : String) (limit : Nat) (nullable : Bool) : Status :=
  observationText record key limit nullable

/-- `admission_integer`. -/
def admissionInteger (record : Json) (key : String) : Int :=
  observationInteger record key

/-- The loop over the keys of a record: each is a field, and none comes twice. -/
def admissionKeys : List String → List String → Bool
  | _, [] => true
  | seen, key :: keys =>
      admissionFields.contains key && !seen.contains key && admissionKeys (key :: seen) keys

/-- An identifier of `admission_validate`. -/
def admissionIdentifier (record : Json) (key : String) : Status :=
  match admissionText record key 64 false with
  | .ok => if (record.getString key).any (idValid · 64) then .ok else .eproto
  | status => status

def admissionConstantsValid (record : Json) (id : String) : Bool :=
  admissionInteger record "schema_version" = 1 &&
  record.getString "admission_id" = some id &&
  record.getString "semantics" = some "pre_dispatch_intent" &&
  record.getString "clock_domain" = some "origin_process_monotonic" &&
  (record.getString "role" = some "plan" || record.getString "role" = some "execute")

/-- The bounds of the request and of the route in a record. -/
def admissionBoundsValid (record : Json) : Bool :=
  let integer := admissionInteger record
  let turns := integer "max_model_turns"
  let capabilities := integer "required_model_capabilities"
  let started := integer "started_mono_ms"
  let deadline := integer "deadline_mono_ms"
  let heartbeat := integer "heartbeat_timeout_ms"
  (turns = 0 || (2 ≤ turns && turns ≤ maxModelTurnsLimit)) &&
  capabilities ≠ 0 && capabilities ≤ 7 &&
  (turns = 0 || (record.getString "role" = some "execute" &&
    capabilities.toNat &&& toolProposals ≠ 0)) &&
  integer "difficulty" ≤ 100 &&
  started < deadline && deadline - started ≤ 86400000 &&
  0 < heartbeat && heartbeat ≤ deadline - started &&
  1 ≤ integer "input_tokens_estimate" && integer "input_tokens_estimate" ≤ 1000000 &&
  1 ≤ integer "output_tokens_estimate" && integer "output_tokens_estimate" ≤ 1000000 &&
  integer "input_price_micros_per_million" ≤ 1000000000 &&
  integer "output_price_micros_per_million" ≤ 1000000000

/-- The cost that `admission_validate` expects. -/
def admissionExpected (record : Json) : UInt64 :=
  let number := fun key => UInt64.ofNat (admissionInteger record key).toNat
  costMicros (number "input_tokens_estimate") (number "input_price_micros_per_million")
    (number "output_tokens_estimate") (number "output_price_micros_per_million") *
      if admissionInteger record "max_model_turns" ≠ 0 then number "max_model_turns" else 1

/-- The cost of a record is the expected one, within the budget. -/
def admissionCostValid (record : Json) : Bool :=
  let number := fun key => UInt64.ofNat (admissionInteger record key).toNat
  admissionExpected record = number "estimated_cost_micros" &&
    admissionExpected record ≤ number "budget_micros"

/-- `admission_validate`. -/
def admissionValidate (record : Json) (id : String) : Status :=
  if !record.isObject ∨ record.size ≠ admissionFields.length then .eproto
  else if !admissionKeys [] (recordKeys record) then .eproto
  else
    match firstFailure (admissionIds.map (admissionIdentifier record) ++
        admissionParentIds.map (admissionText record · 128 true) ++
        admissionTexts.map fun text => admissionText record text.1 text.2.1 text.2.2) with
    | .ok =>
        if !admissionConstantsValid record id then .eproto
        else if !admissionNumbers.all (numberValid record) then .eproto
        else if !admissionBoundsValid record then .eproto
        else if !admissionCostValid record then .eproto
        else .ok
    | status => status

/-! ## Writing and loading -/

/-- What writing a record learns from outside: the time, and the length of the text of a JSON
value, unless there is no memory for it. -/
structure AdmissionWorld where
  timestamp : Option String
  textLength : Json → Option Nat

/-- `admission_size` for `TURBO_AGENT_ROUTER_ADMISSION_MAX_BYTES`. -/
def AdmissionWorld.size (world : AdmissionWorld) (record : Json) : Status :=
  match world.textLength record with
  | none => .enomem
  | some length => if admissionMaxBytes < length then .enobufs else .ok

/-- The values of the record of a task; the task has copied the estimates of its request. -/
def Task.admission (task : Task) (request : Request) (config : EndpointConfig)
    (parent : ParentLink) (id executionId timestamp : String) : Admission where
  admissionId := id
  recordedAt := timestamp
  taskId := executionId
  endpoint := config.id
  model := config.model
  provider := config.provider
  role := task.role
  threadId := task.threadId
  parentRunId := task.parentRunId
  parent
  difficulty := request.difficulty
  requiredCapabilities := request.requiredCapabilities
  inputTokens := request.inputTokens
  outputTokens := request.outputTokens
  inputPriceMicros := config.inputPriceMicros
  outputPriceMicros := config.outputPriceMicros
  estimatedMicros := task.estimatedMicros
  budgetMicros := task.budgetMicros
  maxModelTurns := task.maxModelTurns
  heartbeatTimeoutMs := task.heartbeatTimeoutMs
  startedMs := task.startedMs
  deadlineMs := task.deadlineMs

/-- `turbo_agent_router_admission_write_internal` up to the store: the record that is created, or
the failure before it. -/
def Task.admissionWrite (task : Task) (request : Request) (config : EndpointConfig)
    (parent : ParentLink) (id executionId : String) (world : AdmissionWorld) :
    Except Status Json :=
  if maxExactInteger < task.startedMs ∨ maxExactInteger < task.deadlineMs then .error .enobufs
  else
    match world.timestamp with
    | none => .error .eio
    | some timestamp =>
        let record := (task.admission request config parent id executionId timestamp).json
        match admissionValidate record id with
        | .ok =>
            match world.size record with
            | .ok => .ok record
            | status => .error status
        | status => .error status

/-- `turbo_agent_router_load_intent` with the answer of the host's store. -/
def loadIntent (id : String) (world : AdmissionWorld) (stored : Except Status Json) :
    Except Status Json :=
  if !idValid id 64 then .error .einval
  else
    match stored with
    | .error status => .error status
    | .ok record =>
        match admissionValidate record id with
        | .ok =>
            match world.size record with
            | .ok => .ok record
            | status => .error status
        | status => .error status

/-! ## Records that pass the check -/

variable {record : Json} {key : String}

theorem admissionText_string {text : String} {limit : Nat} {nullable : Bool}
    (stored : record.field key = some (.string text)) :
    admissionText record key limit nullable = .ok ↔ textValid text limit = true := by
  rw [admissionText, observationText, stored, textValid_iff]
  dsimp only
  split
  next malformed =>
    refine iff_of_false (by simp) ?_
    rintro ⟨nonempty, plain, -⟩
    rcases malformed with empty | nul
    · exact nonempty empty
    · rw [plain] at nul
      cases nul
  next formed =>
    rw [not_or, Bool.not_eq_true', Bool.not_eq_false] at formed
    split
    next long => exact iff_of_false (by simp) fun valid => absurd valid.2.2 (Nat.not_le.mpr long)
    next short => exact iff_of_true rfl ⟨formed.1, formed.2, Nat.le_of_not_lt short⟩

theorem admissionText_nullable {text : Option String} {limit : Nat}
    (stored : record.field key = some (nullableText text)) :
    admissionText record key limit true = .ok ↔ text.all (textValid · limit) = true := by
  cases text with
  | none => exact iff_of_true (by rw [admissionText, observationText, stored]; rfl) rfl
  | some text => exact admissionText_string stored

variable {id : String}

theorem admissionIdentifier_iff (stored : record.field key = some (.string id)) :
    admissionIdentifier record key = .ok ↔ idValid id 64 = true := by
  rw [admissionIdentifier]
  constructor
  · intro passed
    split at passed
    next isText =>
      have plain := (textValid_iff.mp ((admissionText_string stored).mp isText)).2.1
      rw [Json.getString_of_field stored plain] at passed
      by_contra invalid
      rw [Option.any_some, if_neg invalid] at passed
      cases passed
    next failed => exact absurd passed failed
  · intro valid
    have isText := textValid_of_idValid valid
    rw [(admissionText_string stored).mpr isText,
      Json.getString_of_field stored (textValid_iff.mp isText).2.1]
    exact if_pos valid

theorem admissionInteger_nat {number : Nat} (stored : record.field key = some (.int number))
    (bounded : number ≤ maxExactInteger) : admissionInteger record key = number :=
  observationInteger_nat stored bounded

namespace Admission

/-- The texts of a record that come from outside the router are within their limits. -/
structure Fits (admission : Admission) : Prop where
  taskId : idValid admission.taskId 64 = true
  parentRunId : textValid admission.parentRunId 128 = true
  model : textValid admission.model 1024 = true
  provider : textValid admission.provider 1024 = true
  recordedAt : textValid admission.recordedAt 31 = true
  parentToolCallId : admission.parent.parentToolCallId.all (textValid · 128) = true
  parentToolName : admission.parent.parentToolName.all (textValid · 1024) = true
  parentGraphRunId : admission.parent.parentGraphRunId.all (textValid · 128) = true
  callFrameId : admission.parent.callFrameId.all (textValid · 128) = true

/-- The identifiers and numbers of a record that the router has admitted. -/
structure Bounded (admission : Admission) : Prop where
  admissionId : idValid admission.admissionId 64 = true
  endpoint : idValid admission.endpoint 64 = true
  threadId : idValid admission.threadId 64 = true
  difficulty : admission.difficulty ≤ 100
  capabilities : admission.requiredCapabilities ≠ 0 ∧ admission.requiredCapabilities ≤ 7
  inputTokens : admission.inputTokens ≠ 0 ∧ admission.inputTokens ≤ 1000000
  outputTokens : admission.outputTokens ≠ 0 ∧ admission.outputTokens ≤ 1000000
  inputPrice : admission.inputPriceMicros ≤ 1000000000
  outputPrice : admission.outputPriceMicros ≤ 1000000000
  turns : admission.maxModelTurns ≠ 0 → 2 ≤ admission.maxModelTurns ∧
    admission.maxModelTurns ≤ maxModelTurnsLimit ∧ admission.role = .execute ∧
    admission.requiredCapabilities &&& toolProposals ≠ 0
  heartbeat : admission.heartbeatTimeoutMs ≠ 0 ∧
    admission.startedMs + admission.heartbeatTimeoutMs ≤ admission.deadlineMs
  deadline : admission.deadlineMs ≤ admission.startedMs + 86400000
  exact : admission.deadlineMs ≤ maxExactInteger
  estimated : admission.estimatedMicros =
    ((admission.inputTokens * admission.inputPriceMicros + 999999) / 1000000 +
      (admission.outputTokens * admission.outputPriceMicros + 999999) / 1000000) *
      chargedTurns admission.maxModelTurns
  affordable : admission.estimatedMicros ≤ admission.budgetMicros
  budget : admission.budgetMicros ≤ maxExactInteger

variable {admission : Admission}

theorem json_keys : admissionKeys [] admissionFields = true := by
  decide +kernel

theorem Bounded.texts (bounded : admission.Bounded) :
    firstFailure (admissionIds.map (admissionIdentifier admission.json) ++
      admissionParentIds.map (admissionText admission.json · 128 true) ++
      admissionTexts.map fun text => admissionText admission.json text.1 text.2.1 text.2.2) = .ok ↔
      admission.Fits := by
  constructor
  · intro passed
    have each := of_firstFailure_ok passed
    have identifier : ∀ key ∈ admissionIds, admissionIdentifier admission.json key = .ok :=
      fun key member => each _ (List.mem_append_left _ (List.mem_append_left _
        (List.mem_map_of_mem member)))
    have parentId : ∀ key ∈ admissionParentIds, admissionText admission.json key 128 true = .ok :=
      fun key member => each _ (List.mem_append_left _ (List.mem_append_right _
        (List.mem_map_of_mem member)))
    have isText : ∀ text ∈ admissionTexts,
        admissionText admission.json text.1 text.2.1 text.2.2 = .ok :=
      fun text member => each _ (List.mem_append_right _ (List.mem_map_of_mem member))
    exact {
      taskId := (admissionIdentifier_iff rfl).mp (identifier "task_id" (by simp [admissionIds]))
      parentRunId := (admissionText_string rfl).mp
        (isText ("parent_run_id", 128, false) (by simp [admissionTexts]))
      model := (admissionText_string rfl).mp
        (isText ("model", 1024, false) (by simp [admissionTexts]))
      provider := (admissionText_string rfl).mp
        (isText ("provider", 1024, false) (by simp [admissionTexts]))
      recordedAt := (admissionText_string rfl).mp
        (isText ("recorded_at", 31, false) (by simp [admissionTexts]))
      parentToolCallId := (admissionText_nullable rfl).mp
        (parentId "parent_tool_call_id" (by simp [admissionParentIds]))
      parentToolName := (admissionText_nullable rfl).mp
        (isText ("parent_tool_name", 1024, true) (by simp [admissionTexts]))
      parentGraphRunId := (admissionText_nullable rfl).mp
        (parentId "parent_graph_run_id" (by simp [admissionParentIds]))
      callFrameId := (admissionText_nullable rfl).mp
        (parentId "call_frame_id" (by simp [admissionParentIds])) }
  · intro fits
    have role : textValid admission.role.text 16 = true := by
      cases admission.role <;> decide +kernel
    apply firstFailure_ok
    simp only [List.forall_mem_append, List.forall_mem_map, admissionIds, admissionParentIds,
      admissionTexts, List.forall_mem_cons]
    refine ⟨⟨⟨?_, ?_, ?_, ?_, by simp⟩, ?_, ?_, ?_, by simp⟩, ?_, ?_, ?_, ?_, ?_, ?_, ?_, ?_,
      by simp⟩
    · exact (admissionIdentifier_iff rfl).mpr bounded.admissionId
    · exact (admissionIdentifier_iff rfl).mpr fits.taskId
    · exact (admissionIdentifier_iff rfl).mpr bounded.endpoint
    · exact (admissionIdentifier_iff rfl).mpr bounded.threadId
    · exact (admissionText_nullable rfl).mpr fits.parentToolCallId
    · exact (admissionText_nullable rfl).mpr fits.parentGraphRunId
    · exact (admissionText_nullable rfl).mpr fits.callFrameId
    · exact (admissionText_string rfl).mpr fits.parentRunId
    · exact (admissionText_nullable rfl).mpr fits.parentToolName
    · exact (admissionText_string rfl).mpr fits.model
    · exact (admissionText_string rfl).mpr fits.provider
    · exact (admissionText_string rfl).mpr fits.recordedAt
    · exact (admissionText_string rfl).mpr (by decide +kernel)
    · exact (admissionText_string rfl).mpr (by decide +kernel)
    · exact (admissionText_string rfl).mpr role

theorem role_getString (admission : Admission) :
    admission.json.getString "role" = some admission.role.text :=
  Json.getString_of_field rfl (by cases admission.role <;> decide +kernel)

theorem Bounded.constants (bounded : admission.Bounded) :
    admissionConstantsValid admission.json admission.admissionId = true := by
  have schema : admissionInteger admission.json "schema_version" = 1 := rfl
  have id : admission.json.getString "admission_id" = some admission.admissionId :=
    Json.getString_of_field rfl
      (textValid_iff.mp (textValid_of_idValid bounded.admissionId)).2.1
  have semantics : admission.json.getString "semantics" = some "pre_dispatch_intent" :=
    Json.getString_of_field rfl (by decide +kernel)
  have clock : admission.json.getString "clock_domain" = some "origin_process_monotonic" :=
    Json.getString_of_field rfl (by decide +kernel)
  have role : admission.role.text = "plan" ∨ admission.role.text = "execute" := by
    cases admission.role
    · exact .inl rfl
    · exact .inr rfl
  simp [admissionConstantsValid, schema, id, semantics, clock, role_getString, role]

/-- The numbers of a bounded record are the ones it was built from. -/
structure Numbers (admission : Admission) : Prop where
  difficulty : admissionInteger admission.json "difficulty" = admission.difficulty
  capabilities : admissionInteger admission.json "required_model_capabilities" =
    admission.requiredCapabilities
  inputTokens : admissionInteger admission.json "input_tokens_estimate" = admission.inputTokens
  outputTokens : admissionInteger admission.json "output_tokens_estimate" = admission.outputTokens
  inputPrice : admissionInteger admission.json "input_price_micros_per_million" =
    admission.inputPriceMicros
  outputPrice : admissionInteger admission.json "output_price_micros_per_million" =
    admission.outputPriceMicros
  estimated : admissionInteger admission.json "estimated_cost_micros" = admission.estimatedMicros
  budget : admissionInteger admission.json "budget_micros" = admission.budgetMicros
  turns : admissionInteger admission.json "max_model_turns" = admission.maxModelTurns
  heartbeat : admissionInteger admission.json "heartbeat_timeout_ms" = admission.heartbeatTimeoutMs
  started : admissionInteger admission.json "started_mono_ms" = admission.startedMs
  deadline : admissionInteger admission.json "deadline_mono_ms" = admission.deadlineMs

theorem Bounded.turns_le (bounded : admission.Bounded) :
    admission.maxModelTurns ≤ maxModelTurnsLimit := by
  by_cases loop : admission.maxModelTurns = 0
  · rw [loop]
    exact Nat.zero_le _
  · exact (bounded.turns loop).2.1

theorem Bounded.numbers (bounded : admission.Bounded) : admission.Numbers := by
  have exact := bounded.exact
  have heartbeat := bounded.heartbeat.2
  have far : 1000000000 ≤ maxExactInteger := by decide
  exact {
    difficulty := admissionInteger_nat rfl (bounded.difficulty.trans (by decide))
    capabilities := admissionInteger_nat rfl (bounded.capabilities.2.trans (by decide))
    inputTokens := admissionInteger_nat rfl (bounded.inputTokens.2.trans (by decide))
    outputTokens := admissionInteger_nat rfl (bounded.outputTokens.2.trans (by decide))
    inputPrice := admissionInteger_nat rfl (bounded.inputPrice.trans far)
    outputPrice := admissionInteger_nat rfl (bounded.outputPrice.trans far)
    estimated := admissionInteger_nat rfl (bounded.affordable.trans bounded.budget)
    budget := admissionInteger_nat rfl bounded.budget
    turns := admissionInteger_nat rfl (bounded.turns_le.trans (by decide))
    heartbeat := admissionInteger_nat rfl (by omega)
    started := admissionInteger_nat rfl (by omega)
    deadline := admissionInteger_nat rfl exact }

theorem Bounded.inRange (bounded : admission.Bounded) :
    admissionNumbers.all (numberValid admission.json) = true := by
  have numbers := bounded.numbers
  have folded : ∀ key, observationInteger admission.json key =
      admissionInteger admission.json key := fun _ => rfl
  have difficulty := bounded.difficulty
  have capabilities := bounded.capabilities.2
  have inputTokens := bounded.inputTokens.2
  have outputTokens := bounded.outputTokens.2
  have inputPrice := bounded.inputPrice
  have outputPrice := bounded.outputPrice
  have affordable := bounded.affordable
  have budget := bounded.budget
  have turns := bounded.turns_le
  have heartbeat := bounded.heartbeat.2
  have exact := bounded.exact
  simp only [admissionNumbers, List.all_cons, List.all_nil, numberValid, folded,
    numbers.difficulty, numbers.capabilities, numbers.inputTokens, numbers.outputTokens,
    numbers.inputPrice, numbers.outputPrice, numbers.estimated, numbers.budget, numbers.turns,
    numbers.heartbeat, numbers.started, numbers.deadline, Bool.and_eq_true, decide_eq_true_eq,
    Bool.and_true]
  simp only [maxExactInteger, maxModelTurnsLimit] at *
  omega

theorem Bounded.bounds (bounded : admission.Bounded) :
    admissionBoundsValid admission.json = true := by
  have numbers := bounded.numbers
  have difficulty := bounded.difficulty
  have capabilities := bounded.capabilities
  have inputTokens := bounded.inputTokens
  have outputTokens := bounded.outputTokens
  have inputPrice := bounded.inputPrice
  have outputPrice := bounded.outputPrice
  have heartbeat := bounded.heartbeat
  have deadline := bounded.deadline
  have loop : admission.maxModelTurns = 0 ∨ admission.role.text = "execute" ∧
      admission.requiredCapabilities &&& toolProposals ≠ 0 := by
    by_cases loop : admission.maxModelTurns = 0
    · exact .inl loop
    · obtain ⟨-, -, execute, proposals⟩ := bounded.turns loop
      exact .inr ⟨by rw [execute]; rfl, proposals⟩
  have turns : admission.maxModelTurns = 0 ∨
      2 ≤ admission.maxModelTurns ∧ admission.maxModelTurns ≤ maxModelTurnsLimit := by
    by_cases loop : admission.maxModelTurns = 0
    · exact .inl loop
    · exact .inr ⟨(bounded.turns loop).1, (bounded.turns loop).2.1⟩
  simp only [admissionBoundsValid, numbers.difficulty, numbers.capabilities, numbers.inputTokens,
    numbers.outputTokens, numbers.inputPrice, numbers.outputPrice, numbers.turns,
    numbers.heartbeat, numbers.started, numbers.deadline, role_getString, Bool.and_eq_true,
    Bool.or_eq_true, decide_eq_true_eq, Int.toNat_natCast, Option.some.injEq]
  refine ⟨⟨⟨⟨⟨⟨⟨⟨⟨⟨⟨⟨⟨⟨?_, ?_⟩, ?_⟩, ?_⟩, ?_⟩, ?_⟩, ?_⟩, ?_⟩, ?_⟩, ?_⟩, ?_⟩, ?_⟩, ?_⟩, ?_⟩, ?_⟩
  case refine_4 => exact loop.imp_left Int.natCast_eq_zero.mpr
  all_goals omega

theorem uint64_small {number : Nat} (small : number ≤ maxExactInteger) :
    (UInt64.ofNat number).toNat = number :=
  UInt64.toNat_ofNat_of_lt' (by
    show _ < 18446744073709551616
    simp only [maxExactInteger] at small
    omega)

theorem Bounded.cost (bounded : admission.Bounded) :
    (admissionExpected admission.json).toNat = admission.estimatedMicros := by
  have numbers := bounded.numbers
  have far : 1000000000 ≤ maxExactInteger := by decide
  have input := uint64_small (bounded.inputTokens.2.trans (by decide))
  have output := uint64_small (bounded.outputTokens.2.trans (by decide))
  have priceIn := uint64_small (bounded.inputPrice.trans far)
  have priceOut := uint64_small (bounded.outputPrice.trans far)
  have charged := chargedTurns_le bounded.turns_le
  have factor : (if (admission.maxModelTurns : Int) ≠ 0 then
      UInt64.ofNat admission.maxModelTurns else 1) =
        .ofNat (chargedTurns admission.maxModelTurns) := by
    by_cases loop : admission.maxModelTurns = 0
    · rw [loop]
      rfl
    · rw [if_pos (Int.natCast_ne_zero.mpr loop), chargedTurns, if_neg loop]
  obtain ⟨exact, most⟩ := @costMicros_toNat (.ofNat admission.inputTokens)
    (.ofNat admission.inputPriceMicros) (.ofNat admission.outputTokens)
    (.ofNat admission.outputPriceMicros) (input.le.trans bounded.inputTokens.2)
    (priceIn.le.trans bounded.inputPrice) (output.le.trans bounded.outputTokens.2)
    (priceOut.le.trans bounded.outputPrice)
  have product := Nat.mul_le_mul most charged
  have computed : admissionExpected admission.json =
      costMicros (.ofNat admission.inputTokens) (.ofNat admission.inputPriceMicros)
        (.ofNat admission.outputTokens) (.ofNat admission.outputPriceMicros) *
        .ofNat (chargedTurns admission.maxModelTurns) := by
    simp only [admissionExpected, numbers.inputTokens, numbers.outputTokens, numbers.inputPrice,
      numbers.outputPrice, numbers.turns, Int.toNat_natCast]
    rw [factor]
  rw [computed, UInt64.toNat_mul, uint64_small (charged.trans (by decide)),
    Nat.mod_eq_of_lt (by omega), exact, input, output, priceIn, priceOut, bounded.estimated]

theorem Bounded.costValid (bounded : admission.Bounded) :
    admissionCostValid admission.json = true := by
  have numbers := bounded.numbers
  have estimated := uint64_small (bounded.affordable.trans bounded.budget)
  have budget := uint64_small bounded.budget
  simp only [admissionCostValid, numbers.estimated, numbers.budget, Int.toNat_natCast,
    Bool.and_eq_true, decide_eq_true_eq]
  constructor
  · rw [← UInt64.toNat_inj, bounded.cost, estimated]
  · rw [UInt64.le_iff_toNat_le, bounded.cost, budget]
    exact bounded.affordable

/-- A record that the router has bounded passes the check exactly when its texts fit. -/
theorem Bounded.validate_iff (bounded : admission.Bounded) :
    admissionValidate admission.json admission.admissionId = .ok ↔ admission.Fits := by
  have shape : ¬((!admission.json.isObject) = true ∨
      admission.json.size ≠ admissionFields.length) := by
    rintro (notObject | size)
    · cases notObject
    · exact size rfl
  have keys : admissionKeys [] (recordKeys admission.json) = true := json_keys
  rw [← bounded.texts, admissionValidate, if_neg shape, keys]
  simp only [bounded.constants, bounded.inRange, bounded.bounds, bounded.costValid,
    Bool.not_true, Bool.false_eq_true, if_false]
  split
  next passed => exact iff_of_true rfl passed
  next failed => exact Iff.rfl

end Admission

/-! ## The record of a submission -/

theorem Task.admissionWrite_ok {task : Task} {request : Request} {config : EndpointConfig}
    {parent : ParentLink} {executionId : String} {world : AdmissionWorld}
    (written : task.admissionWrite request config parent id executionId world = .ok record) :
    task.deadlineMs ≤ maxExactInteger ∧ admissionValidate record id = .ok ∧
      world.size record = .ok ∧ ∃ timestamp,
        record = (task.admission request config parent id executionId timestamp).json := by
  rw [Task.admissionWrite] at written
  split at written
  next => cases written
  next exact =>
    split at written
    next => cases written
    next timestamp _ =>
      dsimp only at written
      split at written
      next valid =>
        split at written
        next fits =>
          obtain rfl := Except.ok.inj written
          exact ⟨Nat.le_of_not_lt fun late => exact (.inr late), valid, fits, timestamp, rfl⟩
        next => cases written
      next => cases written

theorem loadIntent_ok {world : AdmissionWorld} (isId : idValid id 64 = true)
    (valid : admissionValidate record id = .ok) (fits : world.size record = .ok) :
    loadIntent id world (.ok record) = .ok record := by
  rw [loadIntent, isId, if_neg (by simp), valid]
  dsimp only
  rw [fits]

namespace State

variable {state : State} {request : Request} {maxModelTurns : Nat} {world : SubmitWorld}
  {parent : Authority} {selection : Selection} {endpoint : Endpoint}

theorem admission_bounded {agent runtime handle : Nat} {executionId timestamp : String}
    {link : ParentLink} (isConfig : endpoint.config.valid agent = true)
    (requested : state.Requested request maxModelTurns (some (runtime, id)))
    (offered : Offered state request maxModelTurns world parent selection endpoint)
    (exact : world.nowMs + request.timeoutMs ≤ maxExactInteger) :
    ((buildTask handle request maxModelTurns (some id) world parent selection).admission request
      endpoint.config link id executionId timestamp).Bounded := by
  have bounds := Request.bounds_of_valid requested.valid
  obtain ⟨priceIn, priceOut⟩ := EndpointConfig.prices_le isConfig
  have isId : idValid id 64 = true := by
    have host := requested.host
    simp only [hostRefused, Option.any_some, Bool.or_eq_false_iff, Bool.not_eq_false'] at host
    exact host.1
  have endpointId : idValid endpoint.config.id 64 = true := by
    simp only [EndpointConfig.valid, Bool.and_eq_true] at isConfig
    exact isConfig.1.1.1.1.1.1.1.1.1.1.1.1
  have affordable : selection.cost ≤ request.budgetMicros := by
    have serves := offered.serves
    simp only [State.serves, Bool.and_eq_true, decide_eq_true_eq] at serves
    rw [offered.cost]
    exact serves.2
  have inTime := bounds.heartbeat.2
  exact {
    admissionId := isId
    endpoint := endpointId
    threadId := bounds.threadId
    difficulty := bounds.difficulty
    capabilities := bounds.capabilities
    inputTokens := bounds.inputTokens
    outputTokens := bounds.outputTokens
    inputPrice := priceIn
    outputPrice := priceOut
    turns := requested.turns
    heartbeat := ⟨bounds.heartbeat.1, Nat.add_le_add_left inTime _⟩
    deadline := Nat.add_le_add_left bounds.timeout.2 _
    exact
    estimated := offered.cost
    affordable
    budget := bounds.budget }

/-- The record of the task of a choice: a text alone can have it refused, the check computes the
cost of the choice, and a record that is written is loaded as it is. -/
structure IntentKept (request : Request) (task : Task) (config : EndpointConfig) (id : String)
    (cost : Nat) : Prop where
  accepted (link : ParentLink) (executionId timestamp : String) :
    task.deadlineMs ≤ maxExactInteger →
      (admissionValidate (task.admission request config link id executionId timestamp).json id =
          .ok ↔ (task.admission request config link id executionId timestamp).Fits) ∧
      (admissionExpected (task.admission request config link id executionId timestamp).json).toNat =
        cost
  written (link : ParentLink) (executionId : String) (world : AdmissionWorld) (record : Json) :
    task.admissionWrite request config link id executionId world = .ok record →
      admissionValidate record id = .ok ∧ (admissionExpected record).toNat = cost ∧
        loadIntent id world (.ok record) = .ok record

theorem intent_kept {agent runtime handle : Nat} (isConfig : endpoint.config.valid agent = true)
    (requested : state.Requested request maxModelTurns (some (runtime, id)))
    (offered : Offered state request maxModelTurns world parent selection endpoint) :
    IntentKept request (buildTask handle request maxModelTurns (some id) world parent selection)
      endpoint.config id selection.cost where
  accepted link executionId timestamp exact := by
    have bounded : ((buildTask handle request maxModelTurns (some id) world parent
        selection).admission request endpoint.config link id executionId timestamp).Bounded :=
      admission_bounded isConfig requested offered exact
    exact ⟨bounded.validate_iff, bounded.cost⟩
  written link executionId writing record written := by
    obtain ⟨exact, valid, fits, timestamp, rfl⟩ := Task.admissionWrite_ok written
    have bounded : ((buildTask handle request maxModelTurns (some id) world parent
        selection).admission request endpoint.config link id executionId timestamp).Bounded :=
      admission_bounded isConfig requested offered exact
    exact ⟨valid, bounded.cost, loadIntent_ok bounded.admissionId valid fits⟩

/-- A submission chooses the first endpoint of least cost, is busy exactly when the lane is closed
or all endpoints that could serve it are, computes in range, and has a record that is kept. -/
theorem submit_routes {configs : List EndpointConfig} {authorityAgent authorityRegistry : Nat}
    {initial : State}
    (created : State.create configs authorityAgent authorityRegistry = .ok initial)
    (state : State) (same : state.endpoints.map (·.config) = configs) (request : Request)
    (maxModelTurns : Nat) (admission : Option (Nat × String))
    (requested : state.Requested request maxModelTurns admission) (world : SubmitWorld) :
    ((state.submit request maxModelTurns admission world).1 = .ok →
      ∃ parent selection, state.checkAdmission request maxModelTurns world = .ok parent ∧
        state.Optimal request maxModelTurns world parent selection ∧
        (state.submit request maxModelTurns admission world).2.tasks =
          buildTask state.nextHandle request maxModelTurns (admission.map (·.2)) world parent
            selection :: state.tasks) ∧
    ((state.submit request maxModelTurns admission world).1 = .ebusy ↔
      state.LaneClosed maxModelTurns ∨
      ∃ parent, state.checkAdmission request maxModelTurns world = .ok parent ∧
        ((∀ selection endpoint,
            ¬Offered state request maxModelTurns world parent selection endpoint) ∧
          (∃ endpoint ∈ state.endpoints, endpoint.busy = true ∧
            serves request maxModelTurns endpoint.config = true ∧
            (maxModelTurns ≠ 0 → endpoint.config.registry = state.authorityRegistry)) ∨
        (∃ selection endpoint,
            Offered state request maxModelTurns world parent selection endpoint) ∧
          request.timeoutMs ≤ uint64Max - world.nowMs ∧
          (world.built = .ebusy ∨ world.built = .ok ∧ world.started = .ebusy))) ∧
    (∀ config ∈ configs, (taskCost config request maxModelTurns).toNat =
      estimatedCost config request * chargedTurns maxModelTurns) ∧
    ∀ runtime id parent selection endpoint, admission = some (runtime, id) →
      Offered state request maxModelTurns world parent selection endpoint →
        IntentKept request (buildTask state.nextHandle request maxModelTurns (some id) world parent
          selection) endpoint.config id selection.cost := by
  obtain ⟨valid, -⟩ := create_eq created
  have turns : maxModelTurns ≤ maxModelTurnsLimit := by
    by_cases loop : maxModelTurns = 0
    · rw [loop]
      exact Nat.zero_le _
    · exact (requested.turns loop).2.1
  refine ⟨submit_optimal requested.host, submit_busy requested, ?_, ?_⟩
  · exact fun config member => taskCost_toNat (valid config member) requested.valid turns
  · rintro runtime id parent selection endpoint rfl offered
    have member : endpoint.config ∈ configs := by
      rw [← same]
      exact List.mem_map_of_mem (List.mem_of_getElem? offered.there)
    exact intent_kept (valid _ member) requested offered

/-- An endpoint with a registry of its own, and one that costs more and has the registry of the
authority. -/
def registryConfigs : List EndpointConfig :=
  [⟨"cheap", 1, 1, 9, "model", "provider", 3, 7, 100, 1000, 1000, 1, 1⟩,
    ⟨"own", 2, 2, 0, "model", "provider", 3, 7, 100, 1000, 1000, 1000000, 1000000⟩]

/-- The router over these endpoints, of which some are busy. -/
def registryRouter (busy : Bool) : State :=
  ⟨registryConfigs.map fun config => ⟨config, busy && config.registry == 9⟩, 0, 0, 1, 0, [], [], 0⟩

theorem registryRouter_created :
    State.create registryConfigs 0 0 = .ok (registryRouter false) := by
  decide +kernel

theorem registryRouter_requested (busy : Bool) (admission : Option (Nat × String))
    (host : (registryRouter busy).hostRefused admission = false) :
    (registryRouter busy).Requested sampleRequest 2 admission where
  host
  valid := by decide +kernel
  turns _ := by decide +kernel

theorem submit_routes_sample :
    ((registryRouter false).submit sampleRequest 2 (some (7, "intent")) sampleWorld).1 = .ok ∧
    (((registryRouter false).submit sampleRequest 2 (some (7, "intent")) sampleWorld).1 = .ok →
      ∃ parent selection, (registryRouter false).checkAdmission sampleRequest 2 sampleWorld =
          .ok parent ∧
        (registryRouter false).Optimal sampleRequest 2 sampleWorld parent selection ∧
        ((registryRouter false).submit sampleRequest 2 (some (7, "intent")) sampleWorld).2.tasks =
          [buildTask 0 sampleRequest 2 (some "intent") sampleWorld parent selection]) :=
  ⟨by decide +kernel, (submit_routes registryRouter_created (registryRouter false) rfl
    sampleRequest 2 (some (7, "intent")) (registryRouter_requested false _ (by decide +kernel))
    sampleWorld).1⟩

/-- A loop passes over a cheaper endpoint with another registry, and a busy endpoint closes the
lane of the loops whatever else is idle. -/
theorem submit_passes_over :
    (¬∀ configs authorityAgent authorityRegistry initial,
      State.create configs authorityAgent authorityRegistry = .ok initial →
      ∀ state : State, state.endpoints.map (·.config) = configs →
      ∀ request maxModelTurns, state.Requested request maxModelTurns none → ∀ world,
        (state.submit request maxModelTurns none world).1 = .ok →
        ∀ task ∈ (state.submit request maxModelTurns none world).2.tasks.head?,
        ∀ endpoint index child, state.endpoints[index]? = some endpoint → endpoint.busy = false →
          serves request maxModelTurns endpoint.config = true →
          world.childAuthority index = some child →
          child.capabilityMask &&& task.parentAuthority.capabilityMask = child.capabilityMask →
            task.estimatedMicros ≤
              estimatedCost endpoint.config request * chargedTurns maxModelTurns) ∧
    ¬∀ configs authorityAgent authorityRegistry initial,
      State.create configs authorityAgent authorityRegistry = .ok initial →
      ∀ state : State, state.endpoints.map (·.config) = configs →
      ∀ request maxModelTurns, state.Requested request maxModelTurns none → ∀ world,
        (state.submit request maxModelTurns none world).1 = .ebusy →
          ∀ parent, world.parentAuthority = some parent → ∀ selection endpoint,
            ¬Offered state request maxModelTurns world parent selection endpoint := by
  constructor
  · intro least
    have task : ∃ task,
        ((registryRouter false).submit sampleRequest 2 none sampleWorld).2.tasks.head? = some task ∧
          task.estimatedMicros = 40 ∧ task.parentAuthority = ⟨4, 1⟩ :=
      ⟨_, rfl, by decide +kernel, by decide +kernel⟩
    obtain ⟨task, isTask, cost, parent⟩ := task
    have cheaper := least registryConfigs 0 0 _ rfl (registryRouter false) rfl sampleRequest 2
      (registryRouter_requested false none rfl) sampleWorld (by decide +kernel) task isTask
      ⟨⟨"cheap", 1, 1, 9, "model", "provider", 3, 7, 100, 1000, 1000, 1, 1⟩, false⟩ 0 ⟨0, 1⟩ rfl rfl
      (by decide +kernel) rfl (by rw [parent]; decide)
    rw [cost] at cheaper
    exact absurd cheaper (by decide +kernel)
  · intro refused
    refine refused registryConfigs 0 0 _ rfl (registryRouter true) rfl sampleRequest 2
      (registryRouter_requested true none rfl) sampleWorld (by decide +kernel) ⟨4, 1⟩ rfl
      ⟨1, ⟨0, 1⟩, 40⟩
      ⟨⟨"own", 2, 2, 0, "model", "provider", 3, 7, 100, 1000, 1000, 1000000, 1000000⟩, false⟩
      ⟨rfl, by decide +kernel, fun _ => rfl, rfl, rfl, by decide, by decide +kernel⟩

end State

end TurboAgent.Router
