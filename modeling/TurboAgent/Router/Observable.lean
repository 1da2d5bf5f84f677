import TurboAgent.Router.Observation

/-!
# Every task can be observed

The rules that the check of an observation imposes across fields are invariants of a task:
submission establishes them, and every later change of the task keeps them.  The one value
that no call controls is the failure kind of the final state of a run.
-/

namespace TurboAgent.Router

/-- What every task keeps of the rules for observations. -/
structure Task.Sound (task : Task) : Prop where
  threadId : idValid task.threadId 64
  parentRunId : task.parentRunId ≠ ""
  estimated_le : task.estimatedMicros ≤ task.budgetMicros
  budget_le : task.budgetMicros ≤ maxExactInteger
  started_lt : task.startedMs < task.deadlineMs
  deadline_le : task.deadlineMs ≤ task.startedMs + 86400000
  turns : task.maxModelTurns = 0 ∨
    2 ≤ task.maxModelTurns ∧ task.maxModelTurns ≤ maxModelTurnsLimit
  started_le : task.startedMs ≤ task.heartbeatMs
  heartbeat_le : task.heartbeatMs ≤ task.observedMs
  observed_le : task.observedMs ≤ max maxExactInteger task.deadlineMs
  resumes : task.reviewResumes ≤ maxReviewResumes
  resumed : task.reviewResumes ≠ 0 → task.maxModelTurns ≠ 0
  identity : task.reviewResumes = 0 → task.identityExecution = none
  pendingLoop : task.pendingReview → task.maxModelTurns ≠ 0
  ended : task.execution.finished → task.execution.resultTaken = false →
    task.execution.status =
      (if task.execution.operationRc = .ok then statusFromSummary task.execution.summary
        else .failed) ∧
    (∀ summary, task.execution.summary = some summary →
      summary.threadId = task.threadId ∧ summary.parentAgentRunId = task.parentRunId)
  pending : task.execution.status = .interrupted → task.execution.resultTaken = false →
    task.pendingReview → (task.execution.summary.bind (·.checkpointId)).isSome

/-- What the hook of a tool loop leaves: a failure, or a task whose pending review has a
checkpoint. -/
theorem Task.loopComplete_cases (task : Task) (summary : Option Summary) (state : Option RunState) :
    ∃ rc checkpoint runId pending, task.loopComplete summary state = (rc, { task with
        reviewCheckpoint := checkpoint
        reviewRunId := runId
        pendingReview := pending }) ∧
      (rc ≠ .ok ∨ (pending = true → (summary.bind (·.checkpointId)).isSome)) := by
  fun_cases Task.loopComplete task summary state
  case case1 => exact ⟨_, _, _, _, rfl, .inl (by simp)⟩
  case case2 summary state waits _ =>
    refine ⟨_, _, _, _, rfl, .inr fun _ => ?_⟩
    cases stored : summary.checkpointId with
    | none => simp [stored] at waits
    | some checkpoint => simp [stored]
  case case3 => exact ⟨_, _, _, _, rfl, .inr (by simp)⟩
  case case4 => exact ⟨_, _, _, _, rfl, .inr (by simp)⟩

namespace Task.Sound

variable {task : Task}

/-- The end of a run keeps the fields that come from the submission and the host. -/
theorem published (sound : task.Sound) {checkpoint runId : Option String} {pending : Bool}
    {execution : Execution} (loop : pending → task.maxModelTurns ≠ 0)
    (ended : execution.finished → execution.resultTaken = false →
      execution.status =
        (if execution.operationRc = .ok then statusFromSummary execution.summary
          else .failed) ∧
      (∀ summary, execution.summary = some summary →
        summary.threadId = task.threadId ∧ summary.parentAgentRunId = task.parentRunId))
    (waits : execution.status = .interrupted → execution.resultTaken = false → pending →
      (execution.summary.bind (·.checkpointId)).isSome) :
    Task.Sound { task with
      reviewCheckpoint := checkpoint
      reviewRunId := runId
      pendingReview := pending
      execution := execution } :=
  { sound with
    pendingLoop := loop
    ended
    pending := waits }

theorem publish_ended (rc : Status) (report : Option RunReport) (state : Option RunState) :
    let execution := task.execution.publish rc (report.map task.summarize) state
    execution.finished → execution.resultTaken = false →
      execution.status =
        (if execution.operationRc = .ok then statusFromSummary execution.summary
          else .failed) ∧
      (∀ summary, execution.summary = some summary →
        summary.threadId = task.threadId ∧ summary.parentAgentRunId = task.parentRunId) := by
  intro execution _ _
  refine ⟨rfl, ?_⟩
  intro summary stored
  obtain ⟨given, -, rfl⟩ := Option.map_eq_some_iff.mp stored
  exact ⟨rfl, rfl⟩

theorem finish (sound : task.Sound) (rc : Status) (report : Option RunReport)
    (state : Option RunState) : (task.finish rc (report.map task.summarize) state).Sound := by
  rw [Task.finish]
  split
  next => exact sound
  split
  next hook =>
    have loop : task.maxModelTurns ≠ 0 := by simpa [Task.toolLoop] using hook.2
    obtain ⟨result, checkpoint, runId, pending, completed, outcome⟩ :=
      task.loopComplete_cases (report.map task.summarize) state
    rw [completed]
    refine sound.published (fun _ => loop) (publish_ended result report state) ?_
    intro interrupted _ waits
    rcases outcome with failed | kept
    · simp [Execution.publish, failed] at interrupted
    · exact kept waits
  next noHook =>
    refine sound.published sound.pendingLoop (publish_ended rc report state) ?_
    intro interrupted _ pending
    have loop : task.toolLoop = true := by simpa [Task.toolLoop] using sound.pendingLoop pending
    have failed : rc ≠ .ok := fun success => noHook ⟨success, loop⟩
    simp [Execution.publish, failed] at interrupted

theorem work (sound : task.Sound) :
    Task.Sound { task with execution := task.execution.work } := by
  by_cases queued : task.execution.status = .queued
  · have running : task.execution.work.status = .running := by simp [Execution.work, queued]
    exact { sound with
      ended := fun ended => by simp [Execution.finished, running, ExecutionStatus.terminal] at ended
      pending := fun interrupted => by simp [running] at interrupted }
  · have same : task.execution.work = task.execution := by simp [Execution.work, queued]
    rw [same]
    exact sound

theorem change (sound : task.Sound) {next : Task} (change : task.Change next) : next.Sound := by
  cases change with
  | work => exact sound.work
  | finish rc report state => exact sound.finish rc report state
  | cancelled => exact { sound with }
  | observed nowMs later exact =>
      exact { sound with
        heartbeat_le := Nat.le_trans sound.heartbeat_le later
        observed_le := Nat.le_trans exact (Nat.le_max_left _ _) }
  | lost => exact { sound with }
  | beat nowMs current =>
      exact { sound with
        started_le := by
          have first := sound.started_le
          have second := sound.heartbeat_le
          exact current ▸ Nat.le_trans first second
        heartbeat_le := Nat.le_of_eq current.symm }
  | taken =>
      exact { sound with
        ended := fun _ kept => by cases kept
        pending := fun _ kept => by cases kept }
  | reviewed approved world loop ended room inTime later =>
      have turns : task.maxModelTurns ≠ 0 := by simpa [Task.toolLoop] using loop
      have first := sound.started_le
      have second := sound.heartbeat_le
      exact { sound with
        started_le := Nat.le_trans (Nat.le_trans first second) later
        heartbeat_le := Nat.le_refl _
        observed_le := Nat.le_trans (Nat.le_of_lt inTime) (Nat.le_max_right _ _)
        resumes := room
        resumed := fun _ => turns
        identity := fun none => by cases none
        ended := fun ended => by cases ended
        pending := fun interrupted => by cases interrupted }
  | grouped group => exact { sound with }

theorem changes (sound : task.Sound) {next : Task} (changes : task.Changes next) : next.Sound := by
  induction changes with
  | refl => exact sound
  | tail _ step ih => exact ih.change step

end Task.Sound

namespace State

variable {state : State}

theorem checkAdmission_request {request : Request} {maxModelTurns : Nat} {world : SubmitWorld}
    {parent : Authority} (admitted : state.checkAdmission request maxModelTurns world = .ok parent) :
    request.valid = true ∧ (maxModelTurns = 0 ∨
      2 ≤ maxModelTurns ∧ maxModelTurns ≤ maxModelTurnsLimit) := by
  rw [State.checkAdmission] at admitted
  split at admitted
  next => cases admitted
  next valid =>
    split at admitted
    next => cases admitted
    split at admitted
    next => cases admitted
    next turns =>
      refine ⟨by simpa using valid, ?_⟩
      by_cases none : maxModelTurns = 0
      · exact .inl none
      · right
        constructor
        · exact Nat.le_of_not_lt fun few => turns ⟨none, .inl few⟩
        · exact Nat.le_of_not_lt fun many => turns ⟨none, .inr (.inl many)⟩

theorem buildTask_sound {request : Request} {maxModelTurns : Nat} {world : SubmitWorld}
    {parent : Authority} {selection : Selection} {busy : Bool}
    (admitted : state.checkAdmission request maxModelTurns world = .ok parent)
    (selected : state.select request maxModelTurns world parent = (some selection, busy))
    (handle : Nat) (admissionId : Option String) :
    (buildTask handle request maxModelTurns admissionId world parent selection).Sound := by
  obtain ⟨valid, turns⟩ := checkAdmission_request admitted
  obtain ⟨_, -, -, cost⟩ := select_chosen selected
  simp only [Request.valid, Bool.and_eq_true, decide_eq_true_eq] at valid
  obtain ⟨⟨⟨⟨⟨⟨⟨-, budget⟩, timeout⟩, timeoutBound⟩, -⟩, -⟩, thread⟩, parentRun⟩ := valid
  exact {
    threadId := thread
    parentRunId := parentRun
    estimated_le := cost
    budget_le := budget
    started_lt := Nat.lt_add_of_pos_right (Nat.pos_of_ne_zero timeout)
    deadline_le := Nat.add_le_add_left timeoutBound _
    turns
    started_le := Nat.le_refl _
    heartbeat_le := Nat.le_refl _
    observed_le := Nat.le_trans (Nat.le_add_right _ _) (Nat.le_max_right _ _)
    resumes := Nat.zero_le _
    resumed := fun some => absurd rfl some
    identity := fun _ => rfl
    pendingLoop := fun pending => by cases pending
    ended := fun ended => by cases ended
    pending := fun interrupted => by cases interrupted }

/-- The tasks of a router follow the rules, and its endpoints have identifiers. -/
structure Sound (state : State) : Prop where
  tasks : ∀ task ∈ state.tasks, task.Sound
  endpoints : ∀ endpoint ∈ state.endpoints, idValid endpoint.config.id 64

theorem setBusy_configs (index : Nat) (busy : Bool)
    (ids : ∀ endpoint ∈ state.endpoints, idValid endpoint.config.id 64) :
    ∀ endpoint ∈ (state.setBusy index busy).endpoints, idValid endpoint.config.id 64 := by
  intro endpoint member
  obtain ⟨position, found⟩ := List.mem_iff_getElem?.mp member
  simp only [setBusy, List.getElem?_modify] at found
  obtain ⟨before, there, changed⟩ := Option.map_eq_some_iff.mp found
  have kept : endpoint.config = before.config := by
    rw [← changed]
    split <;> rfl
  rw [kept]
  exact ids before (List.mem_of_getElem? there)

theorem Sound.change (sound : state.Sound) {next : State} (change : state.Change next) :
    next.Sound := by
  cases change with
  | task handle change allowed =>
      refine ⟨?_, sound.endpoints⟩
      intro task member
      obtain ⟨before, live, rfl⟩ := List.mem_map.mp member
      split
      next same => exact (sound.tasks before live).changes (allowed before live same)
      next => exact sound.tasks before live
  | groups groups => exact ⟨sound.tasks, sound.endpoints⟩
  | adopted handles groups =>
      refine ⟨?_, sound.endpoints⟩
      intro task member
      obtain ⟨before, live, rfl⟩ := List.mem_map.mp member
      split
      next => exact (sound.tasks before live).change (.grouped _)
      next => exact sound.tasks before live
  | limit limit => exact ⟨sound.tasks, sound.endpoints⟩
  | opened request maxModelTurns admissionId world parent selection busy admitted selected task
      built =>
      refine ⟨?_, setBusy_configs _ _ sound.endpoints⟩
      intro other member
      rcases List.mem_cons.mp member with rfl | live
      · rw [built]
        exact buildTask_sound admitted selected _ _
      · exact sound.tasks other live
  | closed task =>
      refine ⟨?_, setBusy_configs _ _ sound.endpoints⟩
      intro other member
      exact sound.tasks other (List.mem_filter.mp member).1

theorem create_sound {configs : List EndpointConfig} {authorityAgent authorityRegistry : Nat}
    (created : State.create configs authorityAgent authorityRegistry = .ok state) :
    state.Sound := by
  obtain ⟨valid, rfl⟩ := create_eq created
  refine ⟨?_, ?_⟩
  · intro _ member
    cases member
  · intro endpoint member
    obtain ⟨config, listed, rfl⟩ := List.mem_map.mp member
    have checked := valid config listed
    simp only [EndpointConfig.valid, Bool.and_eq_true] at checked
    exact checked.1.1.1.1.1.1.1.1.1.1.1.1

theorem run_sound {configs : List EndpointConfig} {authorityAgent authorityRegistry : Nat}
    (created : State.create configs authorityAgent authorityRegistry = .ok state)
    (calls : List Call) : (state.run calls).Sound :=
  (run_invariant State.Sound (fun _ _ _ sound change => sound.change change)
    (create_allocated created).2 (create_sound created) calls).2

end State

/-! ## The record of a task -/

/-- The identifiers, texts and times of a task are within the limits of a record. -/
structure Task.WithinLimits (task : Task) (config : EndpointConfig) : Prop where
  executionId : idValid task.execution.id 64
  taskId : idValid task.taskId 64
  parentRunId : noNul task.parentRunId ∧ task.parentRunId.length ≤ 128
  model : textValid config.model 1024
  provider : textValid config.provider 1024
  summary : ∀ summary, task.execution.summary = some summary →
    textValid summary.runId 128 ∧ textValid summary.status 128 ∧
      summary.checkpointId.all (textValid · 128)
  failureKind : ∀ kind, task.execution.state.bind (·.failureKind) = some kind →
    noNul kind ∧ kind.length ≤ 128
  deadline : task.deadlineMs ≤ maxExactInteger

/-- The final state of the run of a task has a cleared failure: its kind is the empty
text. -/
def Task.failureCleared (task : Task) : Prop :=
  task.execution.finished ∧ task.execution.state.bind (·.failureKind) = some ""

namespace Task

variable {task : Task} {config : EndpointConfig}

theorem Sound.observed_exact (sound : task.Sound) (limits : task.WithinLimits config) :
    task.observedMs ≤ maxExactInteger :=
  Nat.le_trans sound.observed_le (Nat.max_le.mpr ⟨Nat.le_refl _, limits.deadline⟩)

theorem observedSummary_of_finished (ended : task.execution.finished = true) :
    task.observedSummary = task.execution.summary := by
  rw [observedSummary, if_pos ended]

theorem observedSummary_of_running (running : task.execution.finished = false) :
    task.observedSummary = none := by
  simp [observedSummary, running]

theorem WithinLimits.observedSummary (limits : task.WithinLimits config) {summary : Summary}
    (stored : task.observedSummary = some summary) :
    textValid summary.runId 128 ∧ textValid summary.status 128 ∧
      summary.checkpointId.all (textValid · 128) := by
  rw [Task.observedSummary] at stored
  split at stored
  next => exact limits.summary summary stored
  next => cases stored

theorem Sound.summaryConforms (sound : task.Sound) (limits : task.WithinLimits config)
    (untaken : ¬(task.execution.finished ∧ task.execution.resultTaken)) :
    task.observedSummary.all task.summaryConforms = true := by
  cases ended : task.execution.finished with
  | false => simp [observedSummary_of_running ended]
  | true =>
      rw [observedSummary_of_finished ended]
      cases stored : task.execution.summary with
      | none => rfl
      | some summary =>
          have kept : task.execution.resultTaken = false := by
            simpa [ended] using untaken
          obtain ⟨runId, status, checkpoint⟩ := limits.summary summary stored
          obtain ⟨thread, parent⟩ := (sound.ended ended kept).2 summary stored
          have parentValid : textValid task.parentRunId 128 = true :=
            textValid_iff.mpr ⟨sound.parentRunId, limits.parentRunId⟩
          simp [Task.summaryConforms, runId, status, checkpoint, thread, parent, parentValid,
            textValid_of_idValid sound.threadId]

theorem Sound.observation_valid (codes : StatusCodes) (sound : task.Sound)
    (limits : task.WithinLimits config) (endpoint : idValid config.id 64)
    (untaken : ¬(task.execution.finished ∧ task.execution.resultTaken))
    (kept : ¬task.failureCleared) (authorityCurrent : Bool) {id timestamp : String}
    (idOk : idValid id 64) (timestampOk : textValid timestamp 31) :
    (task.observation codes config authorityCurrent id timestamp).Valid where
  observationId := idOk
  taskId := limits.taskId
  executionId := limits.executionId
  endpoint
  threadId := sound.threadId
  parentRunId := textValid_iff.mpr ⟨sound.parentRunId, limits.parentRunId⟩
  model := limits.model
  provider := limits.provider
  recordedAt := timestampOk
  runId := by
    show (task.observedSummary.map (·.runId)).all (textValid · 128) = true
    cases stored : task.observedSummary with
    | none => rfl
    | some summary => exact (limits.observedSummary stored).1
  checkpointId := by
    show (task.observedSummary.bind (·.checkpointId)).all (textValid · 128) = true
    cases stored : task.observedSummary with
    | none => rfl
    | some summary => exact (limits.observedSummary stored).2.2
  runtimeStatus := by
    show (task.observedSummary.map (·.status)).all (textValid · 128) = true
    cases stored : task.observedSummary with
    | none => rfl
    | some summary => exact (limits.observedSummary stored).2.1
  failureKind := by
    show (if task.execution.finished then task.execution.state.bind (·.failureKind)
      else none).all (textValid · 128) = true
    split
    next ended =>
      cases kind : task.execution.state.bind (·.failureKind) with
      | none => rfl
      | some text =>
          have nonempty : text ≠ "" := by
            rintro rfl
            exact kept ⟨ended, kind⟩
          exact textValid_iff.mpr ⟨nonempty, limits.failureKind text kind⟩
    next => rfl
  started_le := sound.started_le
  heartbeat_le := sound.heartbeat_le
  observed_le := sound.observed_exact limits
  started_lt := sound.started_lt
  deadline_le := sound.deadline_le
  deadline_exact := limits.deadline
  estimated_le := sound.estimated_le
  budget_le := sound.budget_le
  turns := sound.turns
  resumes := sound.resumes
  resumed := sound.resumed
  identity := by
    intro none
    show task.identityExecution.getD task.execution.id = task.execution.id
    rw [sound.identity none]
    rfl
  running := by
    intro running
    have unfinished : task.execution.finished = false := running
    simp [observation, unfinished, observedSummary_of_running unfinished]
  ended := by
    intro terminal
    have ended : task.execution.finished = true := terminal
    have available : task.execution.resultTaken = false := by simpa [ended] using untaken
    have summarized := observedSummary_of_finished ended
    have status := (sound.ended ended available).1
    refine ⟨codes.code task.execution.operationRc, by simp [observation, ended], codes.range _,
      ?_, by simp [observation], ?_, ?_, ?_⟩
    · intro failed
      show task.execution.status = .failed
      rw [status, if_neg (fun success => failed ((codes.zero _).mpr success))]
    · intro noStatus
      have absent : task.observedSummary = none := by simpa [observation] using noStatus
      simp [observation, absent]
    · intro success
      show task.execution.status = _
      rw [status, if_pos ((codes.zero _).mp success)]
      simp only [observation, summarized]
      cases task.execution.summary <;> rfl
    · intro waiting
      simp only [observation, ended, Bool.true_and, Bool.and_eq_true, decide_eq_true_eq] at waiting
      refine ⟨waiting.1.1, sound.pendingLoop waiting.1.2, ?_⟩
      have checkpoint := sound.pending waiting.1.1 available waiting.1.2
      simpa [observation, summarized] using checkpoint

theorem observation_failureKind (codes : StatusCodes) (config : EndpointConfig)
    (authorityCurrent : Bool) (id timestamp : String) (cleared : task.failureCleared) :
    (task.observation codes config authorityCurrent id timestamp).failureKind = some "" := by
  obtain ⟨ended, kind⟩ := cleared
  simpa [observation, ended] using kind

theorem Sound.observe_eq (codes : StatusCodes) (sound : task.Sound)
    (limits : task.WithinLimits config)
    (untaken : ¬(task.execution.finished ∧ task.execution.resultTaken)) (world : ObservationWorld)
    {id timestamp : String} (idOk : idValid id 64) (clock : world.timestamp = some timestamp) :
    let record := (task.observation codes config world.authorityCurrent id timestamp).json
    task.observe codes config world id =
      match observationValidate record id with
      | .ok =>
          match world.size record with
          | .ok => .ok record
          | status => .error status
      | status => .error status := by
  intro record
  have observed := sound.observed_exact limits
  have heartbeat := Nat.le_trans sound.heartbeat_le observed
  have started := Nat.le_trans sound.started_le heartbeat
  have times : ¬(maxExactInteger < task.startedMs ∨ maxExactInteger < task.observedMs ∨
      maxExactInteger < task.heartbeatMs ∨ maxExactInteger < task.deadlineMs) := by
    have deadline := limits.deadline
    omega
  have refused : ¬((!idValid id 64) = true) := by simp [idOk]
  have conforms : ¬((!task.observedSummary.all task.summaryConforms) = true) := by
    simp [sound.summaryConforms limits untaken]
  rewrite [Task.observe, if_neg refused, if_neg untaken, if_neg conforms, if_neg times, clock]
  rfl

end Task

/-- A task can be observed until its result is moved away, which leaves nothing to build a
record from.  Before that, the record of every task that a run of the router has reached
passes the check exactly when the final state of its run has no cleared failure, and then
only the size of the record or the store can refuse it. -/
theorem State.observation_validates_iff {configs : List EndpointConfig}
    {authorityAgent authorityRegistry : Nat} {router : State}
    (created : State.create configs authorityAgent authorityRegistry = .ok router)
    (calls : List Call) (codes : StatusCodes) (task : Task) (endpoint : Endpoint)
    (live : task ∈ (router.run calls).tasks)
    (there : (router.run calls).endpoints[task.endpoint]? = some endpoint)
    (limits : task.WithinLimits endpoint.config) (world : ObservationWorld)
    (host : Nat × String) (hostOk : (router.run calls).hostRefused (some host) = false)
    {timestamp : String} (clock : world.timestamp = some timestamp)
    (clockOk : textValid timestamp 31) (stored : Status) :
    let record :=
      (task.observation codes endpoint.config world.authorityCurrent host.2 timestamp).json
    if task.execution.finished ∧ task.execution.resultTaken then
      task.observe codes endpoint.config world host.2 = .error .ealready
    else
      (observationValidate record host.2 = .ok ↔ ¬task.failureCleared) ∧
        (¬task.failureCleared → world.size record = .ok →
          (router.run calls).recordObservation codes task endpoint.config world host stored =
            stored) := by
  intro record
  have sound := State.run_sound created calls
  have taskSound := sound.tasks task live
  have idOk : idValid host.2 64 = true := by
    have checked := hostOk
    simp only [State.hostRefused, Option.any_some, Bool.or_eq_false_iff, Bool.not_eq_false']
      at checked
    exact checked.1
  split
  next taken =>
    have refused : ¬((!idValid host.2 64) = true) := by simp [idOk]
    rw [Task.observe, if_neg refused, if_pos taken]
  next untaken =>
    have validates : ¬task.failureCleared → observationValidate record host.2 = .ok := fun kept =>
      (taskSound.observation_valid codes limits
        (sound.endpoints endpoint (List.mem_of_getElem? there)) untaken kept
        world.authorityCurrent idOk clockOk).validate
    refine ⟨⟨?_, validates⟩, ?_⟩
    · intro passed cleared
      exact Observation.validate_empty_kind
        (Task.observation_failureKind codes endpoint.config world.authorityCurrent host.2
          timestamp cleared) host.2 passed
    · intro kept fits
      have built := taskSound.observe_eq codes limits untaken world idOk clock
      simp only [validates kept, record, fits] at built
      simp [State.recordObservation, hostOk, built]

def sampleCodes : StatusCodes where
  code status := if status = .ok then 0 else -1
  zero status := by by_cases success : status = .ok <;> simp [success]
  range status := by by_cases success : status = .ok <;> simp [success, intMin, intMax]

/-- A submission and a run that ends with the given failure kind. -/
def sampleCalls (failureKind : Option String) : List Call :=
  [.submit State.sampleRequest 0 none State.sampleWorld, .work 0,
    .finish 0 .ok (some ⟨"run_1", "completed", none⟩) (some ⟨none, false, failureKind, 0, some "done"⟩)]

def sampleTask (failureKind : Option String) : Task :=
  { State.buildTask 0 State.sampleRequest 0 none State.sampleWorld ⟨4, 1⟩ ⟨0, ⟨0, 1⟩, 2⟩ with
    execution := ⟨"execution", .completed, .ok,
      some ⟨"thread", "run", "run_1", "completed", none⟩,
      some ⟨none, false, failureKind, 0, some "done"⟩, false⟩ }

/-- A world with a clock, for records of the length of the sample. -/
def sampleObservationWorld : ObservationWorld :=
  ⟨some "2026-01-01T00:00:00Z", true, fun _ => some 750⟩

theorem sampleTask_limits {failureKind : Option String}
    (short : ∀ kind, failureKind = some kind → noNul kind ∧ kind.length ≤ 128) :
    (sampleTask failureKind).WithinLimits State.sampleConfig where
  executionId := by
    show idValid "execution" 64 = true
    decide +kernel
  taskId := by
    show idValid "execution" 64 = true
    decide +kernel
  parentRunId := by
    show noNul "run" = true ∧ "run".length ≤ 128
    decide +kernel
  model := by decide +kernel
  provider := by decide +kernel
  summary := by
    intro summary stored
    cases stored
    decide +kernel
  failureKind := by
    intro kind stored
    exact short kind stored
  deadline := by
    show 1005 ≤ maxExactInteger
    decide

theorem sampleRouter_created :
    State.create [State.sampleConfig] 0 0 = .ok State.sampleRouter := rfl

/-- The run of the sample task completes and its record can be stored. -/
theorem State.observation_validates_sample :
    ∃ task ∈ (State.sampleRouter.run (sampleCalls none)).tasks,
      (State.sampleRouter.run (sampleCalls none)).recordObservation sampleCodes task
        State.sampleConfig sampleObservationWorld (7, "first") .ok = .ok := by
  have live : sampleTask none ∈ (State.sampleRouter.run (sampleCalls none)).tasks := by
    decide +kernel
  have observed := State.observation_validates_iff sampleRouter_created (sampleCalls none)
    sampleCodes (sampleTask none) ⟨State.sampleConfig, true⟩ live (by decide +kernel)
    (sampleTask_limits (by simp)) sampleObservationWorld (7, "first") (by decide +kernel) rfl
    (by decide +kernel) .ok
  rw [if_neg (by decide +kernel)] at observed
  refine ⟨sampleTask none, live, observed.2 ?_ (by decide +kernel)⟩
  rintro ⟨-, cleared⟩
  cases cleared

/-- A run whose final state has a cleared failure: the host set the kind to the empty text,
the run completed, and the record of the task is refused. -/
theorem State.observation_refused :
    ∃ task ∈ (State.sampleRouter.run (sampleCalls (some ""))).tasks,
      task.execution.status = .completed ∧ task.WithinLimits State.sampleConfig ∧
      observationValidate (task.observation sampleCodes State.sampleConfig true "first"
        "2026-01-01T00:00:00Z").json "first" = .eproto ∧
      (State.sampleRouter.run (sampleCalls (some ""))).recordObservation sampleCodes task
        State.sampleConfig sampleObservationWorld (7, "first") .ok = .eproto := by
  refine ⟨sampleTask (some ""), by decide +kernel, rfl, ?_, by decide +kernel,
    by decide +kernel⟩
  apply sampleTask_limits
  intro kind stored
  cases stored
  decide +kernel

end TurboAgent.Router
