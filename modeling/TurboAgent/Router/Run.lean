import TurboAgent.Router.Handover

/-!
# Runs of a router

A run is a sequence of calls of the host and steps of the workers.  Every call is a
sequence of elementary changes: a change of one task, the opening of a task by a
submission, the closing of a task by a release, a change of the groups or of the limit.
Invariants of runs are proved on these changes, and the calls are unfolded only here.
-/

namespace TurboAgent.Router

/-! ## Calls -/

/-- What happens to a router: a call of the host with what it learns from outside, or a
step of a worker. -/
inductive Call where
  | setToolTaskLimit (limit : Nat)
  | submit (request : Request) (maxModelTurns : Nat) (admission : Option (Nat × String))
      (world : State.SubmitWorld)
  | submitToolLoop (request : Request) (maxModelTurns : Nat) (world : State.SubmitWorld)
  | review (task : Nat) (approved : Bool) (intent : Option (Nat × String)) (world : ReviewWorld)
  | cancel (task : Nat) (signalled : Status)
  | poll (task nowMs : Nat) (cancelled : Status)
  | heartbeat (task nowMs : Nat) (cancelled : Status)
  | takeResult (task : Nat) (authorityCurrent : Bool) (recorded : Status)
  | release (task : Nat)
  | adoptGroup (id : String) (tasks : List Nat) (allocated : Bool)
  | pollGroup (group nowMs : Nat) (world : State.GroupWorld)
  | heartbeatGroup (group index nowMs : Nat) (world : State.GroupWorld)
  | cancelGroup (group : Nat)
  | takeGroupResults (group capacity : Nat) (host : Option (Nat × String))
      (authorityCurrent : Nat → Bool) (recorded : Status)
  | buildGroupInput (group : Nat) (hostTask : String) (host : Option (Nat × String))
      (world : State.BuildWorld)
  | releaseGroup (group : Nat)
  | work (task : Nat)
  | finish (task : Nat) (rc : Status) (report : Option RunReport) (state : Option RunState)

def Call.submits : Call → Bool
  | .submit .. | .submitToolLoop .. => true
  | _ => false

/-- One call or step of a worker. -/
def State.perform (state : State) : Call → Status × State
  | .setToolTaskLimit limit => state.setToolTaskLimit limit
  | .submit request maxModelTurns admission world =>
      state.submit request maxModelTurns admission world
  | .submitToolLoop request maxModelTurns world =>
      state.submitToolLoop request maxModelTurns world
  | .review task approved intent world => state.reviewTask task approved intent world
  | .cancel task signalled => state.onTask task (·.cancel signalled)
  | .poll task nowMs cancelled => state.onTask task (·.poll nowMs cancelled)
  | .heartbeat task nowMs cancelled => state.onTask task (·.heartbeat nowMs cancelled)
  | .takeResult task authorityCurrent recorded =>
      state.onTask task (·.takeResult authorityCurrent recorded)
  | .release task => state.releaseTask task
  | .adoptGroup id tasks allocated => state.adoptGroup id tasks allocated
  | .pollGroup group nowMs world => state.pollGroup group nowMs world
  | .heartbeatGroup group index nowMs world => state.heartbeatGroup group index nowMs world
  | .cancelGroup group => state.cancelGroup group
  | .takeGroupResults group capacity host authorityCurrent recorded =>
      let taken := state.takeResults group capacity host authorityCurrent recorded
      (taken.status, taken.state)
  | .buildGroupInput group hostTask host world =>
      let built := state.buildInput group hostTask host world
      (built.1, built.2.2)
  | .releaseGroup group => state.releaseGroup group
  | .work task => state.onTask task fun task =>
      (.ok, { task with execution := task.execution.work })
  | .finish task rc report result => state.onTask task fun task =>
      (.ok, task.finish rc (report.map task.summarize) result)

/-- A router after a sequence of calls. -/
def State.run (state : State) (calls : List Call) : State :=
  calls.foldl (fun state call => (state.perform call).2) state

/-! ## Changes of a task -/

/-- An elementary change of a task. -/
inductive Task.Change (task : Task) : Task → Prop where
  /-- The worker takes the execution up. -/
  | work : Change task { task with execution := task.execution.work }
  /-- The worker publishes the end of the run. -/
  | finish (rc : Status) (report : Option RunReport) (state : Option RunState)
      (running : task.execution.finished = false) :
      Change task (task.finish rc (report.map task.summarize) state)
  /-- A pending review is cancelled. -/
  | cancelled (loop : task.toolLoop) (interrupted : task.execution.status = .interrupted)
      (pending : task.pendingReview) : Change task { task with reviewCancelled := true }
  /-- The host observes the task. -/
  | observed (nowMs : Nat) (later : task.observedMs ≤ nowMs) (exact : nowMs ≤ maxExactInteger) :
      Change task { task with observedMs := nowMs }
  /-- The host gives the task up. -/
  | lost : Change task { task with unresponsive := true }
  /-- A heartbeat at the time of the last observation. -/
  | beat (nowMs : Nat) (current : task.observedMs = nowMs) :
      Change task { task with heartbeatMs := nowMs }
  /-- The execution gives its result away. -/
  | taken : Change task { task with
      taken := true
      execution := { task.execution with summary := none, state := none, resultTaken := true } }
  /-- A review starts the next execution. -/
  | reviewed (approved : Bool) (world : ReviewWorld) (loop : task.toolLoop)
      (ended : task.execution.finished)
      (room : task.reviewResumes < maxReviewResumes) (inTime : world.nowMs < task.deadlineMs)
      (later : task.observedMs ≤ world.nowMs) :
      Change task { task with
        reviewCancelled := !approved
        execution := .queue world.executionId
        identityExecution := some (task.identityExecution.getD task.execution.id)
        reviewResumes := task.reviewResumes + 1
        taken := false
        heartbeatMs := world.nowMs
        observedMs := world.nowMs }
  /-- The task joins or leaves a group. -/
  | grouped (group : Option Nat) : Change task { task with group }

/-- A sequence of changes of a task. -/
abbrev Task.Changes : Task → Task → Prop :=
  Relation.ReflTransGen Task.Change

/-- What a task keeps from its submission to its release. -/
structure Submission where
  (handle endpoint deadlineMs maxModelTurns : Nat)
  (threadId parentRunId : String)
  (startedMs estimatedMicros budgetMicros : Nat)

/-- What a task keeps from its submission to its release. -/
def Task.submission (task : Task) : Submission :=
  ⟨task.handle, task.endpoint, task.deadlineMs, task.maxModelTurns, task.threadId,
    task.parentRunId, task.startedMs, task.estimatedMicros, task.budgetMicros⟩

namespace Task

variable (task : Task)

theorem loopComplete_submission (summary : Option Summary) (state : Option RunState) :
    (task.loopComplete summary state).2.submission = task.submission := by
  fun_cases loopComplete task summary state <;> rfl

theorem finish_submission (rc : Status) (summary : Option Summary) (state : Option RunState) :
    (task.finish rc summary state).submission = task.submission := by
  rw [finish]
  split
  next => rfl
  split
  next => exact task.loopComplete_submission summary state
  next => rfl

theorem Change.submission {task next : Task} (change : task.Change next) :
    next.submission = task.submission := by
  cases change with
  | finish rc report state => exact task.finish_submission rc (report.map task.summarize) state
  | _ => rfl

theorem Changes.submission {task next : Task} (changes : task.Changes next) :
    next.submission = task.submission := by
  induction changes with
  | refl => rfl
  | tail _ change ih => exact change.submission.trans ih

theorem cancel_changes (signalled : Status) : Changes task (task.cancel signalled).2 := by
  rw [cancel]
  split
  next => exact .refl
  split
  next pending => exact .single (.cancelled pending.1 pending.2.1 pending.2.2)
  next => exact .refl

theorem pollInternal_changes (nowMs : Nat) (cancelled : Status) :
    Changes task (task.pollInternal nowMs cancelled).2 := by
  rw [pollInternal]
  split
  next => exact .refl
  next inside =>
    have observed : Changes task { task with observedMs := nowMs } := by
      refine .single (.observed nowMs ?_ ?_)
      · exact Nat.le_of_not_lt fun early => inside (.inl early)
      · exact Nat.le_of_not_lt fun late => inside (.inr late)
    dsimp only
    split
    next => exact observed
    split
    next => exact observed
    split
    next => exact observed
    next => exact observed.tail .lost

theorem poll_changes (nowMs : Nat) (cancelled : Status) :
    Changes task (task.poll nowMs cancelled).2 := by
  rw [poll]
  split
  next => exact .refl
  next => exact task.pollInternal_changes nowMs cancelled

/-- A poll that reports success has observed the task. -/
theorem pollInternal_observed {nowMs : Nat} {cancelled : Status}
    (polled : (task.pollInternal nowMs cancelled).1 = .ok) :
    (task.pollInternal nowMs cancelled).2.observedMs = nowMs := by
  fun_cases pollInternal task nowMs cancelled
  case case1 refused => simp [pollInternal, refused] at polled
  all_goals rfl

theorem pollInternal_handle (nowMs : Nat) (cancelled : Status) :
    (task.pollInternal nowMs cancelled).2.handle = task.handle :=
  congrArg Submission.handle (task.pollInternal_changes nowMs cancelled).submission

/-- A second poll at the same time leaves the time of the observation. -/
theorem pollInternal_again {nowMs : Nat} (observed : task.observedMs = nowMs)
    (cancelled : Status) : (task.pollInternal nowMs cancelled).2.observedMs = nowMs := by
  fun_cases pollInternal task nowMs cancelled
  case case1 => exact observed
  all_goals rfl

theorem poll_observed {nowMs : Nat} {cancelled : Status}
    (polled : (task.poll nowMs cancelled).1 = .ok) :
    (task.poll nowMs cancelled).2.observedMs = nowMs := by
  rw [poll] at polled ⊢
  split
  next grouped => simp [grouped] at polled
  next grouped =>
    rw [if_neg grouped] at polled
    exact task.pollInternal_observed polled

theorem heartbeat_changes (nowMs : Nat) (cancelled : Status) :
    Changes task (task.heartbeat nowMs cancelled).2 := by
  have polled := task.poll_changes nowMs cancelled
  have observed := @task.poll_observed nowMs cancelled
  rw [heartbeat]
  split
  next after result =>
    rw [result] at polled observed
    split
    next => exact polled
    next => exact polled.tail (.beat nowMs (observed rfl))
  next status after _ result =>
    rw [result] at polled
    exact polled

theorem takeResult_changes (authorityCurrent : Bool) (recorded : Status) :
    Changes task (task.takeResult authorityCurrent recorded).2 := by
  fun_cases takeResult task authorityCurrent recorded
  case case8 => exact .single .taken
  all_goals exact .refl

theorem review_changes (approved : Bool) (world : ReviewWorld) :
    Changes task (task.review approved world).2 := by
  fun_cases review task approved world
  case case10 loop ended _ _ _ room inTime _ _ =>
    refine .single (.reviewed approved world ?_ ?_ ?_ ?_ ?_)
    · simpa using loop
    · simpa using ended
    · exact Nat.lt_of_not_le room
    · exact Nat.lt_of_not_le fun late => inTime (.inl late)
    · exact Nat.le_of_not_lt fun early => inTime (.inr early)
  all_goals exact .refl

theorem finish_changes (rc : Status) (report : Option RunReport) (state : Option RunState) :
    Changes task (task.finish rc (report.map task.summarize) state) := by
  cases running : task.execution.finished
  case false => exact .single (.finish rc report state running)
  case true =>
    rw [finish, if_pos running]

end Task

/-! ## Changes of a router -/

namespace State

/-- An elementary change of a router. -/
inductive Change (state : State) : State → Prop where
  /-- The task of a handle changes. -/
  | task (handle : Nat) (change : Task → Task)
      (allowed : ∀ task ∈ state.tasks, task.handle = handle → task.Changes (change task)) :
      Change state (state.updateTask handle change)
  /-- The groups change. -/
  | groups (groups : List Group) : Change state { state with groups }
  /-- A group takes tasks over. -/
  | adopted (handles : List Nat) (groups : List Group) :
      Change state { state with
        tasks := state.tasks.map fun task =>
          if task.handle ∈ handles then { task with group := some state.nextHandle } else task
        groups
        nextHandle := state.nextHandle + 1 }
  /-- A new limit while no endpoint is busy. -/
  | limit (limit : Nat) (positive : 0 < limit) (idle : state.anyBusy = false) :
      Change state { state with toolTaskLimit := limit }
  /-- A submission opens a task. -/
  | opened (request : Request) (maxModelTurns : Nat) (admissionId : Option String)
      (world : SubmitWorld) (parent : Authority) (selection : Selection) (busy : Bool)
      (admitted : state.checkAdmission request maxModelTurns world = .ok parent)
      (selected : state.select request maxModelTurns world parent = (some selection, busy))
      (task : Task) (built : task = buildTask state.nextHandle request maxModelTurns admissionId
        world parent selection) :
      Change state { state.setBusy task.endpoint true with
        toolTaskCount := if task.toolLoop then state.toolTaskCount + 1 else state.toolTaskCount
        tasks := task :: state.tasks
        nextHandle := state.nextHandle + 1 }
  /-- A release closes a task. -/
  | closed (task : Task) (found : state.task? task.handle = some task)
      (ended : task.execution.finished) :
      Change state { state.setBusy task.endpoint false with
        toolTaskCount := if task.toolLoop then state.toolTaskCount - 1 else state.toolTaskCount
        tasks := state.tasks.filter fun other => other.handle ≠ task.handle }

abbrev Changes : State → State → Prop :=
  Relation.ReflTransGen Change

variable {state : State} {handle : Nat}

theorem task?_eq_some {task : Task} (found : state.task? handle = some task) :
    task ∈ state.tasks ∧ task.handle = handle := by
  have same := List.find?_some found
  exact ⟨List.mem_of_find?_eq_some found, by simpa using same⟩

theorem updateTask_changes (handle : Nat) {change : Task → Task}
    (allowed : ∀ task : Task, task.Changes (change task)) :
    state.Changes (state.updateTask handle change) :=
  .single (.task handle change fun task _ _ => allowed task)

theorem onTask_changes (handle : Nat) {change : Task → Status × Task}
    (allowed : ∀ task : Task, task.Changes (change task).2) :
    state.Changes (state.onTask handle change).2 := by
  rw [onTask]
  split
  next => exact .refl
  next => exact updateTask_changes handle allowed

/-- An endpoint that the loop over the endpoints may keep: idle and within the budget. -/
def Chosen (state : State) (request : Request) (selection : Selection) : Prop :=
  ∃ endpoint, state.endpoints[selection.index]? = some endpoint ∧ endpoint.busy = false ∧
    selection.cost ≤ request.budgetMicros

theorem consider_chosen (request : Request) (maxModelTurns : Nat) (world : SubmitWorld)
    (parent : Authority) (candidates : List (Endpoint × Nat))
    (listed : ∀ candidate ∈ candidates, state.endpoints[candidate.2]? = some candidate.1)
    (best : Option Selection × Bool)
    (chosen : ∀ selection, best.1 = some selection → state.Chosen request selection) :
    ∀ selection,
      (candidates.foldl (state.consider request maxModelTurns world parent) best).1 =
        some selection → state.Chosen request selection := by
  induction candidates generalizing best with
  | nil => exact chosen
  | cons candidate candidates ih =>
      apply ih (fun other member => listed other (List.mem_cons_of_mem _ member))
      have here := listed candidate List.mem_cons_self
      intro selection
      fun_cases State.consider
      case case5 serves notBusy _ _ _ _ _ =>
        intro found
        cases found
        have within : state.qualified request maxModelTurns candidate.1.config = true := by
          simpa using serves
        simp only [qualified, Bool.and_eq_true, decide_eq_true_eq] at within
        exact ⟨candidate.1, here, by simpa using notBusy, within.2⟩
      all_goals exact chosen selection

theorem select_chosen {request : Request} {maxModelTurns : Nat} {world : SubmitWorld}
    {parent : Authority} {selection : Selection} {busy : Bool}
    (selected : state.select request maxModelTurns world parent = (some selection, busy)) :
    state.Chosen request selection := by
  apply consider_chosen request maxModelTurns world parent state.endpoints.zipIdx _ (none, false)
    (by simp) selection
  · show (state.select request maxModelTurns world parent).1 = some selection
    rw [selected]
  · intro candidate member
    exact List.mk_mem_zipIdx_iff_getElem?.mp member

/-- Clearing the flag that was just set gives the endpoints back. -/
theorem setBusy_setBusy_endpoints {index : Nat} {endpoint : Endpoint}
    (there : state.endpoints[index]? = some endpoint) (idle : endpoint.busy = false) :
    ((state.setBusy index true).setBusy index false).endpoints = state.endpoints := by
  apply List.ext_getElem?
  intro position
  simp only [State.setBusy, List.getElem?_modify]
  by_cases same : index = position
  · subst same
    simp [there, ← idle]
  · simp [same]

theorem start_ok (task : Task) :
    state.start task .ok = (.ok, { state.setBusy task.endpoint true with
      toolTaskCount := if task.toolLoop then state.toolTaskCount + 1 else state.toolTaskCount
      tasks := task :: state.tasks
      nextHandle := state.nextHandle + 1 }) := by
  cases loop : task.toolLoop <;> simp [State.start, loop, State.setBusy]

theorem start_failed {task : Task} {endpoint : Endpoint} {started : Status}
    (there : state.endpoints[task.endpoint]? = some endpoint) (idle : endpoint.busy = false)
    (failed : started ≠ .ok) : state.start task started = (started, state) := by
  have restored := setBusy_setBusy_endpoints there idle
  simp only [State.setBusy] at restored
  cases loop : task.toolLoop <;> simp [State.start, loop, failed, State.setBusy, restored]

theorem checkAdmission_ne_ok (request : Request) (maxModelTurns : Nat) (world : SubmitWorld) :
    state.checkAdmission request maxModelTurns world ≠ .error .ok := by
  fun_cases State.checkAdmission <;> simp

/-- A failed submission changes nothing, a successful one opens a task. -/
theorem submit_cases (request : Request) (maxModelTurns : Nat)
    (admission : Option (Nat × String)) (world : SubmitWorld) :
    ((state.submit request maxModelTurns admission world).1 ≠ .ok ∧
      (state.submit request maxModelTurns admission world).2 = state) ∨
    ((state.submit request maxModelTurns admission world).1 = .ok ∧
      state.Change (state.submit request maxModelTurns admission world).2) := by
  rw [State.submit]
  split
  next => exact .inl ⟨by simp, rfl⟩
  split
  next status refused =>
    refine .inl ⟨?_, rfl⟩
    rintro rfl
    exact checkAdmission_ne_ok request maxModelTurns world refused
  next parent admitted =>
    split
    next => exact .inl ⟨by split <;> simp, rfl⟩
    next selection busy selected =>
      split
      next => exact .inl ⟨by simp, rfl⟩
      split
      next failed => exact .inl ⟨failed, rfl⟩
      by_cases started : world.started = .ok
      · rw [started, start_ok]
        exact .inr ⟨rfl, .opened request maxModelTurns (admission.map (·.2)) world parent
          selection busy admitted selected _ rfl⟩
      · obtain ⟨endpoint, there, idle, -⟩ := select_chosen selected
        have failed := @start_failed state (buildTask state.nextHandle request maxModelTurns
          (admission.map (·.2)) world parent selection) endpoint world.started there idle started
        rw [failed]
        exact .inl ⟨started, rfl⟩

theorem submit_changes (request : Request) (maxModelTurns : Nat)
    (admission : Option (Nat × String)) (world : SubmitWorld) :
    state.Changes (state.submit request maxModelTurns admission world).2 := by
  rcases submit_cases request maxModelTurns admission world with ⟨-, same⟩ | ⟨-, change⟩
  · rw [same]
  · exact .single change

theorem setToolTaskLimit_changes (limit : Nat) :
    state.Changes (state.setToolTaskLimit limit).2 := by
  rw [setToolTaskLimit]
  split
  next => exact .refl
  next bounded =>
    split
    next => exact .refl
    next idle =>
      refine .single (.limit limit ?_ (by simpa using idle))
      exact Nat.pos_of_ne_zero fun zero => bounded (.inl zero)

theorem releaseTask_changes (state : State) (handle : Nat) :
    state.Changes (state.releaseTask handle).2 := by
  rw [releaseTask]
  split
  next => exact .refl
  next task found =>
    obtain ⟨-, rfl⟩ := task?_eq_some found
    split
    next => exact .refl
    split
    next => exact .refl
    next ended => exact .single (.closed task found (by simpa using ended))

theorem adoptGroup_changes (id : String) (handles : List Nat) (allocated : Bool) :
    state.Changes (state.adoptGroup id handles allocated).2 := by
  fun_cases adoptGroup state id handles allocated
  case case5 => exact .single (.adopted handles _)
  all_goals exact .refl

/-! The calls on a group change its members one after another. -/

theorem updateGroup_changes (groupHandle : Nat) (change : Group → Group) :
    state.Changes (state.updateGroup groupHandle change) :=
  .single (.groups _)

theorem pollMember_changes (world : GroupWorld) (nowMs : Nat) (first : Status × State)
    (handle : Nat) : first.2.Changes (pollMember world nowMs first handle).2 := by
  rw [pollMember]
  split
  next => exact .refl
  exact updateTask_changes handle fun task =>
    task.pollInternal_changes nowMs (world.cancelled handle)

theorem pollMembers_changes (world : GroupWorld) (nowMs : Nat) (members : List Nat)
    (first : Status × State) :
    first.2.Changes (members.foldl (pollMember world nowMs) first).2 := by
  induction members generalizing first with
  | nil => exact .refl
  | cons handle members ih => exact (pollMember_changes world nowMs first handle).trans (ih _)

theorem pollGroup_changes (state : State) (groupHandle nowMs : Nat) (world : GroupWorld) :
    state.Changes (state.pollGroup groupHandle nowMs world).2 := by
  rw [pollGroup]
  split
  next => exact .refl
  next group _ =>
    split
    next => exact .refl
    split
    next => exact .refl
    have polled := (updateGroup_changes groupHandle fun group =>
      { group with observedMs := nowMs }).trans
      (pollMembers_changes world nowMs group.members (.ok,
        state.updateGroup groupHandle fun group => { group with observedMs := nowMs }))
    dsimp only
    split
    next => exact polled
    next => exact polled.trans (updateGroup_changes _ _)

/-- The tasks of a handle have been observed at a time. -/
def Observed (state : State) (handle nowMs : Nat) : Prop :=
  ∀ task ∈ state.tasks, task.handle = handle → task.observedMs = nowMs

/-- No two tasks share a handle. -/
def Unique (state : State) : Prop :=
  (state.tasks.map Task.handle).Nodup

theorem Unique.task?_of_mem (unique : state.Unique) {task : Task} (member : task ∈ state.tasks) :
    state.task? task.handle = some task := by
  cases found : state.task? task.handle with
  | none =>
      have absent := List.find?_eq_none.mp found task member
      simp at absent
  | some other =>
      obtain ⟨known, same⟩ := task?_eq_some found
      rw [List.inj_on_of_nodup_map unique known member same]

theorem updateTask_handles (handle : Nat) {change : Task → Task}
    (keeps : ∀ task : Task, (change task).handle = task.handle) :
    (state.updateTask handle change).tasks.map Task.handle = state.tasks.map Task.handle := by
  rw [updateTask, List.map_map]
  apply List.map_congr_left
  intro task _
  simp only [Function.comp_apply]
  split
  next => exact keeps task
  next => rfl

theorem pollMember_handles (world : GroupWorld) (nowMs : Nat) (first : Status × State)
    (handle : Nat) :
    (pollMember world nowMs first handle).2.tasks.map Task.handle =
      first.2.tasks.map Task.handle := by
  rw [pollMember]
  split
  next => rfl
  exact updateTask_handles handle fun task =>
    task.pollInternal_handle nowMs (world.cancelled handle)

variable {nowMs : Nat} {first : Status × State}

theorem Observed.pollMember (observed : first.2.Observed handle nowMs) (world : GroupWorld)
    (other : Nat) : (State.pollMember world nowMs first other).2.Observed handle nowMs := by
  rw [State.pollMember]
  split
  next => exact observed
  intro task member same
  obtain ⟨before, known, rfl⟩ := List.mem_map.mp member
  split at same <;> rename_i polled
  · rw [Task.pollInternal_handle] at same
    rw [if_pos polled]
    exact before.pollInternal_again (observed before known same) (world.cancelled other)
  · rw [if_neg polled]
    exact observed before known same

theorem Observed.pollMembers (observed : first.2.Observed handle nowMs) (world : GroupWorld)
    (members : List Nat) :
    (members.foldl (State.pollMember world nowMs) first).2.Observed handle nowMs := by
  induction members generalizing first with
  | nil => exact observed
  | cons other members ih => exact ih (observed.pollMember world other)

variable {world : GroupWorld}

/-- A round that reports success has observed its member. -/
theorem pollMember_ok (unique : first.2.Unique)
    (polled : (pollMember world nowMs first handle).1 = .ok) :
    first.1 = .ok ∧ (pollMember world nowMs first handle).2.Observed handle nowMs := by
  rw [pollMember] at polled ⊢
  split at polled <;> rename_i found
  · refine ⟨polled, ?_⟩
    intro task member same
    have absent := List.find?_eq_none.mp found task member
    simp [same] at absent
  · rename_i task
    dsimp only at polled ⊢
    split at polled
    next failed => exact absurd polled failed
    next before =>
      split at polled
      next failed => exact absurd polled failed
      next success =>
        refine ⟨by simpa using before, ?_⟩
        intro after member same
        obtain ⟨other, known, rfl⟩ := List.mem_map.mp member
        split at same <;> rename_i here
        · have equal : other = task := by
            have seen := unique.task?_of_mem known
            rw [here, found] at seen
            exact (Option.some.inj seen).symm
          rw [if_pos here, equal]
          exact task.pollInternal_observed (by simpa using success)
        · exact absurd same here

theorem pollMembers_ok (members : List Nat) (unique : first.2.Unique)
    (polled : (members.foldl (pollMember world nowMs) first).1 = .ok) :
    first.1 = .ok ∧ ∀ handle ∈ members,
      (members.foldl (pollMember world nowMs) first).2.Observed handle nowMs := by
  induction members generalizing first with
  | nil => exact ⟨polled, fun _ member => nomatch member⟩
  | cons head members ih =>
      have keeps : (pollMember world nowMs first head).2.Unique := by
        rw [Unique, pollMember_handles]
        exact unique
      obtain ⟨success, observed⟩ := ih keeps polled
      obtain ⟨before, here⟩ := pollMember_ok unique success
      refine ⟨before, ?_⟩
      exact List.forall_mem_cons.mpr ⟨here.pollMembers world members, observed⟩

theorem halt_ne_ok {group : Group} {first : Status}
    (failed : ¬(first = .ok ∧ group.failureCode = .ok)) : group.halt first ≠ .ok := by
  rw [Group.halt]
  split
  next none => exact fun success => failed ⟨success, none⟩
  next some => exact some

/-- A group poll that reports success has observed every member. -/
theorem pollGroup_ok {groupHandle : Nat} {group : Group} {after : State} (unique : state.Unique)
    (found : (state.groups.find? fun group => group.handle = groupHandle) = some group)
    (polled : state.pollGroup groupHandle nowMs world = (.ok, after)) :
    ∀ handle ∈ group.members, after.Observed handle nowMs := by
  rw [pollGroup, found] at polled
  dsimp only at polled
  split at polled
  next => cases polled
  split at polled
  next => cases polled
  split at polled
  next success =>
    cases polled
    exact (pollMembers_ok group.members unique success.1).2
  next failed =>
    exact absurd (congrArg Prod.fst polled) (halt_ne_ok failed)

theorem heartbeatGroup_changes (unique : state.Unique) (groupHandle index nowMs : Nat)
    (world : GroupWorld) :
    state.Changes (state.heartbeatGroup groupHandle index nowMs world).2 := by
  have polled := state.pollGroup_changes groupHandle nowMs world
  rw [heartbeatGroup]
  split
  next => exact .refl
  next group found =>
    split
    next => exact .refl
    next handle member =>
      split
      next after result =>
        rw [result] at polled
        split
        next => exact polled
        have observed := pollGroup_ok unique found result handle (List.mem_of_getElem? member)
        refine polled.tail (.task handle _ ?_)
        intro task live same
        exact .single (.beat nowMs (observed task live same))
      next status after _ result =>
        rw [result] at polled
        exact polled

theorem cancelGroup_changes (groupHandle : Nat) :
    state.Changes (state.cancelGroup groupHandle).2 := by
  fun_cases cancelGroup state groupHandle
  case case3 => exact updateGroup_changes _ _
  all_goals exact .refl

theorem takeMember_changes (groupHandle : Nat) (before : Taken) (handle : Nat) :
    before.state.Changes (takeMember groupHandle before handle).state := by
  rw [takeMember]
  split
  next => exact .refl
  split
  next => exact .refl
  split
  next => exact .refl
  next =>
    exact (updateTask_changes handle fun task => .single .taken).trans (updateGroup_changes _ _)

theorem takeMembers_changes (groupHandle : Nat) (members : List Nat) (before : Taken) :
    before.state.Changes (members.foldl (takeMember groupHandle) before).state := by
  induction members generalizing before with
  | nil => exact .refl
  | cons handle members ih => exact (takeMember_changes groupHandle before handle).trans (ih _)

theorem takeResults_changes (groupHandle capacity : Nat) (host : Option (Nat × String))
    (authorityCurrent : Nat → Bool) (recorded : Status) :
    state.Changes (state.takeResults groupHandle capacity host authorityCurrent recorded).state := by
  rw [takeResults]
  split
  next => exact .refl
  next group _ =>
    split
    next => exact .refl
    split
    next =>
      split
      next => exact .refl
      next => exact takeMembers_changes groupHandle group.members ⟨.ok, [], state⟩
    next => exact .refl

theorem buildInput_changes (groupHandle : Nat) (hostTask : String) (host : Option (Nat × String))
    (world : BuildWorld) :
    state.Changes (state.buildInput groupHandle hostTask host world).2.2 := by
  fun_cases buildInput state groupHandle hostTask host world
  case case6 => exact updateGroup_changes _ _
  case case11 => exact updateGroup_changes _ _
  all_goals exact .refl

theorem releaseMembers_changes (members : List Nat) :
    state.Changes (members.foldl releaseMember state) := by
  induction members generalizing state with
  | nil => exact .refl
  | cons handle members ih =>
      have detached : state.Changes (state.updateTask handle fun task =>
          { task with group := none }) :=
        updateTask_changes handle fun task => .single (.grouped none)
      exact (detached.trans (releaseTask_changes _ handle)).trans ih

theorem releaseGroup_changes (groupHandle : Nat) :
    state.Changes (state.releaseGroup groupHandle).2 := by
  fun_cases releaseGroup state groupHandle
  case case3 group _ _ released =>
    exact (releaseMembers_changes group.members).tail (.groups _)
  all_goals exact .refl

theorem perform_changes (unique : state.Unique) (call : Call) :
    state.Changes (state.perform call).2 := by
  cases call with
  | setToolTaskLimit limit => exact setToolTaskLimit_changes limit
  | submit request maxModelTurns admission world =>
      exact submit_changes request maxModelTurns admission world
  | submitToolLoop request maxModelTurns world =>
      rw [perform, submitToolLoop]
      split
      next => exact .refl
      next => exact submit_changes request maxModelTurns none world
  | review task approved intent world =>
      rw [perform, reviewTask]
      split
      next => exact .refl
      next => exact onTask_changes task fun task => task.review_changes approved world
  | cancel task signalled => exact onTask_changes task fun task => task.cancel_changes signalled
  | poll task nowMs cancelled =>
      exact onTask_changes task fun task => task.poll_changes nowMs cancelled
  | heartbeat task nowMs cancelled =>
      exact onTask_changes task fun task => task.heartbeat_changes nowMs cancelled
  | takeResult task authorityCurrent recorded =>
      exact onTask_changes task fun task => task.takeResult_changes authorityCurrent recorded
  | release task => exact releaseTask_changes state task
  | adoptGroup id tasks allocated => exact adoptGroup_changes id tasks allocated
  | pollGroup group nowMs world => exact state.pollGroup_changes group nowMs world
  | heartbeatGroup group index nowMs world =>
      exact heartbeatGroup_changes unique group index nowMs world
  | cancelGroup group => exact cancelGroup_changes group
  | takeGroupResults group capacity host authorityCurrent recorded =>
      exact takeResults_changes group capacity host authorityCurrent recorded
  | buildGroupInput group hostTask host world => exact buildInput_changes group hostTask host world
  | releaseGroup group => exact releaseGroup_changes group
  | work task => exact onTask_changes task fun task => .single .work
  | finish task rc report result =>
      exact onTask_changes task fun task => task.finish_changes rc report result

/-! ## Invariants of runs -/

/-- The tasks have distinct handles, and no handle is yet to be given. -/
structure Allocated (state : State) : Prop where
  unique : state.Unique
  given : ∀ task ∈ state.tasks, task.handle < state.nextHandle

theorem Allocated.of_handles {next : State} (allocated : state.Allocated)
    (handles : next.tasks.map Task.handle = state.tasks.map Task.handle)
    (later : state.nextHandle ≤ next.nextHandle) : next.Allocated where
  unique := by
    rw [Unique, handles]
    exact allocated.unique
  given := by
    intro task member
    have known : task.handle ∈ state.tasks.map Task.handle := handles ▸ List.mem_map_of_mem member
    obtain ⟨before, live, same⟩ := List.mem_map.mp known
    exact Nat.lt_of_lt_of_le (same ▸ allocated.given before live) later

theorem Allocated.change {next : State} (allocated : state.Allocated) (change : state.Change next) :
    next.Allocated := by
  cases change with
  | task handle change allowed =>
      refine allocated.of_handles ?_ (Nat.le_refl _)
      rw [updateTask, List.map_map]
      apply List.map_congr_left
      intro task live
      simp only [Function.comp_apply]
      split
      next same => exact congrArg Submission.handle (allowed task live same).submission
      next => rfl
  | groups groups => exact allocated.of_handles rfl (Nat.le_refl _)
  | adopted handles groups =>
      refine allocated.of_handles ?_ (Nat.le_succ _)
      rw [List.map_map]
      apply List.map_congr_left
      intro task _
      simp only [Function.comp_apply]
      split <;> rfl
  | limit limit => exact allocated.of_handles rfl (Nat.le_refl _)
  | opened request maxModelTurns admissionId world parent selection busy _ _ task built =>
      have fresh : task.handle = state.nextHandle := by rw [built, buildTask]
      constructor
      · refine List.nodup_cons.mpr ⟨?_, allocated.unique⟩
        intro known
        obtain ⟨before, live, same⟩ := List.mem_map.mp known
        have older := allocated.given before live
        rw [same, fresh] at older
        exact Nat.lt_irrefl _ older
      · exact List.forall_mem_cons.mpr ⟨fresh ▸ Nat.lt_succ_self _,
            fun other live => Nat.lt_succ_of_lt (allocated.given other live)⟩
  | closed task =>
      exact {
        unique := allocated.unique.sublist (List.filter_sublist.map _)
        given := fun other member => allocated.given other (List.mem_filter.mp member).1 }

/-- A property that every change keeps holds after every run. -/
theorem run_invariant (Invariant : State → Prop)
    (keeps : ∀ state next : State, state.Allocated → Invariant state → state.Change next →
      Invariant next)
    (allocated : state.Allocated) (holds : Invariant state) (calls : List Call) :
    (state.run calls).Allocated ∧ Invariant (state.run calls) := by
  have changes : ∀ {state next : State}, state.Changes next → state.Allocated → Invariant state →
      next.Allocated ∧ Invariant next := by
    intro state next changes allocated holds
    induction changes with
    | refl => exact ⟨allocated, holds⟩
    | tail _ change ih => exact ⟨ih.1.change change, keeps _ _ ih.1 ih.2 change⟩
  induction calls generalizing state with
  | nil => exact ⟨allocated, holds⟩
  | cons call calls ih =>
      obtain ⟨nextAllocated, nextHolds⟩ :=
        changes (perform_changes allocated.unique call) allocated holds
      exact ih nextAllocated nextHolds

variable {authorityAgent : Nat} {configs : List EndpointConfig}

theorem configsValid_mem {previous : List EndpointConfig}
    (valid : configsValid authorityAgent previous configs = true) :
    ∀ config ∈ configs, config.valid authorityAgent = true := by
  induction configs generalizing previous with
  | nil => exact fun _ member => nomatch member
  | cons head configs ih =>
      rw [configsValid, Bool.and_eq_true, Bool.and_eq_true] at valid
      exact List.forall_mem_cons.mpr ⟨valid.1.1, ih valid.2⟩

/-- A router starts with valid endpoints that are idle, and with no task. -/
theorem create_eq {authorityRegistry : Nat}
    (created : State.create configs authorityAgent authorityRegistry = .ok state) :
    (∀ config ∈ configs, config.valid authorityAgent = true) ∧
    state = {
      endpoints := configs.map fun config => ⟨config, false⟩
      authorityAgent
      authorityRegistry
      toolTaskLimit := 1
      toolTaskCount := 0
      tasks := []
      groups := []
      nextHandle := 0 } := by
  rw [State.create] at created
  split at created
  next => cases created
  split at created
  next => cases created
  next valid => exact ⟨configsValid_mem (by simpa using valid), (Except.ok.inj created).symm⟩

theorem create_allocated {authorityRegistry : Nat}
    (created : State.create configs authorityAgent authorityRegistry = .ok state) :
    state.tasks = [] ∧ state.Allocated := by
  obtain ⟨-, rfl⟩ := create_eq created
  exact ⟨rfl, ⟨List.nodup_nil, fun _ member => nomatch member⟩⟩

end State

end TurboAgent.Router
