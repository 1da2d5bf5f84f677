import TurboAgent.Router.Observable
import TurboAgent.Router.ToolLoop

/-!
# Discipline of the tool loop

Calls of the model and dispatches of the host alternate: a dispatch follows a proposal of
the model, and the next turn of the model follows a dispatch that succeeded.  The steps of
the graph are the turns, the dispatches and one step for every suspension, and a suspension
is left only by a review.  So the turn counter and the bound on reviews keep the steps
below the budget.
-/

namespace TurboAgent.Router

namespace LoopEvent

/-- The model or the host's tool node is entered. -/
def effect : LoopEvent → Bool
  | .model | .dispatch _ => true
  | _ => false

/-- The loop is over: a dispatch did not succeed, a tool was denied, or the review was
rejected or cancelled. -/
def final : LoopEvent → Bool
  | .dispatch .error | .dispatch .failed | .dispatch .invalid => true
  | .denied _ | .rejected | .cancelled => true
  | _ => false

/-- A dispatch that was not suspended for an approval. -/
def settled : LoopEvent → Bool
  | .dispatch .suspended => false
  | .dispatch _ => true
  | _ => false

def isModel : LoopEvent → Bool
  | .model => true
  | _ => false

end LoopEvent

open LoopEvent (dispatch effect isModel settled)

/-- Nothing is entered after the end of the loop. -/
def Orderly (trace : List LoopEvent) : Prop :=
  trace.Pairwise fun earlier later => earlier.final → ¬later.effect

def Clean (trace : List LoopEvent) : Prop :=
  ∀ event ∈ trace, ¬event.final

def models (trace : List LoopEvent) : Nat :=
  trace.countP isModel

/-- Dispatches that were not suspended. -/
def settledDispatches (trace : List LoopEvent) : Nat :=
  trace.countP settled

/-- What a trace always satisfies. -/
structure Disciplined (turns : Nat) (trace : List LoopEvent) : Prop where
  models_le : models trace ≤ turns
  settled_le : settledDispatches trace ≤ turns - 1
  orderly : Orderly trace

/-- Dispatches that the node owes: the proposal that led to the tools node is not yet
dispatched. -/
def Node.owed : Node → Nat
  | .model => 0
  | .tools => 1

structure Head (node : Node) (steps : Nat) (task : Task) (trace : List LoopEvent) : Prop where
  turns : task.modelTurns = models trace
  below : models trace < task.maxModelTurns
  owed : settledDispatches trace + node.owed = models trace
  counted : steps = models trace + settledDispatches trace + task.reviewResumes
  orderly : Orderly trace
  clean : Clean trace ∨ node = .tools ∧ task.reviewCancelled

/-- The loop while a dispatch waits for its approval: what it is before the tools node once
the review is counted. -/
structure Waiting (steps : Nat) (task : Task) (trace : List LoopEvent) : Prop where
  head : Head .tools steps { task with reviewResumes := task.reviewResumes + 1 } trace
  clean : Clean trace

section Traces

variable {trace : List LoopEvent} {event : LoopEvent}

@[simp] theorem models_append : models (trace ++ [event]) =
    models trace + (if event.isModel then 1 else 0) := by
  simp [models, List.countP_append, List.countP_cons]

@[simp] theorem settledDispatches_append : settledDispatches (trace ++ [event]) =
    settledDispatches trace + (if event.settled then 1 else 0) := by
  simp [settledDispatches, List.countP_append, List.countP_cons]

/-- An event may follow if the loop is not over or the event enters nothing. -/
theorem Orderly.append (orderly : Orderly trace) (event : LoopEvent)
    (allowed : Clean trace ∨ event.effect = false) :
    Orderly (trace ++ [event]) := by
  refine List.pairwise_append.mpr ⟨orderly, List.pairwise_singleton _ _, ?_⟩
  intro earlier known later member
  rw [List.mem_singleton.mp member]
  rcases allowed with clean | inert
  · exact fun final => absurd final (clean earlier known)
  · simp [inert]

theorem Clean.append (clean : Clean trace) (going : event.final = false) :
    Clean (trace ++ [event]) := by
  intro other member
  rcases List.mem_append.mp member with known | new
  · exact clean other known
  · rw [List.mem_singleton.mp new, going]
    simp

theorem Disciplined.append {turns : Nat} (disciplined : Disciplined turns trace)
    (event : LoopEvent) (inert : event.effect = false) :
    Disciplined turns (trace ++ [event]) := by
  have noModel : event.isModel = false := by
    cases event <;> simp_all [effect, isModel]
  have noDispatch : event.settled = false := by
    cases event <;> simp_all [effect, settled]
  exact {
    models_le := by simpa [noModel] using disciplined.models_le
    settled_le := by simpa [noDispatch] using disciplined.settled_le
    orderly := disciplined.orderly.append event (.inr inert) }

theorem Head.disciplined {node : Node} {steps : Nat} {task : Task} (head : Head node steps task trace) :
    Disciplined task.maxModelTurns trace := by
  have below := head.below
  have owed := head.owed
  exact ⟨by omega, by omega, head.orderly⟩

theorem Head.congr {node : Node} {steps : Nat} {task other : Task}
    (head : Head node steps task trace) (turns : other.modelTurns = task.modelTurns)
    (limit : other.maxModelTurns = task.maxModelTurns)
    (resumes : other.reviewResumes = task.reviewResumes)
    (cancelled : other.reviewCancelled = task.reviewCancelled) : Head node steps other trace where
  turns := turns.trans head.turns
  below := limit ▸ head.below
  owed := head.owed
  counted := resumes ▸ head.counted
  orderly := head.orderly
  clean := by
    rw [cancelled]
    exact head.clean

end Traces

/-! ## One node -/

/-- The worker changes nothing of the task but its turn counter. -/
def Task.Turned (task next : Task) : Prop :=
  ∃ turns, next = { task with modelTurns := turns }

/-- What a node leaves when it is entered with `steps` steps behind it. -/
inductive NodePost (steps : Nat) (nodeEnd : NodeEnd) : Prop where
  /-- The run ends without a node to continue with. -/
  | finished (none : nodeEnd.next = none)
  /-- The loop is halted. -/
  | halted (stop : nodeEnd.stop = true) (halted : nodeEnd.loop.reason ≠ "approval_pending")
  /-- The token has stopped. -/
  | stopped (rc : nodeEnd.rc = .ok) (stop : nodeEnd.stop = false)
      (token : nodeEnd.loop.token.isSome)
  /-- The loop goes on. -/
  | continues (rc : nodeEnd.rc = .ok) (stop : nodeEnd.stop = false) (node : Node)
      (next : nodeEnd.next = some node)
      (head : Head node (steps + 1) nodeEnd.loop.task nodeEnd.loop.trace)
  /-- A dispatch waits for its approval. -/
  | waits (next : nodeEnd.next = some .tools) (stop : nodeEnd.stop = true)
      (waiting : Waiting (steps + 1) nodeEnd.loop.task nodeEnd.loop.trace)

namespace Loop

variable {loop : Loop} {steps : Nat}

theorem record_over {steps : Nat} {recorded : Bool} {reason : String} :
    NodePost steps (loop.record recorded reason none false) := by
  rw [Loop.record]
  split <;> exact .finished rfl

theorem halt_post {steps : Nat} {node : Node} {recorded : Bool} {reason : String}
    (other : reason ≠ "approval_pending") : NodePost steps (loop.halt node recorded reason) := by
  rw [Loop.halt, Loop.record]
  split
  next => exact .halted rfl other
  next => exact .finished rfl

@[simp] theorem record_loop_trace (recorded : Bool) (reason : String) (next : Option Node)
    (stop : Bool) : (loop.record recorded reason next stop).loop.trace = loop.trace := by
  rw [Loop.record]
  split <;> rfl

@[simp] theorem record_loop_task (recorded : Bool) (reason : String) (next : Option Node)
    (stop : Bool) : (loop.record recorded reason next stop).loop.task = loop.task := by
  rw [Loop.record]
  split <;> rfl

@[simp] theorem halt_loop_trace (node : Node) (recorded : Bool) (reason : String) :
    (loop.halt node recorded reason).loop.trace = loop.trace := by
  rw [Loop.halt, record_loop_trace]

@[simp] theorem halt_loop_task (node : Node) (recorded : Bool) (reason : String) :
    (loop.halt node recorded reason).loop.task = loop.task := by
  rw [Loop.halt, record_loop_task]

end Loop

/-- What every node guarantees when it is entered as the loop wants it. -/
structure NodeSafe (steps : Nat) (task : Task) (nodeEnd : NodeEnd) : Prop where
  post : NodePost steps nodeEnd
  disciplined : Disciplined task.maxModelTurns nodeEnd.loop.trace
  turned : task.Turned nodeEnd.loop.task

namespace Loop

variable {loop : Loop} {steps : Nat}

theorem turn_head (head : Head .model steps loop.task loop.trace) (tool : loop.task.toolLoop = true) :
    let after := loop.countTurn.note .model
    Disciplined loop.task.maxModelTurns after.trace ∧ loop.task.Turned after.task ∧
      (after.task.modelTurns < after.task.maxModelTurns →
        Head .tools (steps + 1) after.task after.trace) := by
  have turns := head.turns
  have below := head.below
  have owed := head.owed
  have counted := head.counted
  have clean : Clean loop.trace := by
    rcases head.clean with clean | ⟨node, -⟩
    · exact clean
    · cases node
  have orderly := head.orderly.append .model (.inl clean)
  simp only [Node.owed] at owed
  simp only [countTurn, tool, if_true, note]
  refine ⟨⟨?_, ?_, orderly⟩, ⟨_, rfl⟩, ?_⟩
  · simp only [models_append, isModel, if_true]
    omega
  · simp only [settledDispatches_append, settled, Bool.false_eq_true, if_false]
    omega
  · intro room
    exact {
      turns := by simp [turns, isModel]
      below := by
        simp only [models_append, isModel, if_true]
        omega
      owed := by
        simp only [models_append, settledDispatches_append, isModel, settled,
          Bool.false_eq_true, if_true, if_false, Node.owed]
        omega
      counted := by
        simp only [models_append, settledDispatches_append, isModel, settled,
          Bool.false_eq_true, if_true, if_false]
        omega
      orderly
      clean := .inl (clean.append rfl) }

theorem modelNode_safe (head : Head .model steps loop.task loop.trace)
    (tool : loop.task.toolLoop = true) (visit : ModelVisit) :
    NodeSafe steps loop.task (loop.modelNode visit) := by
  obtain ⟨disciplined, turned, proposes⟩ := turn_head head tool
  rw [modelNode]
  split
  next => exact ⟨.finished rfl, head.disciplined, ⟨_, rfl⟩⟩
  split
  next full =>
    have below := head.below
    have turns := head.turns
    omega
  dsimp only
  split
  next => exact ⟨.finished rfl, disciplined, turned⟩
  next stop => exact ⟨.stopped rfl rfl rfl, disciplined, turned⟩
  next toolCalls =>
    rw [answered]
    split
    next => exact ⟨.finished rfl, disciplined, turned⟩
    split
    next =>
      exact ⟨record_over, by simpa using disciplined, by simpa using turned⟩
    split
    next =>
      exact ⟨halt_post (by decide), by simpa using disciplined, by simpa using turned⟩
    next room =>
      refine ⟨?_, by simpa using disciplined, by simpa using turned⟩
      rw [record]
      split
      next =>
        exact .continues rfl rfl .tools rfl (proposes (Nat.lt_of_not_le room))
      next => exact .finished rfl

theorem dispatched_safe (head : Head .tools steps loop.task loop.trace)
    (clean : Clean loop.trace) (visit : ToolsVisit) :
    NodeSafe steps loop.task (loop.dispatched visit) := by
  have turns := head.turns
  have below := head.below
  have owed := head.owed
  have counted := head.counted
  have orderly := head.orderly.append (.dispatch visit.dispatch) (.inl clean)
  simp only [Node.owed] at owed
  have disciplined : Disciplined loop.task.maxModelTurns
      (loop.note (.dispatch visit.dispatch)).trace := by
    refine ⟨?_, ?_, orderly⟩
    · simp only [note, models_append, isModel, Bool.false_eq_true, if_false]
      omega
    · simp only [note, settledDispatches_append]
      split <;> omega
  rw [dispatched]
  cases outcome : visit.dispatch <;> rw [outcome] at disciplined orderly <;> dsimp only
  case error => exact ⟨.finished rfl, disciplined, ⟨_, rfl⟩⟩
  case suspended =>
    have waiting : Waiting (steps + 1) loop.task
        (loop.trace ++ [dispatch .suspended]) := by
      refine ⟨⟨?_, ?_, ?_, ?_, orderly, .inl (clean.append rfl)⟩, clean.append rfl⟩
      · simpa [isModel] using turns
      · simpa [isModel] using below
      · simpa [isModel, settled, Node.owed] using owed
      · simp only [models_append, settledDispatches_append, isModel,
          settled, Bool.false_eq_true, if_false]
        omega
    split
    next => exact ⟨.waits rfl rfl waiting, disciplined, ⟨_, rfl⟩⟩
    next => exact ⟨.waits rfl rfl waiting, disciplined, ⟨_, rfl⟩⟩
  case failed =>
    exact ⟨halt_post (by decide), by simpa using disciplined, ⟨_, by simp [note]; rfl⟩⟩
  case invalid =>
    exact ⟨halt_post (by decide), by simpa using disciplined, ⟨_, by simp [note]; rfl⟩⟩
  case succeeded =>
    have next : Head .model (steps + 1) loop.task
        (loop.trace ++ [dispatch .succeeded]) := by
      refine ⟨?_, ?_, ?_, ?_, orderly, .inl (clean.append rfl)⟩
      · simpa [isModel] using turns
      · simpa [isModel] using below
      · simpa [isModel, settled, Node.owed] using owed
      · simp only [models_append, settledDispatches_append, isModel,
          settled, Bool.false_eq_true, if_false, if_true]
        omega
    split
    next => exact ⟨.finished rfl, disciplined, ⟨_, rfl⟩⟩
    refine ⟨?_, by simpa using disciplined, ⟨_, by simp [note]; rfl⟩⟩
    rw [record]
    split
    next => exact .continues rfl rfl .model rfl next
    next => exact .finished rfl

theorem denied_safe (head : Head .tools steps loop.task loop.trace) (recorded : Bool)
    {reason : String} (other : reason ≠ "approval_pending") :
    NodeSafe steps loop.task ((loop.note (.denied reason)).halt .tools recorded reason) := by
  refine ⟨halt_post other, ?_, ⟨_, by simp [note]; rfl⟩⟩
  simpa [note] using head.disciplined.append (.denied reason) rfl

theorem toolsNode_safe (head : Head .tools steps loop.task loop.trace) (visit : ToolsVisit) :
    NodeSafe steps loop.task (loop.toolsNode visit) := by
  rw [toolsNode]
  split
  next => exact ⟨.finished rfl, head.disciplined, ⟨_, rfl⟩⟩
  split
  next =>
    exact ⟨halt_post (by decide), by simpa using head.disciplined, ⟨_, by simp; rfl⟩⟩
  next going =>
    have clean : Clean loop.trace := by
      rcases head.clean with clean | ⟨-, cancelled⟩
      · exact clean
      · exact absurd cancelled going
    split
    next => exact denied_safe head visit.recorded (by decide)
    split
    next => exact denied_safe head visit.recorded (by decide)
    split
    next => exact denied_safe head visit.recorded (by decide)
    split
    next =>
      split
      next => exact ⟨.finished rfl, head.disciplined, ⟨_, rfl⟩⟩
      next => exact dispatched_safe head clean visit
    next =>
      refine ⟨?_, by simpa using head.disciplined, ⟨_, by simp; rfl⟩⟩
      rw [record]
      split
      next => exact .stopped rfl rfl rfl
      next => exact .finished rfl
    next =>
      refine ⟨?_, by simpa using head.disciplined, ⟨_, by simp; rfl⟩⟩
      rw [record]
      split
      next => exact .stopped rfl rfl rfl
      next => exact .finished rfl
    next => exact ⟨.finished rfl, head.disciplined, ⟨_, rfl⟩⟩

theorem visitNode_safe {node : Node} (head : Head node steps loop.task loop.trace)
    (tool : loop.task.toolLoop = true) (visit : Visit) :
    NodeSafe steps loop.task (loop.visitNode visit node) := by
  cases node with
  | model => exact modelNode_safe head tool visit.model
  | tools => exact toolsNode_safe head visit.tools

end Loop

/-! ## One segment -/

/-- What a run of the graph guarantees. -/
structure GraphSafe (task : Task) (graphEnd : GraphEnd) : Prop where
  within : graphEnd.status ≠ .stepLimit
  disciplined : Disciplined task.maxModelTurns graphEnd.loop.trace
  turned : task.Turned graphEnd.loop.task
  waits : graphEnd.status = .interrupted → graphEnd.loop.reason = "approval_pending" →
    ∃ checkpoint, graphEnd.checkpoint = some checkpoint ∧ checkpoint.node = .tools ∧
      Waiting checkpoint.steps graphEnd.loop.task graphEnd.loop.trace

variable {task : Task}

theorem Task.Turned.trans {next last : Task} (first : task.Turned next) (second : next.Turned last) :
    task.Turned last := by
  obtain ⟨_, rfl⟩ := first
  obtain ⟨turns, rfl⟩ := second
  exact ⟨turns, rfl⟩

theorem Task.Turned.fixed {next : Task} (turned : task.Turned next) :
    next.maxModelTurns = task.maxModelTurns ∧ next.reviewResumes = task.reviewResumes ∧
      next.reviewCancelled = task.reviewCancelled ∧ next.execution = task.execution ∧
      next.pendingReview = task.pendingReview := by
  obtain ⟨_, rfl⟩ := turned
  exact ⟨rfl, rfl, rfl, rfl, rfl⟩

variable {graphEnd : GraphEnd}

theorem GraphSafe.of_status (within : graphEnd.status ≠ .stepLimit)
    (notInterrupted : graphEnd.status ≠ .interrupted)
    (disciplined : Disciplined task.maxModelTurns graphEnd.loop.trace)
    (turned : task.Turned graphEnd.loop.task) : GraphSafe task graphEnd :=
  ⟨within, disciplined, turned, fun interrupted => absurd interrupted notInterrupted⟩

theorem Stop.status_ne (stop : Stop) :
    stop.status ≠ .stepLimit ∧ stop.status ≠ .interrupted := by
  cases stop <;> simp [Stop.status]

/-- What one round of the graph guarantees with `steps` steps behind it. -/
def RoundSafe (steps : Nat) (task : Task) : Round → Prop
  | .ended graphEnd => GraphSafe task graphEnd
  | .next node _ loop => Head node steps loop.task loop.trace ∧ task.Turned loop.task

namespace Loop

/-- After a node the run ends safely or goes on as the next node wants it. -/
theorem route_safe (codes : StatusCodes) {steps : Nat} {nodeEnd : NodeEnd}
    (safe : NodeSafe steps task nodeEnd) (visit : Visit) (checkpoint : Option Checkpoint) :
    RoundSafe (steps + 1) task (route codes visit (steps + 1) checkpoint nodeEnd) := by
  obtain ⟨post, disciplined, turned⟩ := safe
  have success : codes.code .ok = 0 := (codes.zero .ok).mpr rfl
  rw [route]
  dsimp only
  split
  next => exact .of_status (by simp) (by simp) disciplined turned
  split
  next stops =>
    split
    next => exact .of_status (by simp) (by simp) disciplined turned
    split
    next node next =>
      split
      next => exact .of_status (by simp) (by simp) disciplined turned
      refine ⟨by simp, disciplined, turned, ?_⟩
      intro _ waits
      cases post with
      | finished none =>
          rw [none] at next
          cases next
      | halted stop halted => exact absurd waits halted
      | stopped rc stop token => simp [rc, stop, success] at stops
      | continues rc stop => simp [rc, stop, success] at stops
      | waits target stop waiting =>
          rw [target] at next
          cases next
          exact ⟨_, rfl, rfl, waiting⟩
    next => exact .of_status (by simp) (by simp) disciplined turned
  next runs =>
    split
    next => exact .of_status (by simp) (by simp) disciplined turned
    split
    next =>
      refine .of_status ?_ ?_ disciplined turned <;> dsimp only <;> split <;> simp
    next node next =>
      split
      next => exact .of_status (by simp) (by simp) disciplined turned
      split
      next stop token =>
        exact .of_status stop.status_ne.1 stop.status_ne.2 disciplined turned
      next token =>
        cases post with
        | finished none =>
            rw [none] at next
            cases next
        | halted stop halted => exact absurd (.inl stop) runs
        | stopped rc stop stopped =>
            simp only [observe, Option.or_eq_none_iff] at token
            simp [token.1] at stopped
        | continues rc stop target there head =>
            rw [there] at next
            cases next
            exact ⟨head, turned⟩
        | waits target stop waiting => exact absurd (.inl stop) runs

/-- A run of the graph within its budget never meets the limit. -/
theorem runGraph_safe (codes : StatusCodes) (visits : Nat → Visit) (fuel : Nat) {node : Node}
    {steps : Nat} (checkpoint : Option Checkpoint) {loop : Loop}
    (head : Head node steps loop.task loop.trace) (tool : loop.task.toolLoop = true)
    (resumes : loop.task.reviewResumes ≤ maxReviewResumes)
    (budget : loop.task.maxSteps ≤ steps + fuel) :
    GraphSafe loop.task (loop.runGraph codes visits fuel node steps checkpoint) := by
  induction fuel generalizing node steps checkpoint loop with
  | zero =>
      have below := head.below
      have owed := head.owed
      have counted := head.counted
      simp only [Task.maxSteps] at budget
      omega
  | succ fuel ih =>
      rw [runGraph]
      split
      next stop token =>
        split
        next => exact .of_status (by simp) (by simp) head.disciplined ⟨_, rfl⟩
        next =>
          exact .of_status stop.status_ne.1 stop.status_ne.2 head.disciplined ⟨_, rfl⟩
      next token =>
        split
        next => exact .of_status (by simp) (by simp) head.disciplined ⟨_, rfl⟩
        have entered : Head node steps (loop.observe (visits steps).before).task
            (loop.observe (visits steps).before).trace := head
        have routed := route_safe codes (visitNode_safe entered tool (visits steps))
          (visits steps) checkpoint
        split
        next graphEnd ended =>
          rw [ended] at routed
          exact routed
        next next saved after continued =>
          rw [continued] at routed
          obtain ⟨nextHead, turned⟩ := routed
          change loop.task.Turned after.task at turned
          obtain ⟨limit, reviews, -, -, -⟩ := turned.fixed
          have rest := ih (some saved) nextHead (by simpa [Task.toolLoop, limit] using tool)
            (reviews ▸ resumes) (by
              simp only [Task.maxSteps, limit] at budget ⊢
              omega)
          exact {
            within := rest.within
            disciplined := by
              have disciplined := rest.disciplined
              rw [limit] at disciplined
              exact disciplined
            turned := turned.trans rest.turned
            waits := rest.waits }

end Loop

/-! ## The life of a task -/

/-- What the calls between segments leave alone. -/
structure Task.SameLoop (task next : Task) : Prop where
  limit : next.maxModelTurns = task.maxModelTurns
  turns : next.modelTurns = task.modelTurns
  resumes : next.reviewResumes = task.reviewResumes
  cancelled : next.reviewCancelled = task.reviewCancelled
  pending : next.pendingReview = task.pendingReview
  checkpoint : next.reviewCheckpoint = task.reviewCheckpoint
  status : next.execution.status = task.execution.status

namespace Task

variable (task : Task)

theorem pollInternal_sameLoop (nowMs : Nat) (cancelled : Status) :
    task.SameLoop (task.pollInternal nowMs cancelled).2 := by
  fun_cases pollInternal task nowMs cancelled <;> exact ⟨rfl, rfl, rfl, rfl, rfl, rfl, rfl⟩

theorem poll_sameLoop (nowMs : Nat) (cancelled : Status) :
    task.SameLoop (task.poll nowMs cancelled).2 := by
  rw [poll]
  split
  next => exact ⟨rfl, rfl, rfl, rfl, rfl, rfl, rfl⟩
  next => exact task.pollInternal_sameLoop nowMs cancelled

theorem heartbeat_sameLoop (nowMs : Nat) (cancelled : Status) :
    task.SameLoop (task.heartbeat nowMs cancelled).2 := by
  have polled := task.poll_sameLoop nowMs cancelled
  rw [heartbeat]
  split
  next after result =>
    rw [result] at polled
    split
    next => exact polled
    next => exact { polled with }
  next status after _ result =>
    rw [result] at polled
    exact polled

theorem takeResult_sameLoop (authorityCurrent : Bool) (recorded : Status) :
    task.SameLoop (task.takeResult authorityCurrent recorded).2 := by
  fun_cases takeResult task authorityCurrent recorded <;>
    exact ⟨rfl, rfl, rfl, rfl, rfl, rfl, rfl⟩

theorem review_ok {approved : Bool} {world : ReviewWorld} {next : Task}
    (reviewed : task.review approved world = (.ok, next)) :
    task.execution.status = .interrupted ∧ task.pendingReview = true ∧
      task.reviewCancelled = false ∧ task.reviewResumes < maxReviewResumes ∧
      (∃ id, task.reviewCheckpoint = some id) ∧
      next = { task with
        reviewCancelled := !approved
        execution := .queue world.executionId
        identityExecution := some (task.identityExecution.getD task.execution.id)
        reviewResumes := task.reviewResumes + 1
        taken := false
        heartbeatMs := world.nowMs
        observedMs := world.nowMs } := by
  rw [review] at reviewed
  split at reviewed
  next => cases reviewed
  split at reviewed
  next => cases reviewed
  split at reviewed
  next => cases reviewed
  next responsive =>
    split at reviewed
    next => cases reviewed
    split at reviewed
    next => cases reviewed
    next pending =>
      split at reviewed
      next => cases reviewed
      next room =>
        split at reviewed
        next => cases reviewed
        split at reviewed
        next failed => exact absurd (congrArg Prod.fst reviewed) failed
        split at reviewed
        next failed => exact absurd (congrArg Prod.fst reviewed) failed
        simp only [ne_eq, not_or, Decidable.not_not, Bool.not_eq_true,
          Bool.not_eq_false', Option.isNone_eq_false_iff] at pending
        simp only [Bool.or_eq_true, not_or, Bool.not_eq_true] at responsive
        refine ⟨pending.1, pending.2.1, responsive.2, Nat.lt_of_not_le room,
          Option.isSome_iff_exists.mp pending.2.2, ?_⟩
        exact (congrArg Prod.snd reviewed).symm

theorem review_failed {approved : Bool} {world : ReviewWorld}
    (failed : (task.review approved world).1 ≠ .ok) : (task.review approved world).2 = task := by
  revert failed
  fun_cases review task approved world
  case case10 => exact fun failed => absurd rfl failed
  all_goals exact fun _ => rfl

theorem loopComplete_kept (summary : Summary) (state : RunState) :
    let completed := task.loopComplete (some summary) (some state)
    completed.2.maxModelTurns = task.maxModelTurns ∧
      completed.2.modelTurns = task.modelTurns ∧
      completed.2.reviewResumes = task.reviewResumes ∧
      completed.2.reviewCancelled = task.reviewCancelled ∧
      completed.2.execution = task.execution ∧
      (completed.1 = .ok → completed.2.pendingReview = true →
        summary.status = "interrupted" ∧ state.loopReason = some "approval_pending" ∧
          completed.2.reviewCheckpoint = summary.checkpointId) := by
  rw [loopComplete]
  dsimp only
  split
  next waits =>
    split
    next => exact ⟨rfl, rfl, rfl, rfl, rfl, fun failed => by cases failed⟩
    next => exact ⟨rfl, rfl, rfl, rfl, rfl, fun _ _ => ⟨waits.1, waits.2.1, rfl⟩⟩
  next => exact ⟨rfl, rfl, rfl, rfl, rfl, fun _ pending => by cases pending⟩

end Task

theorem Execution.finished_work (execution : Execution) :
    execution.work.finished = execution.finished := by
  rw [work]
  split
  next queued => simp [finished, queued, ExecutionStatus.terminal]
  next => rfl

theorem Execution.finished_publish (execution : Execution) (rc : Status)
    (summary : Option Summary) (state : Option RunState) :
    (execution.publish rc summary state).finished = true := by
  rw [finished, publish]
  fun_cases statusFromSummary summary <;> dsimp only <;> split <;> rfl

theorem Execution.publish_interrupted {execution : Execution} {rc : Status}
    {summary : Option Summary} {state : Option RunState}
    (interrupted : (execution.publish rc summary state).status = .interrupted) : rc = .ok := by
  rw [publish] at interrupted
  dsimp only at interrupted
  split at interrupted
  next ok => exact ok
  next => cases interrupted

theorem GraphStatus.of_text_interrupted {status : GraphStatus}
    (text : status.text = some "interrupted") : status = .interrupted := by
  cases status <;> simp [GraphStatus.text] at text ⊢

/-- What holds all through the life of a task with the given limit of turns. -/
structure Life.Kept (turns : Nat) (life : Life) : Prop where
  tool : turns ≠ 0
  limit : life.task.maxModelTurns = turns
  resumes : life.task.reviewResumes ≤ maxReviewResumes
  disciplined : Disciplined turns life.trace
  within : ∀ status ∈ life.ends, status ≠ .stepLimit
  running : life.task.execution.finished = false → ∀ start, life.start = some start →
    Head start.node start.steps life.task life.trace
  waiting : life.task.execution.status = .interrupted → life.task.pendingReview = true →
    life.task.reviewCancelled = false → ∀ id, life.task.reviewCheckpoint = some id →
    ∃ checkpoint, life.checkpoint? id = some checkpoint ∧ checkpoint.node = .tools ∧
      Waiting checkpoint.steps life.task life.trace

namespace Life.Kept

variable {turns : Nat} {life : Life}

theorem toolLoop (kept : life.Kept turns) : life.task.toolLoop = true := by
  simp [Task.toolLoop, kept.limit, kept.tool]

theorem sameLoop (kept : life.Kept turns) {next : Task} (same : life.task.SameLoop next) :
    ({ life with task := next } : Life).Kept turns where
  tool := kept.tool
  limit := same.limit.trans kept.limit
  resumes := same.resumes ▸ kept.resumes
  disciplined := kept.disciplined
  within := kept.within
  running := by
    intro unfinished start begins
    have before : life.task.execution.finished = false := by
      rw [Execution.finished, ← same.status]
      exact unfinished
    exact (kept.running before start begins).congr same.turns same.limit same.resumes
      same.cancelled
  waiting := by
    intro interrupted pending going id stored
    obtain ⟨checkpoint, found, node, waiting⟩ := kept.waiting (same.status ▸ interrupted)
      (same.pending ▸ pending) (same.cancelled ▸ going) id (same.checkpoint ▸ stored)
    refine ⟨checkpoint, found, node, ?_, waiting.clean⟩
    exact waiting.head.congr same.turns same.limit (congrArg (· + 1) same.resumes) same.cancelled

theorem cancel (kept : life.Kept turns) (signalled : Status) :
    (life.cancel signalled).Kept turns := by
  rw [Life.cancel, Task.cancel]
  split
  next => simpa using kept
  split
  next pending =>
    have ended : life.task.execution.finished = true := by
      simp [Execution.finished, pending.2.1, ExecutionStatus.terminal]
    exact {
      tool := kept.tool
      limit := kept.limit
      resumes := kept.resumes
      disciplined := by
        dsimp only
        split
        next => exact kept.disciplined.append .cancelled rfl
        next => exact kept.disciplined
      within := kept.within
      running := fun unfinished => by
        change life.task.execution.finished = false at unfinished
        rw [ended] at unfinished
        cases unfinished
      waiting := fun _ _ going => by cases going }
  next => simpa using kept

theorem review (kept : life.Kept turns) (approved : Bool) (world : ReviewWorld) :
    (life.review approved world).Kept turns := by
  rw [Life.review]
  split
  next next reviewed =>
    obtain ⟨interrupted, pending, going, room, ⟨id, stored⟩, rfl⟩ := life.task.review_ok reviewed
    obtain ⟨checkpoint, found, node, waiting⟩ := kept.waiting interrupted pending going id stored
    have start : life.task.reviewCheckpoint.bind life.checkpoint? = some checkpoint := by
      rw [stored]
      exact found
    exact {
      tool := kept.tool
      limit := kept.limit
      resumes := room
      disciplined := by
        dsimp only
        split
        next => exact kept.disciplined
        next => exact kept.disciplined.append .rejected rfl
      within := kept.within
      running := by
        intro _ begins same
        rw [start] at same
        cases same
        rw [node]
        cases approved with
        | true => exact waiting.head.congr rfl rfl rfl going.symm
        | false =>
            have head := waiting.head
            exact {
              turns := by simpa [isModel] using head.turns
              below := by simpa [isModel] using head.below
              owed := by simpa [isModel, settled] using head.owed
              counted := by simpa [isModel, settled] using head.counted
              orderly := head.orderly.append .rejected (.inr rfl)
              clean := .inr ⟨rfl, rfl⟩ }
      waiting := fun interrupted => by cases interrupted }
  next status next failed reviewed =>
    have same : next = life.task := by
      have other : (life.task.review approved world).1 ≠ .ok := by
        rw [reviewed]
        exact failed
      have unchanged := life.task.review_failed other
      rw [reviewed] at unchanged
      exact unchanged
    rw [same]
    exact kept

theorem failed (kept : life.Kept turns) {state : Option RunState}
    (unfinished : life.task.execution.finished = false) (turned : life.task.Turned task)
    {trace : List LoopEvent} (disciplined : Disciplined turns trace) {ends : List GraphStatus}
    (within : ∀ status ∈ ends, status ≠ .stepLimit) :
    ({ life with
      task := task.finish .unclassified none state
      trace
      ends := ends } : Life).Kept turns := by
  obtain ⟨limit, resumes, -, execution, -⟩ := turned.fixed
  have finished : task.finish .unclassified none state =
      { task with execution := task.execution.publish .unclassified none state } := by
    rw [Task.finish, execution, unfinished]
    simp
  rw [finished]
  exact {
    tool := kept.tool
    limit := limit.trans kept.limit
    resumes := resumes ▸ kept.resumes
    disciplined
    within
    running := fun unfinished => by
      simp [Execution.publish, Execution.finished, ExecutionStatus.terminal] at unfinished
    waiting := fun interrupted => by simp [Execution.publish] at interrupted }

theorem finish_ok (unfinished : task.execution.finished = false) (tool : task.toolLoop = true)
    (summary : Summary) (state : RunState) :
    let completed := task.loopComplete (some summary) (some state)
    task.finish .ok (some summary) (some state) =
      { completed.2 with
        execution := completed.2.execution.publish completed.1 (some summary) (some state) } := by
  rw [Task.finish, unfinished]
  simp [tool]

theorem recorded (kept : life.Kept turns) (unfinished : life.task.execution.finished = false)
    (safe : GraphSafe life.task graphEnd) {ends : List GraphStatus}
    (within : ∀ status ∈ ends, status ≠ .stepLimit) {summary : Summary} {state : RunState}
    {checkpoints : List (String × Checkpoint)}
    (reason : state.loopReason = some graphEnd.loop.reason)
    (interrupted : summary.status = "interrupted" → graphEnd.status = .interrupted)
    (stored : graphEnd.status = .interrupted → ∀ checkpoint,
      graphEnd.checkpoint = some checkpoint → ∃ id rest,
        summary.checkpointId = some id ∧ checkpoints = (id, checkpoint) :: rest) :
    ({ life with
      task := graphEnd.loop.task.finish .ok (some summary) (some state)
      checkpoints
      trace := graphEnd.loop.trace
      ends := ends } : Life).Kept turns := by
  obtain ⟨limit, resumes, -, execution, -⟩ := safe.turned.fixed
  have tool : graphEnd.loop.task.toolLoop = true := by
    simp [Task.toolLoop, limit, kept.limit, kept.tool]
  rw [finish_ok (execution ▸ unfinished) tool]
  obtain ⟨sameLimit, sameTurns, sameResumes, sameCancelled, -, waits⟩ :=
    graphEnd.loop.task.loopComplete_kept summary state
  exact {
    tool := kept.tool
    limit := sameLimit.trans (limit.trans kept.limit)
    resumes := (sameResumes.trans resumes) ▸ kept.resumes
    disciplined := kept.limit ▸ safe.disciplined
    within
    running := fun running => by
      rw [Execution.finished_publish] at running
      cases running
    waiting := by
      intro published pending going id named
      have rc := Execution.publish_interrupted published
      obtain ⟨isInterrupted, isPending, sameId⟩ := waits rc pending
      have ended := interrupted isInterrupted
      rw [reason, Option.some.injEq] at isPending
      obtain ⟨checkpoint, emitted, node, waiting⟩ := safe.waits ended isPending
      obtain ⟨savedId, rest, saved, rfl⟩ := stored ended checkpoint emitted
      have same : id = savedId := Option.some.inj (named.symm.trans (sameId.trans saved))
      refine ⟨checkpoint, by simp [Life.checkpoint?, same], node, ?_, waiting.clean⟩
      exact waiting.head.congr sameTurns sameLimit (congrArg (· + 1) sameResumes)
        sameCancelled }

theorem publish (kept : life.Kept turns) (unfinished : life.task.execution.finished = false)
    (safe : GraphSafe life.task graphEnd) (world : SegmentWorld) :
    (life.publish world graphEnd).Kept turns := by
  have disciplined : Disciplined turns graphEnd.loop.trace := kept.limit ▸ safe.disciplined
  have within : ∀ status ∈ life.ends ++ [graphEnd.status], status ≠ .stepLimit := by
    exact List.forall_mem_append.mpr ⟨kept.within, List.forall_mem_singleton.mpr safe.within⟩
  rw [Life.publish]
  dsimp only
  split
  next => exact kept.failed unfinished safe.turned disciplined within
  next status ended =>
    split
    next => exact kept.failed unfinished safe.turned disciplined within
    refine kept.recorded unfinished safe within rfl ?_ ?_
    · intro interrupted
      exact GraphStatus.of_text_interrupted (ended.trans (congrArg some interrupted))
    · intro interrupted checkpoint emitted
      rw [interrupted, emitted]
      exact ⟨_, _, rfl, rfl⟩

theorem worked (kept : life.Kept turns) (unfinished : life.task.execution.finished = false) :
    ({ life with task := { life.task with execution := life.task.execution.work } } : Life).Kept
      turns where
  tool := kept.tool
  limit := kept.limit
  resumes := kept.resumes
  disciplined := kept.disciplined
  within := kept.within
  running := fun _ start begins =>
    (kept.running unfinished start begins).congr rfl rfl rfl rfl
  waiting := by
    intro interrupted
    have working := life.task.execution.finished_work
    rw [unfinished, Execution.finished, interrupted] at working
    cases working

theorem work (kept : life.Kept turns) (codes : StatusCodes) (world : SegmentWorld) :
    (life.work codes world).Kept turns := by
  rw [Life.work]
  split
  next => exact kept
  next unfinished =>
    rw [Bool.not_eq_true] at unfinished
    split
    next => exact kept.failed unfinished ⟨_, rfl⟩ kept.disciplined kept.within
    next start begins =>
      have working : life.task.execution.work.finished = false :=
        life.task.execution.finished_work.trans unfinished
      have budget : life.task.maxSteps ≤ start.steps + (life.task.maxSteps - start.steps) := by
        omega
      have worked := kept.worked unfinished
      let loop : Loop := ⟨{ life.task with execution := life.task.execution.work },
        start.reason, world.reviewRequired, none, life.trace⟩
      have head : Head start.node start.steps loop.task loop.trace :=
        worked.running working start begins
      exact worked.publish working (loop.runGraph_safe codes world.visits
        (life.task.maxSteps - start.steps) none head worked.toolLoop worked.resumes budget) world

theorem perform (kept : life.Kept turns) (codes : StatusCodes) (call : LifeCall) :
    (life.perform codes call).Kept turns := by
  cases call with
  | work world => exact kept.work codes world
  | review approved world => exact kept.review approved world
  | cancel signalled => exact kept.cancel signalled
  | poll nowMs cancelled => exact kept.sameLoop (life.task.poll_sameLoop nowMs cancelled)
  | heartbeat nowMs cancelled =>
      exact kept.sameLoop (life.task.heartbeat_sameLoop nowMs cancelled)
  | takeResult authorityCurrent recorded =>
      exact kept.sameLoop (life.task.takeResult_sameLoop authorityCurrent recorded)

theorem run (kept : life.Kept turns) (codes : StatusCodes) (calls : List LifeCall) :
    (life.run codes calls).Kept turns := by
  induction calls generalizing life with
  | nil => exact kept
  | cons call calls ih => exact ih (kept.perform codes call)

end Life.Kept

namespace Life

theorem submitted_kept (handle : Nat) (request : Request) {maxModelTurns : Nat}
    (tool : maxModelTurns ≠ 0) (admissionId : Option String) (world : State.SubmitWorld)
    (parent : Authority) (selection : State.Selection) :
    (submitted (State.buildTask handle request maxModelTurns admissionId world parent
      selection)).Kept maxModelTurns where
  tool
  limit := rfl
  resumes := Nat.zero_le _
  disciplined := ⟨Nat.zero_le _, Nat.zero_le _, List.Pairwise.nil⟩
  within := by simp [submitted]
  running := by
    intro _ start begins
    cases begins
    exact ⟨rfl, Nat.pos_of_ne_zero tool, rfl, rfl, List.Pairwise.nil,
      .inl fun event member => nomatch member⟩
  waiting := fun interrupted => by cases interrupted

/-- Over the whole life of a tool loop the model is called within its limit, the host's
tool node settles one dispatch fewer, nothing is entered after the end of the loop, and no
segment runs out of steps.  A call of the model is a visit of `turbo_agent_model_node`, whose
retries are configured separately. -/
theorem toolLoop_disciplined (codes : StatusCodes) (handle : Nat) (request : Request)
    (maxModelTurns : Nat) (tool : maxModelTurns ≠ 0) (admissionId : Option String)
    (world : State.SubmitWorld) (parent : Authority) (selection : State.Selection)
    (calls : List LifeCall) :
    let life := (submitted (State.buildTask handle request maxModelTurns admissionId world
      parent selection)).run codes calls
    models life.trace ≤ maxModelTurns ∧ settledDispatches life.trace ≤ maxModelTurns - 1 ∧
      Orderly life.trace ∧ ∀ status ∈ life.ends, status ≠ .stepLimit := by
  have kept := (submitted_kept handle request tool admissionId world parent selection).run
    codes calls
  exact ⟨kept.disciplined.models_le, kept.disciplined.settled_le, kept.disciplined.orderly,
    kept.within⟩

/-- A visit whose token is not stopped and whose sinks accept everything. -/
def sampleVisit (toolCalls : Nat) (dispatch : Dispatch) : Visit :=
  ⟨none, true, ⟨true, .answered toolCalls, true⟩,
    ⟨true, true, true, true, .ok, true, dispatch, true, true⟩, true, true, true, none⟩

def sampleSegment (checkpointId : String) (visits : Nat → Visit) : SegmentWorld :=
  ⟨visits, true, "run_1", checkpointId, true, none, 0, some "done"⟩

/-- The model proposes a tool that waits for its approval.  Approved, the tool succeeds and
the model answers. -/
def sampleLife : List LifeCall :=
  [.work (sampleSegment "first" fun _ => sampleVisit 1 .suspended),
    .poll 10 .ok,
    .review true ⟨true, 11, .ok, .ok, "again"⟩,
    .work (sampleSegment "second" fun steps => sampleVisit (3 - steps) .succeeded)]

def sampleToolLoop : Task :=
  State.buildTask 0 State.sampleRequest 2 none State.sampleWorld ⟨4, 1⟩ ⟨0, ⟨0, 1⟩, 2⟩

theorem toolLoop_disciplined_sample :
    ((submitted sampleToolLoop).run sampleCodes sampleLife).trace =
        [.model, .dispatch .suspended, .dispatch .succeeded, .model] ∧
      models ((submitted sampleToolLoop).run sampleCodes sampleLife).trace ≤ 2 ∧
      settledDispatches ((submitted sampleToolLoop).run sampleCodes sampleLife).trace ≤ 1 ∧
      Orderly ((submitted sampleToolLoop).run sampleCodes sampleLife).trace ∧
      ∀ status ∈ ((submitted sampleToolLoop).run sampleCodes sampleLife).ends,
        status ≠ .stepLimit :=
  ⟨by decide +kernel, toolLoop_disciplined sampleCodes 0 State.sampleRequest 2 (by decide) none
    State.sampleWorld ⟨4, 1⟩ ⟨0, ⟨0, 1⟩, 2⟩ sampleLife⟩

end Life

end TurboAgent.Router
