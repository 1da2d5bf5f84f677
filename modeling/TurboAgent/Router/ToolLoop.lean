import TurboAgent.Router.Observation

/-!
# The tool loop of a task

A task of a tool loop runs a graph of two nodes, `model` and `tools`.  The worker runs the
graph from its entry or from the checkpoint of a review, the completion hook keeps the
checkpoint of a dispatch that waits for an approval, and a review resumes from there with
the steps counted so far.

What the nodes meet (model outputs, tool outcomes, authority, memory, cancellation) is an
argument, one `Visit` a step.  The calls of the model and the entries of the host's tool
node are recorded in a trace.
-/

namespace TurboAgent.Router

inductive Node where
  | model
  | tools
  deriving DecidableEq

inductive Stop where
  | cancelled
  | deadline
  deriving DecidableEq

/-- What `turbo_agent_tool_node_checked` reports of a dispatch: an error, a suspension for
an approval, or the outcome of the check. -/
inductive Dispatch where
  | error
  | suspended
  | succeeded
  | failed
  | invalid
  deriving DecidableEq

/-- What is recorded of a loop: calls of the model, entries of the host's tool node, tools
denied before it, and reviews that end the loop. -/
inductive LoopEvent where
  | model
  | dispatch (dispatch : Dispatch)
  | denied (reason : String)
  | rejected
  | cancelled
  deriving DecidableEq

/-- The loop as the worker holds it: the task, the reason of `router_tool_loop` and the
review in the state, and the cancel token. -/
structure Loop where
  task : Task
  reason : String
  reviewRequired : Bool
  token : Option Stop
  trace : List LoopEvent

/-- How a node ends: its status, and what it has set in its context. -/
structure NodeEnd where
  rc : Status
  next : Option Node
  stop : Bool
  loop : Loop

namespace Loop

def note (loop : Loop) (event : LoopEvent) : Loop :=
  { loop with trace := loop.trace ++ [event] }

/-- `router_loop_record`, then the given end; `recorded` tells whether there was memory. -/
def record (loop : Loop) (recorded : Bool) (reason : String) (next : Option Node)
    (stop : Bool) : NodeEnd :=
  if recorded then ⟨.ok, next, stop, { loop with reason }⟩
  else ⟨.enomem, none, false, loop⟩

/-- `router_loop_halt`. -/
def halt (loop : Loop) (node : Node) (recorded : Bool) (reason : String) : NodeEnd :=
  loop.record recorded reason (some node) true

/-- What `turbo_agent_model_node` does: it fails, it is stopped by the token, or the model
answers with a number of tool calls. -/
inductive ModelOutput where
  | failed
  | stopped (stop : Stop)
  | answered (toolCalls : Nat)
  deriving DecidableEq

structure ModelVisit where
  authorityCurrent : Bool
  output : ModelOutput
  recorded : Bool

/-- The part of `router_model_node` after the model has answered. -/
def answered (loop : Loop) (visit : ModelVisit) (toolCalls : Nat) : NodeEnd :=
  if !loop.task.toolLoop then ⟨.ok, none, false, loop⟩
  else if toolCalls = 0 then loop.record visit.recorded "completed" none false
  else if loop.task.maxModelTurns ≤ loop.task.modelTurns then
    -- the last turn is reserved for the result of the previous tool
    loop.halt .model visit.recorded "turn_limit"
  else loop.record visit.recorded "tool_proposed" (some .tools) false

def countTurn (loop : Loop) : Loop :=
  if loop.task.toolLoop then
    { loop with task := { loop.task with modelTurns := loop.task.modelTurns + 1 } }
  else loop

/-- `router_model_node`. -/
def modelNode (loop : Loop) (visit : ModelVisit) : NodeEnd :=
  if !visit.authorityCurrent then ⟨.eperm, none, false, loop⟩
  else if loop.task.toolLoop ∧ loop.task.maxModelTurns ≤ loop.task.modelTurns then
    loop.halt .model visit.recorded "turn_limit"
  else
    let loop := loop.countTurn.note .model
    match visit.output with
    | .failed => ⟨.unclassified, none, false, loop⟩
    | .stopped stop => ⟨.ok, some .model, false, { loop with token := some stop }⟩
    | .answered toolCalls => loop.answered visit toolCalls

/-- What the tools node meets.  `acquired` is the result of `router_host_tool_acquire`. -/
structure ToolsVisit where
  (authorityCurrent single childAllows contract : Bool)
  acquired : Status
  stillCurrent : Bool
  dispatch : Dispatch
  (cleared recorded : Bool)

/-- The end of `router_tools_node` after the host's tool node. -/
def dispatched (loop : Loop) (visit : ToolsVisit) : NodeEnd :=
  let loop := loop.note (.dispatch visit.dispatch)
  match visit.dispatch with
  | .error => ⟨.unclassified, none, false, loop⟩
  | .suspended =>
      -- the tool node has set `next` and `stop` before the record is written
      let loop := { loop with reviewRequired := true }
      if visit.recorded then
        ⟨.ok, some .tools, true, { loop with reason := "approval_pending" }⟩
      else ⟨.enomem, some .tools, true, loop⟩
  | .failed => loop.halt .tools visit.recorded "tool_failed"
  | .invalid => loop.halt .tools visit.recorded "invalid_tool_result"
  | .succeeded =>
      if !visit.cleared then ⟨.enomem, none, false, loop⟩
      else { loop with reviewRequired := false }.record visit.recorded "tool_completed"
        (some .model) false

/-- `router_tools_node`. -/
def toolsNode (loop : Loop) (visit : ToolsVisit) : NodeEnd :=
  if !visit.authorityCurrent then ⟨.eperm, none, false, loop⟩
  else if loop.task.reviewCancelled then loop.halt .tools visit.recorded "review_rejected"
  else if !visit.single then
    (loop.note (.denied "single_tool_required")).halt .tools visit.recorded "single_tool_required"
  else if !visit.childAllows then
    (loop.note (.denied "child_tool_denied")).halt .tools visit.recorded "child_tool_denied"
  else if !visit.contract then
    (loop.note (.denied "tool_contract_required")).halt .tools visit.recorded
      "tool_contract_required"
  else
    match visit.acquired with
    | .ok =>
        if !visit.stillCurrent then ⟨.eperm, none, false, loop⟩
        else loop.dispatched visit
    | .etimedout =>
        { loop with token := some .deadline }.record visit.recorded "host_tool_deadline"
          (some .tools) false
    | .ecanceled =>
        { loop with token := some .cancelled }.record visit.recorded "host_tool_cancelled"
          (some .tools) false
    | rc => ⟨rc, none, false, loop⟩

end Loop

/-! ## The graph -/

/-- What one round of the graph meets: the token before and after the node, the sinks of
trace events and checkpoints, and the nodes. -/
structure Visit where
  before : Option Stop
  started : Bool
  model : Loop.ModelVisit
  tools : Loop.ToolsVisit
  (ended routed saved : Bool)
  after : Option Stop

/-- `turbo_graph_exec_status_t`, with one value for the failures of sinks and memory. -/
inductive GraphStatus where
  | ok
  | stop
  | interrupted
  | cancelled
  | deadline
  | error
  | stepLimit
  | sinkFailed
  deriving DecidableEq

def Stop.status : Stop → GraphStatus
  | .cancelled => .cancelled
  | .deadline => .deadline

/-- A checkpoint: the node to continue with, the steps so far, and the reason in the
state. -/
structure Checkpoint where
  node : Node
  steps : Nat
  reason : String
  deriving DecidableEq

/-- The end of a run of the graph with the last checkpoint it has emitted. -/
structure GraphEnd where
  status : GraphStatus
  checkpoint : Option Checkpoint
  loop : Loop

/-- One round of the graph ends the run or goes on with a node. -/
inductive Round where
  | ended (graphEnd : GraphEnd)
  | next (node : Node) (checkpoint : Checkpoint) (loop : Loop)

namespace Loop

def visitNode (loop : Loop) (visit : Visit) : Node → NodeEnd
  | .model => loop.modelNode visit.model
  | .tools => loop.toolsNode visit.tools

def observe (loop : Loop) (stop : Option Stop) : Loop :=
  { loop with token := loop.token.or stop }

/-- What the graph does after a node.  A positive status counts as a stop. -/
def route (codes : StatusCodes) (visit : Visit) (steps : Nat) (checkpoint : Option Checkpoint)
    (nodeEnd : NodeEnd) : Round :=
  let loop := nodeEnd.loop
  if codes.code nodeEnd.rc < 0 then .ended ⟨.error, checkpoint, loop⟩
  else if nodeEnd.stop ∨ 0 < codes.code nodeEnd.rc then
    if !visit.ended then .ended ⟨.sinkFailed, checkpoint, loop⟩
    else
      match nodeEnd.next with
      | some node =>
          if !visit.saved then .ended ⟨.sinkFailed, checkpoint, loop⟩
          else .ended ⟨.interrupted, some ⟨node, steps, loop.reason⟩, loop⟩
      | none => .ended ⟨.stop, checkpoint, loop⟩
  else if !visit.ended then .ended ⟨.sinkFailed, checkpoint, loop⟩
  else
    match nodeEnd.next with
    | none => .ended ⟨if visit.routed then .ok else .sinkFailed, checkpoint, loop⟩
    | some node =>
        if !visit.routed ∨ !visit.saved then .ended ⟨.sinkFailed, checkpoint, loop⟩
        else
          let saved : Checkpoint := ⟨node, steps, loop.reason⟩
          let loop := loop.observe visit.after
          match loop.token with
          | some stop => .ended ⟨stop.status, some saved, loop⟩
          | none => .next node saved loop

/-- `turbo_graph_run_internal_json_value`; `fuel` is what is left of `max_steps`. -/
def runGraph (codes : StatusCodes) (visits : Nat → Visit) :
    (fuel : Nat) → Node → (steps : Nat) → Option Checkpoint → Loop → GraphEnd
  | fuel, node, steps, checkpoint, loop =>
      let visit := visits steps
      let loop := loop.observe visit.before
      match loop.token with
      | some stop =>
          if !visit.saved then ⟨.sinkFailed, checkpoint, loop⟩
          else ⟨stop.status, some ⟨node, steps, loop.reason⟩, loop⟩
      | none =>
          match fuel with
          | 0 => ⟨.stepLimit, checkpoint, loop⟩
          | fuel + 1 =>
              if !visit.started then ⟨.sinkFailed, checkpoint, loop⟩
              else
                match route codes visit (steps + 1) checkpoint (loop.visitNode visit node) with
                | .ended graphEnd => graphEnd
                | .next node saved loop =>
                    runGraph codes visits fuel node (steps + 1) (some saved) loop

end Loop

/-! ## Segments and the calls between them -/

def Task.maxSteps (task : Task) : Nat :=
  2 * task.maxModelTurns + maxReviewResumes + 2

/-- The life of a task: where its queued execution starts, the checkpoints of its runtime
with the latest first, what happened, and how its segments ended. -/
structure Life where
  task : Task
  start : Option Checkpoint
  checkpoints : List (String × Checkpoint)
  trace : List LoopEvent
  ends : List GraphStatus

/-- What a segment meets: the visits, whether the runtime could record its end and under
which ids, and what the rest of the state holds. -/
structure SegmentWorld where
  visits : Nat → Visit
  committed : Bool
  (runId checkpointId : String)
  reviewRequired : Bool
  failureKind : Option String
  pendingToolCalls : Nat
  outputText : Option String

/-- `turbo_runtime_execution_status_text`, for the statuses that end a run with a
summary. -/
def GraphStatus.text : GraphStatus → Option String
  | .ok | .stop => some "completed"
  | .interrupted => some "interrupted"
  | .cancelled => some "cancelled"
  | .deadline => some "timed_out"
  | _ => none

/-- A status with which the runtime records a checkpoint. -/
def GraphStatus.resumable : GraphStatus → Bool
  | .interrupted | .cancelled | .deadline => true
  | _ => false

namespace Life

/-- A task of a tool loop right after its submission. -/
def submitted (task : Task) : Life where
  task
  start := some ⟨.model, 0, "admitted"⟩
  checkpoints := []
  trace := []
  ends := []

/-- The end of a segment: `turbo_runtime_segment_execute` records it and
`turbo_agent_execution_worker` publishes it. -/
def publish (life : Life) (world : SegmentWorld) (graphEnd : GraphEnd) : Life :=
  let task := graphEnd.loop.task
  let state : RunState := ⟨some graphEnd.loop.reason, graphEnd.loop.reviewRequired,
    world.failureKind, world.pendingToolCalls, world.outputText⟩
  let life := { life with
    trace := graphEnd.loop.trace
    ends := life.ends ++ [graphEnd.status] }
  match graphEnd.status.text with
  | none => { life with
      task := task.finish .unclassified none
        (if graphEnd.status = .error then some state else none) }
  | some status =>
      if !world.committed then { life with task := task.finish .unclassified none none }
      else
        let report : RunReport := ⟨world.runId, status,
          if graphEnd.status.resumable then some world.checkpointId else none⟩
        { life with
          task := task.finish .ok (some (task.summarize report)) (some state)
          checkpoints := match graphEnd.status.resumable, graphEnd.checkpoint with
            | true, some checkpoint => (world.checkpointId, checkpoint) :: life.checkpoints
            | _, _ => life.checkpoints }

/-- The worker runs the queued execution to its end. -/
def work (codes : StatusCodes) (life : Life) (world : SegmentWorld) : Life :=
  if life.task.execution.finished then life
  else
    match life.start with
    | none => { life with task := life.task.finish .unclassified none none }
    | some start =>
        let loop : Loop := ⟨{ life.task with execution := life.task.execution.work },
          start.reason, world.reviewRequired, none, life.trace⟩
        life.publish world (loop.runGraph codes world.visits
          (life.task.maxSteps - start.steps) start.node start.steps none)

def checkpoint? (life : Life) (id : String) : Option Checkpoint :=
  (life.checkpoints.find? fun saved => saved.1 = id).map (·.2)

/-- `router_task_review`: the next execution starts from the checkpoint of the review. -/
def review (life : Life) (approved : Bool) (world : ReviewWorld) : Life :=
  match life.task.review approved world with
  | (.ok, task) => { life with
      task
      start := life.task.reviewCheckpoint.bind life.checkpoint?
      trace := if approved then life.trace else life.trace ++ [.rejected] }
  | (_, task) => { life with task }

/-- `turbo_agent_router_task_cancel`. -/
def cancel (life : Life) (signalled : Status) : Life :=
  let task := (life.task.cancel signalled).2
  { life with
    task
    trace := if task.reviewCancelled && !life.task.reviewCancelled then
      life.trace ++ [.cancelled] else life.trace }

end Life

inductive LifeCall where
  | work (world : SegmentWorld)
  | review (approved : Bool) (world : ReviewWorld)
  | cancel (signalled : Status)
  | poll (nowMs : Nat) (cancelled : Status)
  | heartbeat (nowMs : Nat) (cancelled : Status)
  | takeResult (authorityCurrent : Bool) (recorded : Status)

namespace Life

def perform (codes : StatusCodes) (life : Life) : LifeCall → Life
  | .work world => life.work codes world
  | .review approved world => life.review approved world
  | .cancel signalled => life.cancel signalled
  | .poll nowMs cancelled => { life with task := (life.task.poll nowMs cancelled).2 }
  | .heartbeat nowMs cancelled => { life with task := (life.task.heartbeat nowMs cancelled).2 }
  | .takeResult authorityCurrent recorded =>
      { life with task := (life.task.takeResult authorityCurrent recorded).2 }

/-- The life of a task after a sequence of steps. -/
def run (codes : StatusCodes) (life : Life) (calls : List LifeCall) : Life :=
  calls.foldl (fun life call => life.perform codes call) life

end Life

end TurboAgent.Router
