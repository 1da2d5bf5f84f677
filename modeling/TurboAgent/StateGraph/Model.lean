import TurboAgent.Logic.Loop
import TurboAgent.StateGraph.Channel

/-!
# Runs of a state graph

A run goes from node to node.  It calls the node, applies the update that the callback leaves to
its state, serves the updates that the callback sends to other nodes, and goes on at the node
that the callback names or at the target of the first edge whose predicate holds.  The states a
run comes to are recorded in the history of the graph.

What `user_data` points to is a world of any type, which callbacks and predicates read and
change; they do not call the graph that calls them.
-/

namespace TurboAgent.StateGraph

open Logic

/-- `turbo_state_graph_pending_send_t`. -/
structure Send where
  targetNode : String
  update : Json

/-- The result of a node callback and what it leaves in its context. -/
structure Called (World : Type) where
  status : Int
  update : Json
  sends : List Send
  nextNode : Option String
  stop : Bool
  world : World

/-- `turbo_state_graph_node_entry_t`: a callback of a state, a node and a step. -/
structure Node (World : Type) where
  name : String
  call : World → Json → String → Nat → Called World

/-- `turbo_state_graph_edge_entry_t`. -/
structure Edge (World : Type) where
  (fromIndex toIndex : Nat)
  predicate : Option (World → Json → Int × World)

/-- `turbo_state_graph_thread_entry_t`. -/
structure Thread where
  id : String
  currentRunId : Option String

/-- `turbo_state_graph_source_kind_t`. -/
inductive SourceKind where
  | start
  | node
  | host
  | fork
  deriving DecidableEq

/-- `turbo_state_graph_history_entry_t`. -/
structure HistoryEntry where
  (id checkpointId threadId runId : String)
  (sourceName reason lastNode nextNode : Option String)
  sourceKind : SourceKind
  step : Nat
  (update state : Json)

/-- `turbo_state_graph_run_entry_t`. -/
structure Run where
  (id threadId : String)
  (parentRunId forkedFromHistoryId latestHistoryEntryId currentNode : Option String)
  steps : Nat
  (interrupted completed : Bool)
  state : Json

/-- The history of a graph and the counters of its identifiers. -/
structure Ledger where
  entries : List HistoryEntry
  (nextHistoryId nextCheckpointId : Nat)

/-- The update of a node that was merged into the state of a run: in which step, and in which
place of it.  The node of the step has the first place, the targets of its sends the others. -/
structure Application where
  runId : String
  (step place : Nat)
  deriving DecidableEq

/-- `turbo_state_graph_t`, with the world, and with the updates of nodes merged so far, which
the code does not keep. -/
structure Graph (World : Type) where
  entryNode : Option String
  channels : List Channel
  nodes : List (Node World)
  edges : List (Edge World)
  threads : List Thread
  runs : List Run
  ledger : Ledger
  (nextThreadId nextRunId : Nat)
  world : World
  applied : List Application

/-- `turbo_state_graph_run_options_t`; no options are those with zeros only. -/
structure RunOptions where
  maxSteps : Nat
  startNode : Option String
  interruptBeforeNodes : List String
  skipInitialInterrupt : Bool

/-- `turbo_state_graph_run_result_t`. -/
structure RunResult where
  status : Status
  (threadId runId : String)
  (historyEntryId checkpointId lastNode nextNode : Option String)
  steps : Nat

/-- What a call gives back: its status, the result if it is set, and the state if there is
one. -/
structure Outcome where
  status : Status
  result : Option RunResult
  state : Option Json

/-- `turbo_state_graph_make_id`. -/
def makeId (label : String) (value : Nat) : String := label ++ "-" ++ Nat.repr value

/-- `turbo_state_graph_find_node_index`, with the node. -/
def findNode {World : Type} (nodes : List (Node World)) (name : String) :
    Option (Node World × Nat) :=
  nodes.zipIdx.find? fun entry => entry.1.name == name

def nodeName {World : Type} (nodes : List (Node World)) (index : Nat) : String :=
  (nodes[index]?.map Node.name).getD ""

/-- `turbo_state_graph_find_history`. -/
def Ledger.findHistory (ledger : Ledger) (id : String) : Option HistoryEntry :=
  ledger.entries.find? fun entry => entry.id == id

/-- `turbo_state_graph_add_history_record`, of the state of the run. -/
def addHistoryRecord (ledger : Ledger) (run : Run) (sourceKind : SourceKind)
    (sourceName reason lastNode nextNode : Option String) (step : Nat) (update : Json) :
    Ledger × Run × HistoryEntry :=
  let entry : HistoryEntry :=
    { id := makeId "history" (ledger.nextHistoryId + 1)
      checkpointId := makeId "checkpoint" (ledger.nextCheckpointId + 1)
      threadId := run.threadId
      runId := run.id
      sourceName, reason, lastNode, nextNode, sourceKind, step, update
      state := run.state }
  (⟨ledger.entries ++ [entry], ledger.nextHistoryId + 1, ledger.nextCheckpointId + 1⟩,
    { run with latestHistoryEntryId := some entry.id }, entry)

/-! ## Execution -/

/-- The variables of `turbo_state_graph_execute_run` and what it changes of the graph. -/
structure Execution (World : Type) where
  ledger : Ledger
  run : Run
  world : World
  applied : List Application
  currentNode : String
  steps : Nat
  skipInitialInterrupt : Bool
  latestHistory : Option HistoryEntry

namespace Execution

variable {World : Type} (execution : Execution World)

/-- `turbo_state_graph_result_init` with the latest entry of the history. -/
def result (status : Status) (nextNode : Option String) : RunResult where
  status
  threadId := execution.run.threadId
  runId := execution.run.id
  historyEntryId := execution.latestHistory.map HistoryEntry.id
  checkpointId := execution.latestHistory.map HistoryEntry.checkpointId
  lastNode := execution.latestHistory.bind HistoryEntry.lastNode
  nextNode
  steps := execution.steps

def record (sourceName : String) (reason lastNode nextNode : Option String) (step : Nat)
    (update : Json) : Execution World :=
  let added := addHistoryRecord execution.ledger execution.run .node (some sourceName) reason
    lastNode nextNode step update
  { execution with ledger := added.1, run := added.2.1, latestHistory := some added.2.2 }

def setState (state : Json) : Execution World :=
  { execution with run := { execution.run with state } }

/-- Note that the update of a node was merged. -/
def note (step place : Nat) : Execution World :=
  { execution with applied := execution.applied ++ [⟨execution.run.id, step, place⟩] }

end Execution

section

variable {World : Type} (library : JsonLibrary) (graph : Graph World)

def applyNodeUpdate (update : Json) (step place : Nat) (execution : Execution World) :
    Status × Execution World :=
  let applied := applyUpdate library graph.channels execution.run.state update
  if applied.1 = .ok then (.ok, (execution.setState applied.2).note step place)
  else (applied.1, execution.setState applied.2)

/-- What the callback of a send's target may leave: only an update. -/
def Called.isPlain (called : Called World) : Bool :=
  called.status == 0 && called.sends.isEmpty && called.nextNode.isNone && !called.stop

/-- The second half of `turbo_state_graph_execute_send_node`: the target is called. -/
def callSendTarget (node : Node World) (step place : Nat) (execution : Execution World) :
    Status × Execution World :=
  let called := node.call execution.world execution.run.state node.name step
  let execution := { execution with world := called.world }
  if called.isPlain then
    let applied := applyNodeUpdate library graph called.update step place execution
    if applied.1 = .ok then
      (.ok, applied.2.record node.name (some "send_target") (some node.name) none step
        called.update)
    else applied
  else (.error, execution)

/-- `turbo_state_graph_execute_send_node`. -/
def executeSendNode (send : Send) (step place : Nat) (execution : Execution World) :
    Status × Execution World :=
  if send.update.isObject then
    match findNode graph.nodes send.targetNode with
    | none => (.nodeNotFound, execution)
    | some (node, _) =>
        let applied := applyUpdate library graph.channels execution.run.state send.update
        let execution := execution.setState applied.2
        if applied.1 = .ok then
          callSendTarget library graph node step place
            (execution.record send.targetNode (some "send") none (some send.targetNode) step
              send.update)
        else (applied.1, execution)
  else (.typeMismatch, execution)

/-- The sends of a round, up to the first that fails. -/
def executeSends (step : Nat) : List Send → Nat → Execution World → Status × Execution World
  | [], _, execution => (.ok, execution)
  | send :: sends, place, execution =>
      let sent := executeSendNode library graph send step place execution
      if sent.1 = .ok then executeSends step sends (place + 1) sent.2 else sent

/-- The first edge of a node whose predicate holds: `none` if the node has edges and none of
them does. -/
def routeEdges (index : Nat) (state : Json) :
    List (Edge World) → Bool → World → Option (Option String) × World
  | [], sawOutgoing, world => (if sawOutgoing then none else some none, world)
  | edge :: edges, sawOutgoing, world =>
      if edge.fromIndex = index then
        match edge.predicate with
        | none => (some (some (nodeName graph.nodes edge.toIndex)), world)
        | some predicate =>
            if (predicate world state).1 ≠ 0 then
              (some (some (nodeName graph.nodes edge.toIndex)), (predicate world state).2)
            else routeEdges index state edges true (predicate world state).2
      else routeEdges index state edges sawOutgoing world

/-- The next node: the choice of the callback, or an edge. -/
def resolveNext (index : Nat) (chosen : Option String) (execution : Execution World) :
    Option (Option String) × World :=
  match chosen with
  | some next => (some (some next), execution.world)
  | none => routeEdges graph index execution.run.state graph.edges false execution.world

/-- A round that ends the run, or goes on with it. -/
abbrev Round (World : Type) := Execution World ⊕ Execution World × Outcome

def failRound (execution : Execution World) (status : Status) : Round World :=
  .inr (execution, ⟨status, none, none⟩)

/-- The end of a round: the step is over, and the state is recorded. -/
def concludeRound (node : Node World) (called : Called World) (next : Option String)
    (execution : Execution World) : Round World :=
  let steps := execution.steps + 1
  let run := { execution.run with
    steps, currentNode := next, interrupted := false, completed := next.isNone }
  let execution := { execution with run, steps }.record node.name none (some node.name) next
    steps called.update
  if called.stop then
    let run := { execution.run with currentNode := none, completed := true, interrupted := false }
    .inr ({ execution with run },
      ⟨.stop, some (execution.result .stop none), some execution.run.state⟩)
  else
    match next with
    | some next => .inl { execution with currentNode := next }
    | none => .inr (execution, ⟨.ok, some (execution.result .ok none), some execution.run.state⟩)

def settleCall (node : Node World) (index : Nat) (called : Called World)
    (execution : Execution World) : Round World :=
  if called.status = 0 then
    let step := execution.steps + 1
    let applied := applyNodeUpdate library graph called.update step 0 execution
    if applied.1 = .ok then
      let sent := executeSends library graph step called.sends 1 applied.2
      if sent.1 = .ok then
        let resolved := resolveNext graph index called.nextNode sent.2
        let execution := { sent.2 with world := resolved.2 }
        match resolved.1 with
        | some next => concludeRound node called next execution
        | none => failRound execution .routeNotFound
      else failRound sent.2 sent.1
    else failRound applied.2 applied.1
  else failRound execution .error

/-- `turbo_state_graph_should_interrupt_before`. -/
def shouldInterruptBefore (options : RunOptions) (name : String) : Bool :=
  options.interruptBeforeNodes.contains name

/-- One round of the loop of `turbo_state_graph_execute_run`. -/
def round (options : RunOptions) (execution : Execution World) : Round World :=
  if 0 < options.maxSteps ∧ options.maxSteps ≤ execution.steps then
    let run := { execution.run with
      currentNode := some execution.currentNode, interrupted := false, completed := false }
    .inr ({ execution with run },
      ⟨.stepLimit, some (execution.result .stepLimit (some execution.currentNode)), none⟩)
  else if !execution.skipInitialInterrupt &&
      shouldInterruptBefore options execution.currentNode then
    let run := { execution.run with
      currentNode := some execution.currentNode, interrupted := true, completed := false }
    .inr ({ execution with run },
      ⟨.interrupted, some (execution.result .interrupted (some execution.currentNode)),
        some execution.run.state⟩)
  else
    let execution := { execution with skipInitialInterrupt := false }
    match findNode graph.nodes execution.currentNode with
    | none => failRound execution .nodeNotFound
    | some (node, index) =>
        let called := node.call execution.world execution.run.state node.name execution.steps
        settleCall library graph node index called { execution with world := called.world }

/-- The round calls a node: neither the step limit nor an interrupt ends it. -/
def Proceeds (options : RunOptions) (execution : Execution World) : Prop :=
  ¬(0 < options.maxSteps ∧ options.maxSteps ≤ execution.steps) ∧
    (!execution.skipInitialInterrupt &&
      shouldInterruptBefore options execution.currentNode) = false

/-- The part of a round after its checks: the node is called. -/
def advance (execution : Execution World) : Round World :=
  match findNode graph.nodes execution.currentNode with
  | none => failRound execution .nodeNotFound
  | some (node, index) =>
      let called := node.call execution.world execution.run.state node.name execution.steps
      settleCall library graph node index called { execution with world := called.world }

def suspend (options : RunOptions) (execution : Execution World) : Execution World × Outcome :=
  let limit := 0 < options.maxSteps ∧ options.maxSteps ≤ execution.steps
  let status : Status := if limit then .stepLimit else .interrupted
  let run := { execution.run with
    currentNode := some execution.currentNode
    interrupted := status == .interrupted
    completed := false }
  ({ execution with run },
    ⟨status, some (execution.result status (some execution.currentNode)),
      if limit then none else some execution.run.state⟩)

def executionOf : Round World → Execution World
  | .inl execution => execution
  | .inr (execution, _) => execution

variable {library graph}
variable {options : RunOptions} {execution : Execution World}

theorem round_proceeds (proceeds : Proceeds options execution) :
    round library graph options execution =
      advance library graph { execution with skipInitialInterrupt := false } := by
  unfold round
  rw [if_neg proceeds.1, if_neg (by simp [proceeds.2])]
  rfl

theorem round_suspends (stops : ¬Proceeds options execution) :
    round library graph options execution = .inr (suspend options execution) := by
  unfold round suspend
  by_cases limit : 0 < options.maxSteps ∧ options.maxSteps ≤ execution.steps
  · simp only [if_pos limit]
    rfl
  · have interrupt : (!execution.skipInitialInterrupt &&
        shouldInterruptBefore options execution.currentNode) = true := by
      by_contra passes
      exact stops ⟨limit, by simpa using passes⟩
    rw [if_neg limit, if_pos interrupt]
    simp only [if_neg limit]
    rfl

theorem ends_kept {last : Execution World} {outcome : Outcome} (inv : Execution World → Prop)
    (start : inv execution)
    (kept : ∀ later, Loop.Visits (round library graph options) execution later → inv later →
      inv (executionOf (round library graph options later)))
    (ends : Loop.Ends (round library graph options) execution (last, outcome)) : inv last := by
  apply ends.invariant inv (fun result => inv result.1) start
  · intro later next visited holds goesOn
    have keptNext := kept later visited holds
    rw [goesOn] at keptNext
    exact keptNext
  · intro later result visited holds done
    have keptLast := kept later visited holds
    rw [done] at keptLast
    exact keptLast

end

end TurboAgent.StateGraph
