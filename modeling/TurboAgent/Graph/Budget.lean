import TurboAgent.Graph.Control

/-!
# The step budget of a run

A run with a step limit ends, whatever its graph and its callbacks do, and the steps that it
reports are what is left of the limit when it is resumed.  Here the controlled loop runs with
allocations that may fail, and it keeps a list of its calls.

A call has a step of its own, so a callback that remembers its earlier calls is a function of the
step as well.  The counter stays below a limit that is a `size_t`, so it does not wrap.
-/

namespace TurboAgent.Graph

open Logic
open Provider (JsonCodec)

inductive Allocation where
  | traceEvent (detail : String)
  | checkpoint (moment : Moment)
  /-- The copy of the state for a plain callback. -/
  | callState
  /-- The state that a plain callback leaves. -/
  | updatedState
  /-- The copy of the state for the plain predicate of an edge. -/
  | edgeState (edge : Nat)

/-- The allocations of each step that succeed. -/
abbrev Memory := Allocation → Nat → Bool

/-- `turbo_graph_exec_status_t`. -/
inductive LoggedStatus where
  | exec (status : ExecStatus)
  | outOfMemory
  deriving DecidableEq

structure Call where
  node : Node
  step : Nat
  called : Called

/-- The variables of the loop, with its calls so far. -/
structure LoggedWalk extends ControlledWalk where
  calls : List Call

structure LoggedEnded where
  status : LoggedStatus
  (lastNode nextNode : Option String)
  steps : Nat
  state : Json
  emitted : List Checkpoint
  events : List Json
  calls : List Call

section

variable (codec : JsonCodec) (graph : TurboGraph) (options : Options) (control : Control)
  (memory : Memory)

/-- `turbo_graph_emit_trace_event`, or nothing without memory. -/
def tryTraceEvent (name detail payload : String) (status : Int) (step : Nat) (events : List Json) :
    Option (List Json) :=
  if control.eventSink && !memory (.traceEvent detail) step then none
  else some (emitTraceEvent control name detail payload status events)

/-- `turbo_graph_emit_checkpoint_json_value`, or nothing without memory. -/
def tryCheckpoint (moment : Moment) (nextNode : String) (steps : Nat) (state : Json)
    (emitted : List Checkpoint) : Option (List Checkpoint) :=
  if options.checkpointCb && !memory (.checkpoint moment) steps then none
  else some (emitCheckpoint codec graph options nextNode steps state emitted)

inductive CallFailure where
  /-- The callback is not called. -/
  | notCalled
  | missing (called : Called) (next : String)
  | notUpdated (called : Called)

def tryCallNode (node : Node) (state : Json) (step : Nat) : Except CallFailure Called :=
  match node.callback with
  | .jsonValue call => .ok (call state node.name step)
  | .json call =>
      if memory .callState step then
        let called := call state node.name step
        match called.nextNode with
        | none => if memory .updatedState step then .ok called else .error (.notUpdated called)
        | some next =>
            if (findNode graph next).isSome then
              if memory .updatedState step then .ok called else .error (.notUpdated called)
            else .error (.missing called next)
      else .error .notCalled

/-- The first edge of a node whose predicate holds, or nothing without memory. -/
def tryRouteEdges (index : Nat) (state : Json) (node : String) (step : Nat) :
    List (Edge × Nat) → Bool → Option Routed
  | [], outgoing => some (.nowhere outgoing)
  | (edge, position) :: edges, outgoing =>
      if edge.fromIndex ≠ index then tryRouteEdges index state node step edges outgoing
      else
        match edge.predicate with
        | .always => some (.next (nodeName graph edge.toIndex))
        | .jsonValue holds =>
            if holds state node step < 0 then some .failed
            else if 0 < holds state node step then some (.next (nodeName graph edge.toIndex))
            else tryRouteEdges index state node step edges true
        | .json holds =>
            if memory (.edgeState position) step then
              if holds state node step < 0 then some .failed
              else if 0 < holds state node step then some (.next (nodeName graph edge.toIndex))
              else tryRouteEdges index state node step edges true
            else none

/-- The next node of a call: its own choice or an edge. -/
def tryResolveNext (node : Node) (index step : Nat) (called : Called) : Option Routed :=
  match called.nextNode with
  | some next => some (if (findNode graph next).isSome then .next next else .missing next)
  | none => tryRouteEdges graph memory index called.state node.name step graph.edges.zipIdx false

/-- The part of a round behind the event for its next node. -/
def tryGoOn (walk : LoggedWalk) (node : Node) (called : Called) (next : String)
    (events : List Json) : LoggedWalk ⊕ LoggedEnded :=
  let steps := walk.steps + 1
  let calls := walk.calls ++ [⟨node, walk.steps, called⟩]
  let ended (status : LoggedStatus) (emitted : List Checkpoint) : LoggedWalk ⊕ LoggedEnded :=
    .inr ⟨status, some node.name, some next, steps, called.state, emitted, events, calls⟩
  match tryCheckpoint codec graph options memory .afterNode next steps called.state
      walk.emitted with
  | none => ended .outOfMemory walk.emitted
  | some emitted =>
      match cancelStatus control .afterNode steps with
      | some status => ended (.exec status) emitted
      | none =>
          if shouldInterruptBefore options next then ended (.exec (.plain .interrupted)) emitted
          else .inl ⟨⟨⟨next, some node.name, steps, called.state, false, emitted⟩, events⟩, calls⟩

/-- The part of a round after a call that is neither a failure nor a stop. -/
def tryProceed (walk : LoggedWalk) (node : Node) (index : Nat) (called : Called)
    (events : List Json) : LoggedWalk ⊕ LoggedEnded :=
  let ended (status : LoggedStatus) (nextNode : Option String) (events : List Json) :
      LoggedWalk ⊕ LoggedEnded :=
    .inr ⟨status, some node.name, nextNode, walk.steps + 1, called.state, walk.emitted, events,
      walk.calls ++ [⟨node, walk.steps, called⟩]⟩
  match tryTraceEvent control memory "graph.node" "finish" node.name 0 walk.steps events with
  | none => ended .outOfMemory none events
  | some events =>
      match tryResolveNext graph memory node index walk.steps called with
      | none => ended .outOfMemory none events
      | some (.missing next) => ended (.exec (.plain .nodeNotFound)) (some next) events
      | some .failed => ended (.exec (.plain .error)) none events
      | some (.nowhere true) => ended (.exec (.plain .routeNotFound)) none events
      | some (.nowhere false) =>
          match tryTraceEvent control memory "graph.route" "complete" node.name 0 walk.steps
              events with
          | none => ended .outOfMemory none events
          | some events => ended (.exec (.plain .ok)) none events
      | some (.next next) =>
          match tryTraceEvent control memory "graph.route" "next" next 0 walk.steps events with
          | none => ended .outOfMemory (some next) events
          | some events =>
              tryGoOn codec graph options control memory walk node called next events

/-- The part of a round after a call that stops the run. -/
def tryStop (walk : LoggedWalk) (node : Node) (called : Called) (events : List Json) :
    LoggedWalk ⊕ LoggedEnded :=
  let steps := walk.steps + 1
  let ended (status : LoggedStatus) (nextNode : Option String) (emitted : List Checkpoint)
      (events : List Json) : LoggedWalk ⊕ LoggedEnded :=
    .inr ⟨status, some node.name, nextNode, steps, called.state, emitted, events,
      walk.calls ++ [⟨node, walk.steps, called⟩]⟩
  match tryTraceEvent control memory "graph.node" "stop" node.name called.status walk.steps
      events with
  | none => ended .outOfMemory none walk.emitted events
  | some events =>
      match called.nextNode with
      | none => ended (.exec (.plain .stop)) none walk.emitted events
      | some next =>
          if (findNode graph next).isSome then
            match tryCheckpoint codec graph options memory .afterNode next steps called.state
                walk.emitted with
            | none => ended .outOfMemory (some next) walk.emitted events
            | some emitted => ended (.exec (.plain .interrupted)) (some next) emitted events
          else ended (.exec (.plain .nodeNotFound)) (some next) walk.emitted events

def concludeLogged (walk : LoggedWalk) (node : Node) (index : Nat) (called : Called)
    (events : List Json) : LoggedWalk ⊕ LoggedEnded :=
  if called.status < 0 then
    -- Nobody looks at what becomes of this event.
    let last := tryTraceEvent control memory "graph.node" "error" node.name called.status
      walk.steps events
    .inr ⟨.exec (.plain .error), some node.name, none, walk.steps + 1, called.state, walk.emitted,
      last.getD events, walk.calls ++ [⟨node, walk.steps, called⟩]⟩
  else if called.stop ∨ 0 < called.status then
    tryStop codec graph options control memory walk node called events
  else tryProceed codec graph options control memory walk node index called events

/-- The call of a node in a round, and what follows. -/
def tryNode (walk : LoggedWalk) (node : Node) (index : Nat) (events : List Json) :
    LoggedWalk ⊕ LoggedEnded :=
  let ended (status : LoggedStatus) (nextNode : String) (calls : List Call) :
      LoggedWalk ⊕ LoggedEnded :=
    .inr ⟨status, walk.lastNode, some nextNode, walk.steps, walk.state, walk.emitted, events, calls⟩
  match tryCallNode graph memory node walk.state walk.steps with
  | .ok called => concludeLogged codec graph options control memory walk node index called events
  | .error .notCalled => ended .outOfMemory walk.currentNode walk.calls
  -- The step of these calls is not counted.
  | .error (.missing called next) =>
      ended (.exec (.plain .nodeNotFound)) next (walk.calls ++ [⟨node, walk.steps, called⟩])
  | .error (.notUpdated called) =>
      ended .outOfMemory walk.currentNode (walk.calls ++ [⟨node, walk.steps, called⟩])

/-- One round of `turbo_graph_run_internal_json_value`, with its calls. -/
def loggedRound (walk : LoggedWalk) : LoggedWalk ⊕ LoggedEnded :=
  let ended (status : LoggedStatus) (emitted : List Checkpoint) : LoggedWalk ⊕ LoggedEnded :=
    .inr ⟨status, walk.lastNode, some walk.currentNode, walk.steps, walk.state, emitted,
      walk.events, walk.calls⟩
  let emitted := tryCheckpoint codec graph options memory .beforeNode walk.currentNode walk.steps
    walk.state walk.emitted
  match cancelStatus control .beforeNode walk.steps with
  | some status =>
      match emitted with
      | none => ended .outOfMemory walk.emitted
      | some emitted => ended (.exec status) emitted
  | none =>
      if 0 < options.maxSteps ∧ options.maxSteps ≤ walk.steps then
        ended (.exec (.plain .stepLimit)) walk.emitted
      else if !walk.skipInitialInterrupt && shouldInterruptBefore options walk.currentNode then
        match emitted with
        | none => ended .outOfMemory walk.emitted
        | some emitted => ended (.exec (.plain .interrupted)) emitted
      else
        match findNode graph walk.currentNode with
        | none => ended (.exec (.plain .nodeNotFound)) walk.emitted
        | some (node, index) =>
            match tryTraceEvent control memory "graph.node" "start" node.name 0 walk.steps
                walk.events with
            | none => ended .outOfMemory walk.emitted
            | some events => tryNode codec graph options control memory walk node index events

/-- The loop of `turbo_graph_run_internal_json_value`, within a number of rounds. -/
def runLogged (count : Nat) (state : Json) (start : String) (initialSteps : Nat) :
    Option LoggedEnded :=
  Loop.rounds (loggedRound codec graph options control memory) count
    ⟨⟨startWalk options start initialSteps state, []⟩, []⟩

end

def fullMemory : Memory := fun _ _ => true

/-! ## The controlled loop -/

/-- The end of a controlled run, with the calls that the run made. -/
def LoggedEnded.ofControlled (calls : List Call) (ended : ControlledEnded) : LoggedEnded where
  status := .exec ended.result.status
  lastNode := ended.result.lastNode
  nextNode := ended.result.nextNode
  steps := ended.result.steps
  state := ended.state
  emitted := ended.emitted
  events := ended.events
  calls

/-- A round does what another does, and keeps a list of calls beside it. -/
def Keeps (plain : ControlledWalk ⊕ ControlledEnded) (logged : LoggedWalk ⊕ LoggedEnded) : Prop :=
  ∃ calls, logged = plain.map (LoggedWalk.mk · calls) (LoggedEnded.ofControlled calls)

section

variable {codec : JsonCodec} {graph : TurboGraph} {options : Options} {control : Control}

theorem tryTraceEvent_full (name detail payload : String) (status : Int) (step : Nat)
    (events : List Json) : tryTraceEvent control fullMemory name detail payload status step events =
      some (emitTraceEvent control name detail payload status events) :=
  if_neg (by simp [fullMemory])

theorem tryCheckpoint_full (moment : Moment) (nextNode : String) (steps : Nat) (state : Json)
    (emitted : List Checkpoint) :
    tryCheckpoint codec graph options fullMemory moment nextNode steps state emitted =
      some (emitCheckpoint codec graph options nextNode steps state emitted) :=
  if_neg (by simp [fullMemory])

theorem tryRouteEdges_full (index : Nat) (state : Json) (node : String) (step : Nat)
    (edges : List (Edge × Nat)) (outgoing : Bool) :
    tryRouteEdges graph fullMemory index state node step edges outgoing =
      some (routeEdges graph index state node step (edges.map Prod.fst) outgoing) := by
  induction edges generalizing outgoing with
  | nil => rfl
  | cons edge edges ih =>
      obtain ⟨edge, position⟩ := edge
      rw [List.map_cons, tryRouteEdges, routeEdges]
      cases edge.predicate with
      | always => simp only [ih, apply_ite some]
      | json holds | jsonValue holds => simp only [ih, apply_ite some, fullMemory, if_true]

theorem tryResolveNext_full (node : Node) (index step : Nat) (called : Called) :
    tryResolveNext graph fullMemory node index step called =
      some (resolveNext graph node index step called) := by
  rw [tryResolveNext, resolveNext]
  cases called.nextNode with
  | some next => rfl
  | none =>
      dsimp only
      rw [tryRouteEdges_full, List.zipIdx_map_fst]

theorem concludeLogged_full (walk : LoggedWalk) (node : Node) (index : Nat) (called : Called)
    (events : List Json) :
    Keeps (concludeControlled codec graph options control walk.toControlledWalk node index called
        events)
      (concludeLogged codec graph options control fullMemory walk node index called events) := by
  refine ⟨walk.calls ++ [⟨node, walk.steps, called⟩], ?_⟩
  unfold concludeControlled concludeLogged tryStop tryProceed tryGoOn
  simp only [tryTraceEvent_full, tryCheckpoint_full, tryResolveNext_full]
  split
  next => rfl
  split
  next =>
    cases called.nextNode with
    | none => rfl
    | some next =>
        dsimp only
        split <;> rfl
  cases resolveNext graph node index walk.steps called with
  | missing next => rfl
  | failed => rfl
  | nowhere outgoing => cases outgoing <;> rfl
  | next next =>
      dsimp only
      cases cancelStatus control .afterNode (walk.steps + 1) with
      | some status => rfl
      | none =>
          dsimp only
          split <;> rfl

theorem tryCallNode_full (graph : TurboGraph) (node : Node) (state : Json) (step : Nat) :
    (∃ called, callNode graph node state step = .ok called ∧
      tryCallNode graph fullMemory node state step = .ok called) ∨
    ∃ called next, callNode graph node state step = .error next ∧
      tryCallNode graph fullMemory node state step = .error (.missing called next) := by
  unfold callNode tryCallNode
  cases node.callback with
  | jsonValue call => exact .inl ⟨_, rfl, rfl⟩
  | json call =>
      simp only [fullMemory, if_true]
      cases (call state node.name step).nextNode with
      | none => exact .inl ⟨_, rfl, rfl⟩
      | some next =>
          dsimp only
          split
          next => exact .inl ⟨_, rfl, rfl⟩
          next => exact .inr ⟨_, _, rfl, rfl⟩

/-- With enough memory a round is one of the controlled loop, with its call. -/
theorem loggedRound_full (walk : LoggedWalk) :
    Keeps (controlledRound codec graph options control walk.toControlledWalk)
      (loggedRound codec graph options control fullMemory walk) := by
  unfold controlledRound loggedRound tryNode
  simp only [tryTraceEvent_full, tryCheckpoint_full]
  cases cancelStatus control .beforeNode walk.steps with
  | some status => exact ⟨walk.calls, rfl⟩
  | none =>
      dsimp only
      split
      next => exact ⟨walk.calls, rfl⟩
      split
      next => exact ⟨walk.calls, rfl⟩
      cases findNode graph walk.currentNode with
      | none => exact ⟨walk.calls, rfl⟩
      | some found =>
          obtain ⟨node, index⟩ := found
          dsimp only
          obtain ⟨called, plain, logged⟩ | ⟨called, next, plain, logged⟩ :=
            tryCallNode_full graph node walk.state walk.steps
          · rw [plain, logged]
            exact concludeLogged_full ..
          · rw [plain, logged]
            exact ⟨_, rfl⟩

/-- With enough memory a run is a controlled one, with its calls. -/
theorem runLogged_full (count : Nat) (state : Json) (start : String) (initialSteps : Nat) :
    ∃ calls, runLogged codec graph options control fullMemory count state start initialSteps =
      (runInternalJsonValue codec graph options control count state (some start)
        initialSteps).map (LoggedEnded.ofControlled calls) := by
  have rounds : ∀ walk : LoggedWalk, ∃ calls,
      Loop.rounds (loggedRound codec graph options control fullMemory) count walk =
        (Loop.rounds (controlledRound codec graph options control) count
          walk.toControlledWalk).map (LoggedEnded.ofControlled calls) := by
    induction count with
    | zero => exact fun walk => ⟨walk.calls, rfl⟩
    | succ count ih =>
        intro walk
        obtain ⟨calls, same⟩ : Keeps (controlledRound codec graph options control
          walk.toControlledWalk) (loggedRound codec graph options control fullMemory walk) :=
            loggedRound_full walk
        rw [Loop.rounds_succ, Loop.rounds_succ, same]
        cases controlledRound codec graph options control walk.toControlledWalk with
        | inl next => exact ih ⟨next, calls⟩
        | inr ended => exact ⟨calls, rfl⟩
  exact rounds _

end

/-! ## What a round spends -/

section

variable {codec : JsonCodec} {graph : TurboGraph} {options : Options} {control : Control}
  {memory : Memory}

/-- The calls whose step is counted: those of a JSON-value callback, and those of a plain one whose
choice and state are taken over. -/
def Call.counted (graph : TurboGraph) (memory : Memory) (call : Call) : Bool :=
  match call.node.callback with
  | .jsonValue _ => true
  | .json _ =>
      (call.called.nextNode.all fun next => (findNode graph next).isSome) &&
        memory .updatedState call.step

def Concluded (walk : LoggedWalk) (call : Call) : LoggedWalk ⊕ LoggedEnded → Prop
  | .inl next =>
      next.steps = walk.steps + 1 ∧ next.calls = walk.calls ++ [call] ∧ call.called.status = 0
  | .inr ended => ended.steps = walk.steps + 1 ∧ ended.calls = walk.calls ++ [call]

variable {walk : LoggedWalk} {node : Node} {called : Called} {events : List Json}

theorem tryGoOn_concluded {next : String} (fine : called.status = 0) :
    Concluded walk ⟨node, walk.steps, called⟩
      (tryGoOn codec graph options control memory walk node called next events) := by
  unfold tryGoOn
  dsimp only
  split
  next => exact ⟨rfl, rfl⟩
  split
  next => exact ⟨rfl, rfl⟩
  split
  next => exact ⟨rfl, rfl⟩
  next => exact ⟨rfl, rfl, fine⟩

theorem tryProceed_concluded {index : Nat} (fine : called.status = 0) :
    Concluded walk ⟨node, walk.steps, called⟩
      (tryProceed codec graph options control memory walk node index called events) := by
  unfold tryProceed
  dsimp only
  split
  next => exact ⟨rfl, rfl⟩
  split
  next => exact ⟨rfl, rfl⟩
  next => exact ⟨rfl, rfl⟩
  next => exact ⟨rfl, rfl⟩
  next => exact ⟨rfl, rfl⟩
  next => split <;> exact ⟨rfl, rfl⟩
  split
  next => exact ⟨rfl, rfl⟩
  next => exact tryGoOn_concluded fine

theorem tryStop_concluded :
    Concluded walk ⟨node, walk.steps, called⟩
      (tryStop codec graph options control memory walk node called events) := by
  unfold tryStop
  dsimp only
  split
  next => exact ⟨rfl, rfl⟩
  split
  next => exact ⟨rfl, rfl⟩
  split
  next => split <;> exact ⟨rfl, rfl⟩
  next => exact ⟨rfl, rfl⟩

theorem concludeLogged_concluded (walk : LoggedWalk) (node : Node) (index : Nat)
    (called : Called) (events : List Json) :
    Concluded walk ⟨node, walk.steps, called⟩
      (concludeLogged codec graph options control memory walk node index called events) := by
  unfold concludeLogged
  by_cases failed : called.status < 0
  · rw [if_pos failed]
    exact ⟨rfl, rfl⟩
  by_cases stops : called.stop = true ∨ 0 < called.status
  · rw [if_neg failed, if_pos stops]
    exact tryStop_concluded
  · rw [if_neg failed, if_neg stops]
    exact tryProceed_concluded (by omega)

def CallCounts (graph : TurboGraph) (memory : Memory) (node : Node) (step : Nat) :
    Except CallFailure Called → Prop
  | .ok called => Call.counted graph memory ⟨node, step, called⟩ = true
  | .error .notCalled => True
  | .error (.missing called _) | .error (.notUpdated called) =>
      Call.counted graph memory ⟨node, step, called⟩ = false

theorem tryCallNode_counts (node : Node) (state : Json) (step : Nat) :
    CallCounts graph memory node step (tryCallNode graph memory node state step) := by
  unfold tryCallNode
  cases callback : node.callback with
  | jsonValue call => simp [CallCounts, Call.counted, callback]
  | json call =>
      dsimp only
      split
      next =>
        split
        next chosen =>
          split
          next updated => simp [CallCounts, Call.counted, callback, chosen, updated]
          next forgotten => simp [CallCounts, Call.counted, callback, chosen, forgotten]
        next chosen =>
          split
          next found =>
            split
            next updated => simp [CallCounts, Call.counted, callback, chosen, found, updated]
            next forgotten => simp [CallCounts, Call.counted, callback, forgotten]
          next unknown => simp [CallCounts, Call.counted, callback, chosen, unknown]
      next => trivial

/-- What a round spends: where it goes on, one step for one call that is counted; where it ends, at
most one step, for at most one call. -/
def Spends (graph : TurboGraph) (options : Options) (memory : Memory) (walk : LoggedWalk) :
    LoggedWalk ⊕ LoggedEnded → Prop
  | .inl next => ∃ call : Call, call.step = walk.steps ∧ call.counted graph memory = true ∧
      call.called.status = 0 ∧ (0 < options.maxSteps → walk.steps < options.maxSteps) ∧
      next.steps = walk.steps + 1 ∧ next.calls = walk.calls ++ [call]
  | .inr ended => (ended.steps = walk.steps ∧ ended.calls = walk.calls) ∨
      ∃ call : Call, call.step = walk.steps ∧
        (0 < options.maxSteps → walk.steps < options.maxSteps) ∧
        ended.steps = walk.steps + (if call.counted graph memory then 1 else 0) ∧
        ended.calls = walk.calls ++ [call]

theorem tryNode_spends {index : Nat} (below : 0 < options.maxSteps → walk.steps < options.maxSteps) :
    Spends graph options memory walk
      (tryNode codec graph options control memory walk node index events) := by
  have counts : CallCounts graph memory node walk.steps
      (tryCallNode graph memory node walk.state walk.steps) := tryCallNode_counts _ _ _
  unfold tryNode
  cases returned : tryCallNode graph memory node walk.state walk.steps with
  | ok called =>
      rw [returned] at counts
      have concluded : Concluded walk ⟨node, walk.steps, called⟩
          (concludeLogged codec graph options control memory walk node index called events) :=
        concludeLogged_concluded _ _ _ _ _
      dsimp only
      cases after :
        concludeLogged codec graph options control memory walk node index called events with
      | inl next =>
          rw [after] at concluded
          obtain ⟨steps, calls, fine⟩ := concluded
          exact ⟨_, rfl, counts, fine, below, steps, calls⟩
      | inr ended =>
          rw [after] at concluded
          obtain ⟨steps, calls⟩ := concluded
          exact .inr ⟨_, rfl, below, steps.trans (congrArg _ (if_pos counts).symm), calls⟩
  | error failure =>
      rw [returned] at counts
      cases failure with
      | notCalled => exact .inl ⟨rfl, rfl⟩
      | missing called next => exact .inr ⟨_, rfl, below, by simp [Bool.eq_false_iff.mp counts], rfl⟩
      | notUpdated called => exact .inr ⟨_, rfl, below, by simp [Bool.eq_false_iff.mp counts], rfl⟩

theorem loggedRound_spends (walk : LoggedWalk) :
    Spends graph options memory walk (loggedRound codec graph options control memory walk) := by
  unfold loggedRound
  dsimp only
  split
  next => split <;> exact .inl ⟨rfl, rfl⟩
  split
  next => exact .inl ⟨rfl, rfl⟩
  next below =>
    split
    next => split <;> exact .inl ⟨rfl, rfl⟩
    split
    next => exact .inl ⟨rfl, rfl⟩
    split
    next => exact .inl ⟨rfl, rfl⟩
    next => exact tryNode_spends (by omega)

/-! ## What a run spends -/

/-- The calls of a loop that has not ended: each has a step of its own, and all of them count. -/
structure WithinBudget (graph : TurboGraph) (options : Options) (memory : Memory)
    (initialSteps : Nat) (walk : LoggedWalk) : Prop where
  steps : walk.steps = initialSteps + walk.calls.length
  bounded : walk.steps ≤ max options.maxSteps initialSteps
  succeeded : ∀ call ∈ walk.calls, call.counted graph memory = true ∧ call.called.status = 0
  numbered : walk.calls.map Call.step = List.range' initialSteps walk.calls.length

/-- What a run has spent at its end: all calls but the last one have succeeded. -/
structure Budgeted (graph : TurboGraph) (options : Options) (memory : Memory) (initialSteps : Nat)
    (ended : LoggedEnded) : Prop where
  bounded : ended.calls.length ≤ options.maxSteps - initialSteps
  steps : ended.steps =
    initialSteps + (ended.calls.filter fun call => call.counted graph memory).length
  succeeded : ∀ call ∈ ended.calls.dropLast,
    call.counted graph memory = true ∧ call.called.status = 0
  numbered : ended.calls.map Call.step = List.range' initialSteps ended.calls.length

variable {initialSteps : Nat} {walk : LoggedWalk}

theorem WithinBudget.numbered_append (within : WithinBudget graph options memory initialSteps walk)
    {call : Call} (step : call.step = walk.steps) :
    (walk.calls ++ [call]).map Call.step =
      List.range' initialSteps (walk.calls ++ [call]).length := by
  rw [List.map_append, within.numbered, List.length_append, List.map_cons, step, within.steps,
    List.length_singleton, List.range'_concat, Nat.one_mul]
  rfl

theorem WithinBudget.filter_calls (within : WithinBudget graph options memory initialSteps walk) :
    (walk.calls.filter fun call => call.counted graph memory) = walk.calls :=
  List.filter_eq_self.mpr fun call called => (within.succeeded call called).1

theorem WithinBudget.step (limited : 0 < options.maxSteps)
    (within : WithinBudget graph options memory initialSteps walk) {next : LoggedWalk}
    (goesOn : loggedRound codec graph options control memory walk = .inl next) :
    WithinBudget graph options memory initialSteps next ∧ next.steps = walk.steps + 1 := by
  have spends : Spends graph options memory walk
      (loggedRound codec graph options control memory walk) := loggedRound_spends walk
  rw [goesOn] at spends
  obtain ⟨call, step, counted, fine, below, steps, calls⟩ := spends
  have below := below limited
  have counter := within.steps
  refine ⟨⟨?_, ?_, ?_, ?_⟩, steps⟩
  · rw [steps, calls, List.length_append, List.length_singleton]
    omega
  · omega
  · intro other member
    rw [calls, List.mem_append, List.mem_singleton] at member
    rcases member with earlier | rfl
    · exact within.succeeded other earlier
    · exact ⟨counted, fine⟩
  · rw [calls]
    exact within.numbered_append step

theorem WithinBudget.finish (limited : 0 < options.maxSteps)
    (within : WithinBudget graph options memory initialSteps walk) {ended : LoggedEnded}
    (ends : loggedRound codec graph options control memory walk = .inr ended) :
    Budgeted graph options memory initialSteps ended := by
  have spends : Spends graph options memory walk
      (loggedRound codec graph options control memory walk) := loggedRound_spends walk
  rw [ends] at spends
  have counter := within.steps
  have bounded := within.bounded
  rcases spends with ⟨steps, calls⟩ | ⟨call, step, below, steps, calls⟩
  · refine ⟨?_, ?_, ?_, ?_⟩
    · rw [calls]
      omega
    · rw [calls, within.filter_calls, steps, counter]
    · intro other member
      rw [calls] at member
      exact within.succeeded other (List.mem_of_mem_dropLast member)
    · rw [calls]
      exact within.numbered
  · have below := below limited
    refine ⟨?_, ?_, ?_, ?_⟩
    · rw [calls, List.length_append, List.length_singleton]
      omega
    · rw [calls, List.filter_append, within.filter_calls, List.length_append, steps, counter,
        Nat.add_assoc]
      congr 2
      cases counted : call.counted graph memory <;> simp [counted]
    · intro other member
      rw [calls, List.dropLast_concat] at member
      exact within.succeeded other member
    · rw [calls]
      exact within.numbered_append step

end

/-- Whatever the graph, its callbacks, the token and the memory are, a run with a step limit ends
within as many rounds as are left of the limit and one more.  It calls no more nodes than are left,
each with a step of its own, and it reports the steps at its start and one more for each call, failed
or not, whose outcome is taken over. -/
theorem run_budgeted (codec : JsonCodec) (graph : TurboGraph) (options : Options)
    (control : Control) (memory : Memory) (state : Json) (start : String) (initialSteps : Nat)
    (limited : 0 < options.maxSteps) :
    ∃ ended, runLogged codec graph options control memory (options.maxSteps - initialSteps + 1)
        state start initialSteps = some ended ∧
      Budgeted graph options memory initialSteps ended := by
  have starts : WithinBudget graph options memory initialSteps
      ⟨⟨startWalk options start initialSteps state, []⟩, []⟩ :=
    ⟨rfl, le_max_right _ _, fun _ member => (List.not_mem_nil member).elim, rfl⟩
  have goOn : ∀ walk next, WithinBudget graph options memory initialSteps walk →
      loggedRound codec graph options control memory walk = .inl next →
      WithinBudget graph options memory initialSteps next ∧ next.steps = walk.steps + 1 :=
    fun _ _ within goesOn => within.step limited goesOn
  obtain ⟨ended, within⟩ := Loop.rounds_of_growing goOn (fun _ within => within.bounded) starts
  have enough : max options.maxSteps initialSteps + 1 - initialSteps =
      options.maxSteps - initialSteps + 1 := by omega
  have ends : Loop.Ends (loggedRound codec graph options control memory)
      ⟨⟨startWalk options start initialSteps state, []⟩, []⟩ ended := ⟨_, within⟩
  refine ⟨ended, enough ▸ within, ?_⟩
  exact ends.invariant (WithinBudget graph options memory initialSteps)
    (Budgeted graph options memory initialSteps) starts
    (fun _ _ _ within goesOn => (goOn _ _ within goesOn).1)
    (fun _ _ _ within done => within.finish limited done)

def oneNode (plain : Bool) (status : Int) (next : Option String) : TurboGraph where
  name := "one"
  entryNode := some "node"
  nodes := [⟨"node", "node",
    let call : NodeFn := fun state _ _ => ⟨status, state, false, next⟩
    if plain then .json call else .jsonValue call⟩]
  edges := []

/-- A run that is resumed one step before its limit, at a node that chooses itself. -/
theorem run_budgeted_sample :
    ∃ ended, runLogged (Provider.knownCodec []) (oneNode true 0 (some "node"))
        (interruptOptions 5 none false []) ⟨none, true⟩ fullMemory 2 .null "node" 4 =
          some ended ∧
      Budgeted (oneNode true 0 (some "node")) (interruptOptions 5 none false []) fullMemory 4
        ended :=
  run_budgeted (Provider.knownCodec []) (oneNode true 0 (some "node"))
    (interruptOptions 5 none false []) ⟨none, true⟩ fullMemory .null "node" 4 (by decide)

/-- The steps are not the number of calls that succeed: a call that fails is counted, and one of a
plain callback that names an unknown node is not. -/
theorem steps_not_successes :
    (∃ ended, runLogged (Provider.knownCodec []) (oneNode false (-1) none)
        (interruptOptions 5 none false []) ⟨none, false⟩ fullMemory 6 .null "node" 0 =
          some ended ∧ ended.steps = 1 ∧
        (ended.calls.filter fun call => 0 ≤ call.called.status).length = 0) ∧
      ∃ ended, runLogged (Provider.knownCodec []) (oneNode true 0 (some "unknown"))
        (interruptOptions 5 none false []) ⟨none, false⟩ fullMemory 6 .null "node" 0 =
          some ended ∧ ended.steps = 0 ∧
        (ended.calls.filter fun call => 0 ≤ call.called.status).length = 1 :=
  ⟨⟨_, rfl, rfl, by decide⟩, ⟨_, rfl, rfl, by decide⟩⟩

end TurboAgent.Graph
