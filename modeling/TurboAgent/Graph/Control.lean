import TurboAgent.Graph.Resume
import TurboAgent.Runtime.Status

/-!
# Controlled runs

A controlled run asks a cancel token before every node and again behind the checkpoint after it,
and reports what it does to an event sink.  A token may be cancelled, or its deadline may pass, at
any moment, so what it answers is a function of the step and of the moment in it: a run asks it at
most once at each of them.

A run that is interrupted, cancelled or out of time can be resumed.  The caller that stores such a
run takes the last checkpoint that it emitted for its rest.
-/

namespace TurboAgent.Graph

open Logic
open Provider (JsonCodec)

/-- `turbo_graph_exec_status_t` of a controlled run. -/
inductive ExecStatus where
  | plain (status : Status)
  | cancelled
  | deadline
  deriving DecidableEq

/-- The statuses of a run that can be resumed. -/
def ExecStatus.resumable : ExecStatus → Bool
  | .plain .interrupted | .cancelled | .deadline => true
  | .plain _ => false

/-- The moments of a step at which a token is asked. -/
inductive Moment where
  | beforeNode
  | afterNode

/-- A cancel token: what `turbo_cancel_token_check` answers at a moment of a step. -/
abbrev CancelToken := Moment → Nat → TurboAgent.Status

structure Control where
  cancelToken : Option CancelToken
  eventSink : Bool

/-- `turbo_graph_cancel_status`, or nothing for a run that goes on. -/
def cancelStatus (control : Control) (moment : Moment) (step : Nat) : Option ExecStatus :=
  match control.cancelToken with
  | none => none
  | some check =>
      match check moment step with
      | .ok => none
      | .etimedout => some .deadline
      | .ecanceled => some .cancelled
      | _ => some (.plain .error)

/-- `turbo_event_trace_create_json_value`. -/
def traceEvent (name detail payload : String) (status : Int) : Json :=
  .object [("kind", .string "trace"), ("name", .string name), ("detail", .string detail),
    ("payload", .string payload), ("status", .number status 0)]

/-- `turbo_graph_emit_trace_event`, to the events so far, the last one first. -/
def emitTraceEvent (control : Control) (name detail payload : String) (status : Int)
    (events : List Json) : List Json :=
  if control.eventSink then traceEvent name detail payload status :: events else events

/-- `turbo_graph_run_result_t` of a controlled run. -/
structure ControlledResult where
  status : ExecStatus
  (lastNode nextNode : Option String)
  steps : Nat
  deriving DecidableEq

structure ControlledWalk extends Walk where
  events : List Json

structure ControlledEnded where
  result : ControlledResult
  state : Json
  emitted : List Checkpoint
  events : List Json

section

variable (codec : JsonCodec) (graph : TurboGraph) (options : Options) (control : Control)

def concludeControlled (walk : ControlledWalk) (node : Node) (index : Nat) (called : Called)
    (events : List Json) : ControlledWalk ⊕ ControlledEnded :=
  let steps := walk.steps + 1
  let ended (status : ExecStatus) (nextNode : Option String) (emitted : List Checkpoint)
      (events : List Json) : ControlledWalk ⊕ ControlledEnded :=
    .inr ⟨⟨status, some node.name, nextNode, steps⟩, called.state, emitted, events⟩
  let emit (nextNode : String) : List Checkpoint :=
    emitCheckpoint codec graph options nextNode steps called.state walk.emitted
  if called.status < 0 then
    ended (.plain .error) none walk.emitted
      (emitTraceEvent control "graph.node" "error" node.name called.status events)
  else if called.stop ∨ 0 < called.status then
    let events := emitTraceEvent control "graph.node" "stop" node.name called.status events
    match called.nextNode with
    | none => ended (.plain .stop) none walk.emitted events
    | some next =>
        if (findNode graph next).isSome then
          ended (.plain .interrupted) (some next) (emit next) events
        else ended (.plain .nodeNotFound) (some next) walk.emitted events
  else
    let events := emitTraceEvent control "graph.node" "finish" node.name 0 events
    match resolveNext graph node index walk.steps called with
    | .missing next => ended (.plain .nodeNotFound) (some next) walk.emitted events
    | .failed => ended (.plain .error) none walk.emitted events
    | .nowhere true => ended (.plain .routeNotFound) none walk.emitted events
    | .nowhere false =>
        ended (.plain .ok) none walk.emitted
          (emitTraceEvent control "graph.route" "complete" node.name 0 events)
    | .next next =>
        let events := emitTraceEvent control "graph.route" "next" next 0 events
        match cancelStatus control .afterNode steps with
        | some status => ended status (some next) (emit next) events
        | none =>
            if shouldInterruptBefore options next then
              ended (.plain .interrupted) (some next) (emit next) events
            else .inl ⟨⟨next, some node.name, steps, called.state, false, emit next⟩, events⟩

/-- One round of `turbo_graph_run_internal_json_value`, under control. -/
def controlledRound (walk : ControlledWalk) : ControlledWalk ⊕ ControlledEnded :=
  let ended (status : ExecStatus) (nextNode : String) (emitted : List Checkpoint)
      (events : List Json) : ControlledWalk ⊕ ControlledEnded :=
    .inr ⟨⟨status, walk.lastNode, some nextNode, walk.steps⟩, walk.state, emitted, events⟩
  let emit : List Checkpoint :=
    emitCheckpoint codec graph options walk.currentNode walk.steps walk.state walk.emitted
  match cancelStatus control .beforeNode walk.steps with
  | some status => ended status walk.currentNode emit walk.events
  | none =>
      if 0 < options.maxSteps ∧ options.maxSteps ≤ walk.steps then
        ended (.plain .stepLimit) walk.currentNode walk.emitted walk.events
      else if !walk.skipInitialInterrupt && shouldInterruptBefore options walk.currentNode then
        ended (.plain .interrupted) walk.currentNode emit walk.events
      else
        match findNode graph walk.currentNode with
        | none => ended (.plain .nodeNotFound) walk.currentNode walk.emitted walk.events
        | some (node, index) =>
            let events := emitTraceEvent control "graph.node" "start" node.name 0 walk.events
            match callNode graph node walk.state walk.steps with
            | .error next => ended (.plain .nodeNotFound) next walk.emitted events
            | .ok called =>
                concludeControlled codec graph options control walk node index called events

/-- `turbo_graph_run_internal_json_value`, within a number of rounds. -/
def runInternalJsonValue (count : Nat) (state : Json) (startNode : Option String)
    (initialSteps : Nat) : Option ControlledEnded :=
  match startNode with
  | none => some ⟨⟨.plain .invalidArgument, none, none, 0⟩, state, [], []⟩
  | some start =>
      Loop.rounds (controlledRound codec graph options control) count
        ⟨startWalk options start initialSteps state, []⟩

/-- The statuses with which a controlled run hands out its state. -/
def ExecStatus.handsOut : ExecStatus → Bool
  | .plain status => status.handsOut
  | .cancelled | .deadline => true

/-- What a controlled run returns, and what it delivered on the way. -/
structure ControlledOutcome where
  result : ControlledResult
  state : Option Json
  emitted : List Checkpoint
  events : List Json

def ControlledEnded.outcome (ended : ControlledEnded) : ControlledOutcome where
  result := ended.result
  state := if ended.result.status.handsOut then some ended.state else none
  emitted := ended.emitted
  events := ended.events

/-- `turbo_graph_run_json_value_stream_controlled`, within a number of rounds. -/
def runJsonValueStreamControlled (count : Nat) (state : Json) : Option ControlledOutcome :=
  (runInternalJsonValue codec graph options control count state
    (options.startNode <|> graph.entryNode) 0).map ControlledEnded.outcome

/-- `turbo_graph_run_checkpoint_json_value_stream_controlled`, within a number of rounds. -/
def runCheckpointJsonValueStreamControlled (count : Nat) (checkpoint : Checkpoint) :
    Option ControlledOutcome :=
  if checkpointMatchesGraph codec graph checkpoint then
    (runInternalJsonValue codec graph options control count checkpoint.state
      (some checkpoint.nextNode) checkpoint.steps).map ControlledEnded.outcome
  else
    some ⟨⟨.plain .checkpointMismatch, none, some checkpoint.nextNode, checkpoint.steps⟩, none,
      [], []⟩

/-- The result, state and last checkpoint of a segment of a run. -/
structure Streamed where
  result : ControlledResult
  state : Option Json
  checkpoint : Option Checkpoint

/-- What `turbo_runtime_segment_capture_stream_checkpoint` has kept at the end of a run. -/
def ControlledOutcome.streamed (outcome : ControlledOutcome) : Streamed :=
  ⟨outcome.result, outcome.state, outcome.emitted.head?⟩

end

/-! ## The checkpoint of a run that can be resumed -/

/-- A checkpoint with the rest of a run that ended, of its graph. -/
structure RestOf (codec : JsonCodec) (graph : TurboGraph) (result : ControlledResult) (state : Json)
    (checkpoint : Checkpoint) : Prop where
  nextNode : result.nextNode = some checkpoint.nextNode
  steps : result.steps = checkpoint.steps
  state : state = checkpoint.state
  topologyId : checkpoint.topologyId = some (topologyId graph codec)

section

variable {codec : JsonCodec} {graph : TurboGraph} {options : Options} {control : Control}

/-- What a round emits: where it goes on, and where it ends with a run that can be resumed, it is
one checkpoint with the rest of the run. -/
def Emits (codec : JsonCodec) (graph : TurboGraph) (options : Options) (walk : ControlledWalk) :
    ControlledWalk ⊕ ControlledEnded → Prop
  | .inl next =>
      next.emitted =
        emitCheckpoint codec graph options next.currentNode next.steps next.state walk.emitted
  | .inr ended =>
      ended.result.status.resumable = true → ∃ next, ended.result.nextNode = some next ∧
        ended.emitted =
          emitCheckpoint codec graph options next ended.result.steps ended.state walk.emitted

variable {walk : ControlledWalk}

theorem Emits.of_final {ended : ControlledEnded} (final : ended.result.status.resumable = false) :
    Emits codec graph options walk (.inr ended) := fun resumable =>
  absurd (final.symm.trans resumable) (by decide)

theorem concludeControlled_emits (walk : ControlledWalk) (node : Node) (index : Nat)
    (called : Called) (events : List Json) :
    Emits codec graph options walk
      (concludeControlled codec graph options control walk node index called events) := by
  unfold concludeControlled
  dsimp only
  split
  next => exact .of_final rfl
  split
  next =>
    split
    next => exact .of_final rfl
    split
    next => exact fun _ => ⟨_, rfl, rfl⟩
    next => exact .of_final rfl
  split
  next => exact .of_final rfl
  next => exact .of_final rfl
  next => exact .of_final rfl
  next => exact .of_final rfl
  -- The checkpoint is emitted before the token and the interrupt set are asked.
  split
  next => exact fun _ => ⟨_, rfl, rfl⟩
  split
  next => exact fun _ => ⟨_, rfl, rfl⟩
  next => exact rfl

theorem controlledRound_emits (walk : ControlledWalk) :
    Emits codec graph options walk (controlledRound codec graph options control walk) := by
  unfold controlledRound
  dsimp only
  split
  next => exact fun _ => ⟨_, rfl, rfl⟩
  split
  next => exact .of_final rfl
  split
  next => exact fun _ => ⟨_, rfl, rfl⟩
  split
  next => exact .of_final rfl
  split
  next => exact .of_final rfl
  next => exact concludeControlled_emits walk _ _ _ _

theorem emitted_of_silent (silent : options.checkpointCb = false) {next : ControlledWalk}
    (nothing : walk.emitted = [])
    (goesOn : controlledRound codec graph options control walk = .inl next) :
    next.emitted = [] := by
  have emits : Emits codec graph options walk (.inl next) := goesOn ▸ controlledRound_emits walk
  have emitted : next.emitted = emitCheckpoint codec graph options next.currentNode next.steps
    next.state walk.emitted := emits
  rw [emitted, emitCheckpoint, silent]
  exact nothing

/-- The last checkpoint of a loop that ends with a run that can be resumed has its rest. -/
theorem ends_restOf {ended : ControlledEnded} (nothing : walk.emitted = [])
    (ends : Loop.Ends (controlledRound codec graph options control) walk ended)
    (resumable : ended.result.status.resumable = true) :
    (options.checkpointCb = true → ended.emitted ≠ []) ∧
      ∀ checkpoint, ended.emitted.head? = some checkpoint →
        RestOf codec graph ended.result ended.state checkpoint := by
  refine ends.invariant (fun later => options.checkpointCb = false → later.emitted = [])
    (fun ended => ended.result.status.resumable = true →
      (options.checkpointCb = true → ended.emitted ≠ []) ∧
        ∀ checkpoint, ended.emitted.head? = some checkpoint →
          RestOf codec graph ended.result ended.state checkpoint)
    (fun _ => nothing) ?_ ?_ resumable
  · intro later next _ silence goesOn silent
    exact emitted_of_silent silent (silence silent) goesOn
  · intro later last _ silence done resumable
    have emits : Emits codec graph options later (.inr last) := done ▸ controlledRound_emits later
    obtain ⟨next, nextNode, emitted⟩ := emits resumable
    cases callback : options.checkpointCb with
    | false =>
        have none : last.emitted = [] := by
          rw [emitted, emitCheckpoint, callback]
          exact silence callback
        refine ⟨fun emits => absurd emits Bool.false_ne_true, fun checkpoint head => ?_⟩
        rw [none] at head
        cases head
    | true =>
        rw [emitCheckpoint, if_pos callback] at emitted
        refine ⟨fun _ => emitted ▸ List.cons_ne_nil _ _, fun checkpoint head => ?_⟩
        rw [emitted, List.head?_cons] at head
        cases head
        exact ⟨nextNode, rfl, rfl, rfl⟩

end

/-- Whatever the graph, the state, the token and the interrupt set are: a run that is interrupted,
cancelled or out of time and has emitted a checkpoint has the last one for its rest. -/
theorem last_checkpoint_restOf (codec : JsonCodec) (graph : TurboGraph) (options : Options)
    (control : Control) (count : Nat) (state : Json) (startNode : Option String)
    (initialSteps : Nat) (ended : ControlledEnded) (checkpoint : Checkpoint)
    (ran : runInternalJsonValue codec graph options control count state startNode initialSteps =
      some ended)
    (resumable : ended.result.status.resumable = true)
    (last : ended.emitted.head? = some checkpoint) :
    RestOf codec graph ended.result ended.state checkpoint := by
  cases startNode with
  | none =>
      cases ran
      cases resumable
  | some start => exact (ends_restOf rfl ⟨count, ran⟩ resumable).2 checkpoint last

/-- A token that is cancelled behind the first checkpoint of a run. -/
def sampleToken : CancelToken
  | .beforeNode, 1 => .ecanceled
  | _, _ => .ok

/-- A run that is cancelled between its nodes. -/
theorem last_checkpoint_restOf_sample :
    RestOf (Provider.knownCodec []) (sampleGraph false)
      ⟨.cancelled, some "first", some "second", 1⟩ .null
      ⟨"second", 1, .null, some (topologyId (sampleGraph false) (Provider.knownCodec []))⟩ :=
  last_checkpoint_restOf (Provider.knownCodec []) (sampleGraph false)
    (interruptOptions 0 none false []) ⟨some sampleToken, true⟩ 2 .null (some "first") 0 _ _ rfl rfl
    rfl

section

variable {codec : JsonCodec} {graph : TurboGraph} {options : Options} {control : Control}

/-! ## Rounds that are cut short -/

/-- An end of a run without control, seen as one of a controlled run. -/
structure SameEnded (controlled : ControlledEnded) (ended : Ended) : Prop where
  status : controlled.result.status = .plain ended.result.status
  lastNode : controlled.result.lastNode = ended.result.lastNode
  nextNode : controlled.result.nextNode = ended.result.nextNode
  steps : controlled.result.steps = ended.result.steps
  state : controlled.state = ended.state
  emitted : controlled.emitted = ended.emitted

/-- Variables of a controlled loop and of one without control. -/
def SameWalk (controlled : ControlledWalk) (walk : Walk) : Prop := controlled.toWalk = walk

/-- A token ends a round, and the checkpoint has its rest: the node is not called yet, or the round
without a token comes to the rest, where it may be interrupted. -/
structure Cut (codec : JsonCodec) (graph : TurboGraph) (options : Options) (control : Control)
    (walk : Walk) (plain : Walk ⊕ Ended) (ended : ControlledEnded) (rest : Walk) : Prop where
  asked : ∃ moment step, cancelStatus control moment step = some ended.result.status
  emitted : ended.emitted =
    emitCheckpoint codec graph options rest.currentNode rest.steps rest.state walk.emitted
  comes : rest = walk ∨ plain =
    if shouldInterruptBefore options rest.currentNode then
      .inr ⟨⟨.interrupted, rest.lastNode, some rest.currentNode, rest.steps⟩, rest.state,
        emitCheckpoint codec graph options rest.currentNode rest.steps rest.state walk.emitted⟩
    else .inl rest

/-- A controlled round does as the one without control or is cut short. -/
def Controlled (codec : JsonCodec) (graph : TurboGraph) (options : Options) (control : Control)
    (walk : Walk) (controlled : ControlledWalk ⊕ ControlledEnded) (plain : Walk ⊕ Ended) : Prop :=
  Sum.LiftRel SameWalk SameEnded controlled plain ∨ ∃ ended rest,
    controlled = .inr ended ∧ Cut codec graph options control walk plain ended rest

theorem Controlled.ended {walk : Walk} {status : Status} {lastNode nextNode : Option String}
    {steps : Nat} {state : Json} {emitted : List Checkpoint} {events : List Json} :
    Controlled codec graph options control walk
      (.inr ⟨⟨.plain status, lastNode, nextNode, steps⟩, state, emitted, events⟩)
      (.inr ⟨⟨status, lastNode, nextNode, steps⟩, state, emitted⟩) :=
  .inl (.inr ⟨rfl, rfl, rfl, rfl, rfl, rfl⟩)

theorem concludeControlled_controlled (walk : ControlledWalk) (node : Node) (index : Nat)
    (called : Called) (events : List Json) :
    Controlled codec graph options control walk.toWalk
      (concludeControlled codec graph options control walk node index called events)
      (concludeRound codec graph options walk.toWalk node index called) := by
  unfold concludeControlled concludeRound
  dsimp only
  split
  next => exact .ended
  split
  next =>
    cases called.nextNode with
    | none => exact .ended
    | some next =>
        dsimp only
        split
        next => exact .ended
        next => exact .ended
  next =>
    cases resolveNext graph node index walk.steps called with
    | missing next => exact .ended
    | failed => exact .ended
    | nowhere outgoing => cases outgoing <;> exact .ended
    | next next =>
        dsimp only
        split
        next asked =>
          exact .inr ⟨_, ⟨next, some node.name, walk.steps + 1, called.state, false, _⟩, rfl,
            ⟨_, _, asked⟩, rfl, .inr rfl⟩
        split
        next => exact .ended
        next => exact .inl (.inl rfl)

theorem controlledRound_controlled (walk : ControlledWalk) :
    Controlled codec graph options control walk.toWalk
      (controlledRound codec graph options control walk)
      (round codec graph options walk.toWalk) := by
  unfold controlledRound round
  dsimp only
  split
  next asked => exact .inr ⟨_, walk.toWalk, rfl, ⟨_, _, asked⟩, rfl, .inl rfl⟩
  split
  next => exact .ended
  split
  next => exact .ended
  cases findNode graph walk.currentNode with
  | none => exact .ended
  | some found =>
      dsimp only
      cases callNode graph found.1 walk.state walk.steps with
      | error next => exact .ended
      | ok called => exact concludeControlled_controlled walk _ _ _ _

/-- The result, state and last checkpoint of a run without control. -/
def Outcome.streamed (outcome : Outcome) : Streamed :=
  ⟨⟨.plain outcome.result.status, outcome.result.lastNode, outcome.result.nextNode,
    outcome.result.steps⟩, outcome.state, outcome.checkpoint⟩

theorem SameEnded.streamed {controlled : ControlledEnded} {ended : Ended}
    (same : SameEnded controlled ended) : controlled.outcome.streamed = ended.outcome.streamed := by
  obtain ⟨⟨status, lastNode, nextNode, steps⟩, state, emitted, events⟩ := controlled
  obtain ⟨rfl, rfl, rfl, rfl, rfl, rfl⟩ := same
  rfl

end

/-! ## Runs that are cut short and resumed -/

/-- The token answers as `turbo_cancel_token_check` does for a token: on, cancelled or late. -/
def Control.Proper (control : Control) : Prop :=
  ∀ token, control.cancelToken = some token → ∀ moment step,
    token moment step = .ok ∨ token moment step = .ecanceled ∨ token moment step = .etimedout

theorem Control.Proper.resumable {control : Control} (proper : control.Proper) {moment : Moment}
    {step : Nat} {status : ExecStatus} (asked : cancelStatus control moment step = some status) :
    status.resumable = true := by
  unfold cancelStatus at asked
  split at asked
  next => cases asked
  next token found =>
    rcases proper token found moment step with answer | answer | answer <;>
      rw [answer] at asked <;> cases asked <;> rfl

section

variable (codec : JsonCodec) (graph : TurboGraph) (maxSteps : Nat) (startNode : Option String)

/-- From the outcome of a controlled run to the final one: a run that was interrupted, cancelled or
out of time is resumed from the last checkpoint that it emitted, under any control and with any
interrupt set. -/
inductive Continued : ControlledOutcome → ControlledOutcome → Prop where
  | done {outcome : ControlledOutcome} (final : outcome.result.status.resumable = false) :
      Continued outcome outcome
  | resume {outcome next final : ControlledOutcome} {checkpoint : Checkpoint} {skip : Bool}
      {interrupts : List String} {control : Control} {count : Nat}
      (stopped : outcome.result.status.resumable = true)
      (emitted : outcome.emitted.head? = some checkpoint) (proper : control.Proper)
      (ran : runCheckpointJsonValueStreamControlled codec graph
        (interruptOptions maxSteps startNode skip interrupts) control count checkpoint = some next)
      (rest : Continued next final) : Continued outcome final

/-- How a run without control and without an interrupt set ends, resumed where a node pauses it. -/
def EndsWhole (walk : Walk) (last : Ended) : Prop :=
  Loop.Ends (resumeRound codec graph (interruptOptions maxSteps startNode false [])) walk last

/-- The end of a controlled run beside the whole run: it is the end of that run, or its last
checkpoint has a rest that the whole run comes to. -/
inductive Settled (whole : Walk) (ended : ControlledEnded) : Prop where
  | final {last : Ended} {resumed : Outcome} (final : ended.result.status.resumable = false)
      (ends : EndsWhole codec graph maxSteps startNode whole last)
      (same : ended.outcome.streamed = resumed.streamed) (alike : SameEnd resumed last.outcome)
  | stopped {checkpoint : Checkpoint} {rest : Walk} (stopped : ended.result.status.resumable = true)
      (head : ended.emitted.head? = some checkpoint)
      (fits : checkpointMatchesGraph codec graph checkpoint = true)
      (near : Alike ⟨checkpoint.nextNode, none, checkpoint.steps, checkpoint.state, true, []⟩ rest)
      (back : ∀ last, EndsWhole codec graph maxSteps startNode rest last →
        EndsWhole codec graph maxSteps startNode whole last)

variable {codec graph maxSteps startNode} {control : Control} {skip : Bool}
  {interrupts : List String}

variable {walk whole : Walk}

/-- The whole run follows a round that goes on. -/
theorem Alike.follow {next : Walk} (alike : Alike walk whole)
    (goesOn : resumeRound codec graph (interruptOptions maxSteps startNode skip interrupts) walk =
      .inl next) :
    ∃ rest, Alike next rest ∧ ∀ last, EndsWhole codec graph maxSteps startNode rest last →
      EndsWhole codec graph maxSteps startNode whole last := by
  rcases resumeRound_matched alike with matched | ⟨_, past, onward, _, still⟩
  · rw [goesOn] at matched
    generalize first : resumeRound codec graph _ whole = there at matched
    cases matched with
    | onward alike => exact ⟨_, alike, fun last ends => .step first ends⟩
  · cases goesOn.symm.trans onward
    exact ⟨whole, still, fun _ ends => ends⟩

theorem own_checkpoint (codec : JsonCodec) (graph : TurboGraph) (next : String) (steps : Nat)
    (state : Json) : checkpointMatchesGraph codec graph
      ⟨next, steps, state, some (topologyId graph codec)⟩ = true :=
  beq_self_eq_true _

variable {ended : ControlledEnded}

theorem Cut.settled (proper : control.Proper) {rest : Walk}
    (cut : Cut codec graph (interruptOptions maxSteps startNode skip interrupts) control walk
      (round codec graph (interruptOptions maxSteps startNode skip interrupts) walk) ended rest)
    (alike : Alike walk whole) : Settled codec graph maxSteps startNode whole ended := by
  obtain ⟨⟨_, _, asked⟩, emitted, comes⟩ := cut
  have head := (congrArg List.head? emitted).trans (head_emit rfl _ _ _ _)
  have fits := own_checkpoint codec graph rest.currentNode rest.steps rest.state
  rcases comes with rfl | comes
  · exact .stopped (proper.resumable asked) head fits
      ⟨alike.currentNode, alike.steps, alike.state, .inr rfl⟩ fun _ ends => ends
  · have goesOn : ∃ next, Alike ⟨rest.currentNode, none, rest.steps, rest.state, true, []⟩ next ∧
        resumeRound codec graph (interruptOptions maxSteps startNode skip interrupts) walk =
          .inl next := by
      rw [resumeRound, comes]
      split
      next => exact ⟨_, ⟨rfl, rfl, rfl, .inl rfl⟩, settle_emit rfl _ _ _ _ _ _ _ _⟩
      next => exact ⟨rest, ⟨rfl, rfl, rfl, .inr rfl⟩, rfl⟩
    obtain ⟨next, here, goesOn⟩ := goesOn
    obtain ⟨later, near, back⟩ := alike.follow goesOn
    exact .stopped (proper.resumable asked) head fits ⟨here.currentNode.trans near.currentNode,
      here.steps.trans near.steps, here.state.trans near.state, .inr rfl⟩ back

theorem SameEnded.settled {plain : Ended} (same : SameEnded ended plain) (alike : Alike walk whole)
    (last : round codec graph (interruptOptions maxSteps startNode skip interrupts) walk =
      .inr plain) : Settled codec graph maxSteps startNode whole ended := by
  by_cases interrupted : plain.result.status = .interrupted
  · obtain ⟨checkpoint, head, fits⟩ := round_interrupted rfl last interrupted
    obtain ⟨rest, near, back⟩ :=
      alike.follow ((congrArg settle last).trans (settle_interrupted interrupted head))
    refine .stopped ?_ (same.emitted ▸ head) fits near back
    rw [same.status, interrupted]
    rfl
  · have ends := (congrArg settle last).trans (settle_ended interrupted)
    rcases resumeRound_matched alike with matched | ⟨_, _, onward, _⟩
    · rw [resumeRound, ends] at matched
      generalize final : resumeRound codec graph _ whole = there at matched
      cases matched with
      | ended alike =>
          refine .final ?_ (.done final) same.streamed alike
          rw [same.status]
          cases status : plain.result.status with
          | interrupted => exact absurd status interrupted
          | _ => rfl
    · cases ends.symm.trans onward

/-- A controlled run that ends, beside the whole run. -/
theorem settled_of_ends (proper : control.Proper) {walk : ControlledWalk}
    (ends : Loop.Ends (controlledRound codec graph
      (interruptOptions maxSteps startNode skip interrupts) control) walk ended) :
    ∀ whole, Alike walk.toWalk whole → Settled codec graph maxSteps startNode whole ended := by
  refine Loop.Ends.induct (motive := fun walk => ∀ whole, Alike walk.toWalk whole →
    Settled codec graph maxSteps startNode whole ended) ?_ ?_ ends
  · intro walk last whole alike
    rcases @controlledRound_controlled codec _ _ _ walk with same | ⟨_, _, here, cut⟩
    · rw [last] at same
      generalize plain : round codec graph _ walk.toWalk = there at same
      cases same with
      | inr same => exact same.settled alike plain
    · cases last.symm.trans here
      exact cut.settled proper alike
  · intro walk next first ih whole alike
    rcases @controlledRound_controlled codec _ _ _ walk with same | ⟨_, _, here, _⟩
    · rw [first] at same
      generalize plain : round codec graph _ walk.toWalk = there at same
      cases same with
      | inl same =>
          obtain ⟨rest, near, back⟩ := alike.follow (congrArg settle plain)
          cases ih rest (same ▸ near) with
          | final final ends same alike => exact .final final (back _ ends) same alike
          | stopped stopped head fits near further =>
              exact .stopped stopped head fits near fun last ends => back last (further last ends)
    · cases first.symm.trans here

theorem Continued.ends {outcome final : ControlledOutcome}
    (continued : Continued codec graph maxSteps startNode outcome final) :
    ∀ (whole : Walk) (ended : ControlledEnded), ended.outcome = outcome →
      Settled codec graph maxSteps startNode whole ended →
      ∃ last resumed, EndsWhole codec graph maxSteps startNode whole last ∧
        final.streamed = Outcome.streamed resumed ∧ SameEnd resumed last.outcome := by
  induction continued with
  | done final =>
      rintro whole ended rfl (⟨_, ends, same, alike⟩ | ⟨stopped, _⟩)
      · exact ⟨_, _, ends, same, alike⟩
      · exact absurd (final.symm.trans stopped) Bool.false_ne_true
  | @resume _ next final checkpoint skip interrupts control count stopped emitted proper ran rest ih =>
      rintro whole ended rfl (⟨final, _⟩ | ⟨_, head, fits, near, back⟩)
      · exact absurd (final.symm.trans stopped) Bool.false_ne_true
      · cases head.symm.trans emitted
        rw [runCheckpointJsonValueStreamControlled, if_pos fits] at ran
        obtain ⟨after, within, same⟩ := Option.map_eq_some_iff.mp ran
        obtain ⟨last, resumed, ends, alike⟩ := ih _ after same
          (settled_of_ends proper ⟨count, within⟩ _
            ⟨near.currentNode, near.steps, near.state, .inr rfl⟩)
        exact ⟨last, resumed, back last ends, alike⟩

end

/-- However often and wherever a run is cancelled, runs out of time or is interrupted: resumed each
time from the last checkpoint that it emitted, it ends as the run without tokens and interrupt sets
does, itself resumed where a node pauses it. -/
theorem continued_completes (codec : JsonCodec) (graph : TurboGraph) (maxSteps : Nat)
    (startNode : Option String) (skip : Bool) (interrupts : List String) (control : Control)
    (count : Nat) (state : Json) (first final : ControlledOutcome) (proper : control.Proper)
    (ran : runJsonValueStreamControlled codec graph
      (interruptOptions maxSteps startNode skip interrupts) control count state = some first)
    (continued : Continued codec graph maxSteps startNode first final) :
    ∃ whole resumed,
      Completes codec graph (interruptOptions maxSteps startNode false []) state whole ∧
        final.streamed = Outcome.streamed resumed ∧ SameEnd resumed whole := by
  unfold runJsonValueStreamControlled runInternalJsonValue at ran
  cases starts : startNode <|> graph.entryNode with
  | none =>
      have refuses : ((interruptOptions maxSteps startNode skip interrupts).startNode <|>
        graph.entryNode) = none := starts
      rw [refuses] at ran
      cases ran
      cases continued with
      | done =>
          exact ⟨_, _, (completes_without_start starts).mpr rfl,
            (rfl : _ = Outcome.streamed (refused .invalidArgument none 0)),
            rfl, rfl, rfl, rfl, .inl rfl⟩
      | resume stopped => cases stopped
  | some start =>
      have begins : ((interruptOptions maxSteps startNode skip interrupts).startNode <|>
        graph.entryNode) = some start := starts
      rw [begins] at ran
      obtain ⟨ended, within, same⟩ := Option.map_eq_some_iff.mp ran
      obtain ⟨last, resumed, ends, alike⟩ := continued.ends
        (startWalk (interruptOptions maxSteps startNode false []) start 0 state) ended same
        (settled_of_ends proper ⟨count, within⟩ _ ⟨rfl, rfl, rfl, .inl rfl⟩)
      exact ⟨_, resumed, (completes_iff rfl starts).mpr ⟨last, ends, rfl⟩, alike⟩

/-- A run that is cancelled between its nodes and goes on without a token. -/
theorem continued_completes_sample : ∃ whole resumed,
    Completes (Provider.knownCodec []) (sampleGraph false) (interruptOptions 0 none false []) .null
        whole ∧
      (⟨⟨.plain .ok, some "second", none, 2⟩, some .null, none⟩ : Streamed) =
        Outcome.streamed resumed ∧ SameEnd resumed whole := by
  have proper : Control.Proper ⟨some sampleToken, true⟩ := by
    intro token found moment step
    cases found
    unfold sampleToken
    split <;> simp
  have goesOn : runCheckpointJsonValueStreamControlled (Provider.knownCodec []) (sampleGraph false)
      (interruptOptions 0 none false []) ⟨none, false⟩ 1 ⟨"second", 1, .null, some _⟩ =
        some ⟨⟨.plain .ok, some "second", none, 2⟩, some .null, [], []⟩ :=
    (if_pos (own_checkpoint _ _ _ _ _)).trans rfl
  exact continued_completes (Provider.knownCodec []) (sampleGraph false) 0 none false []
    ⟨some sampleToken, true⟩ 2 .null _ _ proper rfl
    (.resume rfl rfl (fun _ found => by cases found) goesOn (.done rfl))

end TurboAgent.Graph
