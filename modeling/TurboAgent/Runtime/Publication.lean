import TurboAgent.Runtime.Head
import TurboAgent.Runtime.Segment

/-!
# Publication of a segment

A segment marks its thread, runs the graph, stores a checkpoint when the graph can be resumed,
stores the run record, builds the summary and publishes the run as the head of the thread.  Each
of these writes is a call of its own and can fail.

The documents are the ones that are stored, field by field.  The graph is a function from the
start of the segment to its end; its callbacks are taken not to touch the store.  Clocks,
generated ids, allocations and the results of the store calls are arguments.
-/

namespace TurboAgent.Publication

open Segment (maxExactInteger)

/-- `turbo_graph_exec_status_t`. -/
inductive ExecStatus where
  | ok
  | stop
  | interrupted
  | error
  | stepLimit
  | routeNotFound
  | nodeNotFound
  | invalidArgument
  | duplicateNode
  | outOfMemory
  | checkpointMismatch
  | cancelled
  | deadline
  deriving DecidableEq

namespace ExecStatus

def code : ExecStatus → Int
  | .ok => 0
  | .stop => 1
  | .interrupted => 2
  | .error => -1
  | .stepLimit => -2
  | .routeNotFound => -3
  | .nodeNotFound => -4
  | .invalidArgument => -5
  | .duplicateNode => -6
  | .outOfMemory => -7
  | .checkpointMismatch => -8
  | .cancelled => -9
  | .deadline => -10

/-- `turbo_runtime_execution_status_text`. -/
def text : ExecStatus → String
  | .ok | .stop => "completed"
  | .interrupted => "interrupted"
  | .cancelled => "cancelled"
  | .deadline => "timed_out"
  | _ => "failed"

/-- A status with which a checkpoint is recorded. -/
def resumable : ExecStatus → Bool
  | .interrupted | .cancelled | .deadline => true
  | _ => false

def publishable : ExecStatus → Bool
  | .ok | .stop | .interrupted | .cancelled | .deadline => true
  | _ => false

theorem text_published {status : ExecStatus} (publishable : status.publishable = true) :
    publishedStatuses.contains status.text = true ∧ noNul status.text = true := by
  cases status <;> first | (cases publishable; done) | (constructor <;> decide)

end ExecStatus

/-- `turbo_graph_run_result_t`. -/
structure RunResult where
  status : ExecStatus
  (lastNode nextNode : Option CString)
  steps : Nat

/-- `turbo_graph_checkpoint_t`. -/
structure GraphCheckpoint where
  nextNode : CString
  steps : Nat
  topologyId : Option CString
  state : Json

inductive Start where
  | state (value : Json)
  | checkpoint (value : GraphCheckpoint)

/-- `turbo_runtime_segment_t`, with the topology id of its graph and the graph name in it. -/
structure Config where
  (topologyId graphName : Option CString)
  (threadId runId : CString)
  (parentRunId parentCheckpointId forkedFromCheckpointId parentAgentRunId : Option CString)
  (parentToolCallId parentToolName parentGraphRunId callFrameId : Option CString)
  nextCheckpointSeq : Nat
  runCreatedAt : Option CString
  start : Start
  snapshot : Option (Json → Option (Json × Json))
  summary : Option (Option CString → RunResult → Json → Option Json)
  (enter leave : Bool)

/-- The end of a graph run: its result and state, the last checkpoint that it emitted, whether
that checkpoint could be copied, and the events unless the log ran out of memory. -/
structure Ran where
  result : RunResult
  state : Option Json
  checkpoint : Option GraphCheckpoint
  captured : Bool
  events : Option (List Json)

structure World where
  (createdAt updatedAt : Option CString)
  threadRead : Read
  threadWritten : Bool
  headRead : Read
  (headMarked logCreated : Bool)
  graph : Start → Ran
  uuid : Option CString
  topologyName : CString → Option CString
  (checkpointBuilt checkpointWritten stateCloned : Bool)
  (runBuilt runWritten summaryBuilt headWritten : Bool)

/-! ## Documents -/

def optionalText : Option CString → Json
  | some text => .string text.val
  | none => .null

/-- `turbo_runtime_execution_result_json`. -/
def resultJson (result : RunResult) : Option Json :=
  if maxExactInteger < result.steps then none
  else some (.object [("status", .int result.status.code),
    ("last_node", optionalText result.lastNode), ("next_node", optionalText result.nextNode),
    ("steps", .int result.steps)])

/-- `turbo_graph_checkpoint_serialize`, read back. -/
def checkpointJson (checkpoint : GraphCheckpoint) : Json :=
  .object [("checkpoint_version", .int 3), ("next_node", .string checkpoint.nextNode.val),
    ("steps", .int checkpoint.steps),
    ("topology_id", .string ((checkpoint.topologyId.map Subtype.val).getD "")),
    ("state", checkpoint.state)]

/-- `turbo_runtime_record_uuid("ckpt")`. -/
def World.checkpointId (world : World) : Option CString :=
  world.uuid.map fun uuid => ⟨"ckpt_" ++ uuid.val, noNul_append rfl uuid.property⟩

section

variable (config : Config) (world : World)

/-- `turbo_runtime_segment_build_thread_record`. -/
def threadRecord (timestamp : CString) : Json :=
  .object [("id", .string config.threadId.val), ("created_at", .string timestamp.val),
    ("updated_at", .string timestamp.val)]

/-- The thread record of `turbo_runtime_segment_upsert_thread`. -/
def touchedThread (timestamp : CString) (record : Json) : Option Json :=
  if !record.isObject then none
  else
    let updated := record.set "updated_at" (.string timestamp.val)
    if (updated.getString "created_at").isSome then some updated
    else some (updated.set "created_at" (.string timestamp.val))

/-- `turbo_runtime_segment_build_run_record`. -/
def runRecord (createdAt updatedAt : CString) (latestCheckpointId : Option CString)
    (result : RunResult) (state : Json) : Option Json :=
  match config.graphName, config.topologyId, resultJson result with
  | some graphName, some topologyId, some resultJson =>
      some (.object [
        ("id", .string config.runId.val),
        ("thread_id", .string config.threadId.val),
        ("parent_run_id", optionalText config.parentRunId),
        ("parent_agent_run_id", optionalText config.parentAgentRunId),
        ("parent_tool_call_id", optionalText config.parentToolCallId),
        ("parent_tool_name", optionalText config.parentToolName),
        ("parent_graph_run_id", optionalText config.parentGraphRunId),
        ("call_frame_id", optionalText config.callFrameId),
        ("forked_from_checkpoint_id", optionalText config.forkedFromCheckpointId),
        ("graph_name", .string graphName.val),
        ("topology_id", .string topologyId.val),
        ("status", .string result.status.text),
        ("created_at", .string createdAt.val),
        ("updated_at", .string updatedAt.val),
        ("latest_checkpoint_id", optionalText latestCheckpointId),
        ("state_snapshot", state),
        ("result", resultJson)])
  | _, _, _ => none

/-- `turbo_runtime_segment_build_checkpoint_record`. -/
def checkpointRecord (checkpointId timestamp : CString) (checkpoint : GraphCheckpoint)
    (control workflow : Json) (events : List Json) : Option Json :=
  let topologyId := checkpoint.topologyId.getD ⟨"", noNul_empty⟩
  if maxExactInteger < config.nextCheckpointSeq ∨ maxExactInteger < checkpoint.steps then none
  else
    (world.topologyName topologyId).map fun graphName => .object [
      ("id", .string checkpointId.val),
      ("thread_id", .string config.threadId.val),
      ("run_id", .string config.runId.val),
      ("parent_checkpoint_id", optionalText config.parentCheckpointId),
      ("parent_agent_run_id", optionalText config.parentAgentRunId),
      ("parent_tool_call_id", optionalText config.parentToolCallId),
      ("parent_tool_name", optionalText config.parentToolName),
      ("parent_graph_run_id", optionalText config.parentGraphRunId),
      ("call_frame_id", optionalText config.callFrameId),
      ("seq", .int config.nextCheckpointSeq),
      ("status", .string "interrupted"),
      ("created_at", .string timestamp.val),
      ("graph_name", .string graphName.val),
      ("topology_id", .string topologyId.val),
      ("next_node", .string checkpoint.nextNode.val),
      ("steps", .int checkpoint.steps),
      ("checkpoint_json", checkpointJson checkpoint),
      ("control_snapshot", control),
      ("workflow_snapshot", workflow),
      ("events", .array events)]

/-- `turbo_runtime_segment_snapshots`. -/
def snapshots (state : Json) : Option (Json × Json) :=
  match config.snapshot with
  | some snapshot => snapshot state
  | none => some (.object [], .object [])

/-- `turbo_runtime_segment_make_summary`. -/
def makeSummary (checkpointId : Option CString) (result : RunResult) (state : Json) :
    Option Json :=
  match config.summary with
  | some summary => (summary checkpointId result state).filter Json.isObject
  | none =>
      (resultJson result).map fun resultJson => .object [
        ("thread_id", .string config.threadId.val),
        ("run_id", .string config.runId.val),
        ("status", .string result.status.text),
        ("checkpoint_id", optionalText checkpointId),
        ("result", resultJson)]

/-! ## The segment -/

/-- What a segment returns, and the store it leaves. -/
structure Outcome where
  succeeded : Bool
  (summary state : Option Json)
  store : Store

/-- A failed segment without diagnostic state. -/
def failed (store : Store) : Outcome := ⟨false, none, none, store⟩

/-- `turbo_runtime_segment_upsert_thread`. -/
def upsertThread (timestamp : CString) (store : Store) : Option Store :=
  let record := match getJson world.threadRead .threads config.threadId store with
    | .ok record => touchedThread timestamp record
    | .error _ => some (threadRecord config timestamp)
  if world.threadWritten then
    record.map fun record => put .threads config.threadId record store
  else none

/-- The status that `turbo_runtime_segment_run_graph_stream` returns. -/
def streamStatus (ran : Ran) : ExecStatus :=
  if !ran.captured then .outOfMemory
  else if ran.events.isNone then .outOfMemory
  else ran.result.status

/-- `turbo_runtime_segment_record_checkpoint_from_parts`. -/
def recordCheckpoint (timestamp : CString) (ran : Ran) (state : Json) (store : Store) :
    Option (CString × Store) := do
  let checkpoint ← ran.checkpoint
  let checkpointId ← world.checkpointId
  let (control, workflow) ← snapshots config state
  let events ← ran.events
  let record ← checkpointRecord config world checkpointId timestamp checkpoint control workflow
    events
  if world.checkpointBuilt ∧ world.checkpointWritten then
    return (checkpointId, put .checkpoints checkpointId record store)
  else none

/-- The checkpoint of a segment, when its graph can be resumed. -/
def checkpointStep (timestamp : CString) (ran : Ran) (state : Json) (store : Store) :
    Option (Option CString × Store) :=
  if ran.result.status.resumable then
    (recordCheckpoint config world timestamp ran state store).map fun recorded =>
      (some recorded.1, recorded.2)
  else some (none, store)

/-- `turbo_runtime_segment_finalize_run`. -/
def finalizeRun (createdAt updatedAt : CString) (latestCheckpointId : Option CString)
    (result : RunResult) (state : Json) (store : Store) : Option (Json × Store) :=
  if world.runBuilt ∧ world.runWritten then
    (runRecord config createdAt updatedAt latestCheckpointId result state).map fun record =>
      (record, put .runs config.runId record store)
  else none

/-- The part of `turbo_runtime_segment_execute` after a run that can be published. -/
def publish (createdAt updatedAt : CString) (ran : Ran) (state : Json) (store : Store) :
    Outcome :=
  match checkpointStep config world updatedAt ran state store with
  | none => failed store
  | some (checkpointId, store) =>
      if !world.stateCloned then failed store
      else
        match finalizeRun config world createdAt updatedAt
            (checkpointId <|> config.parentCheckpointId) ran.result state store with
        | none => failed store
        | some (record, store) =>
            match (makeSummary config checkpointId ran.result state).filter
                fun _ => world.summaryBuilt with
            | none => failed store
            | some summary =>
                match headPublish world.headWritten config.threadId (some record) store with
                | (false, store) => failed store
                | (true, store) => ⟨true, some summary, some state, store⟩

/-- The time of creation: a run that goes on keeps its own. -/
def createdAt : Option CString :=
  match config.runCreatedAt with
  | some time => if 32 ≤ time.val.length then none else some time
  | none => world.createdAt

/-- The part of `turbo_runtime_segment_execute` after the thread is marked. -/
def runSegment (createdAt updatedAt : CString) (store : Store) : Outcome :=
  let ran := world.graph config.start
  match ran.state with
  | none => failed store
  | some state =>
      if (streamStatus ran).publishable then
        publish config world createdAt updatedAt ran state store
      else if streamStatus ran = .error then ⟨false, none, some state, store⟩
      else failed store

/-- `turbo_runtime_segment_execute`. -/
def execute (store : Store) : Outcome :=
  if config.enter ≠ config.leave ∨ config.nextCheckpointSeq = 0 ∨
      maxExactInteger < config.nextCheckpointSeq then failed store
  else
    match createdAt config world, world.updatedAt with
    | some createdAt, some updatedAt =>
        match upsertThread config world updatedAt store with
        | none => failed store
        | some store =>
            match headInitialize world.headRead world.headMarked config.threadId store with
            | (false, store) => failed store
            | (true, store) =>
                if !world.logCreated then failed store
                else runSegment config world createdAt updatedAt store
    | _, _ => failed store

end

/-! ## What a segment leaves -/

/-- The checkpoint record that a run names as its latest. -/
def latestCheckpoint (run : Json) (store : Store) : Option Json :=
  match run.field "latest_checkpoint_id" with
  | some (.string id) =>
      if plain : noNul id = true then find .checkpoints ⟨id, plain⟩ store else none
  | _ => none

def publishedHead (threadId : CString) (store : Store) : Option (Json × Option Json) :=
  match headLoad .working threadId store with
  | .published run => some (run, latestCheckpoint run store)
  | _ => none

/-- No published run names the checkpoint id that is generated. -/
def Fresh (world : World) (store : Store) : Prop :=
  ∀ id ∈ world.checkpointId, ∀ threadId run, headLoad .working threadId store = .published run →
    run.field "latest_checkpoint_id" ≠ some (.string id.val)

/-- Changes that no reader of a published head can see: the heads stay, and of the checkpoints
only the generated one may be new. -/
structure Hidden (world : World) (before after : Store) : Prop where
  heads : ∀ threadId run, headLoad .working threadId after = .published run ↔
    headLoad .working threadId before = .published run
  checkpoints : ∀ id, world.checkpointId ≠ some id →
    find .checkpoints id after = find .checkpoints id before
  present : ∀ id, (find .checkpoints id before).isSome = true →
    (find .checkpoints id after).isSome = true

section

variable {world : World} {before middle after store : Store}

theorem Hidden.refl : Hidden world store store where
  heads := fun _ _ => Iff.rfl
  checkpoints := fun _ _ => rfl
  present := fun _ present => present

theorem Hidden.trans (first : Hidden world before middle) (second : Hidden world middle after) :
    Hidden world before after where
  heads := fun threadId run => (second.heads threadId run).trans (first.heads threadId run)
  checkpoints := fun id other => (second.checkpoints id other).trans (first.checkpoints id other)
  present := fun id present => second.present id (first.present id present)

variable {document : Json}

theorem hidden_put {collection : Shelf} {id : CString} (notHead : collection ≠ .threadHeads)
    (notCheckpoint : collection ≠ .checkpoints) :
    Hidden world store (put collection id document store) where
  heads := fun threadId run => by rw [headLoad_congr (find_put_collection notHead)]
  checkpoints := fun _ _ => find_put_collection notCheckpoint
  present := fun _ present => by rw [find_put_collection notCheckpoint]; exact present

theorem hidden_checkpoint {id : CString} (generated : world.checkpointId = some id) :
    Hidden world store (put .checkpoints id document store) where
  heads := fun threadId run => by rw [headLoad_congr (find_put_collection (by decide))]
  checkpoints := by
    intro other different
    apply find_put_other
    intro same
    rw [same.2] at generated
    exact different generated
  present := fun _ present => find_put_isSome present

/-- A head document of one thread leaves the other threads and all checkpoints. -/
theorem hidden_mark {threadId : CString}
    (unpublished : ∀ run, headLoad .working threadId store ≠ .published run)
    (marked : ∀ run, headLoad .working threadId (put .threadHeads threadId document store) ≠
      .published run) : Hidden world store (put .threadHeads threadId document store) where
  heads := by
    intro other run
    by_cases same : threadId = other
    · subst same
      exact iff_of_false (marked run) (unpublished run)
    · rw [headLoad_congr (find_put_other fun both => same both.2)]
  checkpoints := fun _ _ => find_put_collection (by decide)
  present := fun _ present => by rw [find_put_collection (by decide)]; exact present

/-- Marking a thread is hidden, and only a named thread is ready afterwards. -/
theorem headInitialize_hidden {read : Read} {stored ready : Bool} {threadId : CString}
    (done : headInitialize read stored threadId store = (ready, after)) :
    Hidden world store after ∧ (ready = true → threadId.val ≠ "") := by
  have named : ready = true → threadId.val ≠ "" := by
    intro isReady unnamed
    simp [headInitialize, headLoad, unnamed, isReady] at done
  constructor
  · unfold headInitialize at done
    split at done
    next =>
      cases done
      exact .refl
    next =>
      cases done
      exact .refl
    next absent =>
      have known : threadId.val ≠ "" := by
        intro unnamed
        simp [headLoad, unnamed] at absent
      unfold headPublish at done
      split at done
      next =>
        cases done
        apply hidden_mark (not_published_of_absent absent)
        intro run
        rw [headLoad_marked known find_put_same]
        simp
      next =>
        cases done
        exact .refl
    next =>
      cases done
      exact .refl
  · exact named

theorem upsertThread_hidden {config : Config} {timestamp : CString}
    (done : upsertThread config world timestamp store = some after) :
    Hidden world store after := by
  simp only [upsertThread] at done
  split at done
  next =>
    simp only [Option.map_eq_some_iff] at done
    obtain ⟨record, -, rfl⟩ := done
    exact hidden_put (by decide) (by decide)
  next => cases done

theorem recordCheckpoint_hidden {config : Config} {timestamp checkpointId : CString} {ran : Ran}
    {state : Json}
    (done : recordCheckpoint config world timestamp ran state store = some (checkpointId, after)) :
    Hidden world store after ∧ world.checkpointId = some checkpointId ∧
      (find .checkpoints checkpointId after).isSome = true := by
  simp only [recordCheckpoint, Option.bind_eq_bind, Option.bind_eq_some_iff] at done
  obtain ⟨checkpoint, -, id, generated, snapshot, -, events, -, record, -, written⟩ := done
  split at written
  next =>
    cases written
    exact ⟨hidden_checkpoint generated, generated, by simp⟩
  next => cases written

end

/-- How a checkpoint of a segment ends: there is one exactly when the graph can be resumed. -/
def Checkpointed (world : World) (ran : Ran) (store : Store) : Option CString → Prop
  | none => ran.result.status.resumable = false
  | some id => ran.result.status.resumable = true ∧ world.checkpointId = some id ∧
      (find .checkpoints id store).isSome = true

/-- A published segment: what it wrote last, and what went before. -/
structure Published (config : Config) (world : World) (before : Store) (outcome : Outcome) where
  (createdAt updatedAt : CString)
  checkpointId : Option CString
  (state record : Json)
  store : Store
  named : config.threadId.val ≠ ""
  ended : (world.graph config.start).state = some state
  publishable : (world.graph config.start).result.status.publishable = true
  hidden : Hidden world before store
  checkpointed : Checkpointed world (world.graph config.start) store checkpointId
  built : runRecord config createdAt updatedAt (checkpointId <|> config.parentCheckpointId)
    (world.graph config.start).result state = some record
  returned : outcome.state = some state
  written : outcome.store = put .threadHeads config.threadId
    (headDocument config.threadId (some record)) (put .runs config.runId record store)

section

variable {config : Config} {world : World} {before store after : Store}

theorem checkpointStep_hidden {timestamp : CString} {checkpointId : Option CString} {ran : Ran}
    {state : Json}
    (done : checkpointStep config world timestamp ran state store = some (checkpointId, after)) :
    Hidden world store after ∧ Checkpointed world ran after checkpointId := by
  unfold checkpointStep at done
  split at done
  next resumable =>
    simp only [Option.map_eq_some_iff] at done
    obtain ⟨recorded, recordedAt, same⟩ := done
    cases same
    obtain ⟨hidden, generated, present⟩ := recordCheckpoint_hidden recordedAt
    exact ⟨hidden, resumable, generated, present⟩
  next notResumable =>
    cases done
    exact ⟨.refl, by simpa [Checkpointed] using notResumable⟩

theorem streamStatus_publishable {ran : Ran} (publishable : (streamStatus ran).publishable = true) :
    ran.result.status.publishable = true := by
  unfold streamStatus at publishable
  split at publishable
  next => cases publishable
  split at publishable
  next => cases publishable
  next => exact publishable

/-- A segment that fails after its run is hidden, and else it is published. -/
theorem publish_cases {createdAt updatedAt : CString} {state : Json}
    (named : config.threadId.val ≠ "") (ended : (world.graph config.start).state = some state)
    (publishable : (world.graph config.start).result.status.publishable = true)
    (hidden : Hidden world before store) :
    let outcome := publish config world createdAt updatedAt (world.graph config.start) state store
    (outcome.succeeded = false ∧ Hidden world before outcome.store) ∨
      (outcome.succeeded = true ∧ Nonempty (Published config world before outcome)) := by
  unfold publish
  split
  next => exact .inl ⟨rfl, hidden⟩
  next checkpointId checkpointStore checkpointDone =>
    obtain ⟨checkpointHidden, checkpointed⟩ := checkpointStep_hidden checkpointDone
    have throughCheckpoint := hidden.trans checkpointHidden
    split
    next => exact .inl ⟨rfl, throughCheckpoint⟩
    split
    next => exact .inl ⟨rfl, throughCheckpoint⟩
    next record runStore finalized =>
      unfold finalizeRun at finalized
      split at finalized
      next =>
        simp only [Option.map_eq_some_iff] at finalized
        obtain ⟨built, builtAt, same⟩ := finalized
        rw [Prod.mk.injEq] at same
        obtain ⟨rfl, rfl⟩ := same
        have runHidden : Hidden world checkpointStore (put .runs config.runId built checkpointStore) :=
          hidden_put (by decide) (by decide)
        have throughRun := throughCheckpoint.trans runHidden
        split
        next => exact .inl ⟨rfl, throughRun⟩
        unfold headPublish
        cases world.headWritten with
        | false => exact .inl ⟨rfl, throughRun⟩
        | true =>
            exact .inr ⟨rfl, ⟨{
              createdAt
              updatedAt
              checkpointId
              state
              record := built
              store := checkpointStore
              named
              ended
              publishable
              hidden := throughCheckpoint
              checkpointed
              built := builtAt
              returned := rfl
              written := rfl }⟩⟩
      next => cases finalized

/-- What a segment can do: it fails and nothing that it wrote is seen, or it is published. -/
theorem execute_cases (config : Config) (world : World) (store : Store) :
    ((execute config world store).succeeded = false ∧
      Hidden world store (execute config world store).store) ∨
    ((execute config world store).succeeded = true ∧
      Nonempty (Published config world store (execute config world store))) := by
  unfold execute
  split
  next => exact .inl ⟨rfl, .refl⟩
  split
  next createdAt updatedAt _ _ =>
    split
    next => exact .inl ⟨rfl, .refl⟩
    next threadStore threadDone =>
      have threadHidden := upsertThread_hidden threadDone
      split
      next headStore headDone =>
        exact .inl ⟨rfl, threadHidden.trans (headInitialize_hidden headDone).1⟩
      next headStore headDone =>
        have marked : Hidden world threadStore headStore ∧ (true = true → config.threadId.val ≠ "") :=
          headInitialize_hidden headDone
        have hidden := threadHidden.trans marked.1
        split
        next => exact .inl ⟨rfl, hidden⟩
        simp only [runSegment]
        split
        next => exact .inl ⟨rfl, hidden⟩
        next state ended =>
          split
          next publishable =>
            exact publish_cases (marked.2 rfl) ended (streamStatus_publishable publishable) hidden
          split
          next => exact .inl ⟨rfl, hidden⟩
          next => exact .inl ⟨rfl, hidden⟩
  next => exact .inl ⟨rfl, .refl⟩

end

/-! ## Atomic publication -/

variable {world : World} {before : Store}

theorem Hidden.publishedHead_eq {after : Store} (hidden : Hidden world before after)
    (fresh : Fresh world before) (threadId : CString) :
    publishedHead threadId after = publishedHead threadId before := by
  unfold publishedHead
  cases loaded : headLoad .working threadId before with
  | published run =>
      rw [(hidden.heads threadId run).mpr loaded]
      have same : latestCheckpoint run after = latestCheckpoint run before := by
        unfold latestCheckpoint
        split
        next id named =>
          split
          next plain =>
            apply hidden.checkpoints
            intro generated
            exact fresh ⟨id, plain⟩ generated threadId run loaded named
          next => rfl
        next => rfl
      simp only [same]
  | empty | failed =>
      split
      next run loadedAfter =>
        have loadedBefore := (hidden.heads threadId run).mp loadedAfter
        simp [loaded] at loadedBefore
      next => rfl

/-- The fields of a run record that a reader looks at. -/
structure RunFields (config : Config) (result : RunResult) (latest : Option CString) (state : Json)
    (record : Json) : Prop where
  object : record.isObject = true
  id : record.field "id" = some (.string config.runId.val)
  threadId : record.field "thread_id" = some (.string config.threadId.val)
  status : record.field "status" = some (.string result.status.text)
  latest : record.field "latest_checkpoint_id" = some (optionalText latest)
  forkedFrom : record.field "forked_from_checkpoint_id" =
    some (optionalText config.forkedFromCheckpointId)
  state : record.field "state_snapshot" = some state

variable {config : Config} {record : Json}

theorem runRecord_fields {createdAt updatedAt : CString} {latest : Option CString}
    {result : RunResult} {state : Json}
    (built : runRecord config createdAt updatedAt latest result state = some record) :
    RunFields config result latest state record := by
  unfold runRecord at built
  split at built
  next =>
    cases built
    constructor <;> rfl
  next => cases built

def fieldIds (record : Json) (key : String) : List CString :=
  match record.field key with
  | some (.string id) => if plain : noNul id = true then [⟨id, plain⟩] else []
  | _ => []

/-- The checkpoint ids that a run record refers to. -/
def checkpointIds (record : Json) : List CString :=
  fieldIds record "latest_checkpoint_id" ++ fieldIds record "forked_from_checkpoint_id"

def suppliedIds (config : Config) : List CString :=
  config.parentCheckpointId.toList ++ config.forkedFromCheckpointId.toList

theorem fieldIds_optionalText {key : String} {id : Option CString}
    (stored : record.field key = some (optionalText id)) : fieldIds record key = id.toList := by
  cases id with
  | none => simp [fieldIds, stored, optionalText]
  | some id => simp [fieldIds, stored, optionalText, id.property]

variable {outcome : Outcome}

/-- A published run refers to the checkpoint of its segment and to the ids of its caller. -/
theorem Published.mem_checkpointIds (published : Published config world before outcome)
    {id : CString} (member : id ∈ checkpointIds published.record) :
    published.checkpointId = some id ∨ id ∈ suppliedIds config := by
  have fields := runRecord_fields published.built
  simp only [checkpointIds, fieldIds_optionalText fields.latest,
    fieldIds_optionalText fields.forkedFrom, List.mem_append, Option.mem_toList] at member
  simp only [suppliedIds, List.mem_append, Option.mem_toList]
  rcases member with latest | forked
  · cases own : published.checkpointId with
    | none =>
        rw [own] at latest
        exact .inr (.inl latest)
    | some checkpointId =>
        rw [own] at latest
        exact .inl latest
  · exact .inr (.inr forked)

theorem Published.find_checkpoints (published : Published config world before outcome)
    (id : CString) : find .checkpoints id outcome.store = find .checkpoints id published.store := by
  rw [published.written, find_put_collection (by decide), find_put_collection (by decide)]

/-- A segment that fails leaves every head that can be loaded as it was.  A segment that succeeds
makes the run record that it wrote the head of its thread; each checkpoint that the record refers
to is stored, unless it is an id of the caller that was not stored before. -/
theorem execute_atomic (config : Config) (world : World) (store : Store)
    (fresh : Fresh world store) :
    let outcome := execute config world store
    (outcome.succeeded = false → ∀ threadId, publishedHead threadId outcome.store =
      publishedHead threadId store) ∧
    (outcome.succeeded = true → ∃ record,
      find .runs config.runId outcome.store = some record ∧
      find .threadHeads config.threadId outcome.store =
        some (headDocument config.threadId (some record)) ∧
      record.field "id" = some (.string config.runId.val) ∧
      record.field "thread_id" = some (.string config.threadId.val) ∧
      record.field "state_snapshot" = outcome.state ∧
      ∀ id ∈ checkpointIds record, (find .checkpoints id outcome.store).isSome = true ∨
        (id ∈ suppliedIds config ∧ find .checkpoints id store = none)) := by
  intro outcome
  rcases execute_cases config world store with ⟨failed, hidden⟩ | ⟨succeeded, ⟨published⟩⟩
  · constructor
    · intro _ threadId
      exact hidden.publishedHead_eq fresh threadId
    · intro succeeded
      rw [failed] at succeeded
      cases succeeded
  · constructor
    · intro failed
      rw [succeeded] at failed
      cases failed
    · intro _
      have fields := runRecord_fields published.built
      have runStored : find .runs config.runId outcome.store = some published.record := by
        rw [published.written, find_put_collection (by decide)]
        exact find_put_same
      have headStored : find .threadHeads config.threadId outcome.store =
          some (headDocument config.threadId (some published.record)) := by
        rw [published.written]
        exact find_put_same
      refine ⟨published.record, runStored, headStored, fields.id, fields.threadId, ?_, ?_⟩
      · rw [fields.state]
        exact published.returned.symm
      · intro id member
        rw [published.find_checkpoints]
        rcases published.mem_checkpointIds member with own | supplied
        · have checkpointed := published.checkpointed
          rw [own] at checkpointed
          exact .inl checkpointed.2.2
        · cases known : find .checkpoints id store with
          | none => exact .inr ⟨supplied, rfl⟩
          | some document =>
              have present : (find .checkpoints id store).isSome = true := by simp [known]
              exact .inl (published.hidden.present id present)

/-- A segment of the thread `t` from a state. -/
def sampleConfig (runId : CString) (parentCheckpointId : Option CString) (state : Json) : Config where
  topologyId := some ⟨"g", rfl⟩
  graphName := some ⟨"g", rfl⟩
  threadId := ⟨"t", rfl⟩
  runId
  parentRunId := none
  parentCheckpointId
  forkedFromCheckpointId := none
  parentAgentRunId := none
  parentToolCallId := none
  parentToolName := none
  parentGraphRunId := none
  callFrameId := none
  nextCheckpointSeq := 1
  runCreatedAt := none
  start := .state state
  snapshot := none
  summary := none
  enter := false
  leave := false

def sampleGraph : Start → Ran
  | .state state => ⟨⟨.ok, none, none, 1⟩, some state, none, true, some []⟩
  | .checkpoint checkpoint => ⟨⟨.ok, none, none, 1⟩, some checkpoint.state, none, true, some []⟩

def sampleWorld : World where
  createdAt := some ⟨"c", rfl⟩
  updatedAt := some ⟨"u", rfl⟩
  threadRead := .working
  threadWritten := true
  headRead := .working
  headMarked := true
  logCreated := true
  graph := sampleGraph
  uuid := some ⟨"1", rfl⟩
  topologyName := some
  checkpointBuilt := true
  checkpointWritten := true
  stateCloned := true
  runBuilt := true
  runWritten := true
  summaryBuilt := true
  headWritten := true

theorem fresh_nil (world : World) : Fresh world [] := by
  intro id _ threadId run published
  obtain ⟨head, found, -⟩ := head_of_published published
  cases found

/-- The first segment of a thread, with `execute_atomic` for it. -/
theorem execute_atomic_sample :
    Fresh sampleWorld [] ∧
    (let outcome := execute (sampleConfig ⟨"r", rfl⟩ none (.object [])) sampleWorld []
    (outcome.succeeded = false → ∀ threadId, publishedHead threadId outcome.store =
      publishedHead threadId []) ∧
    (outcome.succeeded = true → ∃ record,
      find .runs ⟨"r", rfl⟩ outcome.store = some record ∧
      find .threadHeads ⟨"t", rfl⟩ outcome.store = some (headDocument ⟨"t", rfl⟩ (some record)) ∧
      record.field "id" = some (.string "r") ∧
      record.field "thread_id" = some (.string "t") ∧
      record.field "state_snapshot" = outcome.state ∧
      ∀ id ∈ checkpointIds record, (find .checkpoints id outcome.store).isSome = true ∨
        (id ∈ suppliedIds (sampleConfig ⟨"r", rfl⟩ none (.object [])) ∧
          find .checkpoints id [] = none))) :=
  ⟨fresh_nil sampleWorld, execute_atomic _ sampleWorld [] (fresh_nil sampleWorld)⟩

/-- The caller's checkpoint id is written into the run record without a look at the store. -/
theorem unknown_checkpoint_published :
    let outcome := execute (sampleConfig ⟨"r", rfl⟩ (some ⟨"ghost", rfl⟩) (.object [])) sampleWorld []
    outcome.succeeded = true ∧ ∃ record, find .runs ⟨"r", rfl⟩ outcome.store = some record ∧
      ⟨"ghost", rfl⟩ ∈ checkpointIds record ∧
      find .checkpoints ⟨"ghost", rfl⟩ outcome.store = none := by
  refine ⟨rfl, _, rfl, ?_, rfl⟩
  decide

/-! ## Reading a published head back -/

/-- The checkpoint id that a segment puts into its run record. -/
def producedCheckpoint (config : Config) (world : World) : Option CString :=
  if (world.graph config.start).result.status.resumable then world.checkpointId
  else config.parentCheckpointId

/-- The head can be loaded with the run id, checkpoint id and state of the segment, and another
segment of the thread gets past the head. -/
def ReadsBack (config : Config) (world : World) (outcome : Outcome) : Prop :=
  (∃ run, headLoad .working config.threadId outcome.store = .published run ∧
    run.field "id" = some (.string config.runId.val) ∧
    run.field "latest_checkpoint_id" = some (optionalText (producedCheckpoint config world)) ∧
    run.field "state_snapshot" = outcome.state) ∧
  ∀ stored, headInitialize .working stored config.threadId outcome.store = (true, outcome.store)

theorem checkpointId_ne_empty {id : CString} (generated : world.checkpointId = some id) :
    id.val ≠ "" := by
  simp only [World.checkpointId, Option.map_eq_some_iff] at generated
  obtain ⟨uuid, -, rfl⟩ := generated
  intro empty
  have characters := congrArg String.toList empty
  simp at characters

theorem Published.latest_eq (published : Published config world before outcome) :
    (published.checkpointId <|> config.parentCheckpointId) = producedCheckpoint config world := by
  have checkpointed := published.checkpointed
  unfold producedCheckpoint
  cases own : published.checkpointId with
  | none =>
      rw [own] at checkpointed
      simp only [Checkpointed] at checkpointed
      simp [checkpointed]
  | some id =>
      rw [own] at checkpointed
      simp [checkpointed.1, checkpointed.2.1]

theorem producedCheckpoint_named :
    (∀ id ∈ producedCheckpoint config world, id.val ≠ "") ↔
      ((world.graph config.start).result.status.resumable = false →
        ∀ id ∈ config.parentCheckpointId, id.val ≠ "") := by
  unfold producedCheckpoint
  split
  next resumable =>
    constructor
    · intro _ notResumable
      rw [resumable] at notResumable
      cases notResumable
    · intro _ id generated
      exact checkpointId_ne_empty generated
  next notResumable => simp [notResumable]

theorem runReadable_iff {result : RunResult} {latest : Option CString} {state : Json}
    (fields : RunFields config result latest state record)
    (publishable : result.status.publishable = true) :
    runReadable config.threadId record = true ↔
      config.runId.val ≠ "" ∧ state ≠ .null ∧ ∀ id ∈ latest, id.val ≠ "" := by
  obtain ⟨known, plain⟩ := ExecStatus.text_published publishable
  have id := headString_of_field fields.id config.runId.property
  have thread := headString_of_field fields.threadId config.threadId.property
  have status := headString_of_field fields.status plain
  have checkpoint : (optionalText latest == .null ||
      (headString record "latest_checkpoint_id").any (· ≠ "")) = true ↔
      ∀ id ∈ latest, id.val ≠ "" := by
    cases latest with
    | none => simp [optionalText]
    | some id =>
        have stored := headString_of_field fields.latest id.property
        simp [optionalText, stored]
  simp only [runReadable, fields.object, id, thread, status, known, fields.state, fields.latest,
    Option.any_some, Bool.and_eq_true, beq_self_eq_true, Bool.true_and, Bool.and_true,
    decide_eq_true_eq, and_assoc]
  rw [checkpoint]

/-- A published segment can be read back exactly when its run has a name, its graph did not end
with the state `null`, and the checkpoint id that the run carries over is not empty. -/
theorem readsBack_iff (config : Config) (world : World) (store : Store)
    (succeeded : (execute config world store).succeeded = true) :
    ReadsBack config world (execute config world store) ↔
      config.runId.val ≠ "" ∧ (world.graph config.start).state ≠ some .null ∧
      ((world.graph config.start).result.status.resumable = false →
        ∀ id ∈ config.parentCheckpointId, id.val ≠ "") := by
  rcases execute_cases config world store with ⟨failed, -⟩ | ⟨-, ⟨published⟩⟩
  · rw [failed] at succeeded
    cases succeeded
  · have fields := runRecord_fields published.built
    rw [published.latest_eq] at fields
    have stored : find .threadHeads config.threadId (execute config world store).store =
        some (headDocument config.threadId (some published.record)) := by
      rw [published.written]
      exact find_put_same
    have isRun : published.record ≠ .null := by
      intro isNull
      have object := fields.object
      simp [isNull, Json.isObject] at object
    have loaded := headLoad_publish published.named stored
    rw [if_neg isRun] at loaded
    have readable : runReadable config.threadId published.record = true ↔
        config.runId.val ≠ "" ∧ (world.graph config.start).state ≠ some .null ∧
        ((world.graph config.start).result.status.resumable = false →
          ∀ id ∈ config.parentCheckpointId, id.val ≠ "") := by
      rw [runReadable_iff fields published.publishable, published.ended, ne_eq (some _),
        Option.some.injEq, producedCheckpoint_named]
    rw [← readable]
    constructor
    · rintro ⟨⟨run, loadedRun, -⟩, -⟩
      rw [loaded] at loadedRun
      split at loadedRun
      next isReadable => exact isReadable
      next => cases loadedRun
    · intro isReadable
      rw [if_pos isReadable] at loaded
      constructor
      · refine ⟨published.record, loaded, fields.id, fields.latest, ?_⟩
        rw [fields.state]
        exact published.returned.symm
      · intro again
        simp only [headInitialize, loaded]

/-- `readsBack_iff` for a segment with a state. -/
theorem readsBack_sample :
    (execute (sampleConfig ⟨"r", rfl⟩ none (.object [])) sampleWorld []).succeeded = true ∧
    (ReadsBack (sampleConfig ⟨"r", rfl⟩ none (.object [])) sampleWorld
        (execute (sampleConfig ⟨"r", rfl⟩ none (.object [])) sampleWorld []) ↔
      "r" ≠ "" ∧ (sampleGraph (.state (.object []))).state ≠ some .null ∧
      ((sampleGraph (.state (.object []))).result.status.resumable = false →
        ∀ id ∈ (none : Option CString), id.val ≠ "")) :=
  ⟨rfl, readsBack_iff (sampleConfig ⟨"r", rfl⟩ none (.object [])) sampleWorld [] rfl⟩

/-- A segment that starts and ends with `null` succeeds, and its thread cannot be read
afterwards, nor run another segment. -/
theorem null_state_unreadable :
    let config := sampleConfig ⟨"r", rfl⟩ none .null
    let outcome := execute config sampleWorld []
    outcome.succeeded = true ∧ ¬ReadsBack config sampleWorld outcome ∧
      headLoad .working config.threadId outcome.store = .failed .eproto ∧
      (execute config sampleWorld outcome.store).succeeded = false := by
  refine ⟨rfl, ?_, rfl, rfl⟩
  rintro ⟨⟨run, loaded, -⟩, -⟩
  cases loaded

end TurboAgent.Publication
