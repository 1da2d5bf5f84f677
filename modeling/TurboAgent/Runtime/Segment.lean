import TurboAgent.Data.Json
import TurboAgent.Logic.Ancestry

/-!
# Segments of runs

A run goes from its start, or from a checkpoint, to its end or to its next checkpoint.  Each of
these segments stores the checkpoint, then the run record, then the head of the thread, and may
fail at any point.  Checkpoints name their parent, and the history of a run is read along the
parents of a checkpoint or over all checkpoints of the run.

What the graph does in a segment, which ids are made and which store operation fails is an
argument.  The records of threads are written before the segment and read by nothing here.
-/

namespace TurboAgent.Segment

/-- `TURBO_RUNTIME_RECORD_MAX_EXACT_INTEGER`. -/
def maxExactInteger : Nat := 9007199254740991

/-- `turbo_agent_runtime_parent_link_t`. -/
structure ParentLink where
  (parentAgentRunId parentToolCallId parentToolName parentGraphRunId callFrameId : Option String)
  deriving DecidableEq

structure Checkpoint where
  (threadId runId : String)
  parentCheckpointId : Option String
  link : ParentLink
  seq : Nat
  createdAt : String
  checkpointJson : Json
  events : List Json
  deriving DecidableEq

structure Run where
  threadId : String
  parentRunId : Option String
  link : ParentLink
  forkedFromCheckpointId : Option String
  (status createdAt updatedAt : String)
  latestCheckpointId : Option String
  stateSnapshot : Json
  deriving DecidableEq

/-- The records of a runtime; a head without a run marks a thread whose first segment is not
published. -/
structure Store where
  checkpoints : AList fun _ : String => Checkpoint
  runs : AList fun _ : String => Run
  heads : AList fun _ : String => Option Run

def Store.empty : Store := ⟨∅, ∅, ∅⟩

/-! ## One segment -/

/-- `turbo_graph_exec_status_t`; `other` stands for the further errors. -/
inductive GraphStatus where
  | ok
  | stop
  | interrupted
  | cancelled
  | deadline
  | error
  | other
  deriving DecidableEq

/-- `turbo_runtime_execution_status_text` for a status that a run record is written for. -/
def GraphStatus.text : GraphStatus → Option String
  | .ok | .stop => some "completed"
  | .interrupted => some "interrupted"
  | .cancelled => some "cancelled"
  | .deadline => some "timed_out"
  | .error | .other => none

/-- A status with which a checkpoint is recorded. -/
def GraphStatus.resumable : GraphStatus → Bool
  | .interrupted | .cancelled | .deadline => true
  | _ => false

/-- `turbo_runtime_segment_t`, as far as the records depend on it. -/
structure Config where
  (threadId runId : String)
  parentRunId : Option String
  link : ParentLink
  (forkedFromCheckpointId parentCheckpointId : Option String)
  nextCheckpointSeq : Nat
  runCreatedAt : Option String

/-- What a segment meets: clocks, the results of its store operations and allocations, the id
that is made for its checkpoint, and how the graph ends. -/
structure World where
  (createdAt updatedAt : Option String)
  (threadStored headRead headMarked logged : Bool)
  status : GraphStatus
  (state checkpoint : Option Json)
  events : List Json
  checkpointId : Option String
  (checkpointBuilt checkpointStored cloned runBuilt runStored summarized headStored : Bool)

section

variable (store : Store) (config : Config) (world : World)

/-- The creation time of the run: a run that goes on keeps its own. -/
def createdAt : Option String :=
  match config.runCreatedAt with
  | some time => if 32 ≤ time.length then none else some time
  | none => world.createdAt

/-- `turbo_runtime_head_initialize`. -/
def headInitialize : Option Store :=
  if !world.headRead then none
  else if config.threadId ∈ store.heads then some store
  else if world.headMarked then some { store with heads := store.heads.insert config.threadId none }
  else none

/-- `turbo_runtime_segment_record_checkpoint_from_parts`. -/
def recordCheckpoint (updatedAt : String) : Option (Store × String) :=
  match world.checkpointId, world.checkpoint with
  | some checkpointId, some checkpointJson =>
      if world.checkpointBuilt ∧ config.nextCheckpointSeq ≤ maxExactInteger ∧
          world.checkpointStored then
        some ({ store with checkpoints := store.checkpoints.insert checkpointId {
          threadId := config.threadId
          runId := config.runId
          parentCheckpointId := config.parentCheckpointId
          link := config.link
          seq := config.nextCheckpointSeq
          createdAt := updatedAt
          checkpointJson
          events := world.events } }, checkpointId)
      else none
  | _, _ => none

/-- The run record of `turbo_runtime_segment_finalize_run`. -/
def runRecord (status createdAt updatedAt : String) (state : Json)
    (checkpointId : Option String) : Run where
  threadId := config.threadId
  parentRunId := config.parentRunId
  link := config.link
  forkedFromCheckpointId := config.forkedFromCheckpointId
  status
  createdAt
  updatedAt
  latestCheckpointId := checkpointId <|> config.parentCheckpointId
  stateSnapshot := state

/-- The end of `turbo_runtime_segment_execute`: the run record and the head are written. -/
def publish (run : Run) : Bool × Store :=
  if !world.cloned ∨ !world.runBuilt ∨ !world.runStored then (false, store)
  else
    let store := { store with runs := store.runs.insert config.runId run }
    if !world.summarized ∨ !world.headStored then (false, store)
    else (true, { store with heads := store.heads.insert config.threadId (some run) })

/-- `turbo_runtime_segment_execute`. -/
def execute : Bool × Store :=
  if config.nextCheckpointSeq = 0 ∨ maxExactInteger < config.nextCheckpointSeq then (false, store)
  else
    match createdAt config world, world.updatedAt with
    | some createdAt, some updatedAt =>
        if !world.threadStored then (false, store)
        else
          match headInitialize store config world with
          | none => (false, store)
          | some store =>
              if !world.logged then (false, store)
              else
                match world.state, world.status.text with
                | some state, some status =>
                    if world.status.resumable then
                      match recordCheckpoint store config world updatedAt with
                      | none => (false, store)
                      | some (store, checkpointId) =>
                          publish store config world
                            (runRecord config status createdAt updatedAt state (some checkpointId))
                    else publish store config world
                      (runRecord config status createdAt updatedAt state none)
                | _, _ => (false, store)
    | _, _ => (false, store)

end

/-! ## Start, resume and fork -/

/-- What a resume or a fork meets before its segment: the reads of both records and the
decoding of the checkpoint. -/
structure Reads where
  (checkpoint run restored : Bool)

/-- The calls that run segments, with the ids that are made for new runs. -/
inductive Call where
  | start (threadId runId : String) (link : ParentLink) (world : World)
  | resume (checkpointId : String) (reads : Reads) (world : World)
  | fork (checkpointId runId : String) (reads : Reads) (world : World)

/-- `turbo_runtime_checkpoint_record_read` and the read of the run record. -/
def readSource (store : Store) (checkpointId : String) (reads : Reads) :
    Option (Checkpoint × Run) :=
  if !reads.checkpoint ∨ !reads.run then none
  else
    match store.checkpoints.lookup checkpointId with
    | none => none
    | some checkpoint =>
        if checkpoint.seq = 0 ∨ maxExactInteger < checkpoint.seq then none
        else
          match store.runs.lookup checkpoint.runId with
          | none => none
          | some run => if reads.restored then some (checkpoint, run) else none

def segmentOf (store : Store) : Call → Option (Config × World)
  | .start threadId runId link world => some ({
      threadId
      runId
      parentRunId := none
      link
      forkedFromCheckpointId := none
      parentCheckpointId := none
      nextCheckpointSeq := 1
      runCreatedAt := none }, world)
  | .resume checkpointId reads world =>
      (readSource store checkpointId reads).map fun source => ({
        threadId := source.1.threadId
        runId := source.1.runId
        parentRunId := source.2.parentRunId
        link := source.2.link
        forkedFromCheckpointId := source.2.forkedFromCheckpointId
        parentCheckpointId := some checkpointId
        nextCheckpointSeq := source.1.seq + 1
        runCreatedAt := some source.2.createdAt }, world)
  | .fork checkpointId runId reads world =>
      (readSource store checkpointId reads).map fun source => ({
        threadId := source.1.threadId
        runId
        parentRunId := some source.1.runId
        link := source.2.link
        forkedFromCheckpointId := some checkpointId
        parentCheckpointId := none
        nextCheckpointSeq := 1
        runCreatedAt := none }, world)

def perform (store : Store) (call : Call) : Bool × Store :=
  match segmentOf store call with
  | none => (false, store)
  | some (config, world) => execute store config world

def run (store : Store) (calls : List Call) : Store :=
  calls.foldl (fun store call => (perform store call).2) store

/-! ## Reading the history -/

/-- The loop of `turbo_runtime_checkpoint_chain`.  No id is followed twice, so it makes at most
one round for each record and one more. -/
def chainFrom (store : Store) : Nat → List String → String → Option (List (String × Checkpoint))
  | 0, _, _ => none
  | rounds + 1, seen, checkpointId =>
      if checkpointId ∈ seen then none
      else
        match store.checkpoints.lookup checkpointId with
        | none => none
        | some checkpoint =>
            match checkpoint.parentCheckpointId.filter (· ≠ "") with
            | none => some [(checkpointId, checkpoint)]
            | some parent =>
                (chainFrom store rounds (checkpointId :: seen) parent).map
                  ((checkpointId, checkpoint) :: ·)

/-- `turbo_runtime_checkpoint_chain`. -/
def checkpointChain (store : Store) (checkpointId : String) :
    Option (List (String × Checkpoint)) :=
  chainFrom store (store.checkpoints.entries.length + 1) [] checkpointId

/-- `turbo_agent_runtime_list_checkpoints`. -/
def listCheckpoints (store : Store) (runId : String) : List Checkpoint :=
  (store.checkpoints.entries.map fun entry => entry.2).filter fun checkpoint =>
    checkpoint.runId = runId

/-- `turbo_runtime_checkpoint_records_sorted`, with the result of `qsort` by sequence number. -/
def recordsSorted (sort : List Checkpoint → List Checkpoint) (records : List Checkpoint) :
    Option (List Checkpoint) :=
  if records.all fun record => decide (record.seq ≠ 0 ∧ record.seq ≤ maxExactInteger) then
    some (sort records)
  else none

/-- `turbo_agent_runtime_load_history_events_json_value` by run id. -/
def historyByRun (sort : List Checkpoint → List Checkpoint) (store : Store) (runId : String) :
    Option (List Json) :=
  (recordsSorted sort (listCheckpoints store runId)).map fun records =>
    records.flatMap Checkpoint.events

/-- `turbo_agent_runtime_load_history_events_json_value` by checkpoint id. -/
def historyByCheckpoint (store : Store) (checkpointId : String) : Option (List Json) :=
  (checkpointChain store checkpointId).map fun chain =>
    chain.reverse.flatMap fun pair => pair.2.events

end TurboAgent.Segment
