import TurboAgent.StateGraph.Steps

/-!
# What failing calls leave

A call that begins a run adds its thread and its run before the initial update is applied and
before the first node is looked up, and what it added stays when either of them fails.  A load
drops the runs of the graph before it reads the records of the snapshot, and reads all of them or
leaves none.
-/

namespace TurboAgent.StateGraph

open Logic

/-! ## Calls that begin a run -/

section

variable {World : Type} (library : JsonLibrary) (graph : Graph World)

/-- What a call begins its run with: a state, an update of it, a node and a step. -/
inductive BeginsRun : Call World → Json → Json → Option String → Nat → RunOptions → Prop where
  | start (threadId : Option String) (input : Option Json) (options : RunOptions) (node : String)
      (chosen : (options.startNode <|> graph.entryNode) = some node) :
      BeginsRun (.start threadId input options) (seedDefaults graph.channels)
        (input.getD (.object [])) (some node) 0 options
  | branch (call : Call World) (entryId : String) (update : Option Json)
      (historyOptions : HistoryOptions) (sourceKind : SourceKind) (options : RunOptions)
      (entry : HistoryEntry) (run : Run × Nat) (thread : Thread × Nat)
      (branches : Branches call entryId update historyOptions sourceKind)
      (given : call.runOptions = some options)
      (isEntry : graph.ledger.findHistory entryId = some entry)
      (isRun : findRun graph entry.runId = some run)
      (isThread : findThread graph entry.threadId = some thread) :
      BeginsRun call entry.state (update.getD (.object [])) entry.nextNode entry.step options

/-- A branch is refused before it adds anything: its history entry, the run or the thread of the
entry is unknown. -/
inductive Unlocated (call : Call World) : Prop where
  | entry (entryId : String) (update : Option Json) (historyOptions : HistoryOptions)
      (sourceKind : SourceKind) (branches : Branches call entryId update historyOptions sourceKind)
      (missing : graph.ledger.findHistory entryId = none)
  | run (entryId : String) (update : Option Json) (historyOptions : HistoryOptions)
      (sourceKind : SourceKind) (branches : Branches call entryId update historyOptions sourceKind)
      (entry : HistoryEntry) (isEntry : graph.ledger.findHistory entryId = some entry)
      (missing : findRun graph entry.runId = none)
  | thread (entryId : String) (update : Option Json) (historyOptions : HistoryOptions)
      (sourceKind : SourceKind) (branches : Branches call entryId update historyOptions sourceKind)
      (entry : HistoryEntry) (isEntry : graph.ledger.findHistory entryId = some entry)
      (missing : findThread graph entry.threadId = none)

/-- A call that cannot begin its run: what it branches off is unknown, the initial update is
rejected, or the first node is unknown, at which neither the step limit nor an interrupt stops. -/
inductive CannotBegin (call : Call World) : Prop where
  | unlocated (unlocated : Unlocated graph call)
  | update (state update : Json) (node : Option String) (step : Nat) (options : RunOptions)
      (begins : BeginsRun graph call state update node step options)
      (rejected : ¬Accepted graph.channels state update)
  | node (state update : Json) (next node : String) (step : Nat) (options : RunOptions)
      (begins : BeginsRun graph call state update (some next) step options)
      (accepted : Accepted graph.channels state update)
      (chosen : (options.startNode <|> some next) = some node)
      (unlimited : ¬(0 < options.maxSteps ∧ options.maxSteps ≤ step))
      (uninterrupted : (!options.skipInitialInterrupt && shouldInterruptBefore options node) = false)
      (unknown : findNode graph.nodes node = none)

/-- Whatever a call is answered, the threads, the runs and the history stay as they are. -/
def LeavesNoTrace (call : Call World) : Prop :=
  ∀ after outcome, Answers library graph call after outcome →
    after.threads = graph.threads ∧ after.runs = graph.runs ∧
      after.ledger.entries = graph.ledger.entries

def Outcome.Fails (outcome : Outcome) : Prop := outcome.status ≠ .ok ∧ outcome.result = none

end

section

variable {World : Type} {library : JsonLibrary} {graph : Graph World} {call : Call World}
variable (library) in
theorem Unlocated.answered (unlocated : Unlocated graph call) :
    ∃ status, openCall library graph call = .refused graph status ∧ status ≠ .ok := by
  have refuses : ∀ entryId update historyOptions sourceKind runOptions makeCurrent,
      (graph.ledger.findHistory entryId = none ∨ ∃ entry,
        graph.ledger.findHistory entryId = some entry ∧
          (findRun graph entry.runId = none ∨ findThread graph entry.threadId = none)) →
      ∃ status, branchFromHistory library graph entryId update historyOptions runOptions makeCurrent
        sourceKind = .refused graph status ∧ status ≠ .ok := by
    intro entryId update historyOptions sourceKind runOptions makeCurrent missing
    unfold branchFromHistory
    split
    next => exact ⟨_, rfl, by decide⟩
    next entry isEntry =>
      split
      next => exact ⟨_, rfl, by decide⟩
      next run isRun =>
        split
        next => exact ⟨_, rfl, by decide⟩
        next thread threadIndex isThread => simp [isEntry, isRun, isThread] at missing
  cases unlocated with
  | entry _ _ _ _ branches missing =>
      cases branches <;> exact refuses _ _ _ _ _ _ (.inl missing)
  | run _ _ _ _ branches entry isEntry missing =>
      cases branches <;> exact refuses _ _ _ _ _ _ (.inr ⟨entry, isEntry, .inl missing⟩)
  | thread _ _ _ _ branches entry isEntry missing =>
      cases branches <;> exact refuses _ _ _ _ _ _ (.inr ⟨entry, isEntry, .inr missing⟩)

variable {state update : Json} {step : Nat} {options : RunOptions}

theorem BeginsRun.located {node : Option String}
    (begins : BeginsRun graph call state update node step options) : ¬Unlocated graph call := by
  intro unlocated
  cases begins with
  | start =>
      cases unlocated with
      | entry _ _ _ _ branches => cases branches
      | run _ _ _ _ branches => cases branches
      | thread _ _ _ _ branches => cases branches
  | branch _ _ _ _ _ _ entry run thread branches _ isEntry isRun isThread =>
      cases unlocated with
      | entry _ _ _ _ other missing =>
          cases branches <;> cases other <;> simp [isEntry] at missing
      | run _ _ _ _ other _ same missing =>
          cases branches <;> cases other <;>
            (rw [isEntry] at same; cases same; simp [isRun] at missing)
      | thread _ _ _ _ other _ same missing =>
          cases branches <;> cases other <;>
            (rw [isEntry] at same; cases same; simp [isThread] at missing)

/-- A run was added, and the nodes and channels are the same. -/
structure Added (graph after : Graph World) : Prop where
  runs : after.runs.length = graph.runs.length + 1
  nodes : after.nodes = graph.nodes

theorem admitRun_added {middle : Graph World} {run : Run} {ledger : Ledger}
    (runs : middle.runs = graph.runs) (nodes : middle.nodes = graph.nodes) :
    Added graph (admitRun middle run ledger) where
  runs := by rw [admitRun, List.length_append, List.length_singleton, runs]
  nodes

theorem Added.current {after : Graph World} (added : Added graph after) (threadIndex : Nat)
    (runId : String) : Added graph (setCurrentRun after threadIndex runId) :=
  ⟨added.runs, added.nodes⟩

variable (library) in
theorem BeginsRun.rejected {node : Option String}
    (begins : BeginsRun graph call state update node step options)
    (rejected : ¬Accepted graph.channels state update) :
    ∃ after status, openCall library graph call = .refused after status ∧ status ≠ .ok ∧
      Added graph after := by
  cases begins with
  | start threadId input options node chosen =>
      have same := addThreadRecord_same graph threadId
      rw [openCall, StateGraph.start, chosen]
      dsimp only
      rw [if_neg]
      · refine ⟨_, _, rfl, ?_, admitRun_added same.2.2.2.1 same.2.2.1⟩
        rw [ne_eq, seedRun_status, same.2.1]
        exact rejected
      · rw [seedRun_status, same.2.1]
        exact rejected
  | branch call entryId update historyOptions sourceKind options entry run thread branches given
      isEntry isRun isThread =>
      have branch : ∀ makeCurrent, ∃ after status,
          branchFromHistory library graph entryId update historyOptions options makeCurrent
            sourceKind = .refused after status ∧ status ≠ .ok ∧ Added graph after := by
        intro makeCurrent
        rw [branchFromHistory_found library isEntry isRun isThread]
        dsimp only
        rw [if_neg]
        · refine ⟨_, _, rfl, ?_, admitRun_added rfl rfl⟩
          rw [ne_eq, seedRun_status]
          exact rejected
        · rw [seedRun_status]
          exact rejected
      cases branches with
      | resume => cases given; exact branch true
      | fork => cases given; exact branch false

variable (library) in
/-- An accepted update leads to the execution of the run from its first node. -/
theorem BeginsRun.running {next node : String}
    (begins : BeginsRun graph call state update (some next) step options)
    (accepted : Accepted graph.channels state update)
    (chosen : (options.startNode <|> some next) = some node) :
    ∃ started index run, openCall library graph call =
        .running started index options (executionFrom started run options node) ∧
      run.steps = step ∧ Added graph started := by
  generalize isNext : (some next : Option String) = first at begins
  cases begins with
  | start threadId input options node' chosen' =>
      cases isNext
      have same := addThreadRecord_same graph threadId
      rw [openCall, StateGraph.start, chosen']
      dsimp only
      rw [seedRun_accepted (by rw [same.2.1]; exact accepted)]
      dsimp only
      rw [if_pos rfl, executeRun_running (by exact chosen)]
      exact ⟨_, _, _, rfl, rfl, (admitRun_added same.2.2.2.1 same.2.2.1).current _ _⟩
  | branch call entryId update historyOptions sourceKind options entry run thread branches given
      isEntry isRun isThread =>
      have branch : ∀ makeCurrent, ∃ started index run,
          branchFromHistory library graph entryId update historyOptions options makeCurrent
              sourceKind = .running started index options (executionFrom started run options node) ∧
            run.steps = entry.step ∧ Added graph started := by
        intro makeCurrent
        rw [branchFromHistory_found library isEntry isRun isThread]
        dsimp only
        rw [seedRun_accepted accepted]
        dsimp only
        rw [if_pos rfl, ← isNext]
        dsimp only [addHistoryRecord, seededRun, goOn]
        rw [executeRun_running chosen]
        refine ⟨_, _, _, rfl, rfl, ?_⟩
        cases makeCurrent with
        | true => exact (admitRun_added rfl rfl).current _ _
        | false => exact admitRun_added rfl rfl
      cases branches with
      | resume => cases given; exact branch true
      | fork => cases given; exact branch false

variable (library) in
theorem CannotBegin.answered (cannot : CannotBegin graph call) :
    ∃ after outcome, Answers library graph call after outcome ∧ outcome.Fails ∧
      (Unlocated graph call ∧ after = graph ∨ ¬Unlocated graph call ∧ Added graph after) := by
  cases cannot with
  | unlocated unlocated =>
      obtain ⟨status, opened, failed⟩ := unlocated.answered library
      exact ⟨graph, _, .answered opened, ⟨failed, rfl⟩, .inl ⟨unlocated, rfl⟩⟩
  | update state update node step options begins rejected =>
      obtain ⟨after, status, opened, failed, added⟩ := begins.rejected library rejected
      exact ⟨after, _, .answered opened, ⟨failed, rfl⟩, .inr ⟨begins.located, added⟩⟩
  | node state update next node step options begins accepted chosen unlimited uninterrupted unknown =>
      obtain ⟨started, index, run, opened, steps, added⟩ :=
        begins.running library accepted chosen
      have proceeds : Proceeds options (executionFrom started run options node) := by
        refine ⟨?_, uninterrupted⟩
        show ¬(0 < options.maxSteps ∧ options.maxSteps ≤ run.steps)
        rw [steps]
        exact unlimited
      have fails : round library started options (executionFrom started run options node) =
          failRound { executionFrom started run options node with skipInitialInterrupt := false }
            .nodeNotFound := by
        rw [round_proceeds proceeds, advance]
        have missing : findNode started.nodes node = none := added.nodes ▸ unknown
        simp only [executionFrom, missing]
      refine ⟨_, _, .ran opened (.done fails), ⟨by decide, rfl⟩,
        .inr ⟨begins.located, ?_, added.nodes⟩⟩
      rw [finishRun, putRun, List.length_set]
      exact added.runs

theorem Unlocated.leavesNoTrace (unlocated : Unlocated graph call) :
    LeavesNoTrace library graph call := by
  obtain ⟨status, opened, -⟩ := unlocated.answered library
  intro after outcome answers
  cases answers with
  | answered same =>
      rw [opened] at same
      cases same
      exact ⟨rfl, rfl, rfl⟩
  | ran same =>
      rw [opened] at same
      cases same

/-- A call that cannot begin its run leaves no trace exactly when it is refused because its history
entry, or the run or the thread of the entry, is unknown. -/
theorem cannotBegin_leavesNoTrace_iff (library : JsonLibrary) (graph : Graph World)
    (call : Call World) (cannot : CannotBegin graph call) :
    LeavesNoTrace library graph call ↔ Unlocated graph call := by
  constructor
  · intro untraced
    obtain ⟨after, outcome, answers, -, ⟨unlocated, -⟩ | ⟨-, added⟩⟩ := cannot.answered library
    · exact unlocated
    · have runs := added.runs
      rw [(untraced after outcome answers).2.1] at runs
      omega
  · exact Unlocated.leavesNoTrace

end

/-- An update of a channel that the graph does not have. -/
def strangeUpdate : Json := .object [("strange", .null)]

def strangeStart : Call Unit := .start none (some strangeUpdate) noOptions

theorem strangeStart_cannotBegin : CannotBegin loggingGraph strangeStart := by
  refine .update _ _ _ _ _ (.start none (some strangeUpdate) noOptions "a" rfl) ?_
  intro accepted
  have applied : (applyUpdate sampleLibrary loggingGraph.channels
      (seedDefaults loggingGraph.channels) strangeUpdate).1 = .ok := applyUpdate_eq_ok.mpr accepted
  revert applied
  decide

/-- `cannotBegin_leavesNoTrace_iff` for the start. -/
theorem cannotBegin_leavesNoTrace_sample :
    LeavesNoTrace sampleLibrary loggingGraph strangeStart ↔
      Unlocated loggingGraph strangeStart :=
  cannotBegin_leavesNoTrace_iff sampleLibrary loggingGraph strangeStart strangeStart_cannotBegin

/-- The run of a start with an unknown channel stays. -/
theorem strange_start_leaves_run :
    CannotBegin loggingGraph strangeStart ∧
      ¬LeavesNoTrace sampleLibrary loggingGraph strangeStart := by
  refine ⟨strangeStart_cannotBegin, ?_⟩
  intro untraced
  have opened : ∃ after, openCall sampleLibrary loggingGraph strangeStart =
      .refused after .channelNotFound ∧ after.runs.length = 1 := ⟨_, rfl, rfl⟩
  obtain ⟨after, opened, one⟩ := opened
  have none := (untraced after _ (.answered opened)).2.1
  rw [none] at one
  cases one

/-! ## Loads -/

section

variable {World : Type} (library : JsonLibrary) (graph : Graph World)

/-- A load comes to the records of a document: it is a snapshot of this version, of a graph with
the same topology, and has threads, runs and a history. -/
def ComesToRecords (document : Option Json) : Prop :=
  ∃ root topology runtime, document = some root ∧ root.field "topology" = some topology ∧
    root.field "runtime" = some runtime ∧
    Json.asInt64 (root.field "snapshot_version") 0 = 1 ∧
    validateTopologySnapshot library graph topology = .ok ∧
    ∀ key ∈ ["threads", "runs", "history"], runtime.field key ≠ none

variable {library graph}

theorem importRuntime_failed {runtime threads runs history : Json}
    (failed : (importRuntime graph runtime threads runs history).1 ≠ .ok) :
    (importRuntime graph runtime threads runs history).2 = clearRuntimeState graph := by
  unfold importRuntime at failed ⊢
  split at failed
  next => exact absurd rfl failed
  next => rfl
  next => rfl
  next => rfl

/-- A load that fails leaves the graph as it is, or, once it came to the records of the snapshot,
without any threads, runs and history and with counters of zero. -/
theorem loadSnapshot_failed (library : JsonLibrary) (graph : Graph World) (document : Option Json)
    (failed : (loadSnapshot library graph document).1 ≠ .ok) :
    (¬ComesToRecords library graph document → (loadSnapshot library graph document).2 = graph) ∧
    (ComesToRecords library graph document →
      (loadSnapshot library graph document).2 = clearRuntimeState graph) := by
  constructor
  · intro early
    unfold loadSnapshot
    split
    next => rfl
    next root =>
      split
      next topology runtime isTopology isRuntime =>
        split
        next version =>
          split
          next same =>
            split
            next threads runs history isThreads isRuns isHistory =>
              refine absurd ⟨root, topology, runtime, rfl, isTopology, isRuntime, version, same, ?_⟩
                early
              simp [isThreads, isRuns, isHistory]
            next => rfl
          next => rfl
        next => rfl
      next => rfl
  · rintro ⟨root, topology, runtime, rfl, isTopology, isRuntime, version, same, present⟩
    simp only [List.forall_mem_cons, List.not_mem_nil, false_implies, implies_true, and_true,
      ← Option.isSome_iff_ne_none, Option.isSome_iff_exists] at present
    obtain ⟨⟨threads, isThreads⟩, ⟨runs, isRuns⟩, ⟨history, isHistory⟩⟩ := present
    simp only [loadSnapshot, isTopology, isRuntime, isThreads, isRuns, isHistory, if_pos version,
      if_pos same] at failed ⊢
    exact importRuntime_failed failed

end

/-- A snapshot of a graph without channels, nodes and edges, whose only thread has no name. -/
def namelessSnapshot : Json :=
  .object [
    ("snapshot_version", .int 1),
    ("topology", .object [("channels", .array []), ("nodes", .array []), ("edges", .array [])]),
    ("runtime", .object [("threads", .array [.null]), ("runs", .array []),
      ("history", .array [])])]

def threadedGraph : Graph Unit :=
  { create () with threads := [⟨"thread-1", none⟩], nextThreadId := 1 }

/-- `loadSnapshot_failed` for the snapshot. -/
theorem loadSnapshot_failed_sample :
    (¬ComesToRecords sampleLibrary threadedGraph (some namelessSnapshot) →
      (loadSnapshot sampleLibrary threadedGraph (some namelessSnapshot)).2 = threadedGraph) ∧
    (ComesToRecords sampleLibrary threadedGraph (some namelessSnapshot) →
      (loadSnapshot sampleLibrary threadedGraph (some namelessSnapshot)).2 =
        clearRuntimeState threadedGraph) :=
  loadSnapshot_failed sampleLibrary threadedGraph (some namelessSnapshot) (by decide)

/-- A thread without a name makes a load fail, and the threads of the graph are gone. -/
theorem nameless_thread_clears :
    (loadSnapshot sampleLibrary threadedGraph (some namelessSnapshot)).1 ≠ .ok ∧
    (loadSnapshot sampleLibrary threadedGraph (some namelessSnapshot)).2.threads ≠
      threadedGraph.threads := by
  refine ⟨by decide, ?_⟩
  intro same
  cases same

end TurboAgent.StateGraph
