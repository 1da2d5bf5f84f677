import TurboAgent.StateGraph.Calls

/-!
# Documents of state graphs

What a snapshot writes: the topology of the graph, its threads, runs and history, and the
counters of its identifiers.  A record of the document has the fields of the record of the
graph, so that reading it gives that record back, as long as its texts have no NUL.
-/

namespace TurboAgent.StateGraph

/-- The texts of a graph that only its snapshot shows: its name and the descriptions of its
channels. -/
structure Labels where
  graphName : Option String
  description : String → Option String

/-- `turbo_state_graph_json_value_object_set_nullable_string`, the value. -/
def nullableString : Option String → Json
  | some text => .string text
  | none => .null

/-- `turbo_runtime_json_object_set_int64` of a `size_t` that is cast, the value. -/
def sizeNumber (value : Nat) : Json := .int ((value : Int).bmod 18446744073709551616)

/-- `turbo_state_graph_source_kind_text`. -/
def SourceKind.text : SourceKind → String
  | .start => "start"
  | .node => "node"
  | .host => "host"
  | .fork => "fork"

/-- `turbo_state_graph_run_status_text`. -/
def Run.statusText (run : Run) : String :=
  if run.completed then "completed" else if run.interrupted then "interrupted" else "running"

/-- `turbo_state_graph_history_object`. -/
def historyObject (entry : HistoryEntry) : Json :=
  .object
    [("history_entry_id", .string entry.id),
      ("checkpoint_id", .string entry.checkpointId),
      ("thread_id", .string entry.threadId),
      ("run_id", .string entry.runId),
      ("source_kind", .string entry.sourceKind.text),
      ("source_name", nullableString entry.sourceName),
      ("reason", nullableString entry.reason),
      ("last_node", nullableString entry.lastNode),
      ("next_node", nullableString entry.nextNode),
      ("step", sizeNumber entry.step),
      ("update", entry.update),
      ("state", entry.state),
      ("checkpointable", .bool true)]

/-- `turbo_state_graph_run_object`. -/
def runObject (run : Run) : Json :=
  .object
    [("run_id", .string run.id),
      ("thread_id", .string run.threadId),
      ("parent_run_id", nullableString run.parentRunId),
      ("forked_from_history_id", nullableString run.forkedFromHistoryId),
      ("latest_history_entry_id", nullableString run.latestHistoryEntryId),
      ("next_node", nullableString run.currentNode),
      ("status", .string run.statusText),
      ("steps", sizeNumber run.steps),
      ("state", run.state)]

/-- `turbo_state_graph_thread_object`. -/
def threadObject (thread : Thread) (currentState : Option Json) : Json :=
  .object
    ([("thread_id", .string thread.id),
      ("current_run_id", nullableString thread.currentRunId)] ++
        (currentState.map fun state => ("current_state", state)).toList)

/-- `turbo_state_graph_channel_object`. -/
def channelObject (library : JsonLibrary) (labels : Labels) (channel : Channel) : Json :=
  .object
    [("name", .string channel.name),
      ("reducer", .int channel.reducer.code),
      ("value_kind", .int (library.typeCode channel.valueKind)),
      ("description", nullableString (labels.description channel.name)),
      ("default_value", channel.defaultValue)]

section

variable {World : Type} (library : JsonLibrary) (labels : Labels) (graph : Graph World)

/-- An edge of `turbo_state_graph_topology_snapshot`. -/
def edgeObject (edge : Edge World) : Json :=
  .object
    [("from", .string (nodeName graph.nodes edge.fromIndex)),
      ("to", .string (nodeName graph.nodes edge.toIndex))]

/-- `turbo_state_graph_topology_snapshot`. -/
def topologySnapshot : Json :=
  .object
    [("graph_name", nullableString labels.graphName),
      ("entry_node", nullableString graph.entryNode),
      ("channels", .array (graph.channels.map (channelObject library labels))),
      ("nodes", .array (graph.nodes.map fun node => .string node.name)),
      ("edges", .array (graph.edges.map (edgeObject graph)))]

def currentState (thread : Thread) : Option Json :=
  (thread.currentRunId.bind (findRun graph)).map fun found => found.1.state

/-- The threads, the runs, the history and the counters of a snapshot. -/
def runtimeSnapshot : Json :=
  .object
    [("next_thread_id", sizeNumber graph.nextThreadId),
      ("next_run_id", sizeNumber graph.nextRunId),
      ("next_history_id", sizeNumber graph.ledger.nextHistoryId),
      ("next_checkpoint_id", sizeNumber graph.ledger.nextCheckpointId),
      ("threads",
        .array (graph.threads.map fun thread => threadObject thread (currentState graph thread))),
      ("runs", .array (graph.runs.map runObject)),
      ("history", .array (graph.ledger.entries.map historyObject))]

/-- The document of `turbo_state_graph_serialize_snapshot`. -/
def serializeSnapshot : Json :=
  .object
    [("snapshot_version", .int 1),
      ("topology", topologySnapshot library labels graph),
      ("runtime", runtimeSnapshot graph)]

end

/-! ## Reading back -/

def plainText (text : Option String) : Bool := text.all noNul

def Thread.isText (thread : Thread) : Bool := noNul thread.id && plainText thread.currentRunId

def Run.isText (run : Run) : Bool :=
  [some run.id, some run.threadId, run.parentRunId, run.forkedFromHistoryId,
    run.latestHistoryEntryId, run.currentNode].all plainText

def HistoryEntry.isText (entry : HistoryEntry) : Bool :=
  [some entry.id, some entry.checkpointId, some entry.threadId, some entry.runId,
    entry.sourceName, entry.reason, entry.lastNode, entry.nextNode].all plainText

theorem asString_string {text : String} (plain : noNul text = true) :
    asString (some (.string text)) = some text := by
  have stored : (Json.object [("text", .string text)]).field "text" = some (.string text) := rfl
  have read := Json.getString_of_field stored plain
  rwa [Json.getString, stored] at read

theorem asString_nullable {text : Option String} (plain : plainText text = true) :
    asString (some (nullableString text)) = text := by
  cases text with
  | none => rfl
  | some text => exact asString_string plain

theorem asSize_sizeNumber {value : Nat} (bound : value < 18446744073709551616) :
    asSize (some (sizeNumber value)) = value := by
  have lower : Json.int64Min ≤ (value : Int).bmod 18446744073709551616 :=
    Int.le_bmod (by decide)
  have upper : (value : Int).bmod 18446744073709551616 ≤ Json.int64Max :=
    Int.le_of_lt_add_one (Int.bmod_lt (by decide))
  have wraps : (value : Int).bmod 18446744073709551616 % 18446744073709551616 =
      value % 18446744073709551616 := Int.bmod_emod
  rw [asSize, sizeNumber, Json.asInt64_int lower upper]
  omega

theorem sourceKindOfText_text (kind : SourceKind) : sourceKindOfText kind.text = kind := by
  cases kind <;> decide

theorem importThread_object {thread : Thread} (state : Option Json)
    (plain : thread.isText = true) : importThread (threadObject thread state) = some thread := by
  obtain ⟨id, current⟩ := Bool.and_eq_true_iff.mp plain
  have isId : (threadObject thread state).field "thread_id" = some (.string thread.id) := rfl
  have isCurrent : (threadObject thread state).field "current_run_id" =
      some (nullableString thread.currentRunId) := rfl
  rw [importThread, isId, isCurrent, asString_string id, asString_nullable current]

/-- The flags of a run that its status text can tell. -/
def Run.Resting (run : Run) : Prop := ¬(run.interrupted = true ∧ run.completed = true)

theorem importRun_object {run : Run} (plain : run.isText = true) (resting : run.Resting)
    (bound : run.steps < 18446744073709551616) : importRun (runObject run) = some run := by
  simp only [Run.isText, List.all_cons, List.all_nil, Bool.and_true, Bool.and_eq_true] at plain
  obtain ⟨id, threadId, parent, forked, latest, current⟩ := plain
  have status : noNul run.statusText = true := by
    unfold Run.statusText
    split
    next => decide
    next => split <;> decide
  have isInterrupted : (run.statusText == "interrupted") = run.interrupted := by
    unfold Run.statusText
    cases interrupted : run.interrupted <;> cases completed : run.completed <;> try decide
    exact absurd ⟨interrupted, completed⟩ resting
  have isCompleted : (run.statusText == "completed") = run.completed := by
    unfold Run.statusText
    cases run.interrupted <;> cases run.completed <;> decide
  simp [importRun, runObject, Json.field, Json.findField, asString_string id,
    asString_string threadId, asString_string status, asString_nullable parent,
    asString_nullable forked, asString_nullable latest, asString_nullable current, isInterrupted,
    isCompleted, asSize_sizeNumber bound]

theorem importHistoryEntry_object {entry : HistoryEntry} (plain : entry.isText = true)
    (bound : entry.step < 18446744073709551616) :
    importHistoryEntry (historyObject entry) = some entry := by
  simp only [HistoryEntry.isText, List.all_cons, List.all_nil, Bool.and_true,
    Bool.and_eq_true] at plain
  obtain ⟨id, checkpointId, threadId, runId, source, reason, last, next⟩ := plain
  have kind : noNul entry.sourceKind.text = true := by cases entry.sourceKind <;> decide
  simp [importHistoryEntry, importHistoryIds, historyObject, Json.field, Json.findField,
    asString_string id, asString_string checkpointId, asString_string threadId,
    asString_string runId, asString_string kind, asString_nullable source,
    asString_nullable reason, asString_nullable last, asString_nullable next,
    sourceKindOfText_text, asSize_sizeNumber bound]

theorem importRecords_map {Record : Type} {read : Json → Option Record} {write : Record → Json}
    {records : List Record} (reads : ∀ record ∈ records, read (write record) = some record) :
    importRecords read (.array (records.map write)) = .ok records := by
  have all : (records.map write).mapM read = some records := by
    induction records with
    | nil => rfl
    | cons record records ih =>
        obtain ⟨first, rest⟩ := List.forall_mem_cons.mp reads
        simp [List.mapM_cons, first, ih rest]
  rw [importRecords, all]

section

variable {World : Type} {library : JsonLibrary} {labels : Labels} {graph fresh : Graph World}

/-- A graph whose names have no NUL, and the library's numbers of types are small. -/
structure TopologyText (library : JsonLibrary) (graph : Graph World) : Prop where
  codes : ∀ kind, Json.int64Min ≤ library.typeCode kind ∧ library.typeCode kind ≤ Json.int64Max
  channels : ∀ channel ∈ graph.channels, noNul channel.name = true
  nodes : ∀ node ∈ graph.nodes, noNul node.name = true

structure SameTopology (graph fresh : Graph World) : Prop where
  entryNode : fresh.entryNode = graph.entryNode
  channels : fresh.channels = graph.channels
  nodes : fresh.nodes = graph.nodes
  edges : fresh.edges = graph.edges

theorem SameTopology.refl (graph : Graph World) : SameTopology graph graph := ⟨rfl, rfl, rfl, rfl⟩

theorem TopologyText.nodeName (text : TopologyText library graph) (index : Nat) :
    noNul (nodeName graph.nodes index) = true := by
  unfold StateGraph.nodeName
  cases place : graph.nodes[index]? with
  | none => exact noNul_empty
  | some node => exact text.nodes node (List.mem_of_getElem? place)

theorem sameChannel_object {channel : Channel} (text : TopologyText library graph)
    (member : channel ∈ graph.channels) :
    sameChannel library (channelObject library labels channel) channel = true := by
  obtain ⟨lower, upper⟩ := text.codes channel.valueKind
  have reducer : Json.asInt64 (some (.int channel.reducer.code)) (-1) = channel.reducer.code := by
    cases channel.reducer <;> decide
  simp [sameChannel, channelObject, Json.field, Json.findField,
    asString_string (text.channels channel member), reducer, Json.asInt64_int lower upper]

theorem sameEdge_object {edge : Edge World} (text : TopologyText library graph) :
    sameEdge graph (edgeObject graph edge) edge = true := by
  simp [sameEdge, edgeObject, Json.field, Json.findField, asString_string (text.nodeName _)]

theorem all_zip_map {α β : Type} {f : α → β} {test : β × α → Bool} {xs : List α}
    (each : ∀ x ∈ xs, test (f x, x) = true) : ((xs.map f).zip xs).all test = true := by
  induction xs with
  | nil => rfl
  | cons x xs ih =>
      obtain ⟨first, rest⟩ := List.forall_mem_cons.mp each
      simp [first, ih rest]

/-- The topology that a graph writes is the one of a graph that was built alike. -/
theorem validateTopologySnapshot_topology (text : TopologyText library graph)
    (same : SameTopology graph fresh) :
    validateTopologySnapshot library fresh (topologySnapshot library labels graph) = .ok := by
  have channels : ((graph.channels.map (channelObject library labels)).zip graph.channels).all
      (fun pair => sameChannel library pair.1 pair.2) = true :=
    all_zip_map fun channel member => sameChannel_object text member
  have nodes : ((graph.nodes.map fun node => Json.string node.name).zip graph.nodes).all
      (fun pair => asString (some pair.1) == some pair.2.name) = true :=
    all_zip_map fun node member => by simp [asString_string (text.nodes node member)]
  have edges : ((graph.edges.map (edgeObject graph)).zip graph.edges).all
      (fun pair => sameEdge graph pair.1 pair.2) = true :=
    all_zip_map fun edge member => sameEdge_object text
  have edgeTest : sameEdge fresh = sameEdge graph := by
    funext record edge
    rw [sameEdge, sameEdge, same.nodes]
  have fields : ∀ key, (topologySnapshot library labels graph).field key =
      Json.findField [("graph_name", nullableString labels.graphName),
        ("entry_node", nullableString graph.entryNode),
        ("channels", .array (graph.channels.map (channelObject library labels))),
        ("nodes", .array (graph.nodes.map fun node => .string node.name)),
        ("edges", .array (graph.edges.map (edgeObject graph)))] key := fun _ => rfl
  rw [validateTopologySnapshot]
  simp only [arrayField, fields, Json.findField, String.reduceEq, if_false, if_true,
    List.length_map, same.channels, same.nodes, same.edges, and_self, edgeTest, channels, nodes,
    edges, Bool.and_self]

/-- The counters and steps of a graph fit into the machine's sizes. -/
structure Sized (graph : Graph World) : Prop where
  threads : graph.nextThreadId < 18446744073709551616
  runs : graph.nextRunId < 18446744073709551616
  history : graph.ledger.nextHistoryId < 18446744073709551616
  checkpoints : graph.ledger.nextCheckpointId < 18446744073709551616
  steps : ∀ run ∈ graph.runs, run.steps < 18446744073709551616
  entries : ∀ entry ∈ graph.ledger.entries, entry.step < 18446744073709551616

/-- The records of a graph can be written and read. -/
structure Writable (graph : Graph World) : Prop where
  threads : ∀ thread ∈ graph.threads, thread.isText = true
  runs : ∀ run ∈ graph.runs, run.isText = true
  resting : ∀ run ∈ graph.runs, run.Resting
  entries : ∀ entry ∈ graph.ledger.entries, entry.isText = true

theorem runtimeSnapshot_threads (writable : Writable graph) :
    ∃ records, (runtimeSnapshot graph).field "threads" = some records ∧
      importRecords importThread records = .ok graph.threads :=
  ⟨_, rfl, importRecords_map fun thread member =>
    importThread_object _ (writable.threads thread member)⟩

theorem runtimeSnapshot_runs (writable : Writable graph) (sized : Sized graph) :
    ∃ records, (runtimeSnapshot graph).field "runs" = some records ∧
      importRecords importRun records = .ok graph.runs :=
  ⟨_, rfl, importRecords_map fun run member => importRun_object (writable.runs run member)
    (writable.resting run member) (sized.steps run member)⟩

theorem runtimeSnapshot_history (writable : Writable graph) (sized : Sized graph) :
    ∃ records, (runtimeSnapshot graph).field "history" = some records ∧
      importRecords importHistoryEntry records = .ok graph.ledger.entries :=
  ⟨_, rfl, importRecords_map fun entry member =>
    importHistoryEntry_object (writable.entries entry member) (sized.entries entry member)⟩

theorem runtimeSnapshot_counters (sized : Sized graph) :
    asSize ((runtimeSnapshot graph).field "next_thread_id") = graph.nextThreadId ∧
      asSize ((runtimeSnapshot graph).field "next_run_id") = graph.nextRunId ∧
        asSize ((runtimeSnapshot graph).field "next_history_id") = graph.ledger.nextHistoryId ∧
          asSize ((runtimeSnapshot graph).field "next_checkpoint_id") =
            graph.ledger.nextCheckpointId :=
  ⟨asSize_sizeNumber sized.threads, asSize_sizeNumber sized.runs, asSize_sizeNumber sized.history,
    asSize_sizeNumber sized.checkpoints⟩

/-- Loading what a graph writes gives its threads, runs, history and counters to a graph that was
built alike. -/
theorem loadSnapshot_serialize (text : TopologyText library graph)
    (same : SameTopology graph fresh) (writable : Writable graph) (sized : Sized graph) :
    loadSnapshot library fresh (some (serializeSnapshot library labels graph)) =
      (.ok, { graph with world := fresh.world, applied := [] }) := by
  have topology : validateTopologySnapshot library fresh (topologySnapshot library labels graph) =
      .ok := validateTopologySnapshot_topology text same
  obtain ⟨threads, threadsField, readThreads⟩ := runtimeSnapshot_threads writable
  obtain ⟨runs, runsField, readRuns⟩ := runtimeSnapshot_runs writable sized
  obtain ⟨history, historyField, readHistory⟩ := runtimeSnapshot_history writable sized
  obtain ⟨nextThread, nextRun, nextHistory, nextCheckpoint⟩ := runtimeSnapshot_counters sized
  have imported : importRuntime fresh (runtimeSnapshot graph) threads runs history =
      (.ok, { graph with world := fresh.world, applied := [] }) := by
    rw [importRuntime, readThreads, readRuns, readHistory]
    simp [clearRuntimeState, nextThread, nextRun, nextHistory, nextCheckpoint, same.entryNode,
      same.channels, same.nodes, same.edges]
  have version : Json.asInt64 (some (.int 1)) 0 = 1 := by decide
  have root : ∀ key, (serializeSnapshot library labels graph).field key =
      Json.findField [("snapshot_version", .int 1),
        ("topology", topologySnapshot library labels graph),
        ("runtime", runtimeSnapshot graph)] key := fun _ => rfl
  simp only [loadSnapshot, root, Json.findField_cons_same, Json.findField_cons_other, ne_eq,
    String.reduceEq, not_false_eq_true, if_true, version, topology, threadsField, runsField,
    historyField, imported]

end

end TurboAgent.StateGraph
