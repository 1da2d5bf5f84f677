import TurboAgent.StateGraph.Model

/-!
# Snapshots of a state graph

A snapshot has the topology of the graph it was made of and its threads, runs and history.
Loading one checks the topology, drops what the graph has of runs, and imports the records as
they are in the document.
-/

namespace TurboAgent.StateGraph

/-- `turbo_runtime_json_value_as_string`: a string up to its first NUL. -/
def asString : Option Json → Option String
  | some (.string text) => some (String.ofList (text.toList.takeWhile (· ≠ '\x00')))
  | _ => none

/-- `turbo_runtime_json_value_as_int64` with the default zero, as a `size_t`. -/
def asSize (value : Option Json) : Nat :=
  (Json.asInt64 value 0 % 18446744073709551616).toNat

def Reducer.code : Reducer → Int
  | .replace => 0
  | .append => 1
  | .mergeObject => 2
  | .add => 3
  | .lastNonNull => 4

def arrayField (record : Json) (key : String) : Option (List Json) :=
  match record.field key with
  | some (.array elements) => some elements
  | _ => none

section

variable {World : Type} (library : JsonLibrary) (graph : Graph World)

def sameChannel (record : Json) (channel : Channel) : Bool :=
  asString (record.field "name") == some channel.name &&
    Json.asInt64 (record.field "reducer") (-1) == channel.reducer.code &&
    Json.asInt64 (record.field "value_kind") (-1) == library.typeCode channel.valueKind

def sameEdge (record : Json) (edge : Edge World) : Bool :=
  asString (record.field "from") == some (nodeName graph.nodes edge.fromIndex) &&
    asString (record.field "to") == some (nodeName graph.nodes edge.toIndex)

/-- `turbo_state_graph_validate_topology_snapshot`. -/
def validateTopologySnapshot (topology : Json) : Status :=
  match arrayField topology "channels", arrayField topology "nodes",
      arrayField topology "edges" with
  | some channels, some nodes, some edges =>
      if channels.length = graph.channels.length ∧ nodes.length = graph.nodes.length ∧
          edges.length = graph.edges.length then
        if (channels.zip graph.channels).all (fun pair => sameChannel library pair.1 pair.2) &&
            (nodes.zip graph.nodes).all (fun pair => asString (some pair.1) == some pair.2.name) &&
            (edges.zip graph.edges).all (fun pair => sameEdge graph pair.1 pair.2) then .ok
        else .error
      else .error
  | _, _, _ => .error

end

/-- An entry of `turbo_state_graph_import_threads`. -/
def importThread (record : Json) : Option Thread :=
  match asString (record.field "thread_id") with
  | some id => some ⟨id, asString (record.field "current_run_id")⟩
  | none => none

/-- An entry of `turbo_state_graph_import_runs`. -/
def importRun (record : Json) : Option Run :=
  match asString (record.field "run_id"), asString (record.field "thread_id"),
      record.field "state", asString (record.field "status") with
  | some id, some threadId, some state, some status =>
      some
        { id, threadId, state
          parentRunId := asString (record.field "parent_run_id")
          forkedFromHistoryId := asString (record.field "forked_from_history_id")
          latestHistoryEntryId := asString (record.field "latest_history_entry_id")
          currentNode := asString (record.field "next_node")
          steps := asSize (record.field "steps")
          interrupted := status == "interrupted"
          completed := status == "completed" }
  | _, _, _, _ => none

def sourceKindOfText (text : String) : SourceKind :=
  if text = "start" then .start
  else if text = "node" then .node
  else if text = "fork" then .fork
  else .host

/-- The identifiers of a history entry, all of which it needs. -/
def importHistoryIds (record : Json) : Option (String × String × String × String) :=
  match asString (record.field "history_entry_id"), asString (record.field "checkpoint_id"),
      asString (record.field "thread_id"), asString (record.field "run_id") with
  | some id, some checkpointId, some threadId, some runId =>
      some (id, checkpointId, threadId, runId)
  | _, _, _, _ => none

/-- An entry of `turbo_state_graph_import_history`. -/
def importHistoryEntry (record : Json) : Option HistoryEntry :=
  match importHistoryIds record, asString (record.field "source_kind"), record.field "update",
      record.field "state" with
  | some (id, checkpointId, threadId, runId), some sourceKind, some update, some state =>
      some
        { id, checkpointId, threadId, runId, update, state
          sourceName := asString (record.field "source_name")
          reason := asString (record.field "reason")
          lastNode := asString (record.field "last_node")
          nextNode := asString (record.field "next_node")
          sourceKind := sourceKindOfText sourceKind
          step := asSize (record.field "step") }
  | _, _, _, _ => none

/-- The loop of the imports: every record is accepted, or the import fails. -/
def importRecords {Record : Type} (read : Json → Option Record) : Json → Except Status (List Record)
  | .array records =>
      match records.mapM read with
      | some entries => .ok entries
      | none => .error .error
  | _ => .error .invalidArgument

section

variable {World : Type} (library : JsonLibrary) (graph : Graph World)

/-- `turbo_state_graph_clear_runtime_state`. -/
def clearRuntimeState : Graph World :=
  { graph with
    threads := []
    runs := []
    ledger := ⟨[], 0, 0⟩
    nextThreadId := 0
    nextRunId := 0
    applied := [] }

/-- The imports of `turbo_state_graph_load_snapshot`. -/
def importRuntime (runtime threads runs history : Json) : Status × Graph World :=
  match importRecords importThread threads, importRecords importRun runs,
      importRecords importHistoryEntry history with
  | .ok threads, .ok runs, .ok entries =>
      (.ok, { clearRuntimeState graph with
        threads, runs
        ledger := ⟨entries, asSize (runtime.field "next_history_id"),
          asSize (runtime.field "next_checkpoint_id")⟩
        nextThreadId := asSize (runtime.field "next_thread_id")
        nextRunId := asSize (runtime.field "next_run_id") })
  | .error status, _, _ | .ok _, .error status, _ | .ok _, .ok _, .error status =>
      (status, clearRuntimeState graph)

/-- `turbo_state_graph_load_snapshot`, of the document that the text was parsed to. -/
def loadSnapshot (document : Option Json) : Status × Graph World :=
  match document with
  | none => (.error, graph)
  | some root =>
      match root.field "topology", root.field "runtime" with
      | some topology, some runtime =>
          if Json.asInt64 (root.field "snapshot_version") 0 = 1 then
            if validateTopologySnapshot library graph topology = .ok then
              match runtime.field "threads", runtime.field "runs", runtime.field "history" with
              | some threads, some runs, some history =>
                  importRuntime graph runtime threads runs history
              | _, _, _ => (.error, graph)
            else (validateTopologySnapshot library graph topology, graph)
          else (.error, graph)
      | _, _ => (.error, graph)

variable {library graph}

/-- What holds of the graph, of the graph without its records and of the graph with those of the
document holds after a load. -/
theorem loadSnapshot_keeps {document : Option Json} (Kept : Graph World → Prop)
    (same : Kept graph) (cleared : Kept (clearRuntimeState graph))
    (loaded : ∀ root runtime threads runs history imported importedRuns entries,
      document = some root → root.field "runtime" = some runtime →
      runtime.field "threads" = some threads → importRecords importThread threads = .ok imported →
      runtime.field "runs" = some runs → importRecords importRun runs = .ok importedRuns →
      runtime.field "history" = some history →
      importRecords importHistoryEntry history = .ok entries →
      Kept { clearRuntimeState graph with
        threads := imported
        runs := importedRuns
        ledger := ⟨entries, asSize (runtime.field "next_history_id"),
          asSize (runtime.field "next_checkpoint_id")⟩
        nextThreadId := asSize (runtime.field "next_thread_id")
        nextRunId := asSize (runtime.field "next_run_id") }) :
    Kept (loadSnapshot library graph document).2 := by
  unfold loadSnapshot
  split
  next => exact same
  next root =>
    split
    next topology runtime _ isRuntime =>
      split
      next =>
        split
        next =>
          split
          next threads runs history isThreads isRuns isHistory =>
            unfold importRuntime
            split
            next imported importedRuns entries readThreads readRuns readEntries =>
              exact loaded root runtime threads runs history imported importedRuns entries rfl
                isRuntime isThreads readThreads isRuns readRuns isHistory readEntries
            all_goals exact cleared
          next => exact same
        next => exact same
      next => exact same
    next => exact same

end

end TurboAgent.StateGraph
