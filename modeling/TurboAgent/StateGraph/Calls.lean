import TurboAgent.StateGraph.Snapshot

/-!
# Calls of a state graph

The interface of a state graph: the calls that build it, those that start a run or go on with
one, the update of a state by the host, and the load of a snapshot.  A call that executes a run
need not return, so what it leaves is a relation.
-/

namespace TurboAgent.StateGraph

open Logic

/-- `turbo_state_graph_history_options_t`; no options are those without texts. -/
structure HistoryOptions where
  (asNode reason : Option String)

/-- `turbo_state_graph_channel_config_t`. -/
structure ChannelConfig where
  reducer : Reducer
  valueKind : Kind
  defaultValue : Option Json

/-- A call that was answered, or one that executes a run of the graph. -/
inductive Opened (World : Type) where
  | answered (graph : Graph World) (outcome : Outcome)
  | running (graph : Graph World) (index : Nat) (options : RunOptions)
      (execution : Execution World)

section

variable {World : Type}

/-- A call that is answered with a status only. -/
def Opened.refused (graph : Graph World) (status : Status) : Opened World :=
  .answered graph ⟨status, none, none⟩

/-- `turbo_state_graph_create`. -/
def create (world : World) : Graph World where
  entryNode := none
  channels := []
  nodes := []
  edges := []
  threads := []
  runs := []
  ledger := ⟨[], 0, 0⟩
  nextThreadId := 0
  nextRunId := 0
  world
  applied := []

variable (library : JsonLibrary) (graph : Graph World)

/-! ## Building -/

def ChannelConfig.channel (config : ChannelConfig) (name : String) : Channel :=
  ⟨name, config.reducer, config.valueKind, config.defaultValue.getD .null⟩

/-- `turbo_state_graph_add_channel`. -/
def addChannel (name : String) (config : ChannelConfig) : Status × Graph World :=
  match findChannel graph.channels name with
  | some _ => (.duplicateChannel, graph)
  | none =>
      let channel := config.channel name
      let status := validateChannelValue channel channel.defaultValue
      if status = .ok then (.ok, { graph with channels := graph.channels ++ [channel] })
      else (status, graph)

/-- `turbo_state_graph_add_json_value_node`. -/
def addNode (node : Node World) : Status × Graph World :=
  match findNode graph.nodes node.name with
  | some _ => (.duplicateNode, graph)
  | none => (.ok, { graph with nodes := graph.nodes ++ [node] })

/-- `turbo_state_graph_add_json_value_edge`. -/
def addEdge (source target : String) (predicate : Option (World → Json → Int × World)) :
    Status × Graph World :=
  match findNode graph.nodes source, findNode graph.nodes target with
  | some (_, fromIndex), some (_, toIndex) =>
      (.ok, { graph with edges := graph.edges ++ [⟨fromIndex, toIndex, predicate⟩] })
  | _, _ => (.nodeNotFound, graph)

/-- `turbo_state_graph_set_entry`. -/
def setEntry (name : String) : Status × Graph World :=
  match findNode graph.nodes name with
  | some _ => (.ok, { graph with entryNode := some name })
  | none => (.nodeNotFound, graph)

/-! ## Runs -/

/-- `turbo_state_graph_find_run`, with the place of the run. -/
def findRun (id : String) : Option (Run × Nat) :=
  graph.runs.zipIdx.find? fun entry => entry.1.id == id

/-- `turbo_state_graph_find_thread`, with the place of the thread. -/
def findThread (id : String) : Option (Thread × Nat) :=
  graph.threads.zipIdx.find? fun entry => entry.1.id == id

def putRun (index : Nat) (run : Run) (ledger : Ledger) : Graph World :=
  { graph with runs := graph.runs.set index run, ledger }

def setCurrentRun (threadIndex : Nat) (runId : String) : Graph World :=
  { graph with threads := graph.threads.modify threadIndex fun thread =>
      { thread with currentRunId := some runId } }

/-- `turbo_state_graph_add_thread_record`, with the place and the identifier of the thread. -/
def addThreadRecord (requested : Option String) : Graph World × Nat × String :=
  let added (id : String) (counter : Nat) : Graph World × Nat × String :=
    ({ graph with threads := graph.threads ++ [⟨id, none⟩], nextThreadId := counter },
      graph.threads.length, id)
  let generated := added (makeId "thread" (graph.nextThreadId + 1)) (graph.nextThreadId + 1)
  match requested with
  | none => generated
  | some id =>
      if id = "" then generated
      else
        match findThread graph id with
        | some (thread, index) => (graph, index, thread.id)
        | none => added id graph.nextThreadId

/-- The run of `turbo_state_graph_add_run_record`. -/
def newRun (threadId : String) (parentRunId forkedFromHistoryId : Option String) (state : Json)
    (currentNode : Option String) (steps : Nat) : Run where
  id := makeId "run" (graph.nextRunId + 1)
  threadId
  parentRunId
  forkedFromHistoryId
  latestHistoryEntryId := none
  currentNode
  steps
  interrupted := false
  completed := currentNode.isNone
  state

def admitRun (run : Run) (ledger : Ledger) : Graph World :=
  { graph with runs := graph.runs ++ [run], ledger, nextRunId := graph.nextRunId + 1 }

/-- `turbo_state_graph_seed_run`, with the entry of the history if there is one. -/
def seedRun (run : Run) (sourceKind : SourceKind) (sourceName : String) (reason : Option String)
    (update : Option Json) (nextNode : Option String) (step : Nat) :
    Status × Ledger × Run × Option HistoryEntry :=
  let update := update.getD (.object [])
  if update.isObject then
    let applied := applyUpdate library graph.channels run.state update
    if applied.1 = .ok then
      let run := { run with
        state := applied.2
        currentNode := nextNode
        steps := step
        completed := nextNode.isNone
        interrupted := false }
      let added := addHistoryRecord graph.ledger run sourceKind (some sourceName) reason none
        nextNode step update
      (.ok, added.1, added.2.1, some added.2.2)
    else (applied.1, graph.ledger, { run with state := applied.2 }, none)
  else (.typeMismatch, graph.ledger, run, none)

/-- `turbo_state_graph_execute_run`, up to its loop. -/
def executeRun (index : Nat) (run : Run) (options : RunOptions) : Opened World :=
  let execution (node : String) : Execution World :=
    { ledger := graph.ledger
      run
      world := graph.world
      applied := graph.applied
      currentNode := node
      steps := run.steps
      skipInitialInterrupt := options.skipInitialInterrupt
      latestHistory := run.latestHistoryEntryId.bind graph.ledger.findHistory }
  match options.startNode <|> run.currentNode with
  | none =>
      .answered
        (putRun graph index { run with completed := true, interrupted := false } graph.ledger)
        ⟨.runCompleted, some ((execution "").result .runCompleted none), none⟩
  | some node => .running graph index options (execution node)

/-- `turbo_state_graph_start`. -/
def start (threadId : Option String) (input : Option Json) (options : RunOptions) :
    Opened World :=
  match options.startNode <|> graph.entryNode with
  | none => .refused graph .invalidArgument
  | some startNode =>
      let (graph, threadIndex, threadId) := addThreadRecord graph threadId
      let run := newRun graph threadId none none (seedDefaults graph.channels) (some startNode) 0
      let (status, ledger, run, _) :=
        seedRun library graph run .start "start" none input (some startNode) 0
      let index := graph.runs.length
      let graph := admitRun graph run ledger
      if status = .ok then executeRun (setCurrentRun graph threadIndex run.id) index run options
      else .refused graph status

/-- `turbo_state_graph_resume`. -/
def resume (runId : String) (options : RunOptions) : Opened World :=
  match findRun graph runId with
  | none => .refused graph .runNotFound
  | some (run, index) =>
      match run.currentNode with
      | none => .refused graph .runCompleted
      | some _ =>
          match findThread graph run.threadId with
          | none => .refused graph .threadNotFound
          | some (_, threadIndex) =>
              executeRun (setCurrentRun graph threadIndex run.id) index run options

/-- `turbo_state_graph_update_state`. -/
def updateState (runId : String) (update : Json) (options : HistoryOptions) : Opened World :=
  if update.isObject then
    match findRun graph runId with
    | none => .refused graph .runNotFound
    | some (run, index) =>
        let applied := applyUpdate library graph.channels run.state update
        let run := { run with state := applied.2 }
        if applied.1 = .ok then
          let sourceName := options.asNode.getD "host_update"
          let (ledger, run, entry) := addHistoryRecord graph.ledger run .host (some sourceName)
            options.reason (some sourceName) run.currentNode run.steps update
          .answered (putRun graph index run ledger)
            ⟨.ok, some ⟨.ok, run.threadId, run.id, some entry.id, some entry.checkpointId,
              entry.lastNode, entry.nextNode, run.steps⟩, some run.state⟩
        else .refused (putRun graph index run graph.ledger) applied.1
  else .refused graph .typeMismatch

/-- `turbo_state_graph_branch_from_history`. -/
def branchFromHistory (entryId : String) (update : Option Json) (historyOptions : HistoryOptions)
    (runOptions : RunOptions) (makeCurrent : Bool) (sourceKind : SourceKind) : Opened World :=
  match graph.ledger.findHistory entryId with
  | none => .refused graph .historyNotFound
  | some entry =>
      match findRun graph entry.runId with
      | none => .refused graph .runNotFound
      | some _ =>
          match findThread graph entry.threadId with
          | none => .refused graph .threadNotFound
          | some (_, threadIndex) =>
              let isFork := sourceKind == .fork
              let run := newRun graph entry.threadId (some entry.runId)
                (if isFork then some entry.id else none) entry.state entry.nextNode entry.step
              let sourceName := historyOptions.asNode.getD
                (if isFork then "fork_from_history" else "resume_from_history")
              let (status, ledger, run, seed) := seedRun library graph run sourceKind sourceName
                historyOptions.reason update entry.nextNode entry.step
              let index := graph.runs.length
              let graph := admitRun graph run ledger
              if status = .ok then
                let graph := if makeCurrent then setCurrentRun graph threadIndex run.id else graph
                match run.currentNode with
                | none =>
                    .answered graph ⟨.ok, some ⟨.ok, run.threadId, run.id,
                      seed.map HistoryEntry.id, seed.map HistoryEntry.checkpointId, none, none,
                      run.steps⟩, some run.state⟩
                | some _ => executeRun graph index run runOptions
              else .refused graph status

/-- `turbo_state_graph_resume_from_history`. -/
def resumeFromHistory (entryId : String) (update : Option Json) (historyOptions : HistoryOptions)
    (runOptions : RunOptions) : Opened World :=
  branchFromHistory library graph entryId update historyOptions runOptions true .host

/-- `turbo_state_graph_fork_from_history`. -/
def forkFromHistory (entryId : String) (update : Option Json) (historyOptions : HistoryOptions)
    (runOptions : RunOptions) : Opened World :=
  branchFromHistory library graph entryId update historyOptions runOptions false .fork

/-! ## Sequences of calls -/

/-- The calls of the interface that change a graph. -/
inductive Call (World : Type) where
  | addChannel (name : String) (config : ChannelConfig)
  | addNode (node : Node World)
  | addEdge (source target : String) (predicate : Option (World → Json → Int × World))
  | setEntry (name : String)
  | start (threadId : Option String) (input : Option Json) (options : RunOptions)
  | resume (runId : String) (options : RunOptions)
  | updateState (runId : String) (update : Json) (options : HistoryOptions)
  | resumeFromHistory (entryId : String) (update : Option Json) (historyOptions : HistoryOptions)
      (runOptions : RunOptions)
  | forkFromHistory (entryId : String) (update : Option Json) (historyOptions : HistoryOptions)
      (runOptions : RunOptions)
  | loadSnapshot (document : Option Json)

def Opened.ofStatus (answer : Status × Graph World) : Opened World := .refused answer.2 answer.1

def openCall : Call World → Opened World
  | .addChannel name config => .ofStatus (addChannel graph name config)
  | .addNode node => .ofStatus (addNode graph node)
  | .addEdge source target predicate => .ofStatus (addEdge graph source target predicate)
  | .setEntry name => .ofStatus (setEntry graph name)
  | .start threadId input options => start library graph threadId input options
  | .resume runId options => resume graph runId options
  | .updateState runId update options => updateState library graph runId update options
  | .resumeFromHistory entryId update historyOptions runOptions =>
      resumeFromHistory library graph entryId update historyOptions runOptions
  | .forkFromHistory entryId update historyOptions runOptions =>
      forkFromHistory library graph entryId update historyOptions runOptions
  | .loadSnapshot document => .ofStatus (loadSnapshot library graph document)

def finishRun (index : Nat) (execution : Execution World) : Graph World :=
  { putRun graph index execution.run execution.ledger with
    world := execution.world
    applied := execution.applied }

/-- What a call leaves: the graph and the outcome, once it returns. -/
inductive Answers : Graph World → Call World → Graph World → Outcome → Prop where
  | answered {graph after : Graph World} {call : Call World} {outcome : Outcome}
      (opened : openCall library graph call = .answered after outcome) :
      Answers graph call after outcome
  | ran {graph started : Graph World} {call : Call World} {index : Nat} {options : RunOptions}
      {execution last : Execution World} {outcome : Outcome}
      (opened : openCall library graph call = .running started index options execution)
      (ends : Loop.Ends (round library started options) execution (last, outcome)) :
      Answers graph call (finishRun started index last) outcome

/-- The graphs that sequences of calls come to, all of which are allowed where they are made. -/
inductive Reached (allowed : Graph World → Call World → Prop) : Graph World → Prop where
  | created (world : World) : Reached allowed (create world)
  | called {graph after : Graph World} {call : Call World} {outcome : Outcome}
      (before : Reached allowed graph) (allow : allowed graph call)
      (answers : Answers library graph call after outcome) : Reached allowed after

/-- A call whose run is executed for a number of rounds at most. -/
def perform (fuel : Nat) (call : Call World) : Option (Graph World × Outcome) :=
  match openCall library graph call with
  | .answered after outcome => some (after, outcome)
  | .running started index options execution =>
      (Loop.rounds (round library started options) fuel execution).map fun (last, outcome) =>
        (finishRun started index last, outcome)

def performAll (fuel : Nat) : Graph World → List (Call World) → Option (Graph World)
  | graph, [] => some graph
  | graph, call :: calls =>
      (perform library graph fuel call).bind fun (after, _) => performAll fuel after calls

variable {library graph}

theorem perform_answers {fuel : Nat} {call : Call World} {after : Graph World} {outcome : Outcome}
    (performed : perform library graph fuel call = some (after, outcome)) :
    Answers library graph call after outcome := by
  unfold perform at performed
  split at performed
  next answer given opened =>
    obtain ⟨rfl, rfl⟩ := Prod.mk.inj (Option.some.inj performed)
    exact .answered opened
  next started index options execution opened =>
    obtain ⟨⟨last, given⟩, rounds, same⟩ := Option.map_eq_some_iff.mp performed
    obtain ⟨rfl, rfl⟩ := Prod.mk.inj same
    exact .ran opened ⟨fuel, rounds⟩

theorem Reached.performAll {allowed : Graph World → Call World → Prop} {fuel : Nat}
    {calls : List (Call World)} {after : Graph World} (reached : Reached library allowed graph)
    (allow : ∀ call ∈ calls, ∀ graph, allowed graph call)
    (performed : performAll library fuel graph calls = some after) :
    Reached library allowed after := by
  induction calls generalizing graph with
  | nil =>
      cases performed
      exact reached
  | cons call calls ih =>
      obtain ⟨⟨next, outcome⟩, first, rest⟩ := Option.bind_eq_some_iff.mp performed
      have allowedCall := allow call List.mem_cons_self graph
      exact ih (reached.called allowedCall (perform_answers first))
        (fun other member => allow other (List.mem_cons_of_mem call member)) rest

end

/-! ## A graph for samples -/

def sampleLibrary : JsonLibrary := ⟨fun left _ => left, fun _ => 0⟩

def noOptions : RunOptions := ⟨0, none, [], false⟩

def loggingNode : Node Unit where
  name := "a"
  call world _ _ _ := ⟨0, .object [("log", .array [.bool true])], [], none, false, world⟩

/-- The calls that build a graph of the node, with a channel for its log. -/
def loggingCalls : List (Call Unit) :=
  [.addChannel "log" ⟨.append, .bool, none⟩, .addNode loggingNode, .setEntry "a"]

def loggingGraph : Graph Unit :=
  { create () with
    entryNode := some "a", channels := [⟨"log", .append, .bool, .null⟩], nodes := [loggingNode] }

theorem loggingGraph_built :
    performAll sampleLibrary 0 (create ()) loggingCalls = some loggingGraph := rfl

def loggingEntry : HistoryEntry :=
  ⟨"history-1", "checkpoint-1", "thread-1", "run-1", some "start", none, none, some "a", .start, 0,
    .object [], .object [("log", .null)]⟩

def loggingRun : Run :=
  ⟨"run-1", "thread-1", none, none, some "history-1", some "a", 0, false, false,
    .object [("log", .null)]⟩

def loggingStarted : Graph Unit :=
  { loggingGraph with
    threads := [⟨"thread-1", some "run-1"⟩], runs := [loggingRun]
    ledger := ⟨[loggingEntry], 1, 1⟩, nextThreadId := 1, nextRunId := 1 }

def loggingExecution : Execution Unit :=
  ⟨⟨[loggingEntry], 1, 1⟩, loggingRun, (), [], "a", 0, false, some loggingEntry⟩

theorem loggingGraph_start : openCall sampleLibrary loggingGraph (.start none none noOptions) =
    .running loggingStarted 0 noOptions loggingExecution := rfl

end TurboAgent.StateGraph
