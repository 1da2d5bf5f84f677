import TurboAgent.StateGraph.HostUpdate
import TurboAgent.StateGraph.History

/-!
# What calls do

A call opens with one change of the graph, after which a run may become the current one of its
thread and be executed.  What the openings, the rest and the acts of executions keep is kept by
every sequence of calls.
-/

namespace TurboAgent.StateGraph

open Logic Relation

def Call.runsGraph {World : Type} : Call World → Bool
  | .loadSnapshot _ => false
  | _ => true

def Call.runOptions {World : Type} : Call World → Option RunOptions
  | .start _ _ options | .resume _ options | .resumeFromHistory _ _ _ options
  | .forkFromHistory _ _ _ options => some options
  | _ => none

inductive Branches {World : Type} : Call World → String → Option Json → HistoryOptions →
    SourceKind → Prop where
  | resume (entryId : String) (update : Option Json) (historyOptions : HistoryOptions)
      (runOptions : RunOptions) :
      Branches (.resumeFromHistory entryId update historyOptions runOptions) entryId update
        historyOptions .host
  | fork (entryId : String) (update : Option Json) (historyOptions : HistoryOptions)
      (runOptions : RunOptions) :
      Branches (.forkFromHistory entryId update historyOptions runOptions) entryId update
        historyOptions .fork

section

variable {World : Type} (library : JsonLibrary) (graph : Graph World)

def admitSeeded (run : Run) (sourceKind : SourceKind) (sourceName : String)
    (reason : Option String) (update : Option Json) (nextNode : Option String) (step : Nat) :
    Graph World :=
  let seeded := seedRun library graph run sourceKind sourceName reason update nextNode step
  admitRun graph seeded.2.2.1 seeded.2.1

/-- The graph with the run of `turbo_state_graph_start`. -/
def admitStart (threadId : Option String) (input : Option Json) (startNode : String) :
    Graph World :=
  let added := addThreadRecord graph threadId
  admitSeeded library added.1
    (newRun added.1 added.2.2 none none (seedDefaults added.1.channels) (some startNode) 0)
    .start "start" none input (some startNode) 0

/-- The graph with the run of `turbo_state_graph_branch_from_history`. -/
def admitBranch (entry : HistoryEntry) (update : Option Json) (historyOptions : HistoryOptions)
    (sourceKind : SourceKind) : Graph World :=
  let isFork := sourceKind == .fork
  admitSeeded library graph
    (newRun graph entry.threadId (some entry.runId) (if isFork then some entry.id else none)
      entry.state entry.nextNode entry.step)
    sourceKind
    (historyOptions.asNode.getD (if isFork then "fork_from_history" else "resume_from_history"))
    historyOptions.reason update entry.nextNode entry.step

def hostUpdated (run : Run) (index : Nat) (update : Json) (options : HistoryOptions) :
    Graph World :=
  let sourceName := options.asNode.getD "host_update"
  let updated :=
    { run with state := (applyUpdate library graph.channels run.state update).2 }
  let added := addHistoryRecord graph.ledger updated .host (some sourceName) options.reason
    (some sourceName) run.currentNode run.steps update
  putRun graph index added.2.1 added.1

inductive Opens : Call World → Graph World → Prop where
  | unchanged (call : Call World) : Opens call graph
  | addChannel (name : String) (config : ChannelConfig)
      (isNew : findChannel graph.channels name = none)
      (valid : validateChannelValue (config.channel name) (config.channel name).defaultValue =
        .ok) :
      Opens (.addChannel name config)
        { graph with channels := graph.channels ++ [config.channel name] }
  | addNode (node : Node World) (isNew : findNode graph.nodes node.name = none) :
      Opens (.addNode node) { graph with nodes := graph.nodes ++ [node] }
  | addEdge (source target : String) (predicate : Option (World → Json → Int × World))
      (edge : Edge World) :
      Opens (.addEdge source target predicate) { graph with edges := graph.edges ++ [edge] }
  | setEntry (name : String) (node : Node World) (index : Nat)
      (found : findNode graph.nodes name = some (node, index)) :
      Opens (.setEntry name) { graph with entryNode := some name }
  | start (threadId : Option String) (input : Option Json) (options : RunOptions)
      (startNode : String) (chosen : (options.startNode <|> graph.entryNode) = some startNode) :
      Opens (.start threadId input options) (admitStart library graph threadId input startNode)
  | branch (call : Call World) (entryId : String) (update : Option Json)
      (historyOptions : HistoryOptions) (sourceKind : SourceKind) (entry : HistoryEntry)
      (branches : Branches call entryId update historyOptions sourceKind)
      (found : graph.ledger.findHistory entryId = some entry) :
      Opens call (admitBranch library graph entry update historyOptions sourceKind)
  | hostUpdate (runId : String) (update : Json) (options : HistoryOptions) (run : Run)
      (index : Nat) (found : findRun graph runId = some (run, index))
      (accepted : Accepted graph.channels run.state update) :
      Opens (.updateState runId update options)
        (hostUpdated library graph run index update options)
  | hostRefused (runId : String) (update : Json) (options : HistoryOptions) (run : Run)
      (index : Nat) (found : findRun graph runId = some (run, index))
      (object : update.isObject = true) (refused : ¬Accepted graph.channels run.state update) :
      Opens (.updateState runId update options)
        (putRun graph index
          { run with state := (applyUpdate library graph.channels run.state update).2 }
          graph.ledger)
  | loadSnapshot (document : Option Json) :
      Opens (.loadSnapshot document) (loadSnapshot library graph document).2

inductive Rest : Graph World → Graph World → Prop where
  | current (graph : Graph World) (threadIndex : Nat) (run : Run) (member : run ∈ graph.runs) :
      Rest graph (setCurrentRun graph threadIndex run.id)
  | complete (graph : Graph World) (index : Nat) (run : Run)
      (place : graph.runs[index]? = some run) :
      Rest graph (putRun graph index { run with completed := true, interrupted := false }
        graph.ledger)

def executionFrom (run : Run) (options : RunOptions) (node : String) : Execution World where
  ledger := graph.ledger
  run
  world := graph.world
  applied := graph.applied
  currentNode := node
  steps := run.steps
  skipInitialInterrupt := options.skipInitialInterrupt
  latestHistory := run.latestHistoryEntryId.bind graph.ledger.findHistory

def OpensTo (call : Call World) : Opened World → Prop
  | .answered after _ => ∃ first, Opens library graph call first ∧ ReflTransGen Rest first after
  | .running started index options execution =>
      (∃ first, Opens library graph call first ∧ ReflTransGen Rest first started) ∧
        call.runOptions = some options ∧ ∃ run node, started.runs[index]? = some run ∧
          (options.startNode <|> run.currentNode) = some node ∧
            execution = executionFrom started run options node

/-- A run of the graph may become the current one of its thread. -/
inductive MakesCurrent (first : Graph World) : Graph World → Prop where
  | kept : MakesCurrent first first
  | current (threadIndex : Nat) (run : Run) (member : run ∈ first.runs) :
      MakesCurrent first (setCurrentRun first threadIndex run.id)

/-- The run that a call executes rests at a node: it is one that is resumed, or a new one, of
which no node has been called. -/
structure EntersAt (call : Call World) (started : Graph World) (index : Nat) (run : Run)
    (name : String) : Prop where
  place : started.runs[index]? = some run
  rests : run.currentNode = some name
  origin : (∃ runId options, call = .resume runId options ∧
      findRun graph runId = some (run, index)) ∨
    ∃ entry, started.ledger.latestOf run.id = some entry ∧ entry.sourceKind ≠ .node

/-- What a call opens with, more closely: a run that is executed has a node to go on to. -/
def Enters (call : Call World) : Opened World → Prop
  | .answered after _ => ∃ first, Opens library graph call first ∧ MakesCurrent first after
  | .running started index options execution => ∃ first run name,
      Opens library graph call first ∧ MakesCurrent first started ∧
        EntersAt graph call started index run name ∧ call.runOptions = some options ∧
          execution = executionFrom started run options (options.startNode.getD name)

def seededRun (run : Run) (update : Json) (nextNode : Option String) (step : Nat) : Run :=
  { run with
    state := (applyUpdate library graph.channels run.state update).2
    currentNode := nextNode
    steps := step
    completed := nextNode.isNone
    interrupted := false }

end

/-! ## Seeds -/

section

variable {World : Type} {library : JsonLibrary} {graph : Graph World} {run : Run}
  {sourceKind : SourceKind} {sourceName : String} {reason : Option String} {update : Option Json}
  {nextNode : Option String} {step : Nat}

theorem seedRun_accepted (accepted : Accepted graph.channels run.state (update.getD (.object []))) :
    seedRun library graph run sourceKind sourceName reason update nextNode step =
      let added := addHistoryRecord graph.ledger
        (seededRun library graph run (update.getD (.object [])) nextNode step) sourceKind
        (some sourceName) reason none nextNode step (update.getD (.object []))
      (.ok, added.1, added.2.1, some added.2.2) := by
  unfold seedRun
  dsimp only
  rw [if_pos accepted.2.1, if_pos (applyUpdate_eq_ok.mpr accepted)]
  rfl

theorem seedRun_refused (refused : ¬Accepted graph.channels run.state (update.getD (.object []))) :
    (seedRun library graph run sourceKind sourceName reason update nextNode step).2 =
      (graph.ledger, { run with
        state := (applyUpdate library graph.channels run.state (update.getD (.object []))).2 },
        none) := by
  unfold seedRun
  dsimp only
  split
  next => rw [if_neg fun applied => refused (applyUpdate_eq_ok.mp applied)]
  next notObject =>
    have kept : RefusedAtOnce graph.channels run.state (update.getD (.object [])) :=
      .inr (.inl (Bool.eq_false_iff.mpr notObject))
    rw [(applyUpdate_refused library kept).2]

theorem seedRun_status :
    (seedRun library graph run sourceKind sourceName reason update nextNode step).1 = .ok ↔
      Accepted graph.channels run.state (update.getD (.object [])) := by
  constructor
  · intro seeded
    by_contra rejected
    have kept := @seedRun_refused World library graph run sourceKind sourceName reason update
      nextNode step rejected
    unfold seedRun at seeded kept
    dsimp only at seeded kept
    split at seeded
    next object =>
      rw [if_pos object] at kept
      split at seeded
      next applied => exact rejected (applyUpdate_eq_ok.mp applied)
      next failed => exact failed seeded
    next => cases seeded
  · intro accepted
    rw [seedRun_accepted accepted]

theorem seedRun_rests (accepted : Accepted graph.channels run.state (update.getD (.object []))) :
    (seedRun library graph run sourceKind sourceName reason update nextNode
      step).2.2.1.currentNode = nextNode := by
  rw [seedRun_accepted accepted]
  rfl

end

/-! ## Calls -/

section

variable {World : Type} {library : JsonLibrary} {graph first later started : Graph World}
  {call : Call World} {run : Run} {index : Nat} {options : RunOptions} {name : String}

theorem executeRun_running {node : String}
    (chosen : (options.startNode <|> run.currentNode) = some node) :
    executeRun started index run options =
      .running started index options (executionFrom started run options node) := by
  unfold executeRun
  rw [chosen]
  rfl

theorem EntersAt.chosen (enters : EntersAt graph call started index run name) :
    (options.startNode <|> run.currentNode) = some (options.startNode.getD name) := by
  rw [enters.rests]
  cases options.startNode <;> rfl

theorem executeRun_enters (opens : Opens library graph call first)
    (current : MakesCurrent first started) (enters : EntersAt graph call started index run name)
    (given : call.runOptions = some options) :
    Enters library graph call (executeRun started index run options) := by
  rw [executeRun_running enters.chosen]
  exact ⟨first, run, name, opens, current, enters, given, rfl⟩

theorem Enters.unchanged (status : Status) : Enters library graph call (.refused graph status) :=
  ⟨graph, .unchanged call, .kept⟩

theorem addThreadRecord_cases (graph : Graph World) (requested : Option String) :
    (∃ id counter, addThreadRecord graph requested =
      ({ graph with threads := graph.threads ++ [⟨id, none⟩], nextThreadId := counter },
        graph.threads.length, id)) ∨
    ∃ thread index, graph.threads[index]? = some thread ∧
      addThreadRecord graph requested = (graph, index, thread.id) := by
  unfold addThreadRecord
  dsimp only
  split
  next => exact .inl ⟨_, _, rfl⟩
  next id =>
    split
    next => exact .inl ⟨_, _, rfl⟩
    split
    next thread index found =>
      exact .inr ⟨thread, index,
        List.mem_zipIdx_iff_getElem?.mp (List.mem_of_find?_eq_some found), rfl⟩
    next => exact .inl ⟨_, _, rfl⟩

theorem addThreadRecord_same (graph : Graph World) (requested : Option String) :
    let added := (addThreadRecord graph requested).1
    added.entryNode = graph.entryNode ∧ added.channels = graph.channels ∧
      added.nodes = graph.nodes ∧ added.runs = graph.runs ∧ added.ledger = graph.ledger ∧
        added.nextRunId = graph.nextRunId ∧ added.applied = graph.applied := by
  rcases addThreadRecord_cases graph requested with ⟨_, _, added⟩ | ⟨_, _, _, found⟩
  · rw [added]
    exact ⟨rfl, rfl, rfl, rfl, rfl, rfl, rfl⟩
  · rw [found]
    exact ⟨rfl, rfl, rfl, rfl, rfl, rfl, rfl⟩

theorem entersAt_seeded {base : Graph World} {sourceKind : SourceKind} {sourceName : String}
    {reason : Option String} {update : Option Json} {nextNode : Option String} {step : Nat}
    (notNode : sourceKind ≠ .node) (isNext : nextNode = some name)
    (accepted : Accepted base.channels run.state (update.getD (.object []))) (current : MakesCurrent
      (admitSeeded library base run sourceKind sourceName reason update nextNode step) later) :
    EntersAt graph call later base.runs.length
      (seedRun library base run sourceKind sourceName reason update nextNode step).2.2.1 name := by
  have same : later.runs = (admitSeeded library base run sourceKind sourceName reason update
        nextNode step).runs ∧
      later.ledger = (admitSeeded library base run sourceKind sourceName reason update nextNode
        step).ledger := by
    cases current <;> exact ⟨rfl, rfl⟩
  refine ⟨?_, ?_, .inr ?_⟩
  · rw [same.1]
    exact List.getElem?_concat_length
  · exact (seedRun_rests accepted).trans isNext
  · rw [same.2, admitSeeded, seedRun_accepted accepted]
    exact ⟨_, addHistoryRecord_latest _ _ _ _ _ _ _ _ _, notNode⟩

/-- A branch was admitted: its run may become the current one, and is executed if it was seeded
and has a node to go to. -/
theorem admitted_enters {admitted : Graph World} {threadIndex : Nat} {status : Status}
    {outcome : Outcome} (makeCurrent : Bool) (opens : Opens library graph call admitted)
    (given : call.runOptions = some options) (member : run ∈ admitted.runs)
    (enters : status = .ok → ∀ name later, run.currentNode = some name →
      MakesCurrent admitted later → EntersAt graph call later index run name) :
    Enters library graph call
      (if status = .ok then
        let current := if makeCurrent then setCurrentRun admitted threadIndex run.id else admitted
        match run.currentNode with
        | none => .answered current outcome
        | some _ => executeRun current index run options
      else .refused admitted status) := by
  split
  next seeded =>
    have current : MakesCurrent admitted
        (if makeCurrent then setCurrentRun admitted threadIndex run.id else admitted) := by
      cases makeCurrent with
      | false => exact .kept
      | true => exact .current threadIndex run member
    dsimp only
    split
    next => exact ⟨admitted, opens, current⟩
    next name rests =>
      exact executeRun_enters opens current (enters seeded name _ rests current) given
  next => exact ⟨admitted, opens, .kept⟩

theorem start_enters (threadId : Option String) (input : Option Json) (options : RunOptions) :
    Enters library graph (.start threadId input options)
      (start library graph threadId input options) := by
  unfold start
  split
  next => exact .unchanged _
  next startNode chosen =>
    have opens : Opens library graph _ _ := .start threadId input options startNode chosen
    dsimp only
    split
    next seeded =>
      have member : _ ∈ (admitStart library graph threadId input startNode).runs :=
        List.mem_concat_self
      exact executeRun_enters opens (.current _ _ member)
        (entersAt_seeded nofun rfl (seedRun_status.mp seeded) (.current _ _ member)) rfl
    next => exact ⟨_, opens, .kept⟩

theorem resume_enters (runId : String) (options : RunOptions) :
    Enters library graph (.resume runId options) (resume graph runId options) := by
  unfold resume
  split
  next => exact .unchanged _
  next run index found =>
    split
    next => exact .unchanged _
    next name rests =>
      split
      next => exact .unchanged _
      next thread threadIndex _ =>
        have enters : EntersAt graph (.resume runId options)
            (setCurrentRun graph threadIndex run.id) index run name :=
          ⟨(findRun_place found).1, rests, .inl ⟨runId, options, rfl, found⟩⟩
        have member := List.mem_of_getElem? (findRun_place found).1
        exact executeRun_enters (.unchanged _) (.current _ _ member) enters rfl

/-- How a branch goes on: it is answered if its run rests nowhere. -/
def goOn (graph : Graph World) (index : Nat) (run : Run) (options : RunOptions)
    (answer : Outcome) : Opened World :=
  match run.currentNode with
  | none => .answered graph answer
  | some _ => executeRun graph index run options

variable (library) in
theorem branchFromHistory_found {entryId : String} {entry : HistoryEntry} {owner : Run × Nat}
    {thread : Thread × Nat} (isEntry : graph.ledger.findHistory entryId = some entry)
    (isRun : findRun graph entry.runId = some owner)
    (isThread : findThread graph entry.threadId = some thread) (update : Option Json)
    (historyOptions : HistoryOptions) (options : RunOptions) (makeCurrent : Bool)
    (sourceKind : SourceKind) :
    branchFromHistory library graph entryId update historyOptions options makeCurrent sourceKind =
      let run := newRun graph entry.threadId (some entry.runId)
        (if sourceKind == .fork then some entry.id else none) entry.state entry.nextNode entry.step
      let (status, ledger, run, seed) := seedRun library graph run sourceKind
        (historyOptions.asNode.getD
          (if sourceKind == .fork then "fork_from_history" else "resume_from_history"))
        historyOptions.reason update entry.nextNode entry.step
      let admitted := admitRun graph run ledger
      if status = .ok then
        goOn (if makeCurrent then setCurrentRun admitted thread.2 run.id else admitted)
          graph.runs.length run options ⟨.ok, some ⟨.ok, run.threadId, run.id,
            seed.map HistoryEntry.id, seed.map HistoryEntry.checkpointId, none, none, run.steps⟩,
            some run.state⟩
      else .refused admitted status := by
  unfold branchFromHistory
  rw [isEntry]
  dsimp only
  rw [isRun]
  dsimp only
  rw [isThread]
  rfl

theorem branchFromHistory_enters {entryId : String} {update : Option Json}
    {historyOptions : HistoryOptions} (makeCurrent : Bool) {sourceKind : SourceKind}
    (branches : Branches call entryId update historyOptions sourceKind)
    (given : call.runOptions = some options) :
    Enters library graph call (branchFromHistory library graph entryId update historyOptions
      options makeCurrent sourceKind) := by
  have notNode : sourceKind ≠ .node := by cases branches <;> nofun
  unfold branchFromHistory
  split
  next => exact .unchanged _
  next entry found =>
    split
    next => exact .unchanged _
    split
    next => exact .unchanged _
    next thread threadIndex _ =>
      have opens : Opens library graph call _ :=
        .branch call entryId update historyOptions sourceKind entry branches found
      refine admitted_enters makeCurrent opens given List.mem_concat_self ?_
      intro seeded name later rests current
      have accepted := seedRun_status.mp seeded
      have isNext : entry.nextNode = some name := (seedRun_rests accepted).symm.trans rests
      exact entersAt_seeded notNode isNext accepted current

theorem updateState_enters (runId : String) (update : Json) (options : HistoryOptions) :
    Enters library graph (.updateState runId update options)
      (updateState library graph runId update options) := by
  unfold updateState
  split
  next object =>
    split
    next => exact .unchanged _
    next run index found =>
      dsimp only
      split
      next applied =>
        exact ⟨_, .hostUpdate runId update options run index found (applyUpdate_eq_ok.mp applied),
          .kept⟩
      next failed =>
        exact ⟨_, .hostRefused runId update options run index found object
          fun accepted => failed (applyUpdate_eq_ok.mpr accepted), .kept⟩
  next => exact .unchanged _

/-- Every call opens with one change, and executes a run only where it rests. -/
theorem openCall_enters (call : Call World) :
    Enters library graph call (openCall library graph call) := by
  cases call with
  | addChannel name config =>
      rw [openCall, addChannel]
      split
      next => exact .unchanged _
      next isNew =>
        dsimp only
        split
        next valid => exact ⟨_, .addChannel name config isNew valid, .kept⟩
        next => exact .unchanged _
  | addNode node =>
      rw [openCall, addNode]
      split
      next => exact .unchanged _
      next isNew => exact ⟨_, .addNode node isNew, .kept⟩
  | addEdge source target predicate =>
      rw [openCall, addEdge]
      split
      next => exact ⟨_, .addEdge source target predicate _, .kept⟩
      next => exact .unchanged _
  | setEntry name =>
      rw [openCall, setEntry]
      split
      next entry found => exact ⟨_, .setEntry name entry.1 entry.2 found, .kept⟩
      next => exact .unchanged _
  | start threadId input options => exact start_enters threadId input options
  | resume runId options => exact resume_enters runId options
  | updateState runId update options => exact updateState_enters runId update options
  | resumeFromHistory entryId update historyOptions runOptions =>
      exact branchFromHistory_enters true (.resume _ _ _ runOptions) rfl
  | forkFromHistory entryId update historyOptions runOptions =>
      exact branchFromHistory_enters false (.fork _ _ _ runOptions) rfl
  | loadSnapshot document => exact ⟨_, .loadSnapshot document, .kept⟩

theorem MakesCurrent.rests {after : Graph World} (current : MakesCurrent first after) :
    ReflTransGen Rest first after := by
  cases current with
  | kept => exact .refl
  | current threadIndex run member => exact .single (.current _ threadIndex run member)

theorem openCall_opens (call : Call World) :
    OpensTo library graph call (openCall library graph call) := by
  have enters : Enters library graph call (openCall library graph call) := openCall_enters call
  cases opened : openCall library graph call with
  | answered after outcome =>
      rw [opened] at enters
      obtain ⟨first, opens, current⟩ := enters
      exact ⟨first, opens, current.rests⟩
  | running started index options execution =>
      rw [opened] at enters
      obtain ⟨first, run, name, opens, current, enters, given, rfl⟩ := enters
      exact ⟨⟨first, opens, current.rests⟩, given, run, _, enters.place, enters.chosen, rfl⟩

/-- The invariant rule for sequences of calls, where runs are executed only where they rest. -/
theorem Reached.entering {allowed : Graph World → Call World → Prop}
    (reached : Reached library allowed graph) (inv : Graph World → Prop)
    (created : ∀ world, inv (create world))
    (opens : ∀ graph call first, inv graph → allowed graph call → Opens library graph call first →
      inv first)
    (currents : ∀ graph later, inv graph → MakesCurrent graph later → inv later)
    (runs : ∀ graph call first started index options run name last outcome, inv started →
      allowed graph call → Opens library graph call first → MakesCurrent first started →
      EntersAt graph call started index run name → call.runOptions = some options →
      openCall library graph call = .running started index options
        (executionFrom started run options (options.startNode.getD name)) →
      Loop.Ends (round library started options)
        (executionFrom started run options (options.startNode.getD name)) (last, outcome) →
      inv (finishRun started index last)) : inv graph := by
  induction reached with
  | created world => exact created world
  | @called graph after call outcome _ allow answers ih =>
      have enters : Enters library graph call (openCall library graph call) :=
        openCall_enters call
      cases answers with
      | answered isOpened =>
          rw [isOpened] at enters
          obtain ⟨first, change, current⟩ := enters
          exact currents first _ (opens _ _ _ ih allow change) current
      | ran isOpened ends =>
          have running := isOpened
          rw [isOpened] at enters
          obtain ⟨first, run, name, change, current, enters, given, rfl⟩ := enters
          have holds := currents first _ (opens _ _ _ ih allow change) current
          exact runs _ _ _ _ _ _ _ _ _ _ holds allow change current enters given running ends

/-- The invariant rule for sequences of calls: what the first change of an allowed call keeps,
what may follow it, and the execution of a run. -/
theorem Reached.invariant {allowed : Graph World → Call World → Prop}
    (reached : Reached library allowed graph) (inv : Graph World → Prop)
    (created : ∀ world, inv (create world))
    (opens : ∀ graph call first, inv graph → allowed graph call → Opens library graph call first →
      inv first)
    (rests : ∀ graph later, inv graph → Rest graph later → inv later)
    (runs : ∀ graph call started index options run node last outcome, inv started →
      allowed graph call →
      openCall library graph call =
        .running started index options (executionFrom started run options node) →
      started.runs[index]? = some run → (options.startNode <|> run.currentNode) = some node →
      Loop.Ends (round library started options) (executionFrom started run options node)
        (last, outcome) →
      inv (finishRun started index last)) : inv graph := by
  apply reached.entering inv created opens
  · intro graph later holds current
    cases current with
    | kept => exact holds
    | current threadIndex run member => exact rests _ _ holds (.current _ threadIndex run member)
  · intro graph call first started index options run name last outcome holds allow _ _ enters _
      opened ends
    exact runs _ _ _ _ _ _ _ _ _ holds allow opened enters.place enters.chosen ends

end

end TurboAgent.StateGraph
