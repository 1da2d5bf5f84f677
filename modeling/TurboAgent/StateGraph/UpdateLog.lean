import TurboAgent.StateGraph.Recovery

/-!
# The history as a log of updates

Each history entry of a run has an update and the state after it.  The history is a log if the
state of every entry is its update applied to the state of the entry before.  A node that sends
breaks it, since its own update is merged first and recorded last, and so does a refused update
that was merged in part.
-/

namespace TurboAgent.StateGraph

open Logic Relation

/-! ## What has to go well -/

section

variable {World : Type} (library : JsonLibrary) (graph : Graph World)

def Continues (channels : List Channel) (earlier later : HistoryEntry) : Prop :=
  applyUpdate library channels earlier.state later.update = (.ok, later.state)

/-- The history of every run is a log of its updates. -/
def FaithfulLog : Prop :=
  ∀ run ∈ graph.runs,
    (graph.ledger.entriesOf run.id).IsChain (Continues library graph.channels)

/-- An update is accepted, or refused without effect. -/
def Harmless (channels : List Channel) (state update : Json) : Prop :=
  Accepted channels state update ∨ update.isObject = false ∨ state.isObject = false ∨
    RefusedUnchanged library channels state update

/-- The updates of sends and those of their targets are harmless, as far as the sends come. -/
def SendsLogged (step : Nat) : List Send → World → Json → Prop
  | [], _, _ => True
  | send :: sends, world, state =>
      ∀ node index, findNode graph.nodes send.targetNode = some (node, index) →
        Harmless library graph.channels state send.update ∧
          (Accepted graph.channels state send.update →
            let sent := (applyUpdate library graph.channels state send.update).2
            let called := node.call world sent node.name step
            called.isPlain = true → Harmless library graph.channels sent called.update ∧
              (Accepted graph.channels sent called.update →
                SendsLogged step sends called.world
                  (applyUpdate library graph.channels sent called.update).2))

/-- The call of a node that sends has no update of its own, and one that does not send is harmless
and has a way on if it has an update. -/
def CallLogged (index step : Nat) (called : Called World) (state : Json) : Prop :=
  called.update.keys = [] ∧ SendsLogged library graph step called.sends called.world state ∨
    called.sends = [] ∧ Harmless library graph.channels state called.update ∧
      (Accepted graph.channels state called.update →
        HasRoute graph index called.nextNode called.world
          (applyUpdate library graph.channels state called.update).2)

/-- A round that merges nothing that is not recorded in its turn. -/
def RoundLogs (options : RunOptions) (execution : Execution World) : Prop :=
  ∀ node index, Proceeds options execution →
    findNode graph.nodes execution.currentNode = some (node, index) →
      let called := node.call execution.world execution.run.state node.name execution.steps
      called.status = 0 →
        CallLogged library graph index (execution.steps + 1) called execution.run.state

/-- The log of a graph is faithful, its runs have the states of their latest entries, if any, and
its entries are of runs that were numbered. -/
structure Logged : Prop where
  runs : Numbered "run" graph.nextRunId (graph.runs.map Run.id)
  owners : ∀ entry ∈ graph.ledger.entries, ∃ number, number ≤ graph.nextRunId ∧
    entry.runId = makeId "run" number
  chains : ∀ runId, (graph.ledger.entriesOf runId).IsChain (Continues library graph.channels)
  current : ∀ run ∈ graph.runs, ∀ entry, graph.ledger.latestOf run.id = some entry →
    entry.state = run.state

/-- The host's update is harmless, and what a document brings is a log. -/
def CallLogs : Call World → Prop
  | .updateState runId update _ => ∀ run index, findRun graph runId = some (run, index) →
      Harmless library graph.channels run.state update
  | .loadSnapshot document => Logged library (loadSnapshot library graph document).2
  | _ => True

/-- A call merges nothing that is not recorded in its turn. -/
structure LogsCall (call : Call World) : Prop where
  logs : CallLogs library graph call
  rounds : ∀ started index options execution,
    openCall library graph call = .running started index options execution →
      ∀ later, Loop.Visits (round library started options) execution later →
        RoundLogs library started options later

end

/-! ## Logs -/

section

variable {library : JsonLibrary} {channels : List Channel} {update : Json}

theorem applyUpdate_harmless {state : Json} (harmless : Harmless library channels state update)
    (refused : ¬Accepted channels state update) :
    (applyUpdate library channels state update).1 ≠ .ok ∧
      (applyUpdate library channels state update).2 = state := by
  refine ⟨fun applied => refused (applyUpdate_eq_ok.mp applied), ?_⟩
  rcases harmless with accepted | notObject | unchanged
  · exact absurd accepted refused
  · exact (applyUpdate_refused library (.inr (.inl notObject))).2
  · by_cases object : update.isObject = true
    · exact (applyUpdate_refused_iff refused object).mpr unchanged
    · exact (applyUpdate_refused library (.inr (.inl (Bool.eq_false_iff.mpr object)))).2

theorem applyKeys_more (more : List Channel) {keys : List String} {state result : Json}
    (applied : applyKeys library channels update keys state = (.ok, result)) :
    applyKeys library (channels ++ more) update keys state = (.ok, result) := by
  induction keys generalizing state with
  | nil => exact applied
  | cons key keys ih =>
      rw [applyKeys] at applied ⊢
      cases stored : update.field key with
      | none => simp [stored] at applied
      | some value =>
          cases found : findChannel channels key with
          | none => simp [stored, found] at applied
          | some channel =>
              simp only [stored, found] at applied
              simp only [findChannel_more more found]
              split at applied
              next status failed =>
                cases applied
                exact absurd failed reduceChannel_ne_ok
              next merged isMerged => exact ih applied

theorem Continues.more {earlier later : HistoryEntry} (more : List Channel)
    (continues : Continues library channels earlier later) :
    Continues library (channels ++ more) earlier later := by
  unfold Continues applyUpdate at *
  split at continues
  next objects =>
    rw [if_pos objects]
    exact applyKeys_more more continues
  next => cases continues

/-- The history of a run is a log that ends with a state. -/
structure LogsTo (library : JsonLibrary) (channels : List Channel) (ledger : Ledger)
    (runId : String) (state : Json) : Prop where
  chain : (ledger.entriesOf runId).IsChain (Continues library channels)
  current : ∀ entry, ledger.latestOf runId = some entry → entry.state = state

theorem LogsTo.record {ledger : Ledger} {run : Run} {before : Json}
    (logs : LogsTo library channels ledger run.id before)
    (applied : applyUpdate library channels before update = (.ok, run.state))
    (sourceKind : SourceKind) (sourceName reason lastNode nextNode : Option String) (step : Nat) :
    LogsTo library channels
      (addHistoryRecord ledger run sourceKind sourceName reason lastNode nextNode step update).1
      run.id run.state where
  chain := by
    rw [addHistoryRecord_own]
    apply logs.chain.append (.singleton _)
    intro earlier isLast later isFirst
    cases isFirst
    rw [Continues, logs.current earlier isLast]
    exact applied
  current entry latest := by
    rw [addHistoryRecord_latest] at latest
    cases latest
    rfl

end

/-! ## Rounds -/

section

variable {World : Type} {library : JsonLibrary} {graph : Graph World} {execution : Execution World}
  {node : Node World} {index step place : Nat}

/-- The history of the run that is executed is a log up to its state. -/
abbrev Execution.Logs (library : JsonLibrary) (channels : List Channel)
    (execution : Execution World) : Prop :=
  LogsTo library channels execution.ledger execution.run.id execution.run.state

variable {state update : Json}

theorem logs_merged (logs : execution.Logs library graph.channels)
    (accepted : Accepted graph.channels execution.run.state update)
    (isState : (applyUpdate library graph.channels execution.run.state update).2 = state)
    (sourceName : String) (reason lastNode nextNode : Option String) (step : Nat) :
    ((execution.setState state).record sourceName reason lastNode nextNode step update).Logs
      library graph.channels := by
  let run : Run := { execution.run with state }
  have logs : LogsTo library graph.channels execution.ledger run.id execution.run.state := logs
  exact logs.record (Prod.ext (applyUpdate_eq_ok.mpr accepted) isState) _ _ _ _ _ _

variable (place) in
/-- The target of a send: what it leaves is recorded, and what it comes to if it succeeds. -/
theorem callSendTarget_logs {called : Called World}
    (isCalled : node.call execution.world execution.run.state node.name step = called)
    (logs : execution.Logs library graph.channels) (harmless : called.isPlain = true →
      Harmless library graph.channels execution.run.state called.update) :
    let result := callSendTarget library graph node step place execution
    result.2.Logs library graph.channels ∧ (result.1 = .ok → called.isPlain = true ∧
      Accepted graph.channels execution.run.state called.update ∧ result.2.world = called.world ∧
        result.2.run.state =
          (applyUpdate library graph.channels execution.run.state called.update).2) := by
  let called' : Execution World := { execution with world := called.world }
  unfold callSendTarget
  rw [isCalled]
  dsimp only
  split
  next plain =>
    by_cases accepted : Accepted graph.channels execution.run.state called.update
    · have applied : applyNodeUpdate library graph called.update step place called' = (.ok, _) :=
        applyNodeUpdate_accepted accepted
      rw [applied]
      dsimp only
      rw [if_pos rfl]
      exact ⟨logs_merged logs accepted rfl _ _ _ _ _, fun _ => ⟨plain, accepted, rfl, rfl⟩⟩
    · have kept : (applyNodeUpdate library graph called.update step place called').1 ≠ .ok ∧
          (applyNodeUpdate library graph called.update step place called').2 = called' :=
        applyNodeUpdate_unchanged step place (applyUpdate_harmless (harmless plain) accepted)
      rw [if_neg kept.1, kept.2]
      exact ⟨logs, fun applied => absurd applied kept.1⟩
  next => exact ⟨logs, by simp⟩

variable (place) in
theorem executeSendNode_logs {send : Send} {rest : World → Json → Prop}
    (logs : execution.Logs library graph.channels)
    (sent : ∀ node index, findNode graph.nodes send.targetNode = some (node, index) →
      Harmless library graph.channels execution.run.state send.update ∧
        (Accepted graph.channels execution.run.state send.update →
          let sent := (applyUpdate library graph.channels execution.run.state send.update).2
          let called := node.call execution.world sent node.name step
          called.isPlain = true → Harmless library graph.channels sent called.update ∧
            (Accepted graph.channels sent called.update →
              rest called.world (applyUpdate library graph.channels sent called.update).2))) :
    let result := executeSendNode library graph send step place execution
    result.2.Logs library graph.channels ∧
      (result.1 = .ok → rest result.2.world result.2.run.state) := by
  unfold executeSendNode
  split
  next object =>
    split
    next => exact ⟨logs, by simp⟩
    next node index found =>
      obtain ⟨harmless, goesOn⟩ := sent node index found
      dsimp only
      by_cases accepted : Accepted graph.channels execution.run.state send.update
      · rw [if_pos (applyUpdate_eq_ok.mpr accepted)]
        have merged := logs_merged logs accepted rfl send.targetNode (some "send") none
          (some send.targetNode) step
        have called := callSendTarget_logs place rfl merged
          fun plain => (goesOn accepted plain).1
        refine ⟨called.1, fun succeeds => ?_⟩
        obtain ⟨plain, taken, world, state⟩ := called.2 succeeds
        rw [world, state]
        exact (goesOn accepted plain).2 taken
      · have kept := applyUpdate_harmless harmless accepted
        rw [if_neg kept.1, kept.2]
        exact ⟨logs, fun applied => absurd applied kept.1⟩
  next => exact ⟨logs, by simp⟩

theorem executeSends_logs {sends : List Send} (logs : execution.Logs library graph.channels)
    (sent : SendsLogged library graph step sends execution.world execution.run.state) :
    (executeSends library graph step sends place execution).2.Logs library graph.channels := by
  induction sends generalizing execution place with
  | nil => exact logs
  | cons send sends ih =>
      have first := executeSendNode_logs place logs sent
      rw [executeSends]
      split
      next succeeds => exact ih first.1 (first.2 succeeds)
      next => exact first.1

theorem acts_isObject {before after : Execution World} (acts : Acts library graph before after) :
    after.run.state.isObject = before.run.state.isObject := by
  induction acts with
  | refl => rfl
  | tail _ act ih =>
      cases act with
      | world => exact ih
      | skip => exact ih
      | merge => exact (isObject_applyUpdate _ _ _ _).trans ih
      | note => exact ih
      | record => exact ih
      | move _ moves =>
          obtain ⟨_, _, _, _, _, _, run⟩ := moves.run
          rw [run]
          exact ih

theorem concludeRound_logs {called : Called World} {next : Option String} {before : Json}
    (logs : LogsTo library graph.channels execution.ledger execution.run.id before)
    (applied : applyUpdate library graph.channels before called.update =
      (.ok, execution.run.state)) :
    (executionOf (concludeRound node called next execution)).Logs library graph.channels := by
  let run : Run := { execution.run with
    steps := execution.steps + 1
    currentNode := next
    interrupted := false
    completed := next.isNone }
  have logs : LogsTo library graph.channels execution.ledger run.id before := logs
  have recorded := logs.record applied .node (some node.name) none (some node.name) next
    (execution.steps + 1)
  unfold concludeRound
  dsimp only
  split
  next => exact recorded
  next => cases next <;> exact recorded

theorem applyUpdate_noKeys (objects : state.isObject = true) (object : update.isObject = true)
    (noKeys : update.keys = []) :
    applyUpdate library graph.channels state update = (.ok, state) := by
  rw [applyUpdate, objects, object, noKeys]
  rfl

theorem harmless_noKeys (noKeys : update.keys = []) :
    Harmless library graph.channels state update := by
  by_cases holds : state.isObject = true
  · by_cases object : update.isObject = true
    · exact .inl ⟨holds, object, by simp [noKeys]⟩
    · exact .inr (.inl (Bool.eq_false_iff.mpr object))
  · exact .inr (.inr (.inl (Bool.eq_false_iff.mpr holds)))

theorem settleCall_sends {called : Called World} (logs : execution.Logs library graph.channels)
    (leaves : ∀ send ∈ called.sends, Leaves graph send.update)
    (isWorld : execution.world = called.world) (noKeys : called.update.keys = [])
    (sends : SendsLogged library graph (execution.steps + 1) called.sends called.world
      execution.run.state) :
    (executionOf (settleCall library graph node index called execution)).Logs library
      graph.channels := by
  unfold settleCall
  split
  next =>
    dsimp only
    by_cases accepted : Accepted graph.channels execution.run.state called.update
    · let merged := execution.note (execution.steps + 1) 0
      let sent := (executeSends library graph (execution.steps + 1) called.sends 1 merged).2
      have applied : applyNodeUpdate library graph called.update (execution.steps + 1) 0 execution =
          (.ok, merged) := by
        rw [applyNodeUpdate_accepted accepted,
          applyUpdate_noKeys accepted.1 accepted.2.1 noKeys]
        rfl
      have logsMerged : merged.Logs library graph.channels := logs
      have logsSent : sent.Logs library graph.channels :=
        executeSends_logs logsMerged (isWorld ▸ sends)
      have acts : Acts library graph merged sent := executeSends_acts leaves
      have continues : applyUpdate library graph.channels sent.run.state called.update =
          (.ok, sent.run.state) :=
        applyUpdate_noKeys ((acts_isObject acts).trans accepted.1) accepted.2.1 noKeys
      rw [applied]
      dsimp only
      rw [if_pos rfl]
      split
      next =>
        split
        next => exact concludeRound_logs logsSent continues
        next => exact logsSent
      next => exact logsSent
    · have harmless : Harmless library graph.channels execution.run.state called.update :=
        harmless_noKeys noKeys
      have kept := applyNodeUpdate_unchanged (execution.steps + 1) 0
        (applyUpdate_harmless harmless accepted)
      rw [if_neg kept.1, kept.2]
      exact logs
  next => exact logs

theorem settleCall_alone {called : Called World} (logs : execution.Logs library graph.channels)
    (isWorld : execution.world = called.world) (alone : called.sends = [])
    (harmless : Harmless library graph.channels execution.run.state called.update)
    (route : Accepted graph.channels execution.run.state called.update →
      HasRoute graph index called.nextNode called.world
        (applyUpdate library graph.channels execution.run.state called.update).2) :
    (executionOf (settleCall library graph node index called execution)).Logs library
      graph.channels := by
  unfold settleCall
  split
  next =>
    dsimp only
    by_cases accepted : Accepted graph.channels execution.run.state called.update
    · let merged := (execution.setState
        (applyUpdate library graph.channels execution.run.state called.update).2).note
          (execution.steps + 1) 0
      have wayOn : HasRoute graph index called.nextNode merged.world merged.run.state :=
        isWorld ▸ route accepted
      obtain ⟨next, resolved⟩ := wayOn.resolves
      have continues : applyUpdate library graph.channels execution.run.state called.update =
          (.ok, merged.run.state) := Prod.ext (applyUpdate_eq_ok.mpr accepted) rfl
      rw [applyNodeUpdate_accepted accepted]
      dsimp only
      rw [if_pos rfl, alone, executeSends]
      dsimp only
      rw [if_pos rfl, resolved]
      exact concludeRound_logs logs continues
    · have kept := applyNodeUpdate_unchanged (execution.steps + 1) 0
        (applyUpdate_harmless harmless accepted)
      rw [if_neg kept.1, kept.2]
      exact logs
  next => exact logs

theorem round_logs {options : RunOptions} (logs : execution.Logs library graph.channels)
    (roundLogs : RoundLogs library graph options execution) :
    (executionOf (round library graph options execution)).Logs library graph.channels := by
  unfold round
  split
  next => exact logs
  next unlimited =>
    split
    next => exact logs
    next uninterrupted =>
      dsimp only
      split
      next => exact logs
      next node index found =>
        have logged := roundLogs node index ⟨unlimited, Bool.eq_false_iff.mpr uninterrupted⟩ found
        by_cases succeeds : (node.call execution.world execution.run.state node.name
            execution.steps).status = 0
        · rcases logged succeeds with ⟨noKeys, sends⟩ | ⟨alone, harmless, route⟩
          · have member := findNode_mem found
            exact settleCall_sends logs
              (fun send among => ⟨node, member, _, _, _, .inr ⟨send, among, rfl⟩⟩) rfl noKeys sends
          · exact settleCall_alone logs rfl alone harmless route
        · rw [settleCall, if_neg succeeds]
          exact logs

theorem ends_logs {options : RunOptions} {last : Execution World} {outcome : Outcome}
    (logs : execution.Logs library graph.channels)
    (rounds : ∀ later, Loop.Visits (round library graph options) execution later →
      RoundLogs library graph options later)
    (ends : Loop.Ends (round library graph options) execution (last, outcome)) :
    last.Logs library graph.channels :=
  ends_kept (Execution.Logs library graph.channels) logs
    (fun later visited holds => round_logs holds (rounds later visited)) ends

end

/-! ## Graphs -/

section

variable {World : Type} {library : JsonLibrary} {graph : Graph World} {run : Run} {index : Nat}
  {ledger : Ledger}

theorem mem_entriesOf {entry : HistoryEntry} :
    entry ∈ ledger.entriesOf entry.runId ↔ entry ∈ ledger.entries := by
  simp [Ledger.entriesOf]

theorem Logged.rewrite {later : Run} (logged : Logged library graph)
    (place : graph.runs[index]? = some run) (id : later.id = run.id)
    (logs : LogsTo library graph.channels ledger run.id later.state)
    (others : ∀ other, other ≠ run.id → ledger.entriesOf other = graph.ledger.entriesOf other) :
    Logged library (putRun graph index later ledger) := by
  have cases : ∀ other ∈ (putRun graph index later ledger).runs,
      other = later ∨ other ∈ graph.runs ∧ other.id ≠ run.id :=
    fun other => Lists.mem_set_of_nodup logged.runs.distinct place
  constructor
  · have ids : (putRun graph index later ledger).runs.map Run.id = graph.runs.map Run.id :=
      Lists.map_set_same place id
    rw [ids]
    exact logged.runs
  · intro entry member
    by_cases own : entry.runId = run.id
    · rw [own]
      exact logged.runs.numbers _ (List.mem_map_of_mem (List.mem_of_getElem? place))
    · have among : entry ∈ ledger.entriesOf entry.runId := mem_entriesOf.mpr member
      rw [others _ own] at among
      exact logged.owners entry (mem_entriesOf.mp among)
  · intro runId
    by_cases own : runId = run.id
    · rw [own]
      exact logs.chain
    · have same : (putRun graph index later ledger).ledger.entriesOf runId =
          graph.ledger.entriesOf runId := others runId own
      rw [same]
      exact logged.chains runId
  · intro other among entry latest
    rcases cases other among with rfl | ⟨old, distinct⟩
    · rw [id] at latest
      exact logs.current entry latest
    · have same : (putRun graph index later ledger).ledger.latestOf other.id =
          graph.ledger.latestOf other.id := by
        rw [Ledger.latestOf, Ledger.latestOf, ← others other.id distinct]
        rfl
      exact logged.current other old entry (same ▸ latest)

theorem Logged.logsTo (logged : Logged library graph) (member : run ∈ graph.runs) :
    LogsTo library graph.channels graph.ledger run.id run.state :=
  ⟨logged.chains run.id, logged.current run member⟩

theorem Logged.of_same {after : Graph World} (logged : Logged library graph)
    (runs : after.runs = graph.runs) (ledger : after.ledger = graph.ledger)
    (next : after.nextRunId = graph.nextRunId)
    (channels : ∃ more, after.channels = graph.channels ++ more) : Logged library after := by
  obtain ⟨more, channels⟩ := channels
  constructor
  · rw [runs, next]
    exact logged.runs
  · rw [ledger, next]
    exact logged.owners
  · intro runId
    rw [ledger, channels]
    exact (logged.chains runId).imp fun _ _ => Continues.more more
  · rw [runs, ledger]
    exact logged.current

/-- A new run has no entries yet, so that its history is a log up to any state. -/
theorem Logged.fresh (logged : Logged library graph)
    (isNew : run.id = makeId "run" (graph.nextRunId + 1)) (state : Json) :
    LogsTo library graph.channels graph.ledger run.id state := by
  have noEntries : graph.ledger.entriesOf run.id = [] := by
    rw [Ledger.entriesOf, List.filter_eq_nil_iff]
    intro entry member own
    obtain ⟨number, known, same⟩ := logged.owners entry member
    have equal : number = graph.nextRunId + 1 :=
      makeId_injective "run" (same.symm.trans ((beq_iff_eq.mp own).trans isNew))
    exact absurd known (by omega)
  refine ⟨noEntries ▸ .nil, ?_⟩
  intro entry latest
  rw [Ledger.latestOf, noEntries] at latest
  cases latest

theorem Logged.admit (logged : Logged library graph)
    (isNew : run.id = makeId "run" (graph.nextRunId + 1))
    (logs : LogsTo library graph.channels ledger run.id run.state)
    (others : ∀ other, other ≠ run.id → ledger.entriesOf other = graph.ledger.entriesOf other) :
    Logged library (admitRun graph run ledger) := by
  have fresh : ∀ other ∈ graph.runs, other.id ≠ run.id := by
    intro other old same
    exact logged.runs.fresh (isNew ▸ same ▸ List.mem_map_of_mem old)
  constructor
  · rw [admitRun, List.map_append, List.map_singleton, isNew]
    exact logged.runs.next
  · intro entry member
    by_cases own : entry.runId = run.id
    · exact ⟨graph.nextRunId + 1, Nat.le_refl _, own.trans isNew⟩
    · have among : entry ∈ ledger.entriesOf entry.runId := mem_entriesOf.mpr member
      rw [others _ own] at among
      obtain ⟨number, known, same⟩ := logged.owners entry (mem_entriesOf.mp among)
      exact ⟨number, Nat.le_succ_of_le known, same⟩
  · intro runId
    by_cases own : runId = run.id
    · rw [own]
      exact logs.chain
    · have same : (admitRun graph run ledger).ledger.entriesOf runId =
          graph.ledger.entriesOf runId := others runId own
      rw [same]
      exact logged.chains runId
  · intro other among entry latest
    rcases List.mem_append.mp among with old | added
    · have same : (admitRun graph run ledger).ledger.latestOf other.id =
          graph.ledger.latestOf other.id := by
        rw [Ledger.latestOf, Ledger.latestOf, ← others other.id (fresh other old)]
        rfl
      exact logged.current other old entry (same ▸ latest)
    · rw [List.mem_singleton.mp added] at latest ⊢
      exact logs.current entry latest

/-- A run with its seed, which is its first entry, or one that could not be seeded. -/
theorem Logged.admitSeeded (logged : Logged library graph)
    (isNew : run.id = makeId "run" (graph.nextRunId + 1)) (sourceKind : SourceKind)
    (sourceName : String) (reason : Option String) (update : Option Json)
    (nextNode : Option String) (step : Nat) :
    Logged library (admitSeeded library graph run sourceKind sourceName reason update nextNode
      step) := by
  rw [StateGraph.admitSeeded]
  by_cases accepted : Accepted graph.channels run.state (update.getD (.object []))
  · let seeded := seededRun library graph run (update.getD (.object [])) nextNode step
    have logs : LogsTo library graph.channels graph.ledger seeded.id run.state :=
      logged.fresh isNew run.state
    have recorded := logs.record (Prod.ext (applyUpdate_eq_ok.mpr accepted) rfl) sourceKind
      (some sourceName) reason none nextNode step
    rw [seedRun_accepted accepted]
    exact logged.admit isNew recorded fun _ distinct =>
      addHistoryRecord_other _ _ _ _ _ _ _ _ distinct
  · rw [seedRun_refused accepted]
    exact logged.admit isNew (logged.fresh isNew _) fun _ _ => rfl

theorem Logged.opens {call : Call World} {first : Graph World} (logged : Logged library graph)
    (logs : CallLogs library graph call) (opens : Opens library graph call first) :
    Logged library first := by
  cases opens with
  | unchanged => exact logged
  | addChannel name config => exact logged.of_same rfl rfl rfl ⟨[config.channel name], rfl⟩
  | addNode => exact logged.of_same rfl rfl rfl ⟨[], (List.append_nil _).symm⟩
  | addEdge => exact logged.of_same rfl rfl rfl ⟨[], (List.append_nil _).symm⟩
  | setEntry => exact logged.of_same rfl rfl rfl ⟨[], (List.append_nil _).symm⟩
  | start threadId input options startNode chosen =>
      obtain ⟨_, channels, _, runs, ledger, next, _⟩ := addThreadRecord_same graph threadId
      have threaded := logged.of_same runs ledger next ⟨[], channels.trans (List.append_nil _).symm⟩
      exact threaded.admitSeeded rfl _ _ _ _ _ _
  | branch _ entryId update historyOptions sourceKind entry branches found =>
      exact logged.admitSeeded rfl _ _ _ _ _ _
  | hostUpdate runId update options run index found accepted =>
      have place := (findRun_place found).1
      let updated : Run :=
        { run with state := (applyUpdate library graph.channels run.state update).2 }
      have logs : LogsTo library graph.channels graph.ledger updated.id run.state :=
        logged.logsTo (List.mem_of_getElem? place)
      exact logged.rewrite place rfl
        (logs.record (Prod.ext (applyUpdate_eq_ok.mpr accepted) rfl) _ _ _ _ _ _)
        fun _ distinct => addHistoryRecord_other _ _ _ _ _ _ _ _ distinct
  | hostRefused runId update options run index found object refused =>
      have place := (findRun_place found).1
      rw [(applyUpdate_harmless (logs run index found) refused).2]
      exact logged.rewrite place rfl (logged.logsTo (List.mem_of_getElem? place)) fun _ _ => rfl
  | loadSnapshot document => exact logs

theorem Logged.rest {later : Graph World} (logged : Logged library graph)
    (rest : Rest graph later) : Logged library later := by
  cases rest with
  | current => exact logged.of_same rfl rfl rfl ⟨[], (List.append_nil _).symm⟩
  | complete index run place =>
      exact logged.rewrite place rfl (logged.logsTo (List.mem_of_getElem? place)) fun _ _ => rfl

theorem Reached.logged (reached : Reached library (LogsCall library) graph) :
    Logged library graph := by
  apply reached.invariant (Logged library)
  · intro world
    exact ⟨.nil, nofun, fun _ => .nil, nofun⟩
  · intro graph call first logged logs opens
    exact logged.opens logs.logs opens
  · intro graph later logged rest
    exact logged.rest rest
  · intro graph call started index options run node last outcome logged logs opened place _ ends
    have follows := Follows.of_acts (ends_acts ends)
    have logsFirst : (executionFrom started run options node).Logs library started.channels :=
      logged.logsTo (List.mem_of_getElem? place)
    have logsLast := ends_logs logsFirst (logs.rounds _ _ _ _ opened) ends
    have same : last.run.id = run.id := follows.id
    have put := logged.rewrite place same (same ▸ logsLast) follows.others
    exact put.of_same rfl rfl rfl ⟨[], (List.append_nil _).symm⟩

theorem LogsCall.of_answered (call : Call World) {after : Graph World} {outcome : Outcome}
    (logs : CallLogs library graph call)
    (opened : openCall library graph call = .answered after outcome) :
    LogsCall library graph call where
  logs
  rounds _ _ _ _ running := by
    rw [opened] at running
    cases running

theorem loggingGraph_logs : Reached sampleLibrary (LogsCall sampleLibrary) loggingGraph := by
  have created : Reached sampleLibrary (LogsCall sampleLibrary) (create ()) := .created ()
  have channel := created.called
    (LogsCall.of_answered (.addChannel "log" ⟨.append, .bool, none⟩) trivial rfl) (.answered rfl)
  have node := channel.called (LogsCall.of_answered (.addNode loggingNode) trivial rfl)
    (.answered rfl)
  exact node.called (LogsCall.of_answered (.setEntry "a") trivial rfl) (.answered rfl)

theorem loggingStart_logs :
    LogsCall sampleLibrary loggingGraph (.start none none noOptions) where
  logs := trivial
  rounds started index options execution running later visits := by
    cases loggingGraph_start.symm.trans running
    obtain ⟨ended, done⟩ : ∃ ended,
        round sampleLibrary loggingStarted noOptions loggingExecution = .inr ended := ⟨_, rfl⟩
    obtain rfl := visits.eq_of_done done
    intro node place _ found _ _
    cases found
    refine .inr ⟨rfl, .inl (loggingNode_accepted rfl ?_), fun _ => .inr rfl⟩
    intro value stored
    cases stored
    exact .inl rfl

instance (channels : List Channel) : DecidableRel (Continues library channels) :=
  fun _ _ => inferInstanceAs (Decidable (_ = _))

instance : Decidable (FaithfulLog library graph) :=
  inferInstanceAs (Decidable (∀ run ∈ graph.runs, _))

end

end TurboAgent.StateGraph
