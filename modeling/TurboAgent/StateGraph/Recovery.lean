import TurboAgent.StateGraph.Identifiers

/-!
# Recovery of runs

A run can be recovered when its state is the one of its latest history entry and no update of a
node was merged into it twice.  Updates are merged before it is known that the sends and the
route of a round succeed, and key by key, and no failure takes them back.  So runs are
recoverable as long as what fails does so before it changes a state.
-/

namespace TurboAgent.StateGraph

open Logic

def Recorded (ledger : Ledger) (run : Run) : Prop :=
  ∃ entry, ledger.latestOf run.id = some entry ∧ run.latestHistoryEntryId = some entry.id ∧
    entry.state = run.state

/-- Every run has its state in the history, and no update of a node was merged twice. -/
structure Recoverable {World : Type} (graph : Graph World) : Prop where
  recorded : ∀ run ∈ graph.runs, Recorded graph.ledger run
  once : graph.applied.Nodup

/-! ## What has to go well -/

section

variable {World : Type} (library : JsonLibrary) (graph : Graph World)

/-- The sends of a round go through from a world and a state on: the targets exist, take their
updates and leave nothing but updates that are accepted.  Then the rest goes well, too. -/
def SendsPass (step : Nat) (rest : World → Json → Prop) : List Send → World → Json → Prop
  | [], world, state => rest world state
  | send :: sends, world, state =>
      ∃ node index, findNode graph.nodes send.targetNode = some (node, index) ∧
        Accepted graph.channels state send.update ∧
        let sent := (applyUpdate library graph.channels state send.update).2
        let called := node.call world sent node.name step
        called.isPlain = true ∧ Accepted graph.channels sent called.update ∧
          SendsPass step rest sends called.world
            (applyUpdate library graph.channels sent called.update).2

/-- There is a way on: a node that was chosen, an edge, or no edges at all. -/
def HasRoute (index : Nat) (chosen : Option String) (world : World) (state : Json) : Prop :=
  chosen.isSome = true ∨ (routeEdges graph index state graph.edges false world).1.isSome = true

def TakenWhole (index step : Nat) (called : Called World) (state : Json) : Prop :=
  Accepted graph.channels state called.update ∧
    SendsPass library graph step (HasRoute graph index called.nextNode) called.sends called.world
      (applyUpdate library graph.channels state called.update).2

/-- A round fails before it changes the state, or not at all. -/
def RoundSettles (options : RunOptions) (execution : Execution World) : Prop :=
  ∀ node index, Proceeds options execution →
    findNode graph.nodes execution.currentNode = some (node, index) →
      let called := node.call execution.world execution.run.state node.name execution.steps
      called.status = 0 →
        RefusedAtOnce graph.channels execution.run.state called.update ∨
          TakenWhole library graph index (execution.steps + 1) called execution.run.state

/-- What a call itself applies is accepted; only the host's update may also be refused at once,
since a run that could not be seeded has no history. -/
def CallSettles : Call World → Prop
  | .start _ input options => (options.startNode <|> graph.entryNode).isSome = true →
      Accepted graph.channels (seedDefaults graph.channels) (input.getD (.object []))
  | .updateState runId update _ => ∀ run index, findRun graph runId = some (run, index) →
      Accepted graph.channels run.state update ∨ RefusedAtOnce graph.channels run.state update
  | .resumeFromHistory entryId update _ _ | .forkFromHistory entryId update _ _ =>
      ∀ entry, graph.ledger.findHistory entryId = some entry →
        Accepted graph.channels entry.state (update.getD (.object []))
  | _ => True

/-- A call settles, and so does every round that it comes to. -/
structure Settles (call : Call World) : Prop where
  runsGraph : call.runsGraph = true
  settles : CallSettles graph call
  rounds : ∀ started index options execution,
    openCall library graph call = .running started index options execution →
      ∀ later, Loop.Visits (round library started options) execution later →
        RoundSettles library started options later

end

/-! ## Executions -/

variable {World : Type} {library : JsonLibrary} {graph : Graph World}

theorem Recorded.of_entries {before after : Ledger} {run : Run} (recorded : Recorded before run)
    (same : after.entriesOf run.id = before.entriesOf run.id) : Recorded after run := by
  rw [Recorded, Ledger.latestOf, same]
  exact recorded

variable {ledger : Ledger} {update : Json}

theorem addHistoryRecord_recorded {run : Run} {sourceKind : SourceKind}
    {sourceName reason lastNode nextNode : Option String} {step : Nat} :
    Recorded (addHistoryRecord ledger run sourceKind sourceName reason lastNode nextNode step
      update).1 (addHistoryRecord ledger run sourceKind sourceName reason lastNode nextNode step
        update).2.1 :=
  ⟨_, addHistoryRecord_latest _ _ _ _ _ _ _ _ _, rfl, rfl⟩

structure NotedBefore (step place : Nat) (execution : Execution World) : Prop where
  once : execution.applied.Nodup
  before : ∀ note ∈ execution.applied, note.runId = execution.run.id →
    note.step < step ∨ note.step = step ∧ note.place < place

structure Sound (execution : Execution World) : Prop where
  recorded : Recorded execution.ledger execution.run
  steps : execution.steps = execution.run.steps
  noted : NotedBefore (execution.steps + 1) 0 execution

section

variable {before middle after execution : Execution World} {step place : Nat} {update : Json}

theorem NotedBefore.note (noted : NotedBefore step place execution) :
    NotedBefore step (place + 1) (execution.note step place) where
  once := by
    apply Lists.nodup_snoc noted.once
    intro member
    rcases noted.before _ member rfl with earlier | ⟨_, earlier⟩
    · exact absurd earlier (Nat.lt_irrefl step)
    · exact absurd earlier (Nat.lt_irrefl place)
  before note member own := by
    rcases List.mem_append.mp member with earlier | added
    · rcases noted.before note earlier own with less | ⟨same, less⟩
      · exact .inl less
      · exact .inr ⟨same, Nat.lt_succ_of_lt less⟩
    · rw [List.mem_singleton.mp added]
      exact .inr ⟨rfl, Nat.lt_succ_self place⟩

theorem NotedBefore.next (noted : NotedBefore step place execution) :
    NotedBefore (step + 1) 0 execution where
  once := noted.once
  before note member own := by
    rcases noted.before note member own with less | ⟨same, _⟩
    · exact .inl (Nat.lt_succ_of_lt less)
    · exact .inl (same ▸ Nat.lt_succ_self _)

end

/-! ## Rounds -/

section

variable {execution : Execution World} {step place : Nat}

theorem applyNodeUpdate_accepted (accepted : Accepted graph.channels execution.run.state update) :
    applyNodeUpdate library graph update step place execution =
      (.ok, (execution.setState
        (applyUpdate library graph.channels execution.run.state update).2).note step place) := by
  rw [applyNodeUpdate, if_pos (applyUpdate_eq_ok.mpr accepted)]

theorem applyNodeUpdate_unchanged (step place : Nat)
    (kept : (applyUpdate library graph.channels execution.run.state update).1 ≠ .ok ∧
      (applyUpdate library graph.channels execution.run.state update).2 = execution.run.state) :
    (applyNodeUpdate library graph update step place execution).1 ≠ .ok ∧
      (applyNodeUpdate library graph update step place execution).2 = execution := by
  rw [applyNodeUpdate, if_neg kept.1]
  refine ⟨kept.1, ?_⟩
  dsimp only
  rw [kept.2]
  rfl

variable {index : Nat}

theorem HasRoute.resolves {chosen : Option String}
    (route : HasRoute graph index chosen execution.world execution.run.state) :
    ∃ next, (resolveNext graph index chosen execution).1 = some next := by
  unfold resolveNext
  cases chosen with
  | some next => exact ⟨some next, rfl⟩
  | none =>
      rcases route with named | found
      · cases named
      · exact Option.isSome_iff_exists.mp found

/-- Within a step an execution came to a world and a state. -/
structure Serves (step place : Nat) (before after : Execution World) (world : World)
    (state : Json) : Prop where
  noted : NotedBefore step place after
  steps : after.steps = before.steps
  world : after.world = world
  state : after.run.state = state

variable (library graph) in
/-- The target of a send whose update is accepted: it is merged, noted and recorded. -/
theorem callSendTarget_pass {node : Node World} {called : Called World}
    (noted : NotedBefore step place execution)
    (isCalled : node.call execution.world execution.run.state node.name step = called)
    (plain : called.isPlain = true)
    (taken : Accepted graph.channels execution.run.state called.update) :
    ∃ later, callSendTarget library graph node step place execution = (.ok, later) ∧
      Serves step (place + 1) execution later called.world
        (applyUpdate library graph.channels execution.run.state called.update).2 := by
  let called' : Execution World := { execution with world := called.world }
  let merged := (called'.setState
    (applyUpdate library graph.channels execution.run.state called.update).2).note step place
  refine ⟨merged.record node.name (some "send_target") (some node.name) none step called.update,
    ?_, ?_⟩
  · have applied : applyNodeUpdate library graph called.update step place called' =
        (.ok, merged) := applyNodeUpdate_accepted taken
    unfold callSendTarget
    rw [isCalled]
    dsimp only
    rw [if_pos plain, applied, if_pos rfl]
  · have notedLater : NotedBefore step (place + 1) merged :=
      NotedBefore.note ⟨noted.once, noted.before⟩
    exact ⟨⟨notedLater.once, notedLater.before⟩, rfl, rfl, rfl⟩

theorem executeSendNode_pass {send : Send} {node : Node World} {sent : Json} {called : Called World}
    (noted : NotedBefore step place execution)
    (found : findNode graph.nodes send.targetNode = some (node, index))
    (accepted : Accepted graph.channels execution.run.state send.update)
    (isSent : (applyUpdate library graph.channels execution.run.state send.update).2 = sent)
    (isCalled : node.call execution.world sent node.name step = called)
    (plain : called.isPlain = true) (taken : Accepted graph.channels sent called.update) :
    ∃ later, executeSendNode library graph send step place execution = (.ok, later) ∧
      Serves step (place + 1) execution later called.world
        (applyUpdate library graph.channels sent called.update).2 := by
  let recorded := (execution.setState sent).record send.targetNode (some "send") none
    (some send.targetNode) step send.update
  have notedRecorded : NotedBefore step place recorded := ⟨noted.once, noted.before⟩
  obtain ⟨later, done, serves⟩ := callSendTarget_pass library graph notedRecorded isCalled plain
    taken
  refine ⟨later, ?_, ⟨serves.noted, serves.steps, serves.world, serves.state⟩⟩
  unfold executeSendNode
  rw [if_pos accepted.2.1, found]
  dsimp only
  rw [if_pos (applyUpdate_eq_ok.mpr accepted), isSent]
  exact done

theorem executeSends_pass {sends : List Send} {rest : World → Json → Prop}
    (noted : NotedBefore step place execution)
    (pass : SendsPass library graph step rest sends execution.world execution.run.state) :
    ∃ later place', executeSends library graph step sends place execution = (.ok, later) ∧
      ∃ world state, Serves step place' execution later world state ∧ rest world state := by
  induction sends generalizing execution place with
  | nil => exact ⟨execution, place, rfl, _, _, ⟨noted, rfl, rfl, rfl⟩, pass⟩
  | cons send sends ih =>
      obtain ⟨node, index, found, accepted, plain, taken, others⟩ := pass
      obtain ⟨middle, sent, serves⟩ := executeSendNode_pass noted found accepted rfl rfl plain taken
      obtain ⟨later, place', done, world, state, serves', holds⟩ :=
        ih serves.noted (by rw [serves.world, serves.state]; exact others)
      refine ⟨later, place', ?_, world, state, ?_, holds⟩
      · rw [executeSends, sent]
        exact done
      · exact ⟨serves'.noted, serves'.steps.trans serves.steps, serves'.world, serves'.state⟩

/-- Executions that differ in what is not recorded only. -/
structure SameRecords (before after : Execution World) : Prop where
  ledger : after.ledger = before.ledger
  applied : after.applied = before.applied
  steps : after.steps = before.steps
  run : ∃ currentNode interrupted completed,
    after.run = { before.run with currentNode, interrupted, completed }

theorem Sound.of_same {before after : Execution World} (sound : Sound before)
    (same : SameRecords before after) : Sound after := by
  obtain ⟨_, _, _, run⟩ := same.run
  constructor
  · rw [Recorded, same.ledger, run]
    exact sound.recorded
  · rw [same.steps, run, sound.steps]
  · constructor
    · rw [same.applied]
      exact sound.noted.once
    · rw [same.applied, same.steps, run]
      exact sound.noted.before

theorem concludeRound_sound {node : Node World} {called : Called World} {next : Option String}
    (noted : NotedBefore (execution.steps + 1) place execution) :
    Sound (executionOf (concludeRound node called next execution)) := by
  have later : NotedBefore (execution.steps + 1 + 1) 0 execution := noted.next
  unfold concludeRound
  dsimp only
  split
  next => exact ⟨addHistoryRecord_recorded, rfl, later.once, later.before⟩
  cases next with
  | some next => exact ⟨addHistoryRecord_recorded, rfl, later.once, later.before⟩
  | none => exact ⟨addHistoryRecord_recorded, rfl, later.once, later.before⟩

theorem settleCall_whole {node : Node World} {called : Called World} (sound : Sound execution)
    (succeeds : called.status = 0)
    (whole : TakenWhole library graph index (execution.steps + 1) called execution.run.state)
    (isWorld : execution.world = called.world) :
    Sound (executionOf (settleCall library graph node index called execution)) := by
  obtain ⟨accepted, pass⟩ := whole
  let merged := (execution.setState
    (applyUpdate library graph.channels execution.run.state called.update).2).note
      (execution.steps + 1) 0
  have noted : NotedBefore (execution.steps + 1) 1 merged :=
    NotedBefore.note ⟨sound.noted.once, sound.noted.before⟩
  have pass : SendsPass library graph (execution.steps + 1) (HasRoute graph index called.nextNode)
      called.sends merged.world merged.run.state := isWorld ▸ pass
  obtain ⟨later, place, sent, world, state, serves, route⟩ := executeSends_pass noted pass
  have isMerged : applyNodeUpdate library graph called.update (execution.steps + 1) 0 execution =
      (.ok, merged) := applyNodeUpdate_accepted accepted
  unfold settleCall
  rw [if_pos succeeds]
  dsimp only
  rw [isMerged]
  dsimp only
  rw [if_pos rfl, sent]
  dsimp only
  rw [if_pos rfl]
  have route : HasRoute graph index called.nextNode later.world later.run.state := by
    rw [serves.world, serves.state]
    exact route
  obtain ⟨next, resolved⟩ := route.resolves
  rw [resolved]
  have steps : later.steps = execution.steps := serves.steps
  have notedLater : NotedBefore (later.steps + 1) place later := steps ▸ serves.noted
  exact concludeRound_sound ⟨notedLater.once, notedLater.before⟩

theorem settleCall_sound {node : Node World} {called : Called World} (sound : Sound execution)
    (isWorld : execution.world = called.world) (settles : called.status = 0 →
      RefusedAtOnce graph.channels execution.run.state called.update ∨
        TakenWhole library graph index (execution.steps + 1) called execution.run.state) :
    Sound (executionOf (settleCall library graph node index called execution)) := by
  by_cases succeeds : called.status = 0
  · rcases settles succeeds with refused | whole
    · have kept := applyNodeUpdate_unchanged (execution.steps + 1) 0
        (applyUpdate_refused library refused)
      unfold settleCall
      rw [if_pos succeeds]
      dsimp only
      rw [if_neg kept.1, kept.2]
      exact sound
    · exact settleCall_whole sound succeeds whole isWorld
  · unfold settleCall
    rw [if_neg succeeds]
    exact sound

theorem round_sound {options : RunOptions} (sound : Sound execution)
    (settles : RoundSettles library graph options execution) :
    Sound (executionOf (round library graph options execution)) := by
  unfold round
  split
  next => exact sound.of_same ⟨rfl, rfl, rfl, _, _, _, rfl⟩
  next unlimited =>
    split
    next => exact sound.of_same ⟨rfl, rfl, rfl, _, _, _, rfl⟩
    next uninterrupted =>
      dsimp only
      split
      next => exact sound.of_same ⟨rfl, rfl, rfl, _, _, _, rfl⟩
      next node index found =>
        have settled := settles node index ⟨unlimited, Bool.eq_false_iff.mpr uninterrupted⟩ found
        have soundCalled : Sound { execution with
            skipInitialInterrupt := false
            world := (node.call execution.world execution.run.state node.name
              execution.steps).world } := sound.of_same ⟨rfl, rfl, rfl, _, _, _, rfl⟩
        exact settleCall_sound soundCalled rfl settled

theorem ends_sound {options : RunOptions} {last : Execution World} {outcome : Outcome}
    (sound : Sound execution)
    (settles : ∀ later, Loop.Visits (round library graph options) execution later →
      RoundSettles library graph options later)
    (ends : Loop.Ends (round library graph options) execution (last, outcome)) : Sound last :=
  ends_kept Sound sound (fun later visited holds => round_sound holds (settles later visited)) ends

end

/-! ## Graphs -/

/-- What is kept of a graph between calls.  Runs are numbered, so that nothing was noted of a new
one. -/
structure Consistent (graph : Graph World) : Prop where
  runs : Numbered "run" graph.nextRunId (graph.runs.map Run.id)
  recorded : ∀ run ∈ graph.runs, Recorded graph.ledger run
  once : graph.applied.Nodup
  noted : ∀ note ∈ graph.applied, ∃ number, number ≤ graph.nextRunId ∧
    note.runId = makeId "run" number
  passed : ∀ run ∈ graph.runs, ∀ note ∈ graph.applied, note.runId = run.id → note.step ≤ run.steps

section

variable {run : Run} {index : Nat} {options : RunOptions} {node : String}

theorem Consistent.sound (consistent : Consistent graph) (member : run ∈ graph.runs) :
    Sound (executionFrom graph run options node) where
  recorded := consistent.recorded run member
  steps := rfl
  noted :=
    ⟨consistent.once, fun note noted own =>
      .inl (Nat.lt_succ_of_le (consistent.passed run member note noted own))⟩

theorem Consistent.finish {last : Execution World} (consistent : Consistent graph)
    (place : graph.runs[index]? = some run) (sound : Sound last)
    (follows : Follows (executionFrom graph run options node) last) :
    Consistent (finishRun graph index last) := by
  have id : last.run.id = run.id := follows.id
  have cases : ∀ other ∈ (finishRun graph index last).runs,
      other = last.run ∨ other ∈ graph.runs ∧ other.id ≠ run.id :=
    fun other => Lists.mem_set_of_nodup consistent.runs.distinct place
  constructor
  · have ids : (finishRun graph index last).runs.map Run.id = graph.runs.map Run.id :=
      Lists.map_set_same place id
    rw [ids]
    exact consistent.runs
  · intro other among
    rcases cases other among with rfl | ⟨old, distinct⟩
    · exact sound.recorded
    · exact (consistent.recorded other old).of_entries (follows.others other.id distinct)
  · exact sound.noted.once
  · intro note noted
    rcases follows.noted note noted with earlier | own
    · exact consistent.noted note earlier
    · rw [own]
      exact consistent.runs.numbers _ (List.mem_map_of_mem (List.mem_of_getElem? place))
  · intro other among note noted own
    rcases cases other among with rfl | ⟨old, distinct⟩
    · rcases sound.noted.before note noted own with less | ⟨_, less⟩
      · exact sound.steps ▸ Nat.le_of_lt_succ less
      · exact absurd less (Nat.not_lt_zero _)
    · rcases follows.noted note noted with earlier | own'
      · exact consistent.passed other old note earlier own
      · exact absurd (own.symm.trans own') distinct

theorem Consistent.rewrite {later : Run} (consistent : Consistent graph)
    (place : graph.runs[index]? = some run) (id : later.id = run.id)
    (threadId : later.threadId = run.threadId) (steps : later.steps = run.steps)
    (recorded : Recorded ledger later)
    (others : ∀ other, other ≠ run.id → ledger.entriesOf other = graph.ledger.entriesOf other) :
    Consistent (putRun graph index later ledger) := by
  let first : Execution World := executionFrom graph run noOptions ""
  let last : Execution World := { first with run := later, ledger }
  have noted := (consistent.sound (List.mem_of_getElem? place) : Sound first).noted
  have follows : Follows first last := ⟨id, threadId, others, fun _ => .inl⟩
  have sound : Sound last := by
    refine ⟨recorded, steps.symm, noted.once, ?_⟩
    intro note member own
    exact noted.before note member (own.trans id)
  exact consistent.finish place sound follows

theorem Consistent.of_same {after : Graph World} (consistent : Consistent graph)
    (runs : after.runs = graph.runs) (ledger : after.ledger = graph.ledger)
    (next : after.nextRunId = graph.nextRunId) (applied : after.applied = graph.applied) :
    Consistent after := by
  obtain ⟨numbered, recorded, once, noted, passed⟩ := consistent
  constructor
  · rw [runs, next]
    exact numbered
  · rw [runs, ledger]
    exact recorded
  · rw [applied]
    exact once
  · rw [applied, next]
    exact noted
  · rw [runs, applied]
    exact passed

theorem Consistent.admit (consistent : Consistent graph)
    (isNew : run.id = makeId "run" (graph.nextRunId + 1)) (recorded : Recorded ledger run)
    (others : ∀ other, other ≠ run.id → ledger.entriesOf other = graph.ledger.entriesOf other) :
    Consistent (admitRun graph run ledger) := by
  have fresh : ∀ other ∈ graph.runs, other.id ≠ run.id := by
    intro other old same
    exact consistent.runs.fresh (isNew ▸ same ▸ List.mem_map_of_mem old)
  have cases : ∀ other ∈ (admitRun graph run ledger).runs, other ∈ graph.runs ∨ other = run := by
    intro other member
    rcases List.mem_append.mp member with old | added
    · exact .inl old
    · exact .inr (List.mem_singleton.mp added)
  constructor
  · rw [admitRun, List.map_append, List.map_singleton, isNew]
    exact consistent.runs.next
  · intro other member
    rcases cases other member with old | rfl
    · exact (consistent.recorded other old).of_entries (others other.id (fresh other old))
    · exact recorded
  · exact consistent.once
  · intro note noted
    obtain ⟨number, known, same⟩ := consistent.noted note noted
    exact ⟨number, Nat.le_succ_of_le known, same⟩
  · intro other member note noted own
    rcases cases other member with old | rfl
    · exact consistent.passed other old note noted own
    · obtain ⟨number, known, same⟩ := consistent.noted note noted
      have equal : number = graph.nextRunId + 1 :=
        makeId_injective "run" (same.symm.trans (own.trans isNew))
      exact absurd known (by omega)

theorem Consistent.admitSeeded (consistent : Consistent graph)
    (isNew : run.id = makeId "run" (graph.nextRunId + 1)) (sourceKind : SourceKind)
    (sourceName : String) (reason : Option String) {update : Option Json}
    (nextNode : Option String) (step : Nat)
    (accepted : Accepted graph.channels run.state (update.getD (.object []))) :
    Consistent (admitSeeded library graph run sourceKind sourceName reason update nextNode
      step) := by
  rw [StateGraph.admitSeeded, seedRun_accepted accepted]
  exact consistent.admit isNew addHistoryRecord_recorded fun _ distinct =>
    addHistoryRecord_other _ _ _ _ _ _ _ _ distinct

end

/-! ## Calls -/

theorem Consistent.opens {call : Call World} {first : Graph World} (consistent : Consistent graph)
    (runs : call.runsGraph = true) (settles : CallSettles graph call)
    (opens : Opens library graph call first) : Consistent first := by
  cases opens with
  | unchanged => exact consistent
  | addChannel => exact consistent.of_same rfl rfl rfl rfl
  | addNode => exact consistent.of_same rfl rfl rfl rfl
  | addEdge => exact consistent.of_same rfl rfl rfl rfl
  | setEntry => exact consistent.of_same rfl rfl rfl rfl
  | start threadId input options startNode chosen =>
      obtain ⟨_, channels, _, same, ledger, next, applied⟩ := addThreadRecord_same graph threadId
      have accepted := settles (Option.isSome_iff_exists.mpr ⟨startNode, chosen⟩)
      rw [← channels] at accepted
      exact (consistent.of_same same ledger next applied).admitSeeded rfl _ _ _ _ _ accepted
  | branch _ entryId update historyOptions sourceKind entry branches found =>
      have accepted : Accepted graph.channels entry.state (update.getD (.object [])) := by
        cases branches <;> exact settles entry found
      exact consistent.admitSeeded rfl _ _ _ _ _ accepted
  | hostUpdate runId update options run index found accepted =>
      exact consistent.rewrite (findRun_place found).1 rfl rfl rfl addHistoryRecord_recorded
        fun _ distinct => addHistoryRecord_other _ _ _ _ _ _ _ _ distinct
  | hostRefused runId update options run index found object refused =>
      rcases settles run index found with accepted | atOnce
      · exact absurd accepted refused
      · have place := (findRun_place found).1
        rw [(applyUpdate_refused library atOnce).2]
        exact consistent.rewrite place rfl rfl rfl
          (consistent.recorded run (List.mem_of_getElem? place)) fun _ _ => rfl
  | loadSnapshot document => exact absurd runs (by simp [Call.runsGraph])

theorem Consistent.rest {later : Graph World} (consistent : Consistent graph)
    (rest : Rest graph later) : Consistent later := by
  cases rest with
  | current threadIndex run member => exact consistent.of_same rfl rfl rfl rfl
  | complete index run place =>
      exact consistent.rewrite place rfl rfl rfl
        (consistent.recorded run (List.mem_of_getElem? place)) fun _ _ => rfl

theorem Reached.consistent (reached : Reached library (Settles library) graph) :
    Consistent graph := by
  apply reached.invariant Consistent
  · intro world
    exact ⟨.nil, nofun, List.nodup_nil, nofun, nofun⟩
  · intro graph call first consistent settles opens
    exact consistent.opens settles.runsGraph settles.settles opens
  · intro graph later consistent rest
    exact consistent.rest rest
  · intro graph call started index options run node last outcome consistent settles opened place
      _ ends
    have sound := ends_sound (consistent.sound (List.mem_of_getElem? place))
      (settles.rounds _ _ _ _ opened) ends
    exact consistent.finish place sound (.of_acts (ends_acts ends))

theorem Settles.of_answered (call : Call World) {after : Graph World} {outcome : Outcome}
    (runs : call.runsGraph = true) (settles : CallSettles graph call)
    (opened : openCall library graph call = .answered after outcome) :
    Settles library graph call where
  runsGraph := runs
  settles
  rounds _ _ _ _ running := by
    rw [opened] at running
    cases running

theorem loggingGraph_settles : Reached sampleLibrary (Settles sampleLibrary) loggingGraph := by
  have created : Reached sampleLibrary (Settles sampleLibrary) (create ()) := .created ()
  have channel := created.called
    (Settles.of_answered (.addChannel "log" ⟨.append, .bool, none⟩) rfl trivial rfl) (.answered rfl)
  have node := channel.called (Settles.of_answered (.addNode loggingNode) rfl trivial rfl)
    (.answered rfl)
  exact node.called (Settles.of_answered (.setEntry "a") rfl trivial rfl) (.answered rfl)

theorem loggingNode_accepted {state : Json} (object : state.isObject = true)
    (blank : BlankOr .array (state.field "log")) :
    Accepted loggingGraph.channels state (.object [("log", .array [.bool true])]) := by
  refine ⟨object, rfl, ?_⟩
  intro key member
  rw [List.mem_singleton.mp member]
  refine ⟨⟨"log", .append, .bool, .null⟩, .array [.bool true], rfl, rfl, blank, ?_⟩
  intro child among
  rw [List.mem_singleton.mp among]
  rfl

theorem loggingStart_settles :
    Settles sampleLibrary loggingGraph (.start none none noOptions) where
  runsGraph := rfl
  settles _ := ⟨rfl, rfl, fun _ member => nomatch member⟩
  rounds started index options execution running later visits := by
    cases loggingGraph_start.symm.trans running
    obtain ⟨ended, done⟩ : ∃ ended,
        round sampleLibrary loggingStarted noOptions loggingExecution = .inr ended := ⟨_, rfl⟩
    obtain rfl := visits.eq_of_done done
    intro node place _ found _ _
    cases found
    refine .inr ⟨loggingNode_accepted rfl ?_, .inr rfl⟩
    intro value stored
    cases stored
    exact .inl rfl

end TurboAgent.StateGraph
