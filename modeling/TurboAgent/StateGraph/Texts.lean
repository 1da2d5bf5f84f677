import TurboAgent.StateGraph.Identifiers

/-!
# Texts of records

The texts of a graph are C strings.  Callers pass some of them, callbacks choose others, a
document has those of its records up to their first NUL, and the rest are numbers.  So what is
written of a graph can be read again.
-/

namespace TurboAgent.StateGraph

open Logic Relation

theorem noNul_repr (value : Nat) : noNul (Nat.repr value) = true := by
  have digits : '\x00' ∉ Nat.toDigits 10 value := by
    intro member
    have isDigit := Nat.isDigit_of_mem_toDigits (by decide) (by decide) member
    exact absurd isDigit (by decide)
  simpa [noNul, Nat.repr] using digits

theorem noNul_makeId {label : String} (plain : noNul label = true) (value : Nat) :
    noNul (makeId label value) = true :=
  noNul_append (noNul_append plain (by decide)) (noNul_repr value)

theorem noNul_getD {text : Option String} {default : String} (plain : plainText text = true)
    (isText : noNul default = true) : noNul (text.getD default) = true := by
  cases text with
  | none => exact isText
  | some _ => exact plain

theorem plainText_orElse {first second : Option String} (plain : plainText first = true)
    (isText : plainText second = true) : plainText (first <|> second) = true := by
  cases first with
  | none => exact isText
  | some _ => exact plain

section

variable {World : Type}

structure Node.IsText (node : Node World) : Prop where
  name : noNul node.name = true
  choice : ∀ world state step, plainText (node.call world state node.name step).nextNode = true

/-- The texts that a call passes are C strings, and so are those that a callback chooses. -/
def CallText : Call World → Prop
  | .addChannel name _ => noNul name = true
  | .addNode node => node.IsText
  | .addEdge _ _ _ | .setEntry _ | .loadSnapshot _ => True
  | .start threadId _ options =>
      plainText threadId = true ∧ plainText options.startNode = true
  | .resume _ options => plainText options.startNode = true
  | .updateState _ _ options => plainText options.asNode = true ∧ plainText options.reason = true
  | .resumeFromHistory _ _ historyOptions runOptions
  | .forkFromHistory _ _ historyOptions runOptions =>
      plainText historyOptions.asNode = true ∧ plainText historyOptions.reason = true ∧
        plainText runOptions.startNode = true

structure IsText (graph : Graph World) : Prop where
  entryNode : plainText graph.entryNode = true
  channels : ∀ channel ∈ graph.channels, noNul channel.name = true
  nodes : ∀ node ∈ graph.nodes, node.IsText
  records : Writable graph

structure Execution.IsText (execution : Execution World) : Prop where
  run : execution.run.isText = true
  resting : execution.run.Resting
  entries : ∀ entry ∈ execution.ledger.entries, entry.isText = true
  node : noNul execution.currentNode = true

end

section

variable {World : Type} {library : JsonLibrary} {graph : Graph World}
  {before after : Execution World}

theorem Leads.isText {name : String} (nodes : ∀ node ∈ graph.nodes, node.IsText)
    (leads : Leads graph name) : noNul name = true := by
  rcases leads with rfl | ⟨node, member, rfl | ⟨world, state, step, chosen⟩⟩
  · exact noNul_empty
  · exact (nodes node member).name
  · have choice := (nodes node member).choice world state step
    rw [chosen] at choice
    exact choice

variable {run : Run}

theorem run_isText : run.isText = true ↔
    noNul run.id = true ∧ noNul run.threadId = true ∧ plainText run.parentRunId = true ∧
      plainText run.forkedFromHistoryId = true ∧ plainText run.latestHistoryEntryId = true ∧
        plainText run.currentNode = true := by
  simp [Run.isText, plainText]

theorem entry_isText {entry : HistoryEntry} : entry.isText = true ↔
    noNul entry.id = true ∧ noNul entry.checkpointId = true ∧ noNul entry.threadId = true ∧
      noNul entry.runId = true ∧ plainText entry.sourceName = true ∧
        plainText entry.reason = true ∧ plainText entry.lastNode = true ∧
          plainText entry.nextNode = true := by
  simp [HistoryEntry.isText, plainText]

theorem addHistoryRecord_isText {ledger : Ledger} (sourceKind : SourceKind)
    {sourceName reason lastNode nextNode : Option String} (step : Nat) (update : Json)
    (entries : ∀ entry ∈ ledger.entries, entry.isText = true) (plain : run.isText = true)
    (source : plainText sourceName = true) (reasons : plainText reason = true)
    (last : plainText lastNode = true) (next : plainText nextNode = true) :
    let added := addHistoryRecord ledger run sourceKind sourceName reason lastNode nextNode step
      update
    (∀ entry ∈ added.1.entries, entry.isText = true) ∧ added.2.1.isText = true := by
  obtain ⟨id, threadId, parent, forked, _, current⟩ := run_isText.mp plain
  have newId : noNul (makeId "history" (ledger.nextHistoryId + 1)) = true :=
    noNul_makeId (by decide) _
  have newCheckpoint : noNul (makeId "checkpoint" (ledger.nextCheckpointId + 1)) = true :=
    noNul_makeId (by decide) _
  constructor
  · exact Lists.forall_mem_snoc entries
        (entry_isText.mpr ⟨newId, newCheckpoint, threadId, id, source, reasons, last, next⟩)
  · exact run_isText.mpr ⟨id, threadId, parent, forked, newId, current⟩

theorem Execution.IsText.act (nodes : ∀ node ∈ graph.nodes, node.IsText) (text : before.IsText)
    (act : Act library graph before after) : after.IsText := by
  cases act with
  | world => exact ⟨text.run, text.resting, text.entries, text.node⟩
  | skip => exact ⟨text.run, text.resting, text.entries, text.node⟩
  | merge => exact ⟨text.run, text.resting, text.entries, text.node⟩
  | note => exact ⟨text.run, text.resting, text.entries, text.node⟩
  | record sourceName reason lastNode nextNode step update source reasons last next _ =>
      have reasonText : plainText reason = true := by
        cases reason with
        | none => rfl
        | some text =>
            rcases reasons text rfl with rfl | rfl <;> decide
      have leadsText : ∀ {choice : Option String}, (∀ name, choice = some name → Leads graph name) →
          plainText choice = true := by
        intro choice leads
        cases choice with
        | none => rfl
        | some name => exact (leads name rfl).isText nodes
      have sourceText : plainText (some sourceName) = true := source.isText nodes
      obtain ⟨entries, run⟩ := addHistoryRecord_isText .node step update text.entries text.run
        sourceText reasonText (leadsText last) (leadsText next)
      exact ⟨run, text.resting, entries, text.node⟩
  | move _ moves =>
      obtain ⟨currentNode, steps, interrupted, completed, choice, resting, run⟩ := moves.run
      obtain ⟨id, threadId, parent, forked, latest, current⟩ := run_isText.mp text.run
      refine ⟨?_, ?_, ?_, ?_⟩
      · rw [run]
        refine run_isText.mpr ⟨id, threadId, parent, forked, latest, ?_⟩
        cases currentNode with
        | none => rfl
        | some name =>
            rcases choice name rfl with same | rfl | leads
            · rw [same] at current
              exact current
            · exact text.node
            · exact leads.isText nodes
      · rw [run]
        exact resting
      · rw [moves.ledger]
        exact text.entries
      · rcases moves.node with same | leads
        · rw [same]
          exact text.node
        · exact leads.isText nodes

theorem Execution.IsText.acts (nodes : ∀ node ∈ graph.nodes, node.IsText) (text : before.IsText)
    (acts : Acts library graph before after) : after.IsText := by
  induction acts with
  | refl => exact text
  | tail _ act ih => exact ih.act nodes act

/-! ## Calls -/

section

variable {run : Run} {sourceKind : SourceKind} {sourceName : String} {reason : Option String}
  {update : Option Json} {nextNode : Option String} {step : Nat}

theorem Writable.of_same {other : Graph World} (writable : Writable graph)
    (threads : other.threads = graph.threads) (runs : other.runs = graph.runs)
    (ledger : other.ledger = graph.ledger) : Writable other where
  threads := threads ▸ writable.threads
  runs := runs ▸ writable.runs
  resting := runs ▸ writable.resting
  entries := ledger ▸ writable.entries

theorem IsText.admitSeeded (text : IsText graph) (plain : run.isText = true)
    (resting : run.Resting) (source : noNul sourceName = true) (reasons : plainText reason = true)
    (next : plainText nextNode = true) :
    IsText (admitSeeded library graph run sourceKind sourceName reason update nextNode step) := by
  have records : ∀ (ledger : Ledger) (later : Run),
      (∀ entry ∈ ledger.entries, entry.isText = true) → later.isText = true → later.Resting →
        IsText (admitRun graph later ledger) := by
    intro ledger later entries isText rests
    refine ⟨text.entryNode, text.channels, text.nodes, text.records.threads, ?_, ?_, entries⟩
    · exact Lists.forall_mem_snoc text.records.runs isText
    · exact Lists.forall_mem_snoc text.records.resting rests
  unfold StateGraph.admitSeeded
  by_cases accepted : Accepted graph.channels run.state (update.getD (.object []))
  · rw [seedRun_accepted accepted]
    obtain ⟨id, threadId, parent, forked, latest, _⟩ := run_isText.mp plain
    let seeded := seededRun library graph run (update.getD (.object [])) nextNode step
    have seededText : seeded.isText = true :=
      run_isText.mpr ⟨id, threadId, parent, forked, latest, next⟩
    obtain ⟨entries, isText⟩ := addHistoryRecord_isText sourceKind step (update.getD (.object []))
      text.records.entries seededText (show plainText (some sourceName) = true from source) reasons
        (show plainText none = true from rfl) next
    exact records _ _ entries isText fun both => by cases both.1
  · dsimp only
    rw [seedRun_refused accepted]
    exact records _ _ text.records.entries plain resting

end

theorem newRun_isText {threadId : String} {parentRunId forkedFromHistoryId : Option String}
    {currentNode : Option String} (state : Json) (steps : Nat) (thread : noNul threadId = true)
    (parent : plainText parentRunId = true) (forked : plainText forkedFromHistoryId = true)
    (current : plainText currentNode = true) :
    (newRun graph threadId parentRunId forkedFromHistoryId state currentNode steps).isText =
      true ∧
    (newRun graph threadId parentRunId forkedFromHistoryId state currentNode steps).Resting :=
  ⟨run_isText.mpr ⟨noNul_makeId (by decide) _, thread, parent, forked, rfl, current⟩,
    fun both => by cases both.1⟩

theorem IsText.addThread {requested : Option String} (text : IsText graph)
    (plain : plainText requested = true) :
    IsText (addThreadRecord graph requested).1 ∧
      noNul (addThreadRecord graph requested).2.2 = true := by
  have added : ∀ (id : String) (counter : Nat), noNul id = true →
      IsText { graph with threads := graph.threads ++ [⟨id, none⟩], nextThreadId := counter } ∧
        noNul id = true := by
    intro id counter isText
    refine ⟨⟨text.entryNode, text.channels, text.nodes, ?_, text.records.runs,
      text.records.resting, text.records.entries⟩, isText⟩
    exact Lists.forall_mem_snoc text.records.threads (Bool.and_eq_true_iff.mpr ⟨isText, rfl⟩)
  unfold addThreadRecord
  dsimp only
  split
  next => exact added _ _ (noNul_makeId (by decide) _)
  next id =>
    split
    next => exact added _ _ (noNul_makeId (by decide) _)
    split
    next thread index found =>
      have listed := List.mem_zipIdx_iff_getElem?.mp (List.mem_of_find?_eq_some found)
      have isThread := text.records.threads thread (List.mem_of_getElem? listed)
      exact ⟨text, (Bool.and_eq_true_iff.mp isThread).1⟩
    next => exact added _ _ plain

theorem IsText.put {index : Nat} {ledger : Ledger} (text : IsText graph) (plain : run.isText = true)
    (resting : run.Resting) (entries : ∀ entry ∈ ledger.entries, entry.isText = true) :
    IsText (putRun graph index run ledger) where
  entryNode := text.entryNode
  channels := text.channels
  nodes := text.nodes
  records := by
    refine ⟨text.records.threads, ?_, ?_, entries⟩
    · intro other member
      rcases List.mem_or_eq_of_mem_set member with old | rfl
      · exact text.records.runs other old
      · exact plain
    · intro other member
      rcases List.mem_or_eq_of_mem_set member with old | rfl
      · exact text.records.resting other old
      · exact resting

theorem plainText_asString (value : Option Json) : plainText (asString value) = true := by
  unfold asString
  split
  next text =>
    have cut : '\x00' ∉ text.toList.takeWhile (· ≠ '\x00') := by
      intro member
      simpa using List.mem_takeWhile_imp member
    simpa [plainText, noNul] using cut
  next => rfl

theorem noNul_of_asString {value : Option Json} {text : String}
    (isText : asString value = some text) : noNul text = true := by
  have plain := plainText_asString value
  rw [isText] at plain
  exact plain

variable {record : Json}

theorem importThread_isText {thread : Thread} (imported : importThread record = some thread) :
    thread.isText = true := by
  unfold importThread at imported
  split at imported
  next id isId =>
    cases imported
    exact Bool.and_eq_true_iff.mpr ⟨noNul_of_asString isId, plainText_asString _⟩
  next => cases imported

theorem importRun_isText (imported : importRun record = some run) :
    run.isText = true ∧ run.Resting := by
  unfold importRun at imported
  split at imported
  next id threadId state status isId isThread _ _ =>
    cases imported
    refine ⟨run_isText.mpr ⟨noNul_of_asString isId, noNul_of_asString isThread,
      plainText_asString _, plainText_asString _, plainText_asString _, plainText_asString _⟩, ?_⟩
    rintro ⟨interrupted, completed⟩
    have same := (beq_iff_eq.mp interrupted).symm.trans (beq_iff_eq.mp completed)
    exact absurd same (by decide)
  next => cases imported

theorem importHistoryEntry_isText {entry : HistoryEntry}
    (imported : importHistoryEntry record = some entry) : entry.isText = true := by
  unfold importHistoryEntry importHistoryIds at imported
  split at imported
  next id checkpointId threadId runId sourceKind update state ids _ _ _ =>
    cases imported
    split at ids
    next isId isCheckpoint isThread isRun =>
      cases ids
      exact entry_isText.mpr ⟨noNul_of_asString isId, noNul_of_asString isCheckpoint,
        noNul_of_asString isThread, noNul_of_asString isRun, plainText_asString _,
        plainText_asString _, plainText_asString _, plainText_asString _⟩
    next => cases ids
  next => cases imported

theorem importRecords_forall {Record : Type} {read : Json → Option Record} {documents : Json}
    {records : List Record} {post : Record → Prop}
    (imported : importRecords read documents = .ok records)
    (each : ∀ document record, read document = some record → post record) :
    ∀ record ∈ records, post record := by
  unfold importRecords at imported
  split at imported
  next written =>
    split at imported
    next entries all =>
      cases imported
      intro record member
      obtain ⟨document, _, isRead⟩ := Lists.mem_of_mapM all member
      exact each document record isRead
    next => cases imported
  next => cases imported

theorem IsText.load (text : IsText graph) (document : Option Json) :
    IsText (loadSnapshot library graph document).2 := by
  have cleared : Writable (clearRuntimeState graph) := by
    constructor <;> exact fun _ member => nomatch member
  have ended : IsText (clearRuntimeState graph) :=
    ⟨text.entryNode, text.channels, text.nodes, cleared⟩
  refine loadSnapshot_keeps IsText text ended ?_
  intro _ _ _ _ _ _ _ _ _ _ _ readThreads _ readRuns _ readEntries
  have isRuns := importRecords_forall readRuns fun _ _ => importRun_isText
  exact ⟨text.entryNode, text.channels, text.nodes,
    importRecords_forall readThreads fun _ _ => importThread_isText,
    fun run member => (isRuns run member).1, fun run member => (isRuns run member).2,
    importRecords_forall readEntries fun _ _ => importHistoryEntry_isText⟩

theorem IsText.opens {call : Call World} {first : Graph World} (text : IsText graph)
    (plain : CallText call) (opens : Opens library graph call first) : IsText first := by
  cases opens with
  | unchanged => exact text
  | addChannel name config =>
      refine ⟨text.entryNode, ?_, text.nodes, text.records.of_same rfl rfl rfl⟩
      exact Lists.forall_mem_snoc text.channels plain
  | addNode node =>
      refine ⟨text.entryNode, text.channels, ?_, text.records.of_same rfl rfl rfl⟩
      exact Lists.forall_mem_snoc text.nodes plain
  | addEdge => exact ⟨text.entryNode, text.channels, text.nodes, text.records.of_same rfl rfl rfl⟩
  | setEntry name node index found =>
      refine ⟨?_, text.channels, text.nodes, text.records.of_same rfl rfl rfl⟩
      rw [← (findNode_spec found).2]
      exact (text.nodes node (findNode_mem found)).name
  | start threadId input options startNode chosen =>
      obtain ⟨added, thread⟩ := text.addThread plain.1
      have next : plainText (some startNode) = true := by
        rw [← chosen]
        exact plainText_orElse plain.2 text.entryNode
      have parentless : plainText none = true := rfl
      obtain ⟨isText, resting⟩ := @newRun_isText _ (addThreadRecord graph threadId).1 _ _ _ _
        (seedDefaults (addThreadRecord graph threadId).1.channels) 0 thread parentless parentless
          next
      exact added.admitSeeded isText resting (by decide) rfl next
  | branch _ entryId update historyOptions sourceKind entry branches found =>
      have isEntry := text.records.entries entry (List.mem_of_find?_eq_some found)
      obtain ⟨id, _, threadId, runId, _, _, _, next⟩ := entry_isText.mp isEntry
      have options : plainText historyOptions.asNode = true ∧
          plainText historyOptions.reason = true := by
        cases branches with
        | resume => exact ⟨plain.1, plain.2.1⟩
        | fork => exact ⟨plain.1, plain.2.1⟩
      have forked : plainText (if sourceKind == .fork then some entry.id else none) = true := by
        split
        next => exact id
        next => rfl
      have source : noNul (historyOptions.asNode.getD
          (if sourceKind == .fork then "fork_from_history" else "resume_from_history")) = true :=
        noNul_getD options.1 (by cases sourceKind <;> decide)
      obtain ⟨isText, resting⟩ := newRun_isText entry.state entry.step threadId
        (show plainText (some entry.runId) = true from runId) forked next
      exact text.admitSeeded isText resting source options.2 next
  | hostUpdate runId update options run index found accepted =>
      have member := List.mem_of_getElem? (findRun_place found).1
      have source : plainText (some (options.asNode.getD "host_update")) = true :=
        noNul_getD plain.1 (by decide)
      have isRun : Run.isText { run with
          state := (applyUpdate library graph.channels run.state update).2 } = true :=
        text.records.runs run member
      obtain ⟨entries, isText⟩ := addHistoryRecord_isText .host run.steps update
        text.records.entries isRun source plain.2 source (run_isText.mp isRun).2.2.2.2.2
      exact text.put isText (text.records.resting run member) entries
  | hostRefused runId update options run index found object refused =>
      have member := List.mem_of_getElem? (findRun_place found).1
      exact text.put (text.records.runs run member) (text.records.resting run member)
        text.records.entries
  | loadSnapshot document => exact text.load document

theorem IsText.rest {later : Graph World} (text : IsText graph) (rest : Rest graph later) :
    IsText later := by
  cases rest with
  | current threadIndex run member =>
      refine ⟨text.entryNode, text.channels, text.nodes, ?_, text.records.runs,
        text.records.resting, text.records.entries⟩
      intro thread among
      obtain ⟨index, place⟩ := List.getElem?_of_mem among
      obtain ⟨old, known, same⟩ := Option.map_eq_some_iff.mp (List.getElem?_modify .. ▸ place)
      have isThread := Bool.and_eq_true_iff.mp
        (text.records.threads old (List.mem_of_getElem? known))
      rw [← same]
      split
      next =>
        exact Bool.and_eq_true_iff.mpr
          ⟨isThread.1, (run_isText.mp (text.records.runs run member)).1⟩
      next => exact Bool.and_eq_true_iff.mpr isThread
  | complete index run place =>
      exact text.put (text.records.runs run (List.mem_of_getElem? place)) (fun both => by cases both.1)
        text.records.entries

theorem IsText.finish {index : Nat} {options : RunOptions} {node : String} {last : Execution World}
    {outcome : Outcome} (text : IsText graph) (place : graph.runs[index]? = some run)
    (isNode : noNul node = true)
    (ends : Loop.Ends (round library graph options) (executionFrom graph run options node)
      (last, outcome)) : IsText (finishRun graph index last) := by
  have member := List.mem_of_getElem? place
  have begins : (executionFrom graph run options node).IsText :=
    ⟨text.records.runs run member, text.records.resting run member, text.records.entries, isNode⟩
  have ended := begins.acts text.nodes (ends_acts ends)
  have put : IsText (putRun graph index last.run last.ledger) :=
    text.put ended.run ended.resting ended.entries
  exact ⟨put.entryNode, put.channels, put.nodes, put.records.of_same rfl rfl rfl⟩

theorem CallText.startNode {call : Call World} {options : RunOptions} (plain : CallText call)
    (given : call.runOptions = some options) : plainText options.startNode = true := by
  cases call with
  | start => exact Option.some.inj given ▸ plain.2
  | resume => exact Option.some.inj given ▸ plain
  | resumeFromHistory => exact Option.some.inj given ▸ plain.2.2
  | forkFromHistory => exact Option.some.inj given ▸ plain.2.2
  | _ => cases given

theorem Reached.isText (reached : Reached library (fun _ => CallText) graph) : IsText graph := by
  apply reached.invariant IsText
  · intro world
    refine ⟨rfl, ?_, ?_, ?_⟩
    · exact fun _ member => nomatch member
    · exact fun _ member => nomatch member
    · constructor <;> exact fun _ member => nomatch member
  · intro graph call first text plain opens
    exact text.opens plain opens
  · intro graph later text rest
    exact text.rest rest
  · intro graph call started index options run node last outcome text plain opened place chosen ends
    have opens : OpensTo library graph call (openCall library graph call) := openCall_opens call
    rw [opened] at opens
    have isRun := text.records.runs run (List.mem_of_getElem? place)
    have isNode : plainText (some node) = true := by
      rw [← chosen]
      exact plainText_orElse (plain.startNode opens.2.1) (run_isText.mp isRun).2.2.2.2.2
    exact text.finish place isNode ends

end

end TurboAgent.StateGraph
