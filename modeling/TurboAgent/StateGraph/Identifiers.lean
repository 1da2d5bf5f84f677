import TurboAgent.StateGraph.Serialize
import TurboAgent.StateGraph.Steps

/-!
# Identifiers

Runs, history entries and checkpoints are numbered by counters that only grow, so that no two
have one identifier.  Threads are numbered, too, but their callers may name them, and a name is
not compared with the numbers that are still to come.
-/

namespace TurboAgent.StateGraph

open Logic Relation

theorem makeId_injective (label : String) : Function.Injective (makeId label) := by
  intro left right same
  have chars := congrArg String.toList same
  simp only [makeId, String.toList_append, List.append_cancel_left_eq] at chars
  exact Nat.repr_injective (String.toList_inj.mp chars)

/-- Distinct identifiers that are numbered up to a counter. -/
structure Numbered (label : String) (counter : Nat) (ids : List String) : Prop where
  numbers : ∀ id ∈ ids, ∃ number, number ≤ counter ∧ id = makeId label number
  distinct : ids.Nodup

section

variable {label : String} {counter : Nat} {ids : List String}

theorem Numbered.nil : Numbered label counter [] where
  numbers _ member := nomatch member
  distinct := List.nodup_nil

theorem Numbered.fresh (numbered : Numbered label counter ids) :
    makeId label (counter + 1) ∉ ids := by
  intro member
  obtain ⟨number, known, same⟩ := numbered.numbers _ member
  have equal : counter + 1 = number := makeId_injective label same
  exact absurd known (by omega)

theorem Numbered.next (numbered : Numbered label counter ids) :
    Numbered label (counter + 1) (ids ++ [makeId label (counter + 1)]) where
  numbers id member := by
    rcases List.mem_append.mp member with old | new
    · obtain ⟨number, known, same⟩ := numbered.numbers id old
      exact ⟨number, Nat.le_succ_of_le known, same⟩
    · exact ⟨counter + 1, Nat.le_refl _, List.mem_singleton.mp new⟩
  distinct := Lists.nodup_snoc numbered.distinct numbered.fresh

end

structure Ledger.Identified (ledger : Ledger) : Prop where
  history : Numbered "history" ledger.nextHistoryId (ledger.entries.map HistoryEntry.id)
  checkpoints : Numbered "checkpoint" ledger.nextCheckpointId
    (ledger.entries.map HistoryEntry.checkpointId)

/-- All records of a graph have identifiers of their own. -/
structure Identified {World : Type} (graph : Graph World) : Prop where
  threads : (graph.threads.map Thread.id).Nodup
  runs : Numbered "run" graph.nextRunId (graph.runs.map Run.id)
  ledger : graph.ledger.Identified

/-- The records of a document have identifiers of their own, numbered up to the counters of the
document. -/
structure DocumentIdentified (runtime : Json) : Prop where
  threads : ∀ records threads, runtime.field "threads" = some records →
    importRecords importThread records = .ok threads → (threads.map Thread.id).Nodup
  runs : ∀ records runs, runtime.field "runs" = some records →
    importRecords importRun records = .ok runs →
      Numbered "run" (asSize (runtime.field "next_run_id")) (runs.map Run.id)
  history : ∀ records entries, runtime.field "history" = some records →
    importRecords importHistoryEntry records = .ok entries →
      Ledger.Identified ⟨entries, asSize (runtime.field "next_history_id"),
        asSize (runtime.field "next_checkpoint_id")⟩

section

variable {World : Type} (graph : Graph World)

/-- A thread that is made up gets a name that no caller gave to a thread before, and documents
that are loaded have identifiers of their own. -/
def CallIdentifies : Call World → Prop
  | .start threadId _ _ => threadId.getD "" = "" →
      makeId "thread" (graph.nextThreadId + 1) ∉ graph.threads.map Thread.id
  | .loadSnapshot document => ∀ root runtime, document = some root →
      root.field "runtime" = some runtime → DocumentIdentified runtime
  | _ => True

/-- The identifiers of a kind are pairwise distinct. -/
structure DistinctIds : Prop where
  threads : (graph.threads.map Thread.id).Nodup
  runs : (graph.runs.map Run.id).Nodup
  history : (graph.ledger.entries.map HistoryEntry.id).Nodup
  checkpoints : (graph.ledger.entries.map HistoryEntry.checkpointId).Nodup

/-- A start that creates a thread does not attach its run to a thread that was there. -/
def RunsApart : Call World → Graph World → Prop
  | .start _ _ _, after => graph.threads.length < after.threads.length →
      ∀ run ∈ after.runs.drop graph.runs.length, run.threadId ∉ graph.threads.map Thread.id
  | _, _ => True

end

section

variable {World : Type} {library : JsonLibrary} {graph : Graph World}

/-! ## Histories -/

theorem addHistoryRecord_identified {ledger : Ledger} (identified : ledger.Identified) (run : Run)
    (sourceKind : SourceKind) (sourceName reason lastNode nextNode : Option String) (step : Nat)
    (update : Json) :
    (addHistoryRecord ledger run sourceKind sourceName reason lastNode nextNode step
      update).1.Identified := by
  constructor
  · rw [addHistoryRecord_entries, List.map_append]
    exact identified.history.next
  · rw [addHistoryRecord_entries, List.map_append]
    exact identified.checkpoints.next

theorem acts_identified {before after : Execution World} (identified : before.ledger.Identified)
    (acts : Acts library graph before after) : after.ledger.Identified := by
  induction acts with
  | refl => exact identified
  | tail _ act ih =>
      cases act with
      | world => exact ih
      | skip => exact ih
      | merge => exact ih
      | note => exact ih
      | record => exact addHistoryRecord_identified ih _ _ _ _ _ _ _ _
      | move _ moves => exact moves.ledger ▸ ih

section

variable (library graph) (run : Run) (sourceKind : SourceKind) (sourceName : String)
variable (reason : Option String) (update : Option Json) (nextNode : Option String) (step : Nat)

theorem seedRun_same :
    let seeded := (seedRun library graph run sourceKind sourceName reason update nextNode
      step).2.2.1
    seeded.id = run.id ∧ seeded.threadId = run.threadId := by
  unfold seedRun
  dsimp only
  split
  next => split <;> exact ⟨rfl, rfl⟩
  next => exact ⟨rfl, rfl⟩

theorem seedRun_identified (identified : graph.ledger.Identified) :
    (seedRun library graph run sourceKind sourceName reason update nextNode
      step).2.1.Identified := by
  unfold seedRun
  dsimp only
  split
  next =>
    split
    next => exact addHistoryRecord_identified identified _ _ _ _ _ _ _ _
    next => exact identified
  next => exact identified

end

/-! ## Calls -/

variable {run : Run}

theorem Identified.admitSeeded (identified : Identified graph)
    (isNew : run.id = makeId "run" (graph.nextRunId + 1)) (sourceKind : SourceKind)
    (sourceName : String) (reason : Option String) (update : Option Json) (nextNode : Option String)
    (step : Nat) :
    Identified (admitSeeded library graph run sourceKind sourceName reason update nextNode
      step) where
  threads := identified.threads
  runs := by
    have same := (seedRun_same library graph run sourceKind sourceName reason update nextNode
      step).1
    have ids : (StateGraph.admitSeeded library graph run sourceKind sourceName reason update
        nextNode step).runs.map Run.id =
          graph.runs.map Run.id ++ [makeId "run" (graph.nextRunId + 1)] := by
      rw [StateGraph.admitSeeded, admitRun, List.map_append, List.map_singleton, same, isNew]
    rw [ids]
    exact identified.runs.next
  ledger := seedRun_identified _ _ _ _ _ _ _ _ _ identified.ledger

theorem addThreadRecord_apart {requested : Option String} (free : requested.getD "" = "" →
      makeId "thread" (graph.nextThreadId + 1) ∉ graph.threads.map Thread.id) :
    let added := addThreadRecord graph requested
    added.1.threads = graph.threads ∨
      added.1.threads.map Thread.id = graph.threads.map Thread.id ++ [added.2.2] ∧
        added.2.2 ∉ graph.threads.map Thread.id := by
  unfold addThreadRecord
  dsimp only
  split
  next => exact .inr ⟨by rw [List.map_append]; rfl, free rfl⟩
  next id =>
    split
    next blank => exact .inr ⟨by rw [List.map_append]; rfl, free blank⟩
    split
    next => exact .inl rfl
    next unknown =>
      refine .inr ⟨by rw [List.map_append]; rfl, ?_⟩
      intro member
      obtain ⟨thread, among, same⟩ := List.mem_map.mp member
      obtain ⟨index, place⟩ := List.getElem?_of_mem among
      have none := List.find?_eq_none.mp unknown (thread, index)
        (List.mem_zipIdx_iff_getElem?.mpr place)
      exact none (beq_iff_eq.mpr same)

theorem Identified.addThread {requested : Option String} (identified : Identified graph)
    (free : requested.getD "" = "" →
      makeId "thread" (graph.nextThreadId + 1) ∉ graph.threads.map Thread.id) :
    Identified (addThreadRecord graph requested).1 := by
  obtain ⟨_, _, _, runs, ledger, next, _⟩ := addThreadRecord_same graph requested
  constructor
  · rcases addThreadRecord_apart free with same | ⟨ids, fresh⟩
    · rw [same]
      exact identified.threads
    · rw [ids]
      exact Lists.nodup_snoc identified.threads fresh
  · rw [runs, next]
    exact identified.runs
  · rw [ledger]
    exact identified.ledger

theorem Identified.put {later : Run} {index : Nat} {ledger : Ledger} (identified : Identified graph)
    (place : graph.runs[index]? = some run) (id : later.id = run.id)
    (ledgerIdentified : ledger.Identified) : Identified (putRun graph index later ledger) where
  threads := identified.threads
  runs := by
    have ids : (putRun graph index later ledger).runs.map Run.id = graph.runs.map Run.id :=
      Lists.map_set_same place id
    rw [ids]
    exact identified.runs
  ledger := ledgerIdentified

theorem identified_cleared : Identified (clearRuntimeState graph) where
  threads := List.nodup_nil
  runs := .nil
  ledger := ⟨.nil, .nil⟩

theorem Identified.load {document : Option Json} (identified : Identified graph)
    (documented : CallIdentifies graph (.loadSnapshot document)) :
    Identified (loadSnapshot library graph document).2 := by
  refine loadSnapshot_keeps Identified identified identified_cleared ?_
  intro root runtime _ _ _ _ _ _ isRoot isRuntime isThreads readThreads isRuns readRuns isHistory
    readHistory
  have loaded := documented root runtime isRoot isRuntime
  exact ⟨loaded.threads _ _ isThreads readThreads, loaded.runs _ _ isRuns readRuns,
    loaded.history _ _ isHistory readHistory⟩

variable {call : Call World}

theorem Identified.opens {first : Graph World} (identified : Identified graph)
    (identifies : CallIdentifies graph call) (opens : Opens library graph call first) :
    Identified first := by
  cases opens with
  | unchanged => exact identified
  | addChannel => exact ⟨identified.threads, identified.runs, identified.ledger⟩
  | addNode => exact ⟨identified.threads, identified.runs, identified.ledger⟩
  | addEdge => exact ⟨identified.threads, identified.runs, identified.ledger⟩
  | setEntry => exact ⟨identified.threads, identified.runs, identified.ledger⟩
  | start threadId input options startNode chosen =>
      exact (identified.addThread identifies).admitSeeded rfl _ _ _ _ _ _
  | branch _ entryId update historyOptions sourceKind entry branches found =>
      exact identified.admitSeeded rfl _ _ _ _ _ _
  | hostUpdate runId update options run index found accepted =>
      exact identified.put (findRun_place found).1 rfl
        (addHistoryRecord_identified identified.ledger _ _ _ _ _ _ _ _)
  | hostRefused runId update options run index found object refused =>
      exact identified.put (findRun_place found).1 rfl identified.ledger
  | loadSnapshot document => exact identified.load identifies

theorem setCurrentRun_ids (threadIndex : Nat) (runId : String) :
    (setCurrentRun graph threadIndex runId).threads.map Thread.id = graph.threads.map Thread.id := by
  unfold setCurrentRun
  apply Lists.map_modify_same
  intro thread
  rfl

variable {later : Graph World}

theorem Identified.rest (identified : Identified graph) (rest : Rest graph later) :
    Identified later := by
  cases rest with
  | current threadIndex run member =>
      refine ⟨?_, identified.runs, identified.ledger⟩
      rw [setCurrentRun_ids]
      exact identified.threads
  | complete index run place => exact identified.put place rfl identified.ledger

variable {outcome : Outcome}

theorem Identified.finish {index : Nat} {options : RunOptions} {node : String}
    {last : Execution World} (identified : Identified graph) (place : graph.runs[index]? = some run)
    (ends : Loop.Ends (round library graph options) (executionFrom graph run options node)
      (last, outcome)) : Identified (finishRun graph index last) := by
  have acts := ends_acts ends
  have put := identified.put place (Follows.of_acts acts).id
    (acts_identified identified.ledger acts)
  exact ⟨put.threads, put.runs, put.ledger⟩

theorem Reached.identified (reached : Reached library CallIdentifies graph) :
    Identified graph := by
  apply reached.invariant Identified
  · intro world
    exact ⟨List.nodup_nil, .nil, .nil, .nil⟩
  · intro graph call first identified identifies opens
    exact identified.opens identifies opens
  · intro graph later identified rest
    exact identified.rest rest
  · intro graph call started index options run node last outcome identified _ _ place _ ends
    exact identified.finish place ends

/-! ## Threads of new runs -/

structure SameThreads (before after : Graph World) : Prop where
  threads : after.threads.map Thread.id = before.threads.map Thread.id
  runs : after.runs.map Run.threadId = before.runs.map Run.threadId

variable {after : Graph World}

theorem SameThreads.trans {before middle : Graph World} (left : SameThreads before middle)
    (right : SameThreads middle after) : SameThreads before after :=
  ⟨right.threads.trans left.threads, right.runs.trans left.runs⟩

theorem SameThreads.of_rest (rest : Rest graph later) : SameThreads graph later := by
  cases rest with
  | current threadIndex run member => exact ⟨setCurrentRun_ids _ _, rfl⟩
  | complete index run place => exact ⟨rfl, Lists.map_set_same place rfl⟩

theorem SameThreads.of_rests (rests : ReflTransGen Rest graph later) : SameThreads graph later := by
  induction rests with
  | refl => exact ⟨rfl, rfl⟩
  | tail _ rest ih => exact ih.trans (.of_rest rest)

theorem answers_sameThreads (answers : Answers library graph call after outcome) :
    ∃ first, Opens library graph call first ∧ SameThreads first after := by
  have opened : OpensTo library graph call (openCall library graph call) := openCall_opens call
  cases answers with
  | answered isOpened =>
      rw [isOpened] at opened
      obtain ⟨first, opens, rests⟩ := opened
      exact ⟨first, opens, .of_rests rests⟩
  | ran isOpened ends =>
      rw [isOpened] at opened
      obtain ⟨⟨first, opens, rests⟩, _, run, node, place, _, rfl⟩ := opened
      have follows := Follows.of_acts (ends_acts ends)
      exact ⟨first, opens, (SameThreads.of_rests rests).trans
        ⟨rfl, Lists.map_set_same place follows.threadId⟩⟩

theorem runsApart (identifies : CallIdentifies graph call)
    (answers : Answers library graph call after outcome) : RunsApart graph call after := by
  cases call with
  | start threadId input options =>
      obtain ⟨first, opens, same⟩ := answers_sameThreads answers
      have count : after.threads.length = first.threads.length := by
        simpa using congrArg List.length same.threads
      intro created run member
      rw [count] at created
      cases opens with
      | unchanged => exact absurd created (Nat.lt_irrefl _)
      | branch _ _ _ _ _ _ branches => cases branches
      | start _ _ _ startNode chosen =>
          let added := addThreadRecord graph threadId
          obtain ⟨_, _, _, runs, _, _, _⟩ := addThreadRecord_same graph threadId
          have threads : (admitStart library graph threadId input startNode).threads =
              added.1.threads := rfl
          rcases addThreadRecord_apart identifies with kept | ⟨_, fresh⟩
          · rw [threads, kept] at created
            exact absurd created (Nat.lt_irrefl _)
          · have ids : after.runs.map Run.threadId =
                graph.runs.map Run.threadId ++ [added.2.2] := by
              rw [same.runs, admitStart, admitSeeded, admitRun, List.map_append,
                List.map_singleton, (seedRun_same _ _ _ _ _ _ _ _ _).2, runs]
              rfl
            have own : run.threadId ∈ (after.runs.map Run.threadId).drop graph.runs.length := by
              rw [← List.map_drop]
              exact List.mem_map_of_mem member
            rw [ids, List.drop_left' (List.length_map _)] at own
            rw [List.mem_singleton.mp own]
            exact fresh
  | _ => trivial

end

end TurboAgent.StateGraph
