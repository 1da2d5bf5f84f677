import TurboAgent.Provider.Sse
import TurboAgent.StateGraph.Alike
import TurboAgent.StateGraph.Texts

/-!
# Round trips

Loading what a graph writes gives its records to a graph that was built alike.  From then on every
sequence of calls is answered alike by the two graphs: what a snapshot leaves out decides nothing.
-/

namespace TurboAgent.StateGraph

open Logic
open Provider (JsonCodec knownCodec knownCodec_faithful)

section

variable {World : Type}

/-- The graph, in which other updates were merged before. -/
def Graph.preceded (graph : Graph World) (earlier : List Application) : Graph World :=
  { graph with applied := earlier ++ graph.applied }

/-- What a call opens with, when other updates were merged before. -/
def Opened.preceded (earlier : List Application) : Opened World → Opened World
  | .answered graph outcome => .answered (graph.preceded earlier) outcome
  | .running graph index options execution =>
      .running (graph.preceded earlier) index options
        { execution with applied := earlier ++ execution.applied }

variable (library : JsonLibrary)

/-- Calls one after the other, with what they are answered. -/
inductive Session : Graph World → List (Call World × Outcome) → Graph World → Prop where
  | done (graph : Graph World) : Session graph [] graph
  | call {graph middle after : Graph World} {call : Call World} {outcome : Outcome}
      {rest : List (Call World × Outcome)} (answers : Answers library graph call middle outcome)
      (session : Session middle rest after) : Session graph ((call, outcome) :: rest) after

end

/-! ## Openings -/

section

variable {World : Type} {library : JsonLibrary} {graph : Graph World} (earlier : List Application)

theorem addThreadRecord_preceded (requested : Option String) :
    addThreadRecord (graph.preceded earlier) requested =
      ((addThreadRecord graph requested).1.preceded earlier, (addThreadRecord graph requested).2) := by
  have found : ∀ id, findThread (graph.preceded earlier) id = findThread graph id := fun _ => rfl
  unfold addThreadRecord
  dsimp only
  split
  next => rfl
  next id =>
    rw [found]
    split
    next => rfl
    next => split <;> rfl

theorem executeRun_preceded {left : Graph World} {index : Nat} {run : Run} {options : RunOptions}
    (isLeft : left = graph.preceded earlier) :
    executeRun left index run options = (executeRun graph index run options).preceded earlier := by
  subst isLeft
  unfold executeRun
  dsimp only
  split <;> rfl

theorem start_preceded (threadId : Option String) (input : Option Json) (options : RunOptions) :
    start library (graph.preceded earlier) threadId input options =
      (start library graph threadId input options).preceded earlier := by
  unfold start
  rw [addThreadRecord_preceded, show (graph.preceded earlier).entryNode = graph.entryNode from rfl]
  cases options.startNode <|> graph.entryNode with
  | none => rfl
  | some startNode =>
      dsimp only
      rw [apply_ite (Opened.preceded earlier)]
      exact ite_congr rfl (fun _ => executeRun_preceded earlier rfl) fun _ => rfl

theorem resume_preceded (runId : String) (options : RunOptions) :
    resume (graph.preceded earlier) runId options =
      (resume graph runId options).preceded earlier := by
  have findsRun : findRun (graph.preceded earlier) runId = findRun graph runId := rfl
  have findsThread : ∀ id, findThread (graph.preceded earlier) id = findThread graph id :=
    fun _ => rfl
  unfold resume
  rw [findsRun]
  split
  next => rfl
  next run index _ =>
    rw [findsThread]
    split
    next => rfl
    split
    next => rfl
    next => exact executeRun_preceded earlier rfl

theorem updateState_preceded (runId : String) (update : Json) (options : HistoryOptions) :
    updateState library (graph.preceded earlier) runId update options =
      (updateState library graph runId update options).preceded earlier := by
  have findsRun : findRun (graph.preceded earlier) runId = findRun graph runId := rfl
  unfold updateState
  rw [findsRun]
  split
  next =>
    split
    next => rfl
    next run index _ =>
      dsimp only
      rw [apply_ite (Opened.preceded earlier)]
      rfl
  next => rfl

theorem branchFromHistory_preceded (entryId : String) (update : Option Json)
    (historyOptions : HistoryOptions) (runOptions : RunOptions) (makeCurrent : Bool)
    (sourceKind : SourceKind) :
    branchFromHistory library (graph.preceded earlier) entryId update historyOptions runOptions
        makeCurrent sourceKind =
      (branchFromHistory library graph entryId update historyOptions runOptions makeCurrent
        sourceKind).preceded earlier := by
  have findsRun : ∀ id, findRun (graph.preceded earlier) id = findRun graph id := fun _ => rfl
  have findsThread : ∀ id, findThread (graph.preceded earlier) id = findThread graph id :=
    fun _ => rfl
  -- the branch is executed if it has a node to go to
  have goesOn : ∀ (left admitted : Graph World) (run : Run) (index : Nat) (outcome : Outcome),
      left = admitted.preceded earlier → goOn left index run runOptions outcome =
        (goOn admitted index run runOptions outcome).preceded earlier := by
    intro left admitted run index outcome isLeft
    unfold goOn
    cases run.currentNode with
    | none => exact congrArg (Opened.answered · outcome) isLeft
    | some => exact executeRun_preceded earlier isLeft
  unfold branchFromHistory
  rw [show (graph.preceded earlier).ledger = graph.ledger from rfl]
  split
  next => rfl
  next entry _ =>
    rw [findsRun]
    split
    next => rfl
    rw [findsThread]
    split
    next => rfl
    dsimp only
    rw [apply_ite (Opened.preceded earlier)]
    refine ite_congr rfl (fun _ => ?_) fun _ => rfl
    apply goesOn
    cases makeCurrent <;> rfl

theorem loadSnapshot_preceded (document : Option Json) : ∃ later,
    loadSnapshot library (graph.preceded earlier) document =
      ((loadSnapshot library graph document).1,
        (loadSnapshot library graph document).2.preceded later) := by
  unfold loadSnapshot
  cases document with
  | none => exact ⟨earlier, rfl⟩
  | some root =>
      dsimp only
      split
      next topology runtime _ _ =>
        split
        next =>
          rw [show validateTopologySnapshot library (graph.preceded earlier) topology =
            validateTopologySnapshot library graph topology from rfl]
          split
          next =>
            split
            next =>
              refine ⟨[], ?_⟩
              unfold importRuntime
              split <;> rfl
            next => exact ⟨earlier, rfl⟩
          next => exact ⟨earlier, rfl⟩
        next => exact ⟨earlier, rfl⟩
      next => exact ⟨earlier, rfl⟩

theorem openCall_preceded (call : Call World) : ∃ later,
    openCall library (graph.preceded earlier) call =
      (openCall library graph call).preceded later := by
  cases call with
  | addChannel name config =>
      refine ⟨earlier, ?_⟩
      rw [openCall, openCall, addChannel, addChannel,
        show (graph.preceded earlier).channels = graph.channels from rfl]
      split
      next => rfl
      dsimp only
      split <;> rfl
  | addNode node =>
      refine ⟨earlier, ?_⟩
      rw [openCall, openCall, addNode, addNode,
        show (graph.preceded earlier).nodes = graph.nodes from rfl]
      split <;> rfl
  | addEdge source target predicate =>
      refine ⟨earlier, ?_⟩
      rw [openCall, openCall, addEdge, addEdge,
        show (graph.preceded earlier).nodes = graph.nodes from rfl]
      split <;> rfl
  | setEntry name =>
      refine ⟨earlier, ?_⟩
      rw [openCall, openCall, setEntry, setEntry,
        show (graph.preceded earlier).nodes = graph.nodes from rfl]
      split <;> rfl
  | start threadId input options => exact ⟨earlier, start_preceded earlier threadId input options⟩
  | resume runId options => exact ⟨earlier, resume_preceded earlier runId options⟩
  | updateState runId update options =>
      exact ⟨earlier, updateState_preceded earlier runId update options⟩
  | resumeFromHistory entryId update historyOptions runOptions =>
      exact ⟨earlier, branchFromHistory_preceded earlier _ _ _ _ _ _⟩
  | forkFromHistory entryId update historyOptions runOptions =>
      exact ⟨earlier, branchFromHistory_preceded earlier _ _ _ _ _ _⟩
  | loadSnapshot document =>
      obtain ⟨later, loaded⟩ := @loadSnapshot_preceded World library graph earlier document
      refine ⟨later, ?_⟩
      rw [openCall, openCall, loaded]
      rfl

end

/-! ## Calls -/

section

variable {World : Type} {library : JsonLibrary} {graph left right after : Graph World}
  {earlier : List Application} {options : RunOptions} {outcome : Outcome}
  {first second last : Execution World}

theorem preceded_topology (graph : Graph World) (earlier : List Application) :
    SameTopology (graph.preceded earlier) graph := ⟨rfl, rfl, rfl, rfl⟩

theorem preceded_goAlike (execution : Execution World) (earlier : List Application) :
    GoAlike earlier { execution with applied := earlier ++ execution.applied } execution :=
  ⟨⟨_, _, rfl, fun _ => rfl⟩, rfl⟩

theorem finishRun_alike {index : Nat}
    (alike : EndAlike earlier True (first, outcome) (second, outcome)) :
    finishRun (graph.preceded earlier) index first =
      (finishRun graph index second).preceded earlier := by
  obtain ⟨interrupted, latestHistory, isFirst, mark⟩ := alike.similar
  dsimp only at isFirst
  rw [isFirst, mark (.inl trivial)]
  rfl

theorem answers_preceded {call : Call World}
    (answers : Answers library (graph.preceded earlier) call left outcome) :
    ∃ right later, Answers library graph call right outcome ∧ left = right.preceded later := by
  obtain ⟨later, alike⟩ := @openCall_preceded World library graph earlier call
  cases answers with
  | answered opened =>
      rw [opened] at alike
      cases opening : openCall library graph call with
      | answered after given =>
          rw [opening] at alike
          obtain ⟨rfl, rfl⟩ := Opened.answered.inj alike
          exact ⟨after, later, .answered opening, rfl⟩
      | running => cases opening ▸ alike
  | ran opened ends =>
      rw [opened] at alike
      cases opening : openCall library graph call with
      | answered => cases opening ▸ alike
      | running started index given execution =>
          rw [opening] at alike
          obtain ⟨rfl, rfl, rfl, rfl⟩ := Opened.running.inj alike
          obtain ⟨⟨last, outcome⟩, ends, ending⟩ := ends.alike (preceded_goAlike execution later)
            fun _ _ => round_alike library (preceded_topology started later) _
          cases ending.outcome
          exact ⟨_, later, .ran opening ends, finishRun_alike ending⟩

theorem preceded_answers {call : Call World} (answers : Answers library graph call right outcome) :
    ∃ left later, Answers library (graph.preceded earlier) call left outcome ∧
      left = right.preceded later := by
  obtain ⟨later, alike⟩ := @openCall_preceded World library graph earlier call
  cases answers with
  | answered opened =>
      rw [opened] at alike
      exact ⟨_, later, .answered alike, rfl⟩
  | @ran started _ index given execution last _ opened ends =>
      rw [opened] at alike
      have flipped : ∀ right left, flip (GoAlike later) right left →
          Sum.LiftRel (flip (GoAlike later)) (flip (EndAlike later True))
            (round library started given right)
            (round library (started.preceded later) given left) :=
        fun _ _ going =>
          Loop.liftRel_flip (round_alike library (preceded_topology started later) _ going)
      obtain ⟨⟨first, outcome⟩, ends, ending⟩ :=
        ends.alike (preceded_goAlike execution later) flipped
      cases ending.outcome
      exact ⟨_, later, .ran alike ends, finishRun_alike ending⟩

theorem session_preceded {calls : List (Call World × Outcome)}
    (session : Session library left calls after) :
    ∀ {graph earlier}, left = Graph.preceded graph earlier →
      ∃ right later, Session library graph calls right ∧ after = right.preceded later := by
  induction session with
  | done left =>
      intro graph earlier isLeft
      exact ⟨graph, earlier, .done graph, isLeft⟩
  | call answers session ih =>
      intro graph earlier isLeft
      subst isLeft
      obtain ⟨middle, later, answered, isMiddle⟩ := answers_preceded answers
      obtain ⟨right, latest, rest, isAfter⟩ := ih isMiddle
      exact ⟨right, latest, .call answered rest, isAfter⟩

theorem preceded_session {calls : List (Call World × Outcome)}
    (session : Session library graph calls right) :
    ∀ earlier, ∃ left later, Session library (graph.preceded earlier) calls left ∧
      left = right.preceded later := by
  induction session with
  | done graph => exact fun earlier => ⟨_, earlier, .done _, rfl⟩
  | call answers session ih =>
      intro earlier
      obtain ⟨middle, later, answered, rfl⟩ := @preceded_answers _ _ _ _ earlier _ _ answers
      obtain ⟨left, latest, rest, isLeft⟩ := ih later
      exact ⟨left, latest, .call answered rest, isLeft⟩

/-- What a graph that calls came to writes can be loaded into a graph that was built alike.  This
graph has the threads, the runs, the history and the counters of the first one, and where callbacks
find the same world, every sequence of calls is answered by the one as it is by the other. -/
theorem serialize_loadSnapshot {fresh : Graph World} {labels : Labels} {codec : JsonCodec}
    (reached : Reached library (fun _ => CallText) graph)
    (codes : ∀ kind, Json.int64Min ≤ library.typeCode kind ∧ library.typeCode kind ≤ Json.int64Max)
    (sized : Sized graph) (same : SameTopology graph fresh)
    (reads : codec.parse (codec.serialize (serializeSnapshot library labels graph)).val =
      some (serializeSnapshot library labels graph)) :
    ∃ restored, loadSnapshot library fresh
        (codec.parse (codec.serialize (serializeSnapshot library labels graph)).val) =
          (.ok, restored) ∧
      restored.threads = graph.threads ∧ restored.runs = graph.runs ∧
        restored.ledger = graph.ledger ∧ restored.nextThreadId = graph.nextThreadId ∧
          restored.nextRunId = graph.nextRunId ∧
      (fresh.world = graph.world → ∀ calls,
        (∀ after, Session library graph calls after → ∃ later, Session library restored calls later ∧
          later = { after with applied := later.applied }) ∧
        ∀ later, Session library restored calls later → ∃ after, Session library graph calls after ∧
          later = { after with applied := later.applied }) := by
  have isText := reached.isText
  have text : TopologyText library graph :=
    ⟨codes, isText.channels, fun node member => (isText.nodes node member).name⟩
  refine ⟨{ graph with world := fresh.world, applied := [] }, ?_, rfl, rfl, rfl, rfl, rfl, ?_⟩
  · rw [reads]
    exact loadSnapshot_serialize text same isText.records sized
  · intro sameWorld calls
    let restored : Graph World := { graph with world := fresh.world, applied := [] }
    have isGraph : graph = restored.preceded graph.applied := by
      simp [restored, Graph.preceded, sameWorld]
    constructor
    · intro after session
      obtain ⟨later, earlier, answered, rfl⟩ := session_preceded session isGraph
      exact ⟨later, answered, rfl⟩
    · intro later session
      obtain ⟨after, earlier, answered, isAfter⟩ := preceded_session session graph.applied
      rw [← isGraph] at answered
      refine ⟨after, answered, ?_⟩
      rw [isAfter]
      rfl

/-- The snapshot of a run that was executed. -/
theorem serialize_loadSnapshot_sample : ∃ (graph restored : Graph Unit) (codec : JsonCodec),
    Reached sampleLibrary (fun _ => CallText) graph ∧
      graph.ledger.entries.map HistoryEntry.id = ["history-1", "history-2"] ∧
        loadSnapshot sampleLibrary loggingGraph (codec.parse (codec.serialize
          (serializeSnapshot sampleLibrary ⟨none, fun _ => none⟩ graph)).val) = (.ok, restored) ∧
            restored.ledger = graph.ledger := by
  let calls : List (Call Unit) := loggingCalls ++ [.start none none noOptions]
  let labels : Labels := ⟨none, fun _ => none⟩
  obtain ⟨graph, performed, ids, sized, same, plain⟩ : ∃ graph,
      performAll sampleLibrary 1 (create ()) calls = some graph ∧
        graph.ledger.entries.map HistoryEntry.id = ["history-1", "history-2"] ∧ Sized graph ∧
          SameTopology graph loggingGraph ∧
            (Provider.render (serializeSnapshot sampleLibrary labels graph)).contains '\x00' = false := by
    refine ⟨_, rfl, by decide, ⟨by decide, by decide, by decide, by decide, by decide, by decide⟩,
      ⟨rfl, rfl, rfl, rfl⟩, by decide +kernel⟩
  have allowed : ∀ call ∈ calls, ∀ graph : Graph Unit, CallText call := by
    have name : noNul "log" = true ∧ noNul "a" = true := by decide
    have node : loggingNode.IsText := ⟨name.2, fun _ _ _ => rfl⟩
    simp [calls, loggingCalls, CallText, name, node, plainText, noOptions]
  have reached : Reached sampleLibrary (fun _ => CallText) graph :=
    (Reached.created ()).performAll allowed performed
  let document := serializeSnapshot sampleLibrary labels graph
  have reads : (knownCodec [document]).parse ((knownCodec [document]).serialize document).val =
      some document := knownCodec_faithful _ _ plain (by simp)
  obtain ⟨restored, loaded, _, _, ledger, _⟩ := serialize_loadSnapshot reached
    (by intro kind; cases kind <;> decide) sized same reads
  exact ⟨graph, restored, knownCodec [document], reached, ids, loaded, ledger⟩

end

end TurboAgent.StateGraph
