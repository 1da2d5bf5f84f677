import TurboAgent.StateGraph.Alike
import TurboAgent.StateGraph.Identifiers

/-!
# Resumption

An execution that stops at a step limit or at an interrupt leaves in its run where it stopped.
Resuming the run goes on from there, so that the calls together execute the run as one call
without limits and interrupts does, up to the mark that an interrupt leaves in the run: a round
that fails does not take it away.
-/

namespace TurboAgent.StateGraph

open Logic
open Execution (likened result)

/-- The call stopped before a node, at a step limit or at an interrupt. -/
def Outcome.Suspended (outcome : Outcome) : Prop :=
  ∃ result, outcome.result = some result ∧
    (result.status = .stepLimit ∨ result.status = .interrupted)

section

variable {World : Type} (library : JsonLibrary) (graph : Graph World) (threadId : Option String)
  (input : Option Json) (startNode : Option String)

/-- Consecutive calls that execute one run: a start, and resumes of its run, which is the last one
of the graph, where it stopped. -/
inductive Split : Graph World → Outcome → Prop where
  | start {after : Graph World} {outcome : Outcome} {options : RunOptions}
      (chosen : options.startNode = startNode)
      (answers : Answers library graph (.start threadId input options) after outcome) :
      Split after outcome
  | resume {before after : Graph World} {pending outcome : Outcome} {run : Run}
      {options : RunOptions} (split : Split before pending) (suspended : pending.Suspended)
      (found : findRun before run.id = some (run, graph.runs.length))
      (onwards : options.startNode = none ∨ options.startNode = run.currentNode)
      (answers : Answers library before (.resume run.id options) after outcome) :
      Split after outcome

/-- The last call is a resume after an interrupt, and its first round fails. -/
def FailsAfterInterrupt (after : Graph World) (outcome : Outcome) : Prop :=
  ∃ before pending run options started execution last,
    Split library graph threadId input startNode before pending ∧
      pending.result.map RunResult.status = some .interrupted ∧
      findRun before run.id = some (run, graph.runs.length) ∧
      openCall library before (.resume run.id options) =
        .running started graph.runs.length options execution ∧
      round library started options execution = .inr (last, outcome) ∧
      outcome.result = none ∧ after = finishRun started graph.runs.length last

/-- Graphs with the same runs, up to the marks of interrupts, and the same history. -/
structure Coincide (left right : Graph World) : Prop where
  ledger : left.ledger = right.ledger
  world : left.world = right.world
  applied : left.applied = right.applied
  runs : left.runs.map (fun run => { run with interrupted := false }) =
    right.runs.map fun run => { run with interrupted := false }

end

/-! ## Executions without limits -/

section

variable {World : Type} {library : JsonLibrary} {graph other : Graph World}
  {execution left right first last : Execution World} {outcome : Outcome}
  {options whole : RunOptions}

/-- The run of an execution says where the execution is. -/
structure Steady (execution : Execution World) : Prop where
  node : execution.run.currentNode = some execution.currentNode
  steps : execution.run.steps = execution.steps
  completed : execution.run.completed = false
  interrupted : execution.run.interrupted = false

/-- A round goes on with a steady execution, or ends it. -/
def RoundSteady : Round World → Prop
  | .inl after => Steady after
  | .inr (_, outcome) => ¬outcome.Suspended

theorem concludeRound_steady (node : Node World) (called : Called World) (next : Option String) :
    RoundSteady (concludeRound node called next execution) := by
  unfold concludeRound
  dsimp only
  split
  next =>
    rintro ⟨result, isResult, status⟩
    cases isResult
    simp [result] at status
  cases next with
  | some next => exact ⟨rfl, rfl, rfl, rfl⟩
  | none =>
      rintro ⟨result, isResult, status⟩
      cases isResult
      simp [result] at status

theorem failRound_steady (status : Status) : RoundSteady (failRound execution status) := by
  rintro ⟨result, isResult, _⟩
  cases isResult

theorem settleCall_steady (node : Node World) (index : Nat) (called : Called World) :
    RoundSteady (settleCall library graph node index called execution) := by
  unfold settleCall
  split
  next =>
    dsimp only
    split
    next =>
      split
      next =>
        split
        next next _ => exact concludeRound_steady node called next
        next => exact failRound_steady _
      next => exact failRound_steady _
    next => exact failRound_steady _
  next => exact failRound_steady _

theorem advance_steady : RoundSteady (advance library graph execution) := by
  unfold advance
  split
  next => exact failRound_steady _
  next node index _ => exact settleCall_steady node index _

theorem proceeds_noOptions (execution : Execution World) : Proceeds noOptions execution :=
  ⟨fun limited => absurd limited.1 (Nat.lt_irrefl 0), by simp [shouldInterruptBefore, noOptions]⟩

theorem Proceeds.round_eq (proceeds : Proceeds options execution) :
    round library graph options execution = round library graph noOptions execution := by
  rw [round_proceeds proceeds, round_proceeds (proceeds_noOptions execution)]

theorem round_noOptions_steady : RoundSteady (round library graph noOptions execution) := by
  rw [round_proceeds (proceeds_noOptions execution)]
  exact advance_steady

theorem round_skip (skip : Bool) :
    round library graph noOptions { execution with skipInitialInterrupt := skip } =
      round library graph noOptions execution := by
  rw [round_proceeds (proceeds_noOptions _), round_proceeds (proceeds_noOptions _)]

variable {result : Execution World × Outcome}

theorem ends_skip (skip : Bool) (ends : Loop.Ends (round library graph noOptions) execution result) :
    Loop.Ends (round library graph noOptions) { execution with skipInitialInterrupt := skip }
      result := by
  rcases ends.cases with last | ⟨next, goesOn, rest⟩
  · exact .done ((round_skip skip).trans last)
  · exact .step ((round_skip skip).trans goesOn) rest

theorem ends_unlimited (ends : Loop.Ends (round library graph noOptions) execution result) :
    ∃ bound, ∀ (whole : RunOptions) (skip : Bool), whole.interruptBeforeNodes = [] →
      (whole.maxSteps = 0 ∨ bound ≤ whole.maxSteps) →
        Loop.Ends (round library graph whole) { execution with skipInitialInterrupt := skip }
          result := by
  have unlimited : ∀ (execution : Execution World) (whole : RunOptions) (skip : Bool),
      whole.interruptBeforeNodes = [] →
        (whole.maxSteps = 0 ∨ execution.steps + 1 ≤ whole.maxSteps) →
          round library graph whole { execution with skipInitialInterrupt := skip } =
            round library graph noOptions execution := by
    intro execution whole skip noInterrupts limit
    rw [← round_skip skip]
    apply Proceeds.round_eq
    refine ⟨?_, by simp [shouldInterruptBefore, noInterrupts]⟩
    change ¬(0 < whole.maxSteps ∧ whole.maxSteps ≤ execution.steps)
    omega
  refine Loop.Ends.induct (motive := fun execution => ∃ bound, ∀ (whole : RunOptions)
    (skip : Bool), whole.interruptBeforeNodes = [] → (whole.maxSteps = 0 ∨ bound ≤ whole.maxSteps) →
      Loop.Ends (round library graph whole) { execution with skipInitialInterrupt := skip } result)
        ?_ ?_ ends
  · intro execution last
    refine ⟨execution.steps + 1, fun whole skip noInterrupts limit => ?_⟩
    exact .done ((unlimited execution whole skip noInterrupts limit).trans last)
  · intro execution next first ⟨bound, ends⟩
    refine ⟨max (execution.steps + 1) bound, fun whole skip noInterrupts limit => ?_⟩
    have goesOn := (unlimited execution whole skip noInterrupts (by omega)).trans first
    exact .step goesOn (ends whole next.skipInitialInterrupt noInterrupts (by omega))

theorem ends_free (ends : Loop.Ends (round library graph whole) execution (last, outcome))
    (ended : ¬outcome.Suspended) :
    Loop.Ends (round library graph noOptions) execution (last, outcome) := by
  have proceeds : ∀ execution, round library graph whole execution = .inr (last, outcome) →
      Proceeds whole execution := by
    intro execution done
    by_contra stops
    rw [round_suspends stops] at done
    cases done
    refine ended ⟨_, rfl, ?_⟩
    simp only [result]
    split <;> simp
  refine Loop.Ends.induct (motive := fun execution =>
    Loop.Ends (round library graph noOptions) execution (last, outcome)) ?_ ?_ ends
  · intro execution done
    exact .done ((proceeds execution done).round_eq.symm.trans done)
  · intro execution next goesOn ih
    refine .step (Proceeds.round_eq ?_ |>.symm.trans goesOn) ih
    by_contra stops
    rw [round_suspends stops] at goesOn
    cases goesOn

/-! ## Executions of parts -/

/-- The execution of a call keeps up with one without limits.  Their marks may differ as long as
no node was called. -/
structure Tracks (begun : Execution World) (marked : Prop) (left right : Execution World) :
    Prop where
  similar : Similar [] (left = begun → marked) { left with skipInitialInterrupt := false }
    { right with skipInitialInterrupt := false }
  steady : Steady right

/-- A call stopped where an execution without limits is. -/
structure StopsAt (last stopped : Execution World) (interrupted : Bool) : Prop where
  ledger : last.ledger = stopped.ledger
  world : last.world = stopped.world
  applied : last.applied = stopped.applied
  run : last.run = { stopped.run with interrupted }
  steady : Steady stopped

variable {begun : Execution World} {marked : Prop}

theorem Tracks.rounds (same : SameTopology graph other) (tracks : Tracks begun marked left right)
    (proceeds : Proceeds options left) :
    RoundsAlike [] (left = begun → marked) (round library graph options left)
      (round library other noOptions right) := by
  rw [round_proceeds proceeds, round_proceeds (proceeds_noOptions right)]
  exact advance_alike library same tracks.similar

theorem proceeds_of_goesOn {next : Execution World}
    (goesOn : round library graph options execution = .inl next) :
    Proceeds options execution := by
  by_contra stops
  rw [round_suspends stops] at goesOn
  cases goesOn

theorem Tracks.goesOn {next : Execution World} (same : SameTopology graph other)
    (tracks : Tracks begun marked left right)
    (goesOn : round library graph options left = .inl next) :
    ∃ next', round library other noOptions right = .inl next' ∧ Tracks begun marked next next' := by
  have alike : RoundsAlike [] (left = begun → marked) (round library graph options left)
      (round library other noOptions right) := tracks.rounds same (proceeds_of_goesOn goesOn)
  have steady : RoundSteady (round library other noOptions right) := round_noOptions_steady
  rw [goesOn] at alike
  cases round' : round library other noOptions right with
  | inl next' =>
      rw [round'] at alike steady
      cases alike with
      | inl going =>
          exact ⟨next', rfl, going.similar.skipped.mono fun _ => trivial, steady⟩
  | inr ended =>
      rw [round'] at alike
      cases alike

theorem Tracks.stops (tracks : Tracks begun marked left right) :
    StopsAt (suspend options left).1 right
      ((suspend options left).2.result.map RunResult.status == some .interrupted) := by
  obtain ⟨⟨interrupted, latestHistory, same, _⟩, steady⟩ := tracks
  obtain ⟨leftLedger, leftRun, leftWorld, leftApplied, leftNode, leftSteps, leftSkip, leftLatest⟩ :=
    left
  simp only [likened, List.nil_append, Execution.mk.injEq, true_and] at same
  obtain ⟨rfl, rfl, rfl, rfl, rfl, rfl, rfl⟩ := same
  refine ⟨rfl, rfl, rfl, ?_, steady⟩
  simp [suspend, result, ← steady.node, ← steady.completed]

/-- A call ends as the execution without limits does, or stops where that execution comes to. -/
theorem Tracks.ends (same : SameTopology graph other) (tracks : Tracks left marked left right)
    (ends : Loop.Ends (round library graph options) left (last, outcome)) :
    (∃ last', Loop.Ends (round library other noOptions) right (last', outcome) ∧
      ¬outcome.Suspended ∧ (Similar [] True last last' ∨ Similar [] False last last' ∧
        ¬marked ∧ round library graph options left = .inr (last, outcome) ∧
          outcome.result = none)) ∨
    ∃ stopped, Loop.Visits (round library other noOptions) right stopped ∧ outcome.Suspended ∧
      StopsAt last stopped (outcome.result.map RunResult.status == some .interrupted) := by
  have follows : ∃ later later', round library graph options later = .inr (last, outcome) ∧
      Tracks left marked later later' ∧
        Loop.Visits (round library other noOptions) right later' :=
    ends.follow tracks fun _ _ _ tracks goesOn => tracks.goesOn same goesOn
  obtain ⟨later, later', done, tracks, visits⟩ := follows
  by_cases proceeds : Proceeds options later
  · have alike : RoundsAlike [] (later = left → marked) (round library graph options later)
        (round library other noOptions later') := tracks.rounds same proceeds
    have steady : RoundSteady (round library other noOptions later') := round_noOptions_steady
    rw [done] at alike
    cases round' : round library other noOptions later' with
    | inl next =>
        rw [round'] at alike
        cases alike
    | inr ended =>
        obtain ⟨last', outcome'⟩ := ended
        rw [round'] at alike steady
        cases alike with
        | inr ending =>
            cases ending.outcome
            refine .inl ⟨last', visits.ends (.done round'), steady, ?_⟩
            by_cases equal : (later = left → marked) ∨ outcome.result ≠ none
            · exact .inl (ending.similar.mono fun _ => equal)
            · rw [not_or, Classical.not_imp, not_not] at equal
              obtain ⟨⟨rfl, unmarked⟩, failed⟩ := equal
              exact .inr ⟨ending.similar.mono False.elim, unmarked, done, failed⟩
  · rw [round_suspends proceeds] at done
    cases done
    refine .inr ⟨later', visits, ⟨_, rfl, ?_⟩, tracks.stops⟩
    simp only [result]
    split <;> simp

theorem Tracks.returns (same : SameTopology graph other) (tracks : Tracks begun marked left right)
    (ends : Loop.Ends (round library other noOptions) right result) :
    ∃ result, Loop.Ends (round library graph options) left result := by
  revert left
  refine Loop.Ends.induct (motive := fun right => ∀ {left}, Tracks begun marked left right →
    ∃ result, Loop.Ends (round library graph options) left result) ?_ ?_ ends
  · intro right done left tracks
    cases goesOn : round library graph options left with
    | inl next =>
        obtain ⟨next', round', _⟩ := tracks.goesOn same goesOn
        rw [done] at round'
        cases round'
    | inr result => exact ⟨result, .done goesOn⟩
  · intro right next' round' ih left tracks
    cases goesOn : round library graph options left with
    | inl next =>
        obtain ⟨other, round'', tracks⟩ := tracks.goesOn same goesOn
        rw [round'] at round''
        cases round''
        obtain ⟨result, ends⟩ := ih tracks
        exact ⟨result, .step goesOn ends⟩
    | inr result => exact ⟨result, .done goesOn⟩

end

/-! ## Calls -/

section

variable {World : Type} {library : JsonLibrary} {graph started base before after : Graph World}
  {index : Nat} {run : Run} {options whole : RunOptions} {outcome : Outcome}
  {execution last stopped : Execution World} {interrupted : Bool}

def Opened.withOptions (options : RunOptions) : Opened World → Opened World
  | .answered graph outcome => .answered graph outcome
  | .running graph index _ execution =>
      .running graph index options
        { execution with skipInitialInterrupt := options.skipInitialInterrupt }

theorem executeRun_withOptions (same : whole.startNode = options.startNode) :
    executeRun graph index run whole = (executeRun graph index run options).withOptions whole := by
  unfold executeRun
  rw [same]
  cases options.startNode <|> run.currentNode <;> rfl

theorem start_withOptions (threadId : Option String) (input : Option Json)
    (same : whole.startNode = options.startNode) :
    start library graph threadId input whole =
      (start library graph threadId input options).withOptions whole := by
  unfold start
  rw [same]
  cases options.startNode <|> graph.entryNode with
  | none => rfl
  | some startNode =>
      dsimp only
      split
      next => exact executeRun_withOptions same
      next => rfl

theorem seedRun_ok {sourceKind : SourceKind} {sourceName : String} {reason : Option String}
    {update : Option Json} {nextNode : Option String} {step : Nat}
    (seeded : (seedRun library graph run sourceKind sourceName reason update nextNode step).1 = .ok) :
    let later := (seedRun library graph run sourceKind sourceName reason update nextNode
      step).2.2.1
    later.currentNode = nextNode ∧ later.steps = step ∧ later.completed = nextNode.isNone ∧
      later.interrupted = false := by
  unfold seedRun at seeded ⊢
  dsimp only at seeded ⊢
  split at seeded
  next object =>
    rw [if_pos object]
    split at seeded
    next applied =>
      rw [if_pos applied]
      exact ⟨rfl, rfl, rfl, rfl⟩
    next refused => exact absurd seeded refused
  next => cases seeded

theorem addThreadRecord_mem (graph : Graph World) (requested : Option String) :
    let added := addThreadRecord graph requested
    added.2.2 ∈ added.1.threads.map Thread.id := by
  unfold addThreadRecord
  dsimp only
  split
  next => simp
  next id =>
    split
    next => simp
    split
    next thread index found =>
      have listed := List.mem_zipIdx_iff_getElem?.mp (List.mem_of_find?_eq_some found)
      exact List.mem_map_of_mem (List.mem_of_getElem? listed)
    next => simp

theorem findThread_of_mem {id : String} (member : id ∈ graph.threads.map Thread.id) :
    ∃ thread threadIndex, findThread graph id = some (thread, threadIndex) := by
  obtain ⟨thread, among, same⟩ := List.mem_map.mp member
  obtain ⟨threadIndex, place⟩ := List.getElem?_of_mem among
  have found : (findThread graph id).isSome :=
    List.find?_isSome.mpr ⟨(thread, threadIndex), List.mem_zipIdx_iff_getElem?.mpr place,
      beq_iff_eq.mpr same⟩
  obtain ⟨⟨thread, threadIndex⟩, isFound⟩ := Option.isSome_iff_exists.mp found
  exact ⟨thread, threadIndex, isFound⟩

/-- The start of a run: its execution begins where its record says. -/
structure Begins (graph started : Graph World) (execution : Execution World) : Prop where
  place : started.runs[graph.runs.length]? = some execution.run
  thread : execution.run.threadId ∈ started.threads.map Thread.id
  steady : Steady execution

theorem start_answered {threadId : Option String} {input : Option Json}
    (answered : start library graph threadId input options = .answered after outcome) :
    ¬outcome.Suspended := by
  rintro ⟨result, isResult, status⟩
  unfold start at answered
  split at answered
  next =>
    cases answered
    cases isResult
  next startNode _ =>
    dsimp only at answered
    split at answered
    next =>
      unfold executeRun at answered
      dsimp only at answered
      split at answered
      next =>
        cases answered
        cases isResult
        simp [result] at status
      next => cases answered
    next =>
      cases answered
      cases isResult

theorem start_running {threadId : Option String} {input : Option Json}
    (running : start library graph threadId input options =
      .running started index whole execution) :
    index = graph.runs.length ∧ Begins graph started execution := by
  unfold start at running
  split at running
  next => cases running
  next startNode chosen =>
    dsimp only at running
    split at running
    next seeded =>
      let added := addThreadRecord graph threadId
      obtain ⟨node, steps, completed, interrupted⟩ := seedRun_ok seeded
      have thread := (seedRun_same library added.1 (newRun added.1 added.2.2 none none
        (seedDefaults added.1.channels) (some startNode) 0) .start "start" none input
          (some startNode) 0).2
      obtain ⟨_, _, _, runs, _, _, _⟩ := addThreadRecord_same graph threadId
      unfold executeRun at running
      dsimp only at running
      split at running
      next => cases running
      next given isNode =>
        obtain ⟨rfl, rfl, rfl, rfl⟩ := Opened.running.inj running
        have same : startNode = given := by
          rw [node] at isNode
          cases first : options.startNode <;> simp_all
        refine ⟨congrArg List.length runs, ?_, ?_, node.trans (congrArg some same), rfl, completed,
          interrupted⟩
        · rw [← runs]
          exact List.getElem?_concat_length
        · rw [setCurrentRun_ids, thread]
          exact addThreadRecord_mem graph threadId
    next => cases running

/-! ## Graphs between calls -/

/-- The run of a place rests where an execution is. -/
structure RestsAt (started : Graph World) (index : Nat) (stopped : Execution World)
    (interrupted : Bool) (after : Graph World) : Prop where
  same : SameTopology after started
  ledger : after.ledger = stopped.ledger
  world : after.world = stopped.world
  applied : after.applied = stopped.applied
  runs : after.runs = started.runs.set index { stopped.run with interrupted }
  inside : index < started.runs.length
  thread : stopped.run.threadId ∈ after.threads.map Thread.id
  steady : Steady stopped

theorem RestsAt.resumes (rests : RestsAt started index stopped interrupted before)
    (found : findRun before run.id = some (run, index))
    (onwards : options.startNode = none ∨ options.startNode = run.currentNode) :
    run = { stopped.run with interrupted } ∧ ∃ threadIndex node,
      openCall library before (.resume run.id options) =
        .running (setCurrentRun before threadIndex run.id) index options
          (executionFrom (setCurrentRun before threadIndex run.id) run options node) ∧
      Tracks (executionFrom (setCurrentRun before threadIndex run.id) run options node)
        (interrupted = false)
        (executionFrom (setCurrentRun before threadIndex run.id) run options node) stopped := by
  have isRun : run = { stopped.run with interrupted } := by
    have place := (findRun_place found).1
    rw [rests.runs, List.getElem?_set_self rests.inside] at place
    exact (Option.some.inj place).symm
  have node : run.currentNode = some stopped.currentNode := by
    rw [isRun]
    exact rests.steady.node
  have chosen : (options.startNode <|> run.currentNode) = some stopped.currentNode := by
    rcases onwards with none | same
    · rw [none]
      exact node
    · rw [same, node]
      rfl
  have thread : run.threadId ∈ before.threads.map Thread.id := by
    rw [isRun]
    exact rests.thread
  obtain ⟨record, threadIndex, isThread⟩ := findThread_of_mem thread
  refine ⟨isRun, threadIndex, stopped.currentNode, ?_, ?_, rests.steady⟩
  · rw [openCall, resume, found]
    dsimp only
    rw [node]
    dsimp only
    rw [isThread]
    dsimp only
    rw [executeRun]
    dsimp only
    rw [chosen]
    rfl
  · refine ⟨interrupted, run.latestHistoryEntryId.bind before.ledger.findHistory, ?_,
      fun asked => (asked rfl).trans rests.steady.interrupted.symm⟩
    simp only [executionFrom, setCurrentRun, likened, List.nil_append, rests.ledger,
      rests.world, rests.applied, isRun, rests.steady.steps]

theorem RestsAt.of_stops (same : SameTopology base started)
    (runs : ∀ run, base.runs.set index run = started.runs.set index run)
    (inside : index < started.runs.length) (thread : last.run.threadId ∈ base.threads.map Thread.id)
    (stops : StopsAt last stopped interrupted) :
    RestsAt started index stopped interrupted (finishRun base index last) where
  same := ⟨same.entryNode, same.channels, same.nodes, same.edges⟩
  ledger := stops.ledger
  world := stops.world
  applied := stops.applied
  runs := by
    rw [← stops.run]
    exact runs last.run
  inside
  thread := by
    rw [stops.run] at thread
    exact thread
  steady := stops.steady

theorem coincide_of_similar {last' : Execution World} {marked : Prop}
    (runs : ∀ run, base.runs.set index run = started.runs.set index run)
    (similar : Similar [] marked last last') :
    Coincide (finishRun base index last) (finishRun started index last') ∧
      (marked → (finishRun base index last).runs = (finishRun started index last').runs) := by
  obtain ⟨interrupted, latestHistory, rfl, mark⟩ := similar
  constructor
  · refine ⟨rfl, rfl, rfl, ?_⟩
    simp only [finishRun, putRun, runs, List.map_set, likened]
  · intro asked
    simp only [finishRun, putRun, runs, likened, mark asked]

end

/-! ## Splits -/

section

variable {World : Type} {library : JsonLibrary} {graph after : Graph World}
  {threadId startNode : Option String} {input : Option Json} {outcome : Outcome}

/-- What the calls of a split come to, next to an execution without limits: its end, or where it
comes to. -/
inductive SplitEnds (library : JsonLibrary) (graph : Graph World) (threadId : Option String)
    (input : Option Json) (startNode : Option String) (started : Graph World)
    (execution : Execution World) : Graph World → Outcome → Prop where
  | ended {after : Graph World} {outcome : Outcome} (last : Execution World)
      (ends : Loop.Ends (round library started noOptions) execution (last, outcome))
      (final : ¬outcome.Suspended)
      (coincide : Coincide after (finishRun started graph.runs.length last))
      (marks : after.runs = (finishRun started graph.runs.length last).runs ∨
        FailsAfterInterrupt library graph threadId input startNode after outcome) :
      SplitEnds library graph threadId input startNode started execution after outcome
  | suspended {after : Graph World} {outcome : Outcome} (stopped : Execution World)
      (visits : Loop.Visits (round library started noOptions) execution stopped)
      (suspended : outcome.Suspended)
      (rests : RestsAt started graph.runs.length stopped
        (outcome.result.map RunResult.status == some .interrupted) after) :
      SplitEnds library graph threadId input startNode started execution after outcome

/-- The first call of a split opens a run, whatever its options are, or is refused. -/
theorem Split.spec (split : Split library graph threadId input startNode after outcome) :
    (¬outcome.Suspended ∧ ∀ whole : RunOptions, whole.startNode = startNode →
      openCall library graph (.start threadId input whole) = .answered after outcome) ∨
    ∃ started execution, Begins graph started execution ∧
      (∀ whole : RunOptions, whole.startNode = startNode →
        openCall library graph (.start threadId input whole) =
          .running started graph.runs.length whole
            { execution with skipInitialInterrupt := whole.skipInitialInterrupt }) ∧
      SplitEnds library graph threadId input startNode started execution after outcome := by
  induction split with
  | @start after outcome options chosen answers =>
      have others : ∀ whole : RunOptions, whole.startNode = startNode →
          openCall library graph (.start threadId input whole) =
            (openCall library graph (.start threadId input options)).withOptions whole :=
        fun whole same => start_withOptions threadId input (same.trans chosen.symm)
      cases answers with
      | answered opened =>
          refine .inl ⟨start_answered opened, fun whole same => ?_⟩
          rw [others whole same, opened]
          rfl
      | @ran started _ index given execution last _ opened ends =>
          obtain ⟨rfl, begins⟩ := start_running opened
          refine .inr ⟨started, execution, begins, fun whole same => ?_, ?_⟩
          · rw [others whole same, opened]
            rfl
          · have tracks : Tracks execution True execution execution :=
              ⟨⟨_, _, rfl, fun _ => rfl⟩, begins.steady⟩
            have inside := (List.getElem?_eq_some_iff.mp begins.place).1
            have thread : last.run.threadId ∈ started.threads.map Thread.id := by
              rw [(Follows.of_acts (ends_acts ends)).threadId]
              exact begins.thread
            rcases tracks.ends (.refl started) ends with
              ⟨last', ends, final, similar | ⟨_, unmarked, _⟩⟩ | ⟨stopped, visits, pending, stops⟩
            · have coincide : Coincide (finishRun started graph.runs.length last)
                  (finishRun started graph.runs.length last') ∧ _ :=
                coincide_of_similar (fun _ => rfl) similar
              exact .ended last' ends final coincide.1 (.inl (coincide.2 trivial))
            · exact absurd trivial unmarked
            · exact .suspended stopped visits pending
                (.of_stops (.refl started) (fun _ => rfl) inside thread stops)
  | @resume before after pending outcome run options split suspended found onwards answers ih =>
      rcases ih with ⟨ended, _⟩ | ⟨started, execution, begins, opens, ends⟩
      · exact absurd suspended ended
      refine .inr ⟨started, execution, begins, opens, ?_⟩
      cases ends with
      | ended _ _ final => exact absurd suspended final
      | suspended stopped visits _ rests =>
          obtain ⟨isRun, threadIndex, node, opened, tracks⟩ := rests.resumes found onwards
          let base := setCurrentRun before threadIndex run.id
          have same : SameTopology base started :=
            ⟨rests.same.entryNode, rests.same.channels, rests.same.nodes, rests.same.edges⟩
          have runs : ∀ later, base.runs.set graph.runs.length later =
              started.runs.set graph.runs.length later := by
            intro later
            rw [show base.runs = before.runs from rfl, rests.runs, List.set_set]
          cases answers with
          | answered other => cases opened.symm.trans other
          | @ran _ _ _ _ _ last _ other ends =>
              obtain ⟨rfl, rfl, rfl, rfl⟩ := Opened.running.inj (opened.symm.trans other)
              have thread : last.run.threadId ∈ base.threads.map Thread.id := by
                rw [(Follows.of_acts (ends_acts ends)).threadId, setCurrentRun_ids]
                have own := rests.thread
                rw [show stopped.run.threadId = run.threadId by rw [isRun]] at own
                exact own
              rcases tracks.ends same ends with ⟨last', ends, final, similar |
                ⟨similar, unmarked, done, failed⟩⟩ | ⟨later, further, pending, stops⟩
              · have coincide := coincide_of_similar runs similar
                exact .ended last' (visits.ends ends) final coincide.1 (.inl (coincide.2 trivial))
              · have coincide := coincide_of_similar runs similar
                have interrupted : pending.result.map RunResult.status = some .interrupted := by
                  simpa using unmarked
                exact .ended last' (visits.ends ends) final coincide.1 (.inr ⟨before, pending, run,
                  options, base, _, last, split, interrupted, found, opened, done, failed, rfl⟩)
              · exact .suspended later (visits.trans further) pending
                  (.of_stops same runs rests.inside thread stops)

/-- However an execution is split, what its last call leaves is what one call without interrupts
and with a limit that is large enough leaves: its result and the state in it, the steps, the runs
and their history.  Only a run whose first round after an interrupt fails is still marked as
interrupted.  And if the one call returns, every resume of the split does. -/
theorem split_unsplit (split : Split library graph threadId input startNode after outcome) :
    (¬outcome.Suspended → ∃ bound, ∀ whole : RunOptions, whole.startNode = startNode →
      whole.interruptBeforeNodes = [] → (whole.maxSteps = 0 ∨ bound ≤ whole.maxSteps) →
        ∃ unsplit, Answers library graph (.start threadId input whole) unsplit outcome ∧
          Coincide after unsplit ∧ (after.runs = unsplit.runs ∨
            FailsAfterInterrupt library graph threadId input startNode after outcome)) ∧
    (outcome.Suspended → ∀ whole unsplit final, whole.startNode = startNode →
      Answers library graph (.start threadId input whole) unsplit final → ¬final.Suspended →
        ∀ (run : Run) (options : RunOptions),
          findRun after run.id = some (run, graph.runs.length) →
          (options.startNode = none ∨ options.startNode = run.currentNode) →
            ∃ later next, Answers library after (.resume run.id options) later next) := by
  rcases split.spec with ⟨final, opens⟩ | ⟨started, execution, _, opens, ends⟩
  · refine ⟨fun _ => ⟨0, fun whole same _ _ => ?_⟩, fun suspended => absurd suspended final⟩
    exact ⟨after, .answered (opens whole same), ⟨rfl, rfl, rfl, rfl⟩, .inl rfl⟩
  · cases ends with
    | ended last ends final coincide marks =>
        refine ⟨fun _ => ?_, fun suspended => absurd suspended final⟩
        obtain ⟨bound, unlimited⟩ := ends_unlimited ends
        refine ⟨bound, fun whole same noInterrupts limit => ?_⟩
        exact ⟨_, .ran (opens whole same) (unlimited whole _ noInterrupts limit), coincide, marks⟩
    | suspended stopped visits suspended rests =>
        refine ⟨fun final => absurd suspended final, fun _ => ?_⟩
        intro whole unsplit final same answers ended run options found onwards
        obtain ⟨_, threadIndex, node, opened, tracks⟩ := rests.resumes found onwards
        have unlimited : ∃ result, Loop.Ends (round library started noOptions) execution result := by
          cases answers with
          | answered other => cases (opens whole same).symm.trans other
          | ran other ends =>
              obtain ⟨rfl, rfl, rfl, rfl⟩ := Opened.running.inj ((opens whole same).symm.trans other)
              have free : Loop.Ends (round library started noOptions)
                  { execution with skipInitialInterrupt := whole.skipInitialInterrupt } _ :=
                ends_free ends ended
              have skipped := ends_skip execution.skipInitialInterrupt free
              exact ⟨_, skipped⟩
        obtain ⟨result, ends⟩ := unlimited
        have topology : SameTopology (setCurrentRun after threadIndex run.id) started :=
          ⟨rests.same.entryNode, rests.same.channels, rests.same.nodes, rests.same.edges⟩
        obtain ⟨⟨last, next⟩, returns⟩ := tracks.returns topology (ends.of_visits visits)
        exact ⟨_, next, .ran opened returns⟩

end

/-! ## Samples -/

def twiceNode : Node Unit where
  name := "a"
  call world _ _ step :=
    ⟨0, .object [], [], if step = 0 then some "a" else none, false, world⟩

def twiceGraph : Graph Unit := { create () with entryNode := some "a", nodes := [twiceNode] }

/-- A run of it that stopped after the first call. -/
def twiceRun : Run :=
  ⟨"run-1", "thread-1", none, none, some "history-2", some "a", 1, false, false, .object []⟩

def twicePaused : Graph Unit :=
  { twiceGraph with
    threads := [⟨"thread-1", some "run-1"⟩], runs := [twiceRun]
    ledger := ⟨[⟨"history-1", "checkpoint-1", "thread-1", "run-1", some "start", none, none,
        some "a", .start, 0, .object [], .object []⟩,
      ⟨"history-2", "checkpoint-2", "thread-1", "run-1", some "a", none, some "a", some "a", .node,
        1, .object [], .object []⟩], 2, 2⟩
    nextThreadId := 1, nextRunId := 1, applied := [⟨"run-1", 1, 0⟩] }

/-- The run stops at the limit after the first call, and is resumed. -/
theorem split_unsplit_sample : ∃ (after unsplit : Graph Unit) (outcome : Outcome),
    Split sampleLibrary twiceGraph none none none after outcome ∧
      outcome.result.map (fun result => (result.status, result.steps)) = some (.ok, 2) ∧
        Answers sampleLibrary twiceGraph (.start none none noOptions) unsplit outcome ∧
          Coincide after unsplit := by
  have paused : Answers sampleLibrary twiceGraph (.start none none ⟨1, none, [], false⟩)
      twicePaused _ := @perform_answers _ _ _ 2 _ _ _ rfl
  obtain ⟨after, outcome, resumed, ended⟩ : ∃ after outcome,
      perform sampleLibrary twicePaused 2 (.resume twiceRun.id noOptions) = some (after, outcome) ∧
        outcome.result.map (fun result => (result.status, result.steps)) = some (.ok, 2) :=
    ⟨_, _, rfl, rfl⟩
  have found : findRun twicePaused twiceRun.id = some (twiceRun, twiceGraph.runs.length) := rfl
  have split : Split sampleLibrary twiceGraph none none none after outcome :=
    .resume (.start rfl paused) ⟨_, rfl, .inl rfl⟩ found (.inl rfl) (perform_answers resumed)
  have final : ¬outcome.Suspended := by
    rintro ⟨result, isResult, status⟩
    rw [isResult, Option.map_some, Option.some.injEq, Prod.mk.injEq] at ended
    rw [ended.1] at status
    simp at status
  obtain ⟨bound, unlimited⟩ := (split_unsplit split).1 final
  obtain ⟨unsplit, answers, coincide, _⟩ := unlimited noOptions rfl rfl (.inl rfl)
  exact ⟨after, unsplit, outcome, split, ended, answers, coincide⟩

def brokenNode : Node Unit where
  name := "a"
  call world _ _ _ := ⟨1, .object [], [], none, false, world⟩

def brokenGraph : Graph Unit := { create () with entryNode := some "a", nodes := [brokenNode] }

/-- A run of it that was interrupted before the call. -/
def brokenRun : Run :=
  ⟨"run-1", "thread-1", none, none, some "history-1", some "a", 0, true, false, .object []⟩

def brokenPaused : Graph Unit :=
  { brokenGraph with
    threads := [⟨"thread-1", some "run-1"⟩], runs := [brokenRun]
    ledger := ⟨[⟨"history-1", "checkpoint-1", "thread-1", "run-1", some "start", none, none,
      some "a", .start, 0, .object [], .object []⟩], 1, 1⟩
    nextThreadId := 1, nextRunId := 1 }

/-- The node fails after an interrupt, and the run is still listed as interrupted.  Without the
interrupt it is listed as running. -/
theorem failed_run_listed_as_interrupted : ¬∀ (graph after : Graph Unit) (threadId : Option String)
    (input : Option Json) (startNode : Option String) (outcome : Outcome),
    Split sampleLibrary graph threadId input startNode after outcome → ¬outcome.Suspended →
      ∃ bound, ∀ whole : RunOptions, whole.startNode = startNode →
        whole.interruptBeforeNodes = [] → (whole.maxSteps = 0 ∨ bound ≤ whole.maxSteps) →
          ∃ unsplit, Answers sampleLibrary graph (.start threadId input whole) unsplit outcome ∧
            after.runs.map Run.statusText = unsplit.runs.map Run.statusText := by
  intro claim
  have paused : Answers sampleLibrary brokenGraph (.start none none ⟨0, none, ["a"], false⟩)
      brokenPaused _ := @perform_answers _ _ _ 1 _ _ _ rfl
  have resumed : Answers sampleLibrary brokenPaused (.resume brokenRun.id noOptions)
      brokenPaused ⟨.error, none, none⟩ := @perform_answers _ _ _ 1 _ _ _ rfl
  have found : findRun brokenPaused brokenRun.id = some (brokenRun, brokenGraph.runs.length) := rfl
  have split : Split sampleLibrary brokenGraph none none none brokenPaused ⟨.error, none, none⟩ :=
    .resume (.start rfl paused) ⟨_, rfl, .inr rfl⟩ found (.inl rfl) resumed
  have final : ¬Outcome.Suspended ⟨.error, none, none⟩ := by
    rintro ⟨result, isResult, _⟩
    cases isResult
  obtain ⟨bound, unlimited⟩ := claim _ _ _ _ _ _ split final
  obtain ⟨unsplit, answers, listed⟩ := unlimited noOptions rfl rfl (.inl rfl)
  cases answers with
  | answered opened => cases opened
  | ran opened ends =>
      obtain ⟨rfl, rfl, rfl, rfl⟩ := Opened.running.inj opened
      have last := ends.unique ⟨1, rfl⟩
      cases last
      exact absurd listed (by decide)

end TurboAgent.StateGraph
