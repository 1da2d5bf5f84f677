import TurboAgent.StateGraph.Serialize

/-!
# Executions that are alike

What a round does depends on the nodes, the edges and the channels of its graph, on the state of
its run and on where it is.  It does not depend on the updates that were noted before, nor on the
mark that an interrupt leaves in a run: executions that differ only in these go on alike.
-/

namespace TurboAgent.StateGraph

open Logic

section

variable {World : Type}

/-- The execution with another past: other updates were noted before, and the run may be marked as
interrupted. -/
def Execution.likened (execution : Execution World) (earlier : List Application)
    (interrupted : Bool) (latestHistory : Option HistoryEntry) : Execution World :=
  { execution with
    run := { execution.run with interrupted }
    applied := earlier ++ execution.applied
    latestHistory }

/-- Executions that differ in their pasts, but not in their marks if these are to be equal. -/
def Similar (earlier : List Application) (marked : Prop) (left right : Execution World) : Prop :=
  ∃ interrupted latestHistory, left = right.likened earlier interrupted latestHistory ∧
    (marked → interrupted = right.run.interrupted)

structure GoAlike (earlier : List Application) (left right : Execution World) : Prop where
  similar : Similar earlier True left right
  latest : left.latestHistory = right.latestHistory

/-- What two executions end with.  Where there is a result, the marks are equal. -/
structure EndAlike (earlier : List Application) (marked : Prop)
    (left right : Execution World × Outcome) : Prop where
  outcome : left.2 = right.2
  similar : Similar earlier (marked ∨ right.2.result ≠ none) left.1 right.1

abbrev RoundsAlike (earlier : List Application) (marked : Prop) :
    Round World → Round World → Prop :=
  Sum.LiftRel (GoAlike earlier) (EndAlike earlier marked)

structure Alike (earlier : List Application) (marked : Prop)
    (left right : Status × Execution World) : Prop where
  status : left.1 = right.1
  similar : Similar earlier marked left.2 right.2

end

section

variable {World : Type} (library : JsonLibrary) {graph other : Graph World}
  {earlier : List Application} {marked : Prop} {left right : Execution World} {step place : Nat}

/-! ## Fields -/

theorem Similar.state (similar : Similar earlier marked left right) :
    left.run.state = right.run.state := by
  obtain ⟨interrupted, latestHistory, rfl, _⟩ := similar
  rfl

theorem Similar.world (similar : Similar earlier marked left right) :
    left.world = right.world := by
  obtain ⟨interrupted, latestHistory, rfl, _⟩ := similar
  rfl

theorem Similar.steps (similar : Similar earlier marked left right) :
    left.steps = right.steps := by
  obtain ⟨interrupted, latestHistory, rfl, _⟩ := similar
  rfl

theorem Similar.skipped (similar : Similar earlier marked left right) :
    Similar earlier marked { left with skipInitialInterrupt := false }
      { right with skipInitialInterrupt := false } := by
  obtain ⟨interrupted, latestHistory, rfl, mark⟩ := similar
  exact ⟨interrupted, latestHistory, rfl, mark⟩

theorem Similar.setState (similar : Similar earlier marked left right) (state : Json) :
    Similar earlier marked (left.setState state) (right.setState state) := by
  obtain ⟨interrupted, latestHistory, rfl, mark⟩ := similar
  exact ⟨interrupted, latestHistory, rfl, mark⟩

theorem Similar.setWorld (similar : Similar earlier marked left right) (world : World) :
    Similar earlier marked { left with world } { right with world } := by
  obtain ⟨interrupted, latestHistory, rfl, mark⟩ := similar
  exact ⟨interrupted, latestHistory, rfl, mark⟩

theorem Similar.note (similar : Similar earlier marked left right) (step place : Nat) :
    Similar earlier marked (left.note step place) (right.note step place) := by
  obtain ⟨interrupted, latestHistory, rfl, mark⟩ := similar
  refine ⟨interrupted, latestHistory, ?_, mark⟩
  simp [Execution.note, Execution.likened]

theorem Similar.record (similar : Similar earlier marked left right) (sourceName : String)
    (reason lastNode nextNode : Option String) (step : Nat) (update : Json) :
    Similar earlier marked (left.record sourceName reason lastNode nextNode step update)
      (right.record sourceName reason lastNode nextNode step update) := by
  obtain ⟨interrupted, latestHistory, rfl, mark⟩ := similar
  exact ⟨interrupted, _, rfl, mark⟩

theorem Similar.mono {unmarked : Prop} (similar : Similar earlier marked left right)
    (weaker : unmarked → marked) : Similar earlier unmarked left right := by
  obtain ⟨interrupted, latestHistory, same, mark⟩ := similar
  exact ⟨interrupted, latestHistory, same, mark ∘ weaker⟩

/-! ## Sends -/

theorem applyNodeUpdate_alike (same : SameTopology graph other) (update : Json) (step place : Nat)
    (similar : Similar earlier marked left right) :
    Alike earlier marked (applyNodeUpdate library graph update step place left)
      (applyNodeUpdate library other update step place right) := by
  unfold applyNodeUpdate
  rw [same.channels, similar.state]
  dsimp only
  split
  next => exact ⟨rfl, (similar.setState _).note step place⟩
  next => exact ⟨rfl, similar.setState _⟩

theorem callSendTarget_alike (same : SameTopology graph other) (node : Node World)
    (step place : Nat) (similar : Similar earlier marked left right) :
    Alike earlier marked (callSendTarget library graph node step place left)
      (callSendTarget library other node step place right) := by
  unfold callSendTarget
  rw [similar.world, similar.state]
  dsimp only
  split
  next =>
    have applied : Alike earlier marked _ _ := applyNodeUpdate_alike library same
      (node.call right.world right.run.state node.name step).update step place
      (similar.setWorld (node.call right.world right.run.state node.name step).world)
    rw [applied.status]
    split
    next => exact ⟨rfl, applied.similar.record _ _ _ _ _ _⟩
    next => exact applied
  next => exact ⟨rfl, similar.setWorld _⟩

theorem executeSendNode_alike (same : SameTopology graph other) (send : Send) (step place : Nat)
    (similar : Similar earlier marked left right) :
    Alike earlier marked (executeSendNode library graph send step place left)
      (executeSendNode library other send step place right) := by
  unfold executeSendNode
  rw [same.nodes, same.channels, similar.state]
  split
  next =>
    split
    next => exact ⟨rfl, similar⟩
    next node index found =>
      dsimp only
      split
      next =>
        exact callSendTarget_alike library same node step place
          ((similar.setState _).record _ _ _ _ _ _)
      next => exact ⟨rfl, similar.setState _⟩
  next => exact ⟨rfl, similar⟩

theorem executeSends_alike (same : SameTopology graph other) (sends : List Send)
    (similar : Similar earlier marked left right) :
    Alike earlier marked (executeSends library graph step sends place left)
      (executeSends library other step sends place right) := by
  induction sends generalizing left right place with
  | nil => exact ⟨rfl, similar⟩
  | cons send sends ih =>
      have sent : Alike earlier marked _ _ :=
        executeSendNode_alike library same send step place similar
      rw [executeSends, executeSends, sent.status]
      split
      next => exact ih sent.similar
      next => exact sent

/-! ## Rounds -/

theorem routeEdges_alike (same : SameTopology graph other) (index : Nat) (state : Json)
    (edges : List (Edge World)) (sawOutgoing : Bool) (world : World) :
    routeEdges graph index state edges sawOutgoing world =
      routeEdges other index state edges sawOutgoing world := by
  induction edges generalizing sawOutgoing world with
  | nil => rfl
  | cons edge edges ih =>
      simp only [routeEdges, same.nodes, ih]

theorem resolveNext_alike (same : SameTopology graph other) (index : Nat) (chosen : Option String)
    (similar : Similar earlier marked left right) :
    resolveNext graph index chosen left = resolveNext other index chosen right := by
  unfold resolveNext
  rw [similar.world, similar.state, same.edges, routeEdges_alike same]

theorem concludeRound_alike (node : Node World) (called : Called World) (next : Option String)
    (similar : Similar earlier marked left right) :
    RoundsAlike earlier marked (concludeRound node called next left)
      (concludeRound node called next right) := by
  obtain ⟨interrupted, latestHistory, rfl, mark⟩ := similar
  unfold concludeRound
  dsimp only
  split
  next => exact .inr ⟨rfl, _, _, rfl, fun _ => rfl⟩
  cases next with
  | some next => exact .inl ⟨⟨_, _, rfl, fun _ => rfl⟩, rfl⟩
  | none => exact .inr ⟨rfl, _, _, rfl, fun _ => rfl⟩

theorem failRound_alike (similar : Similar earlier marked left right) (status : Status) :
    RoundsAlike earlier marked (failRound left status) (failRound right status) := by
  apply Sum.LiftRel.inr
  refine ⟨rfl, similar.mono ?_⟩
  rintro (asked | result)
  · exact asked
  · exact absurd rfl result

theorem settleCall_alike (same : SameTopology graph other) (node : Node World) (index : Nat)
    (called : Called World) (similar : Similar earlier marked left right) :
    RoundsAlike earlier marked (settleCall library graph node index called left)
      (settleCall library other node index called right) := by
  unfold settleCall
  split
  next =>
    have applied : Alike earlier marked _ _ := applyNodeUpdate_alike library same
      called.update (right.steps + 1) 0 similar
    have sent : Alike earlier marked
        (executeSends library graph (right.steps + 1) called.sends 1 _) _ :=
      executeSends_alike library same called.sends applied.similar
    dsimp only
    rw [similar.steps, applied.status]
    split
    next =>
      rw [sent.status]
      split
      next =>
        rw [resolveNext_alike same index called.nextNode sent.similar]
        split
        next next _ => exact concludeRound_alike node called next (sent.similar.setWorld _)
        next => exact failRound_alike (sent.similar.setWorld _) _
      next => exact failRound_alike sent.similar _
    next => exact failRound_alike applied.similar _
  next => exact failRound_alike similar _

theorem advance_alike (same : SameTopology graph other)
    (similar : Similar earlier marked left right) :
    RoundsAlike earlier marked (advance library graph left) (advance library other right) := by
  obtain ⟨interrupted, latestHistory, rfl, mark⟩ := similar
  unfold advance
  rw [same.nodes]
  split
  next missing =>
    rw [show findNode graph.nodes right.currentNode = none from missing]
    exact failRound_alike ⟨interrupted, latestHistory, rfl, mark⟩ _
  next node index found =>
    rw [show findNode graph.nodes right.currentNode = some (node, index) from found]
    exact settleCall_alike library same node index _ ⟨interrupted, latestHistory, rfl, mark⟩

theorem round_alike (same : SameTopology graph other) (options : RunOptions)
    (alike : GoAlike earlier left right) :
    RoundsAlike earlier True (round library graph options left)
      (round library other options right) := by
  have advances : RoundsAlike earlier True _ _ :=
    advance_alike library same alike.similar.skipped
  obtain ⟨⟨interrupted, latestHistory, rfl, mark⟩, latest⟩ := alike
  cases latest
  by_cases proceeds : Proceeds options right
  · have likewise : Proceeds options (right.likened earlier interrupted right.latestHistory) :=
      proceeds
    rw [round_proceeds proceeds, round_proceeds likewise]
    exact advances
  · have likewise : ¬Proceeds options (right.likened earlier interrupted right.latestHistory) :=
      proceeds
    rw [round_suspends proceeds, round_suspends likewise]
    exact .inr ⟨rfl, _, _, rfl, fun _ => rfl⟩

end

end TurboAgent.StateGraph
