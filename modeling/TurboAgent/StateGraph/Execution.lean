import TurboAgent.StateGraph.Model

/-!
# What an execution does

A round of an execution is a sequence of acts: the world changes, an update of a node is merged
into the state, the state is recorded, or the run goes to another node.  What every act keeps is
kept by every run, however it ends.
-/

namespace TurboAgent.StateGraph

open Logic Relation

section

variable {World : Type} (library : JsonLibrary) (graph : Graph World)

def Leaves (update : Json) : Prop :=
  ∃ node ∈ graph.nodes, ∃ world state step,
    update = (node.call world state node.name step).update ∨
      ∃ send ∈ (node.call world state node.name step).sends, update = send.update

/-- A name of a node, or one that a node chooses as the next one. -/
def Leads (name : String) : Prop :=
  name = "" ∨ ∃ node ∈ graph.nodes, name = node.name ∨
    ∃ world state step, (node.call world state node.name step).nextNode = some name

/-- The run goes to another node or rests, and nothing else changes. -/
structure Moves (before after : Execution World) : Prop where
  ledger : after.ledger = before.ledger
  world : after.world = before.world
  applied : after.applied = before.applied
  latest : after.latestHistory = before.latestHistory
  run : ∃ currentNode steps interrupted completed,
    (∀ name, currentNode = some name → before.run.currentNode = some name ∨
      name = before.currentNode ∨ Leads graph name) ∧
    ¬(interrupted = true ∧ completed = true) ∧
    after.run = { before.run with currentNode, steps, interrupted, completed }
  node : after.currentNode = before.currentNode ∨ Leads graph after.currentNode

/-- What happens in a round, one thing after the other. -/
inductive Act : Execution World → Execution World → Prop where
  | world (execution : Execution World) (world : World) :
      Act execution { execution with world }
  | skip (execution : Execution World) :
      Act execution { execution with skipInitialInterrupt := false }
  | merge (execution : Execution World) (update : Json) (leaves : Leaves graph update) :
      Act execution (execution.setState
        (applyUpdate library graph.channels execution.run.state update).2)
  | note (execution : Execution World) (step place : Nat) :
      Act execution (execution.note step place)
  | record (execution : Execution World) (sourceName : String)
      (reason lastNode nextNode : Option String) (step : Nat) (update : Json)
      (source : Leads graph sourceName)
      (reasons : ∀ text, reason = some text → text = "send" ∨ text = "send_target")
      (last : ∀ name, lastNode = some name → Leads graph name)
      (next : ∀ name, nextNode = some name → Leads graph name) (leaves : Leaves graph update) :
      Act execution (execution.record sourceName reason lastNode nextNode step update)
  | move (before after : Execution World) (moves : Moves graph before after) : Act before after

abbrev Acts : Execution World → Execution World → Prop := ReflTransGen (Act library graph)

variable {library graph} {execution : Execution World} {node : Node World} {index step place : Nat}
variable {name : String}

theorem findNode_spec {nodes : List (Node World)} (found : findNode nodes name = some (node, index)) :
    nodes[index]? = some node ∧ node.name = name := by
  rw [findNode] at found
  have listed := List.mem_zipIdx_iff_getElem?.mp (List.mem_of_find?_eq_some found)
  have named := List.find?_some found
  exact ⟨listed, by simpa using named⟩

theorem findNode_mem {nodes : List (Node World)} (found : findNode nodes name = some (node, index)) :
    node ∈ nodes :=
  List.mem_of_getElem? (findNode_spec found).1

theorem Leads.of_node (member : node ∈ graph.nodes) : Leads graph node.name :=
  .inr ⟨node, member, .inl rfl⟩

theorem leads_nodeName (index : Nat) : Leads graph (nodeName graph.nodes index) := by
  unfold nodeName
  cases place : graph.nodes[index]? with
  | none => exact .inl rfl
  | some node => exact .of_node (List.mem_of_getElem? place)

/-! ## Sends -/

theorem merge_acts {update : Json} (leaves : Leaves graph update) :
    Acts library graph execution (execution.setState
      (applyUpdate library graph.channels execution.run.state update).2) :=
  .single (.merge execution update leaves)

theorem applyNodeUpdate_acts {update : Json} (leaves : Leaves graph update) :
    Acts library graph execution
      (applyNodeUpdate library graph update step place execution).2 := by
  have merged : Acts library graph execution _ := merge_acts leaves
  unfold applyNodeUpdate
  dsimp only
  split
  next => exact merged.tail (.note _ step place)
  next => exact merged

theorem callSendTarget_acts (member : node ∈ graph.nodes) :
    Acts library graph execution (callSendTarget library graph node step place execution).2 := by
  let called := node.call execution.world execution.run.state node.name step
  have world : Acts library graph execution { execution with world := called.world } :=
    .single (.world execution called.world)
  have leaves : Leaves graph called.update := ⟨node, member, _, _, _, .inl rfl⟩
  have applied : Acts library graph execution (applyNodeUpdate library graph called.update step
      place { execution with world := called.world }).2 := world.trans (applyNodeUpdate_acts leaves)
  unfold callSendTarget
  dsimp only
  split
  next =>
    split
    next =>
      apply applied.tail
      apply Act.record
      · exact .of_node member
      · simp
      · rintro name ⟨⟩
        exact .of_node member
      · simp
      · exact leaves
    next => exact applied
  next => exact world

theorem executeSendNode_acts {send : Send} (leaves : Leaves graph send.update) :
    Acts library graph execution
      (executeSendNode library graph send step place execution).2 := by
  unfold executeSendNode
  split
  next =>
    split
    next => exact .refl
    next node index found =>
      have named : Leads graph send.targetNode :=
        (findNode_spec found).2 ▸ .of_node (findNode_mem found)
      have merged : Acts library graph execution _ := merge_acts leaves
      dsimp only
      split
      next =>
        refine (merged.tail ?_).trans (callSendTarget_acts (findNode_mem found))
        apply Act.record
        · exact named
        · simp
        · simp
        · rintro name ⟨⟩
          exact named
        · exact leaves
      next => exact merged
  next => exact .refl

theorem executeSends_acts {sends : List Send} (leaves : ∀ send ∈ sends, Leaves graph send.update) :
    Acts library graph execution (executeSends library graph step sends place execution).2 := by
  induction sends generalizing execution place with
  | nil => exact .refl
  | cons send sends ih =>
      obtain ⟨first, rest⟩ := List.forall_mem_cons.mp leaves
      have sent : Acts library graph execution
          (executeSendNode library graph send step place execution).2 :=
        executeSendNode_acts first
      rw [executeSends]
      split
      next => exact sent.trans (ih rest)
      next => exact sent

/-! ## Rounds -/

theorem routeEdges_leads {edges : List (Edge World)} {state : Json} {sawOutgoing : Bool}
    {world : World}
    (route : (routeEdges graph index state edges sawOutgoing world).1 = some (some name)) :
    Leads graph name := by
  induction edges generalizing sawOutgoing world with
  | nil =>
      rw [routeEdges] at route
      split at route <;> cases route
  | cons edge edges ih =>
      rw [routeEdges] at route
      split at route
      next =>
        split at route
        next =>
          cases route
          exact leads_nodeName _
        split at route
        next =>
          cases route
          exact leads_nodeName _
        next => exact ih route
      next => exact ih route

theorem resolveNext_leads {chosen : Option String}
    (choice : ∀ name, chosen = some name → Leads graph name)
    (route : (resolveNext graph index chosen execution).1 = some (some name)) :
    Leads graph name := by
  unfold resolveNext at route
  split at route
  next next =>
    cases route
    exact choice _ rfl
  next => exact routeEdges_leads route

theorem concludeRound_acts {called : Called World} {next : Option String}
    (member : node ∈ graph.nodes) (leaves : Leaves graph called.update)
    (leads : ∀ name, next = some name → Leads graph name) :
    Acts library graph execution (executionOf (concludeRound node called next execution)) := by
  let steps := execution.steps + 1
  let moved : Execution World := { execution with
    run := { execution.run with
      steps, currentNode := next, interrupted := false, completed := next.isNone }
    steps }
  have move : Act library graph execution moved := by
    refine .move _ _ ⟨rfl, rfl, rfl, rfl, ⟨next, steps, false, next.isNone, ?_, by simp, rfl⟩,
      .inl rfl⟩
    exact fun name isNext => .inr (.inr (leads name isNext))
  have recorded : Act library graph moved
      (moved.record node.name none (some node.name) next steps called.update) := by
    apply Act.record
    · exact .of_node member
    · simp
    · rintro name ⟨⟩
      exact .of_node member
    · exact leads
    · exact leaves
  have acts := (ReflTransGen.single move).tail recorded
  unfold concludeRound
  dsimp only
  split
  next =>
    refine acts.tail (.move _ _ ⟨rfl, rfl, rfl, rfl, ⟨none, steps, false, true, ?_, by simp, rfl⟩,
      .inl rfl⟩)
    simp
  cases next with
  | some next =>
      refine acts.tail (.move _ _ ⟨rfl, rfl, rfl, rfl, ?_, .inr (leads next rfl)⟩)
      exact ⟨some next, steps, false, false, fun _ same => .inl same, by simp, rfl⟩
  | none => exact acts

theorem settleCall_acts {called : Called World} (member : node ∈ graph.nodes)
    (leaves : Leaves graph called.update) (sends : ∀ send ∈ called.sends, Leaves graph send.update)
    (choice : ∀ name, called.nextNode = some name → Leads graph name) :
    Acts library graph execution
      (executionOf (settleCall library graph node index called execution)) := by
  let applied := applyNodeUpdate library graph called.update (execution.steps + 1) 0 execution
  let sent := executeSends library graph (execution.steps + 1) called.sends 1 applied.2
  have applies : Acts library graph execution applied.2 := applyNodeUpdate_acts leaves
  have sending : Acts library graph execution sent.2 := applies.trans (executeSends_acts sends)
  have routing := sending.tail (.world _ (resolveNext graph index called.nextNode sent.2).2)
  unfold settleCall
  split
  next =>
    dsimp only
    split
    next =>
      split
      next =>
        split
        next next route =>
          refine routing.trans (concludeRound_acts member leaves ?_)
          rintro name rfl
          exact resolveNext_leads choice route
        next => exact routing
      next => exact sending
    next => exact applies
  next => exact .refl

theorem round_acts {options : RunOptions} :
    Acts library graph execution (executionOf (round library graph options execution)) := by
  have rests : ∀ interrupted, Act library graph execution { execution with
      run := { execution.run with
        currentNode := some execution.currentNode, interrupted, completed := false } } := by
    intro interrupted
    refine .move _ _ ⟨rfl, rfl, rfl, rfl, ⟨_, _, _, _, ?_, by simp, rfl⟩, .inl rfl⟩
    rintro name ⟨⟩
    exact .inr (.inl rfl)
  unfold round
  split
  next => exact .single (rests false)
  split
  next => exact .single (rests true)
  have skipped : Acts library graph execution { execution with skipInitialInterrupt := false } :=
    .single (.skip execution)
  dsimp only
  split
  next => exact skipped
  next node index found =>
    have member := findNode_mem found
    refine (skipped.tail (.world _ _)).trans (settleCall_acts member ?_ ?_ ?_)
    · exact ⟨node, member, _, _, _, .inl rfl⟩
    · exact fun send among => ⟨node, member, _, _, _, .inr ⟨send, among, rfl⟩⟩
    · exact fun name chosen => .inr ⟨node, member, .inr ⟨_, _, _, chosen⟩⟩

theorem ends_acts {options : RunOptions} {last : Execution World} {outcome : Outcome}
    (ends : Loop.Ends (round library graph options) execution (last, outcome)) :
    Acts library graph execution last :=
  ends_kept (Acts library graph execution) .refl (fun _ _ acts => acts.trans round_acts) ends

end

end TurboAgent.StateGraph
