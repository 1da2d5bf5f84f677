import TurboAgent.Graph.Topology
import TurboAgent.Logic.Lists

/-!
# Building a graph

The builder of a graph keeps its arrays with their capacities and the topology id, once it was
asked for.  A call may be refused, and every allocation on its way may fail.  Whatever was called
before, the graph is well formed, and the topology id that is kept is the one of the graph.

Setting a field of a document that was created does not fail.
-/

namespace TurboAgent.Graph

open Provider (JsonCodec)

/-- `turbo_graph_t` with what it keeps besides the graph. -/
structure Builder where
  graph : TurboGraph
  (nodeCapacity edgeCapacity : Nat)
  topologyId : Option String

/-- `turbo_graph_create`. -/
def Builder.create (name : String) : Builder := ⟨Graph.create name, 0, 0, none⟩

/-- Which allocations of a call succeed: the growth of an array, the copies of a name and of a
semantic id, and the topology document with its text. -/
structure Builder.Memory where
  (grows copiesName copiesSemanticId serializes : Bool)
  deriving DecidableEq

inductive BuildStatus where
  | status (status : Status)
  | outOfMemory
  | topologyId (id : Option String)
  deriving DecidableEq

/-- A call that did not do what it was called for. -/
def BuildStatus.Failed : BuildStatus → Prop
  | .status given => given ≠ .ok
  | .outOfMemory => True
  | .topologyId id => id = none

/-- `turbo_graph_reserve_nodes` and `turbo_graph_reserve_edges`: the capacity after it. -/
def reserve (memory : Builder.Memory) (first count capacity : Nat) : Option Nat :=
  if count < capacity then some capacity
  else if memory.grows then some (if capacity = 0 then first else capacity * 2)
  else none

namespace Builder

variable (memory : Builder.Memory) (builder : Builder)

/-- `turbo_graph_add_node_ex` and `turbo_graph_add_json_value_node_ex`.  A null pointer is
`none`. -/
def addNodeEx (name semanticId : Option String) (callback : Option NodeCallback) :
    BuildStatus × Builder :=
  match name, callback with
  | some name, some callback =>
      match findNode builder.graph name with
      | some _ => (.status .duplicateNode, builder)
      | none =>
          match reserve memory 4 builder.graph.nodes.length builder.nodeCapacity with
          | none => (.outOfMemory, builder)
          | some capacity =>
              if !memory.copiesName || !memory.copiesSemanticId then
                (.outOfMemory, { builder with nodeCapacity := capacity })
              else
                (.status .ok, { builder with
                  graph := { builder.graph with nodes := builder.graph.nodes ++
                    [⟨name, effectiveSemanticId semanticId name, callback⟩] }
                  nodeCapacity := capacity
                  topologyId := none })
  | _, _ => (.status .invalidArgument, builder)

/-- `turbo_graph_add_edge_ex` and `turbo_graph_add_json_value_edge_ex`. -/
def addEdgeEx (source target semanticId : Option String) (predicate : Predicate) :
    BuildStatus × Builder :=
  match source, target with
  | some source, some target =>
      match findNode builder.graph source, findNode builder.graph target with
      | some (_, fromIndex), some (_, toIndex) =>
          match reserve memory 8 builder.graph.edges.length builder.edgeCapacity with
          | none => (.outOfMemory, builder)
          | some capacity =>
              if !memory.copiesSemanticId then
                (.outOfMemory, { builder with edgeCapacity := capacity })
              else
                (.status .ok, { builder with
                  graph := { builder.graph with edges := builder.graph.edges ++
                    [⟨fromIndex, toIndex, effectiveSemanticId semanticId
                      (joinEdgeSemanticId source target), predicate⟩] }
                  edgeCapacity := capacity
                  topologyId := none })
      | _, _ => (.status .nodeNotFound, builder)
  | _, _ => (.status .invalidArgument, builder)

/-- `turbo_graph_set_entry`. -/
def setEntry (name : Option String) : BuildStatus × Builder :=
  match name with
  | some name =>
      match findNode builder.graph name with
      | none => (.status .nodeNotFound, builder)
      | some _ =>
          if !memory.copiesName then (.outOfMemory, builder)
          else
            (.status .ok, { builder with
              graph := { builder.graph with entryNode := some name }
              topologyId := none })
  | none => (.status .invalidArgument, builder)

/-- `turbo_graph_topology_id`. -/
def getTopologyId (codec : JsonCodec) : BuildStatus × Builder :=
  match builder.topologyId with
  | some id => (.topologyId (some id), builder)
  | none =>
      if !memory.serializes then (.topologyId none, builder)
      else
        let id := Graph.topologyId builder.graph codec
        (.topologyId (some id), { builder with topologyId := some id })

end Builder

inductive BuilderCall where
  | addNodeEx (name semanticId : Option String) (callback : Option NodeCallback)
  | addEdgeEx (source target semanticId : Option String) (predicate : Predicate)
  | setEntry (name : Option String)
  | topologyId

section

variable (codec : JsonCodec)

def Builder.perform (memory : Builder.Memory) (builder : Builder) : BuilderCall → BuildStatus × Builder
  | .addNodeEx name semanticId callback => builder.addNodeEx memory name semanticId callback
  | .addEdgeEx source target semanticId predicate =>
      builder.addEdgeEx memory source target semanticId predicate
  | .setEntry name => builder.setEntry memory name
  | .topologyId => builder.getTopologyId memory codec

def Builder.run (builder : Builder) (calls : List (Builder.Memory × BuilderCall)) : Builder :=
  calls.foldl (fun builder call => (builder.perform codec call.1 call.2).2) builder

/-- What holds between calls.  Names of nodes are distinct, edges lead between nodes, the entry is
a node, the topology id is the one of the graph, and the arrays have room for what is in them. -/
structure Builder.Sound (builder : Builder) : Prop where
  names : (builder.graph.nodes.map Node.name).Nodup
  edges : ∀ edge ∈ builder.graph.edges,
    edge.fromIndex < builder.graph.nodes.length ∧ edge.toIndex < builder.graph.nodes.length
  entry : ∀ name, builder.graph.entryNode = some name →
    name ∈ builder.graph.nodes.map Node.name
  topologyId : ∀ id, builder.topologyId = some id → id = Graph.topologyId builder.graph codec
  nodeRoom : builder.graph.nodes.length ≤ builder.nodeCapacity
  edgeRoom : builder.graph.edges.length ≤ builder.edgeCapacity

end

variable {codec : JsonCodec} {memory : Builder.Memory} {builder : Builder}

theorem reserve_room {first count capacity room : Nat} (positive : 0 < first)
    (within : count ≤ capacity) (reserved : reserve memory first count capacity = some room) :
    count + 1 ≤ room ∧ capacity ≤ room := by
  unfold reserve at reserved
  split at reserved
  next =>
    cases reserved
    omega
  next full =>
    split at reserved
    next =>
      cases reserved
      split <;> omega
    next => cases reserved

theorem findNode_lt {graph : TurboGraph} {name : String} {node : Node} {index : Nat}
    (found : findNode graph name = some (node, index)) : index < graph.nodes.length :=
  (List.getElem?_eq_some_iff.mp (findNode_some found).2.2).1

theorem findNode_mem {graph : TurboGraph} {name : String} {entry : Node × Nat}
    (found : findNode graph name = some entry) : name ∈ graph.nodes.map Node.name := by
  obtain ⟨node, index⟩ := entry
  obtain ⟨listed, named, -⟩ := findNode_some found
  exact List.mem_map.mpr ⟨node, listed, named⟩

namespace Builder.Sound

theorem addNodeEx (sound : Sound codec builder) (name semanticId : Option String)
    (callback : Option NodeCallback) :
    Sound codec (builder.addNodeEx memory name semanticId callback).2 := by
  unfold Builder.addNodeEx
  split
  next name callback =>
    split
    next => exact sound
    next absent =>
      split
      next => exact sound
      next capacity reserved =>
        have room := reserve_room (by decide) sound.nodeRoom reserved
        split
        next => exact { sound with nodeRoom := sound.nodeRoom.trans room.2 }
        have fresh : name ∉ builder.graph.nodes.map Node.name := by
          intro member
          obtain ⟨node, listed, same⟩ := List.mem_map.mp member
          exact findNode_none.mp absent node listed same
        constructor
        case names =>
          rw [List.map_append]
          exact TurboAgent.Lists.nodup_snoc sound.names fresh
        case edges =>
          intro edge member
          have ends := sound.edges edge member
          simp only [List.length_append, List.length_singleton]
          omega
        case entry =>
          intro entry isEntry
          rw [List.map_append]
          exact List.mem_append_left _ (sound.entry entry isEntry)
        case topologyId => exact fun id kept => nomatch kept
        case nodeRoom => simpa using room.1
        case edgeRoom => exact sound.edgeRoom
  next => exact sound

theorem addEdgeEx (sound : Sound codec builder) (source target semanticId : Option String)
    (predicate : Predicate) :
    Sound codec (builder.addEdgeEx memory source target semanticId predicate).2 := by
  unfold Builder.addEdgeEx
  split
  next source target =>
    split
    next first fromIndex second toIndex isSource isTarget =>
      split
      next => exact sound
      next capacity reserved =>
        have room := reserve_room (by decide) sound.edgeRoom reserved
        split
        next => exact { sound with edgeRoom := sound.edgeRoom.trans room.2 }
        constructor
        case names => exact sound.names
        case edges =>
          exact Lists.forall_mem_snoc sound.edges ⟨findNode_lt isSource, findNode_lt isTarget⟩
        case entry => exact sound.entry
        case topologyId => exact fun id kept => nomatch kept
        case nodeRoom => exact sound.nodeRoom
        case edgeRoom => simpa using room.1
    next => exact sound
  next => exact sound

theorem setEntry (sound : Sound codec builder) (name : Option String) :
    Sound codec (builder.setEntry memory name).2 := by
  unfold Builder.setEntry
  split
  next name =>
    split
    next => exact sound
    next entry found =>
      split
      next => exact sound
      refine { sound with entry := ?_, topologyId := fun id kept => nomatch kept }
      rintro entry ⟨⟩
      exact findNode_mem found
  next => exact sound

theorem getTopologyId (sound : Sound codec builder) :
    Sound codec (builder.getTopologyId memory codec).2 := by
  unfold Builder.getTopologyId
  split
  next => exact sound
  split
  next => exact sound
  refine { sound with topologyId := ?_ }
  rintro id ⟨⟩
  rfl

theorem perform (sound : Sound codec builder) (call : BuilderCall) :
    Sound codec (builder.perform codec memory call).2 := by
  cases call with
  | addNodeEx name semanticId callback => exact sound.addNodeEx name semanticId callback
  | addEdgeEx source target semanticId predicate =>
      exact sound.addEdgeEx source target semanticId predicate
  | setEntry name => exact sound.setEntry name
  | topologyId => exact sound.getTopologyId

theorem run (sound : Sound codec builder) (calls : List (Builder.Memory × BuilderCall)) :
    Sound codec (builder.run codec calls) := by
  induction calls generalizing builder with
  | nil => exact sound
  | cons call calls ih => exact ih (sound.perform call.2)

end Builder.Sound

theorem sound_create (codec : JsonCodec) (name : String) : (Builder.create name).Sound codec where
  names := List.nodup_nil
  edges := by simp [Builder.create, create]
  entry := by simp [Builder.create, create]
  topologyId := by simp [Builder.create]
  nodeRoom := Nat.le_refl 0
  edgeRoom := Nat.le_refl 0

/-- A call that fails leaves the graph as it is, and so does asking for the topology id. -/
theorem perform_failed {call : BuilderCall} :
    ((builder.perform codec memory call).1.Failed ∨ call = .topologyId) →
      (builder.perform codec memory call).2.graph = builder.graph := by
  cases call with
  | addNodeEx name semanticId callback =>
      rw [Builder.perform]
      unfold Builder.addNodeEx
      split
      next =>
        split
        next => exact fun _ => rfl
        split
        next => exact fun _ => rfl
        split
        next => exact fun _ => rfl
        next => simp [BuildStatus.Failed]
      next => exact fun _ => rfl
  | addEdgeEx source target semanticId predicate =>
      rw [Builder.perform]
      unfold Builder.addEdgeEx
      split
      next =>
        split
        next =>
          split
          next => exact fun _ => rfl
          split
          next => exact fun _ => rfl
          next => simp [BuildStatus.Failed]
        next => exact fun _ => rfl
      next => exact fun _ => rfl
  | setEntry name =>
      rw [Builder.perform]
      unfold Builder.setEntry
      split
      next =>
        split
        next => exact fun _ => rfl
        split
        next => exact fun _ => rfl
        next => simp [BuildStatus.Failed]
      next => exact fun _ => rfl
  | topologyId =>
      intro _
      rw [Builder.perform]
      unfold Builder.getTopologyId
      split
      next => rfl
      next => split <;> rfl

theorem getTopologyId_eq (sound : builder.Sound codec) {id : String}
    (answered : (builder.getTopologyId memory codec).1 = .topologyId (some id)) :
    id = Graph.topologyId builder.graph codec := by
  unfold Builder.getTopologyId at answered
  split at answered
  next kept stored =>
    cases answered
    exact sound.topologyId id stored
  split at answered
  next => cases answered
  cases answered
  rfl

/-! ## Runs of calls -/

end TurboAgent.Graph
