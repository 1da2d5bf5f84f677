import TurboAgent.Logic.Loop
import TurboAgent.Provider.Sse

/-!
# Graphs

A graph has named nodes with callbacks and edges with predicates.  A run goes from node to node:
it calls the node, follows the node's own choice of the next one or the first edge whose
predicate holds, emits a checkpoint with the rest of the run, and stops before the nodes of an
interrupt set.

Callbacks are functions of the state, the node and the step.  Allocations succeed, and there is
neither a cancel token nor an event sink.
-/

namespace TurboAgent.Graph

open Logic
open Provider (JsonCodec)

/-- `turbo_graph_exec_status_t`, without cancellation and failed allocations. -/
inductive Status where
  | ok
  | stop
  | interrupted
  | error
  | stepLimit
  | routeNotFound
  | nodeNotFound
  | invalidArgument
  | duplicateNode
  | checkpointMismatch
  deriving DecidableEq

/-- What a node callback leaves: its result, the state, and the commands in its context. -/
structure Called where
  status : Int
  state : Json
  stop : Bool
  nextNode : Option String

abbrev NodeFn := Json → String → Nat → Called

/-- An edge predicate, of a state, a node and a step. -/
abbrev PredicateFn := Json → String → Nat → Int

inductive NodeCallback where
  | json (call : NodeFn)
  | jsonValue (call : NodeFn)

/-- `turbo_graph_node_kind_text`. -/
def NodeCallback.kindText : NodeCallback → String
  | .json _ => "json"
  | .jsonValue _ => "bind"

inductive Predicate where
  | always
  | json (holds : PredicateFn)
  | jsonValue (holds : PredicateFn)

/-- `turbo_graph_edge_predicate_kind_text`. -/
def Predicate.kindText : Predicate → String
  | .always => "always"
  | .json _ => "json_predicate"
  | .jsonValue _ => "json_value_predicate"

/-- `turbo_graph_node_entry_t`. -/
structure Node where
  (name semanticId : String)
  callback : NodeCallback

/-- `turbo_graph_edge_entry_t`. -/
structure Edge where
  (fromIndex toIndex : Nat)
  semanticId : String
  predicate : Predicate

/-- `turbo_graph_t`. -/
structure TurboGraph where
  name : String
  entryNode : Option String
  nodes : List Node
  edges : List Edge

/-- `turbo_graph_create`. -/
def create (name : String) : TurboGraph := ⟨name, none, [], []⟩

/-! ## Building -/

section

variable (graph : TurboGraph)

/-- `turbo_graph_find_node_index`, with the node. -/
def findNode (name : String) : Option (Node × Nat) :=
  graph.nodes.zipIdx.find? fun entry => entry.1.name == name

def nodeName (index : Nat) : String :=
  (graph.nodes[index]?.map Node.name).getD ""

/-- `turbo_graph_effective_semantic_id`. -/
def effectiveSemanticId (semanticId : Option String) (fallback : String) : String :=
  match semanticId with
  | some given => if given = "" then fallback else given
  | none => fallback

/-- `turbo_graph_join_edge_semantic_id`. -/
def joinEdgeSemanticId (source target : String) : String := source ++ "->" ++ target

/-- `turbo_graph_add_node_ex` and `turbo_graph_add_json_value_node_ex`. -/
def addNodeEx (name : String) (semanticId : Option String) (callback : NodeCallback) :
    Status × TurboGraph :=
  match findNode graph name with
  | some _ => (.duplicateNode, graph)
  | none =>
      (.ok, { graph with nodes :=
        graph.nodes ++ [⟨name, effectiveSemanticId semanticId name, callback⟩] })

/-- `turbo_graph_add_edge_ex` and `turbo_graph_add_json_value_edge_ex`. -/
def addEdgeEx (source target : String) (semanticId : Option String) (predicate : Predicate) :
    Status × TurboGraph :=
  match findNode graph source, findNode graph target with
  | some (_, fromIndex), some (_, toIndex) =>
      (.ok, { graph with edges := graph.edges ++ [⟨fromIndex, toIndex,
        effectiveSemanticId semanticId (joinEdgeSemanticId source target), predicate⟩] })
  | _, _ => (.nodeNotFound, graph)

/-- `turbo_graph_set_entry`. -/
def setEntry (name : String) : Status × TurboGraph :=
  match findNode graph name with
  | some _ => (.ok, { graph with entryNode := some name })
  | none => (.nodeNotFound, graph)

/-! ## Topology -/

/-- `turbo_graph_node_ptr_compare`. -/
def nodeCompare (left right : Node) : Ordering :=
  (compare left.semanticId right.semanticId).then ((compare left.name right.name).then
    (compare left.callback.kindText right.callback.kindText))

/-- `turbo_graph_edge_topology_ref_t`. -/
structure EdgeRef where
  (semanticId source target predicateKind : String)
  deriving DecidableEq

/-- `turbo_graph_edge_ptr_compare`. -/
def edgeCompare (left right : EdgeRef) : Ordering :=
  (compare left.semanticId right.semanticId).then ((compare left.source right.source).then
    ((compare left.target right.target).then (compare left.predicateKind right.predicateKind)))

def edgeRef (edge : Edge) : EdgeRef :=
  ⟨edge.semanticId, nodeName graph edge.fromIndex, nodeName graph edge.toIndex,
    edge.predicate.kindText⟩

def nodeJson (node : Node) : Json :=
  .object [("name", .string node.name), ("semantic_id", .string node.semanticId),
    ("kind", .string node.callback.kindText)]

def edgeJson (ref : EdgeRef) : Json :=
  .object [("from", .string ref.source), ("to", .string ref.target),
    ("semantic_id", .string ref.semanticId), ("predicate_kind", .string ref.predicateKind)]

/-- `turbo_graph_topology_json_create`: nodes and edges in a canonical order. -/
def topologyJson : Json :=
  .object [("graph_name", .string graph.name), ("entry_node", .string (graph.entryNode.getD "")),
    ("nodes", .array
      ((graph.nodes.mergeSort fun left right => (nodeCompare left right).isLE).map nodeJson)),
    ("edges", .array
      (((graph.edges.map (edgeRef graph)).mergeSort fun left right =>
        (edgeCompare left right).isLE).map edgeJson))]

/-- `turbo_graph_topology_id`. -/
def topologyId (codec : JsonCodec) : String := (codec.serialize (topologyJson graph)).val

end

/-! ## Running -/

/-- `turbo_graph_checkpoint_t`. -/
structure Checkpoint where
  nextNode : String
  steps : Nat
  state : Json
  topologyId : Option String
  deriving DecidableEq

/-- `turbo_graph_run_options_t`. -/
structure Options where
  maxSteps : Nat
  startNode : Option String
  interruptBeforeNodes : List String
  (skipInitialInterrupt checkpointCb : Bool)

/-- `turbo_graph_run_result_t`. -/
structure RunResult where
  status : Status
  (lastNode nextNode : Option String)
  steps : Nat
  deriving DecidableEq

/-- The variables of the loop, with the checkpoints emitted so far, the last one first. -/
structure Walk where
  currentNode : String
  lastNode : Option String
  steps : Nat
  state : Json
  skipInitialInterrupt : Bool
  emitted : List Checkpoint

structure Ended where
  result : RunResult
  state : Json
  emitted : List Checkpoint

inductive Routed where
  | next (name : String)
  | missing (name : String)
  | failed
  | nowhere (outgoing : Bool)
  deriving DecidableEq

section

variable (codec : JsonCodec) (graph : TurboGraph) (options : Options)

/-- `turbo_graph_should_interrupt_before`. -/
def shouldInterruptBefore (name : String) : Bool := options.interruptBeforeNodes.contains name

/-- `turbo_graph_emit_checkpoint_json_value`. -/
def emitCheckpoint (nextNode : String) (steps : Nat) (state : Json) (emitted : List Checkpoint) :
    List Checkpoint :=
  if options.checkpointCb then ⟨nextNode, steps, state, some (topologyId graph codec)⟩ :: emitted
  else emitted

/-- The call of a node; a plain callback must not name an unknown next node. -/
def callNode (node : Node) (state : Json) (step : Nat) : Except String Called :=
  match node.callback with
  | .jsonValue call => .ok (call state node.name step)
  | .json call =>
      let called := call state node.name step
      match called.nextNode with
      | none => .ok called
      | some next => if (findNode graph next).isSome then .ok called else .error next

/-- The first edge of a node whose predicate holds. -/
def routeEdges (index : Nat) (state : Json) (node : String) (step : Nat) :
    List Edge → Bool → Routed
  | [], outgoing => .nowhere outgoing
  | edge :: edges, outgoing =>
      if edge.fromIndex ≠ index then routeEdges index state node step edges outgoing
      else
        match edge.predicate with
        | .always => .next (nodeName graph edge.toIndex)
        | .json holds | .jsonValue holds =>
            if holds state node step < 0 then .failed
            else if 0 < holds state node step then .next (nodeName graph edge.toIndex)
            else routeEdges index state node step edges true

/-- The next node of a call: its own choice or an edge. -/
def resolveNext (node : Node) (index step : Nat) (called : Called) : Routed :=
  match called.nextNode with
  | some next => if (findNode graph next).isSome then .next next else .missing next
  | none => routeEdges graph index called.state node.name step graph.edges false

def concludeRound (walk : Walk) (node : Node) (index : Nat) (called : Called) : Walk ⊕ Ended :=
  let ended (status : Status) (nextNode : Option String) (emitted : List Checkpoint) : Walk ⊕ Ended :=
    .inr ⟨⟨status, some node.name, nextNode, walk.steps + 1⟩, called.state, emitted⟩
  let emit (nextNode : String) : List Checkpoint :=
    emitCheckpoint codec graph options nextNode (walk.steps + 1) called.state walk.emitted
  if called.status < 0 then ended .error none walk.emitted
  else if called.stop ∨ 0 < called.status then
    match called.nextNode with
    | none => ended .stop none walk.emitted
    | some next =>
        if (findNode graph next).isSome then ended .interrupted (some next) (emit next)
        else ended .nodeNotFound (some next) walk.emitted
  else
    match resolveNext graph node index walk.steps called with
    | .missing next => ended .nodeNotFound (some next) walk.emitted
    | .failed => ended .error none walk.emitted
    | .nowhere true => ended .routeNotFound none walk.emitted
    | .nowhere false => ended .ok none walk.emitted
    | .next next =>
        if shouldInterruptBefore options next then ended .interrupted (some next) (emit next)
        else .inl ⟨next, some node.name, walk.steps + 1, called.state, false, emit next⟩

/-- One round of `turbo_graph_run_internal_json_value`. -/
def round (walk : Walk) : Walk ⊕ Ended :=
  let ended (status : Status) (nextNode : String) (emitted : List Checkpoint) : Walk ⊕ Ended :=
    .inr ⟨⟨status, walk.lastNode, some nextNode, walk.steps⟩, walk.state, emitted⟩
  if 0 < options.maxSteps ∧ options.maxSteps ≤ walk.steps then
    ended .stepLimit walk.currentNode walk.emitted
  else if !walk.skipInitialInterrupt && shouldInterruptBefore options walk.currentNode then
    ended .interrupted walk.currentNode
      (emitCheckpoint codec graph options walk.currentNode walk.steps walk.state walk.emitted)
  else
    match findNode graph walk.currentNode with
    | none => ended .nodeNotFound walk.currentNode walk.emitted
    | some (node, index) =>
        match callNode graph node walk.state walk.steps with
        | .error next => ended .nodeNotFound next walk.emitted
        | .ok called => concludeRound codec graph options walk node index called

/-- The result of a run, the state it hands out, and the last checkpoint it emitted. -/
structure Outcome where
  result : RunResult
  state : Option Json
  checkpoint : Option Checkpoint
  deriving DecidableEq

def Status.handsOut : Status → Bool
  | .ok | .stop | .interrupted | .error => true
  | _ => false

def Ended.outcome (ended : Ended) : Outcome where
  result := ended.result
  state := if ended.result.status.handsOut then some ended.state else none
  checkpoint := ended.emitted.head?

def startWalk (node : String) (steps : Nat) (state : Json) : Walk :=
  ⟨node, none, steps, state, options.skipInitialInterrupt, []⟩

def refused (status : Status) (nextNode : Option String) (steps : Nat) : Outcome :=
  ⟨⟨status, none, nextNode, steps⟩, none, none⟩

/-- `turbo_graph_run_json_value`, within a number of rounds. -/
def runJsonValue (count : Nat) (state : Json) : Option Outcome :=
  match options.startNode <|> graph.entryNode with
  | none => some (refused .invalidArgument none 0)
  | some start =>
      (Loop.rounds (round codec graph options) count (startWalk options start 0 state)).map
        Ended.outcome

/-- `turbo_graph_checkpoint_matches_graph`. -/
def checkpointMatchesGraph (checkpoint : Checkpoint) : Bool :=
  checkpoint.topologyId == some (topologyId graph codec)

/-- `turbo_graph_run_checkpoint_json_value`, within a number of rounds. -/
def runCheckpointJsonValue (count : Nat) (checkpoint : Checkpoint) : Option Outcome :=
  if checkpointMatchesGraph codec graph checkpoint then
    (Loop.rounds (round codec graph options) count
      (startWalk options checkpoint.nextNode checkpoint.steps checkpoint.state)).map Ended.outcome
  else some (refused .checkpointMismatch (some checkpoint.nextNode) checkpoint.steps)

end

end TurboAgent.Graph
