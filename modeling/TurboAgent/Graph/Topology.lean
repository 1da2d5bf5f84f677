import TurboAgent.Graph.Model

/-!
# Topology and routing

The topology of a graph lists its nodes and edges in a canonical order, and a checkpoint may be
resumed on any graph with the same topology.  A run takes the first edge whose predicate holds,
in the order in which the edges were added, and that order is not part of the topology.  Two
graphs with the same topology run alike, whatever their callbacks are, exactly when each node
asks the same predicates in the same order.
-/

namespace TurboAgent.Graph

open Logic
open Provider (JsonCodec)

/-! ## Routes -/

/-- An edge as routing sees it: the semantic id of its predicate, if it has one, and the name of
its target. -/
abbrev Route := Option String × String

def follow (holds : String → Int) : List Route → Bool → Routed
  | [], outgoing => .nowhere outgoing
  | (none, target) :: _, _ => .next target
  | (some id, target) :: routes, _ =>
      if holds id < 0 then .failed
      else if 0 < holds id then .next target
      else follow holds routes true

/-- The routes that a run can come to: up to the first one without a predicate, and without those
whose predicate was asked before. -/
def reachableRoutes : List String → List Route → List Route
  | _, [] => []
  | _, (none, target) :: _ => [(none, target)]
  | asked, (some id, target) :: routes =>
      if id ∈ asked then reachableRoutes asked routes
      else (some id, target) :: reachableRoutes (id :: asked) routes

/-- Routes with distinct predicates, none of which was asked before, and one without a predicate
only at the end. -/
def Distinct : List String → List Route → Prop
  | _, [] => True
  | _, (none, _) :: routes => routes = []
  | asked, (some id, _) :: routes => id ∉ asked ∧ Distinct (id :: asked) routes

theorem distinct_reachable (asked : List String) (routes : List Route) :
    Distinct asked (reachableRoutes asked routes) := by
  induction routes generalizing asked with
  | nil => trivial
  | cons route routes ih =>
      obtain ⟨id, target⟩ := route
      cases id with
      | none => rfl
      | some id =>
          rw [reachableRoutes]
          split
          next => exact ih asked
          next fresh => exact ⟨fresh, ih (id :: asked)⟩

variable {holds : String → Int} {asked : List String}

theorem follow_reachable {outgoing : Bool} (passed : ∀ id ∈ asked, holds id = 0)
    (counted : asked ≠ [] → outgoing = true) (routes : List Route) :
    follow holds (reachableRoutes asked routes) outgoing = follow holds routes outgoing := by
  induction routes generalizing asked outgoing with
  | nil => rfl
  | cons route routes ih =>
      obtain ⟨id, target⟩ := route
      cases id with
      | none => rfl
      | some id =>
          rw [reachableRoutes]
          split
          next before =>
            rw [ih passed counted, follow, passed id before, if_neg (by decide),
              if_neg (by decide), counted (List.ne_nil_of_mem before)]
          rw [follow, follow]
          split
          next => rfl
          next notFailed =>
            split
            next => rfl
            next notHolds =>
              have zero : holds id = 0 := by omega
              refine ih ?_ fun _ => rfl
              exact List.forall_mem_cons.mpr ⟨zero, passed⟩

theorem follow_congr {routes : List Route} (distinct : Distinct asked routes) {other : String → Int}
    (same : ∀ id, id ∉ asked → holds id = other id) (outgoing : Bool) :
    follow holds routes outgoing = follow other routes outgoing := by
  induction routes generalizing asked outgoing with
  | nil => rfl
  | cons route routes ih =>
      obtain ⟨id, target⟩ := route
      cases id with
      | none => rfl
      | some id =>
          obtain ⟨fresh, rest⟩ := distinct
          rw [follow, follow, same id fresh]
          rw [ih rest fun id fresh => same id fun member => fresh (List.mem_cons_of_mem _ member)]

theorem follow_first {id target : String} {routes : List Route} {outgoing : Bool}
    (zero : holds id = 0) :
    follow holds ((some id, target) :: routes) outgoing = follow holds routes true := by
  rw [follow, zero, if_neg (by decide), if_neg (by decide)]

/-- Distinct routes that lead to the same nodes for all predicates are the same. -/
theorem distinct_routes_eq {left right : List Route} (distinct : Distinct asked left)
    (distinct' : Distinct asked right) (outgoing : Bool)
    (same : ∀ holds, follow holds left outgoing = follow holds right outgoing) : left = right := by
  induction left generalizing asked right outgoing with
  | nil =>
      cases right with
      | nil => rfl
      | cons route routes =>
          obtain ⟨id, target⟩ := route
          have one := same fun _ => 1
          cases id with
          | none => cases one
          | some id => cases one
  | cons route left ih =>
      obtain ⟨id, target⟩ := route
      cases right with
      | nil =>
          have one := same fun _ => 1
          cases id with
          | none => cases one
          | some id => cases one
      | cons route' right =>
          obtain ⟨id', target'⟩ := route'
          cases id with
          | none =>
              cases id' with
              | none =>
                  cases same fun _ => 0
                  cases distinct
                  cases distinct'
                  rfl
              | some id' => cases same fun _ => -1
          | some id =>
              cases id' with
              | none => cases same fun _ => -1
              | some id' =>
                  by_cases sameId : id = id'
                  · subst sameId
                    have targets := same fun _ => 1
                    cases targets
                    obtain ⟨_, rest⟩ := distinct
                    obtain ⟨_, rest'⟩ := distinct'
                    refine congrArg _ (ih rest rest' true fun holds => ?_)
                    -- With the first predicate set to zero, both sides go on to the rest.
                    have passed := same (Function.update holds id 0)
                    rw [follow_first (Function.update_self ..),
                      follow_first (Function.update_self ..)] at passed
                    have unchanged : ∀ other, other ∉ id :: asked →
                        Function.update holds id 0 other = holds other := by
                      intro other fresh
                      have apart : other ≠ id := List.ne_of_not_mem_cons fresh
                      exact Function.update_of_ne apart ..
                    rwa [follow_congr rest unchanged, follow_congr rest' unchanged] at passed
                  · have apart := same fun key => if key = id then 1 else -1
                    rw [follow, follow, if_pos rfl, if_neg (Ne.symm sameId)] at apart
                    cases apart

/-- Two lists of routes lead to the same nodes for all predicates exactly when they have the same
reachable routes. -/
theorem follow_same_iff (left right : List Route) :
    (∀ holds, follow holds left false = follow holds right false) ↔
      reachableRoutes [] left = reachableRoutes [] right := by
  have trimmed : ∀ routes holds,
      follow holds (reachableRoutes [] routes) false = follow holds routes false :=
    fun routes _ => follow_reachable (by simp) (by simp) routes
  constructor
  · intro same
    refine distinct_routes_eq (distinct_reachable [] left) (distinct_reachable [] right) false ?_
    intro holds
    rw [trimmed, trimmed, same holds]
  · intro same holds
    rw [← trimmed left, ← trimmed right, same]

/-! ## Built graphs -/

/-- The functions that callbacks are taken from: by node name, and by semantic id. -/
structure Callbacks where
  node : String → NodeFn
  predicate : String → PredicateFn

inductive EdgeKind where
  | always
  | json
  | jsonValue
  deriving DecidableEq

def EdgeKind.predicate (kind : EdgeKind) (holds : PredicateFn) : Predicate :=
  match kind with
  | .always => .always
  | .json => .json holds
  | .jsonValue => .jsonValue holds

inductive BuildCall where
  | addNodeEx (name : String) (semanticId : Option String)
  | addJsonValueNodeEx (name : String) (semanticId : Option String)
  | addEdgeEx (source target : String) (semanticId : Option String) (kind : EdgeKind)
  | setEntry (name : String)

section

variable (callbacks : Callbacks)

/-- One call, with the callbacks that belong to its names. -/
def performBuild (graph : TurboGraph) : BuildCall → TurboGraph
  | .addNodeEx name semanticId =>
      (addNodeEx graph name semanticId (.json (callbacks.node name))).2
  | .addJsonValueNodeEx name semanticId =>
      (addNodeEx graph name semanticId (.jsonValue (callbacks.node name))).2
  | .addEdgeEx source target semanticId kind =>
      (addEdgeEx graph source target semanticId (kind.predicate (callbacks.predicate
        (effectiveSemanticId semanticId (joinEdgeSemanticId source target))))).2
  | .setEntry name => (setEntry graph name).2

def build (name : String) (calls : List BuildCall) : TurboGraph :=
  calls.foldl (performBuild callbacks) (create name)

/-- A graph whose nodes have distinct names and whose callbacks belong to its names. -/
structure Built (graph : TurboGraph) : Prop where
  names : (graph.nodes.map Node.name).Nodup
  nodes : ∀ node ∈ graph.nodes, node.callback = .json (callbacks.node node.name) ∨
    node.callback = .jsonValue (callbacks.node node.name)
  edges : ∀ edge ∈ graph.edges,
    ∃ kind : EdgeKind, edge.predicate = kind.predicate (callbacks.predicate edge.semanticId)

variable {callbacks} {graph other : TurboGraph}
variable {name : String} {node : Node}

theorem findNode_some {index : Nat} (found : findNode graph name = some (node, index)) :
    node ∈ graph.nodes ∧ node.name = name ∧ graph.nodes[index]? = some node := by
  have member := List.mem_of_find?_eq_some found
  have named := List.find?_some found
  rw [List.mem_zipIdx_iff_getElem?] at member
  exact ⟨List.mem_of_getElem? member, by simpa using named, member⟩

theorem findNode_none : findNode graph name = none ↔ ∀ node ∈ graph.nodes, node.name ≠ name := by
  rw [findNode, List.find?_eq_none]
  constructor
  · intro absent node member same
    obtain ⟨index, within, rfl⟩ := List.mem_iff_getElem.mp member
    refine absent (graph.nodes[index], index) ?_ (by simpa using same)
    rw [List.mem_zipIdx_iff_getElem?]
    exact List.getElem?_eq_getElem within
  · intro absent entry member named
    rw [List.mem_zipIdx_iff_getElem?] at member
    exact absent entry.1 (List.mem_of_getElem? member) (by simpa using named)

/-- Names of nodes are distinct, so a node with the name is the one that is found. -/
theorem Built.find (built : Built callbacks graph) (member : node ∈ graph.nodes) :
    (findNode graph node.name).map Prod.fst = some node := by
  cases found : findNode graph node.name with
  | none => exact absurd rfl (findNode_none.mp found node member)
  | some entry =>
      obtain ⟨listed, named, _⟩ := findNode_some found
      exact congrArg some (List.inj_on_of_nodup_map built.names listed member named)

theorem Built.addNode (built : Built callbacks graph) (semanticId : Option String)
    {callback : NodeCallback}
    (own : callback = .json (callbacks.node name) ∨ callback = .jsonValue (callbacks.node name)) :
    Built callbacks (addNodeEx graph name semanticId callback).2 := by
  unfold addNodeEx
  split
  next => exact built
  next absent =>
    refine ⟨?_, ?_, built.edges⟩
    · rw [List.map_append]
      refine built.names.append (List.nodup_singleton _) ?_
      intro taken before single
      obtain ⟨node, member, rfl⟩ := List.mem_map.mp before
      exact findNode_none.mp absent node member (List.mem_singleton.mp single)
    · exact List.forall_mem_append.mpr ⟨built.nodes, List.forall_mem_singleton.mpr own⟩

theorem Built.perform (built : Built callbacks graph) (call : BuildCall) :
    Built callbacks (performBuild callbacks graph call) := by
  cases call with
  | addNodeEx name semanticId => exact built.addNode semanticId (.inl rfl)
  | addJsonValueNodeEx name semanticId => exact built.addNode semanticId (.inr rfl)
  | addEdgeEx source target semanticId kind =>
      rw [performBuild, addEdgeEx]
      split
      next =>
        refine ⟨built.names, built.nodes, ?_⟩
        exact List.forall_mem_append.mpr ⟨built.edges, List.forall_mem_singleton.mpr ⟨kind, rfl⟩⟩
      next => exact built
  | setEntry name =>
      rw [performBuild, setEntry]
      split
      next => exact ⟨built.names, built.nodes, built.edges⟩
      next => exact built

theorem built_build (callbacks : Callbacks) (name : String) (calls : List BuildCall) :
    Built callbacks (build callbacks name calls) := by
  have keeps : ∀ (calls : List BuildCall) (graph : TurboGraph), Built callbacks graph →
      Built callbacks (calls.foldl (performBuild callbacks) graph) := by
    intro calls
    induction calls with
    | nil => exact fun _ built => built
    | cons call calls ih => exact fun graph built => ih _ (built.perform call)
  exact keeps calls (create name) ⟨List.nodup_nil, by simp [create], by simp [create]⟩

/-! ## Routes of a graph -/

def routeOf (graph : TurboGraph) (edge : Edge) : Route :=
  match edge.predicate with
  | .always => (none, nodeName graph edge.toIndex)
  | _ => (some edge.semanticId, nodeName graph edge.toIndex)

/-- The routes from a node, in the order of the edges. -/
def routesFrom (graph : TurboGraph) (index : Nat) : List Edge → List Route
  | [] => []
  | edge :: edges =>
      if edge.fromIndex ≠ index then routesFrom graph index edges
      else routeOf graph edge :: routesFrom graph index edges

def routes (graph : TurboGraph) (name : String) : List Route :=
  match findNode graph name with
  | none => []
  | some (_, index) => routesFrom graph index graph.edges

theorem routeEdges_eq (built : Built callbacks graph) (index : Nat) (state : Json) (node : String)
    (step : Nat) {edges : List Edge} (within : ∀ edge ∈ edges, edge ∈ graph.edges)
    (outgoing : Bool) :
    routeEdges graph index state node step edges outgoing =
      follow (fun id => callbacks.predicate id state node step) (routesFrom graph index edges)
        outgoing := by
  induction edges generalizing outgoing with
  | nil => rfl
  | cons edge edges ih =>
      have rest := ih fun edge member => within edge (List.mem_cons_of_mem _ member)
      rw [routeEdges, routesFrom]
      split
      next => exact rest outgoing
      obtain ⟨kind, own⟩ := built.edges edge (within edge List.mem_cons_self)
      rw [routeOf, own, rest true]
      cases kind with
      | always => rfl
      | json => rfl
      | jsonValue => rfl

theorem routeEdges_routes (built : Built callbacks graph) {index : Nat}
    (found : findNode graph name = some (node, index)) (state : Json) (step : Nat) :
    routeEdges graph index state node.name step graph.edges false =
      follow (fun id => callbacks.predicate id state name step) (routes graph name) false := by
  rw [routes, found, (findNode_some found).2.1]
  exact routeEdges_eq built index state name step (fun _ member => member) false

/-! ## Graphs with the same topology -/

/-- Both graphs have the same nodes, whatever their order is. -/
def SameNodes (graph other : TurboGraph) : Prop :=
  ∀ name, (findNode graph name).map Prod.fst = (findNode other name).map Prod.fst

theorem nodeJson_injective {left right : Node} (same : nodeJson left = nodeJson right) :
    left.name = right.name ∧ left.semanticId = right.semanticId ∧
      left.callback.kindText = right.callback.kindText := by
  simpa [nodeJson] using same

theorem mem_of_topology (built : Built callbacks graph) (built' : Built callbacks other)
    (same : topologyJson graph = topologyJson other) (member : node ∈ graph.nodes) :
    node ∈ other.nodes := by
  have documents : (graph.nodes.mergeSort fun left right => (nodeCompare left right).isLE).map
      nodeJson = (other.nodes.mergeSort fun left right => (nodeCompare left right).isLE).map
        nodeJson := by
    simp only [topologyJson, Json.object.injEq, List.cons.injEq, Prod.mk.injEq, Json.array.injEq,
      true_and, and_true] at same
    exact same.2.2.1
  have listed : nodeJson node ∈ (other.nodes.mergeSort fun left right =>
      (nodeCompare left right).isLE).map nodeJson := by
    rw [← documents]
    exact List.mem_map_of_mem ((List.mergeSort_perm _ _).mem_iff.mpr member)
  obtain ⟨twin, sorted, document⟩ := List.mem_map.mp listed
  have twinMember := (List.mergeSort_perm _ _).mem_iff.mp sorted
  obtain ⟨name, semanticId, kind⟩ := nodeJson_injective document
  have callback : twin.callback = node.callback := by
    rcases built.nodes node member with own | own <;>
      rcases built'.nodes twin twinMember with own' | own'
    · rw [own, own', name]
    · rw [own, own'] at kind
      exact absurd kind (by simp [NodeCallback.kindText])
    · rw [own, own'] at kind
      exact absurd kind (by simp [NodeCallback.kindText])
    · rw [own, own', name]
  have equal : twin = node := by
    cases twin
    cases node
    exact (Node.mk.injEq ..).mpr ⟨name, semanticId, callback⟩
  exact equal ▸ twinMember

theorem sameNodes_of_topology (built : Built callbacks graph) (built' : Built callbacks other)
    (same : topologyJson graph = topologyJson other) : SameNodes graph other := by
  intro name
  cases found : findNode graph name with
  | none =>
      have absent : findNode other name = none := findNode_none.mpr fun node member =>
        findNode_none.mp found node (mem_of_topology built' built same.symm member)
      rw [absent]
  | some entry =>
      obtain ⟨member, rfl, _⟩ := findNode_some found
      exact (built'.find (mem_of_topology built built' same member)).symm

theorem SameNodes.isSome (nodes : SameNodes graph other) (name : String) :
    (findNode graph name).isSome = (findNode other name).isSome := by
  have same := congrArg Option.isSome (nodes name)
  rwa [Option.isSome_map, Option.isSome_map] at same

theorem SameNodes.callNode (nodes : SameNodes graph other) (node : Node) (state : Json)
    (step : Nat) : callNode graph node state step = callNode other node state step := by
  unfold Graph.callNode
  cases node.callback with
  | jsonValue call => rfl
  | json call =>
      dsimp only
      cases (call state node.name step).nextNode with
      | none => rfl
      | some next =>
          dsimp only
          rw [nodes.isSome]

theorem round_same (codec : JsonCodec) (built : Built callbacks graph)
    (built' : Built callbacks other) (nodes : SameNodes graph other)
    (sameId : topologyId graph codec = topologyId other codec)
    (sameRoutes : ∀ name, reachableRoutes [] (routes graph name) =
      reachableRoutes [] (routes other name)) (options : Options) :
    round codec graph options = round codec other options := by
  funext walk
  have emits : ∀ nextNode steps state emitted,
      emitCheckpoint codec graph options nextNode steps state emitted =
        emitCheckpoint codec other options nextNode steps state emitted := by
    intro nextNode steps state emitted
    rw [emitCheckpoint, sameId, emitCheckpoint]
  unfold round
  rw [emits]
  have found := nodes walk.currentNode
  cases here : findNode graph walk.currentNode with
  | none =>
      rw [here] at found
      rw [Option.map_eq_none_iff.mp found.symm]
  | some entry =>
      obtain ⟨node, index⟩ := entry
      rw [here] at found
      obtain ⟨⟨twin, index'⟩, there, same⟩ := Option.map_eq_some_iff.mp found.symm
      cases same
      rw [there]
      dsimp only
      rw [nodes.callNode]
      cases Graph.callNode other node walk.state walk.steps with
      | error next => rfl
      | ok called =>
          have resolved : resolveNext graph node index walk.steps called =
              resolveNext other node index' walk.steps called := by
            unfold resolveNext
            cases called.nextNode with
            | some next =>
                dsimp only
                rw [nodes.isSome]
            | none =>
                dsimp only
                rw [routeEdges_routes built here, routeEdges_routes built' there]
                exact (follow_same_iff _ _).mpr (sameRoutes walk.currentNode) _
          unfold concludeRound
          dsimp only
          rw [resolved]
          simp only [emits, nodes.isSome]

end

/-! ## Without callbacks -/

def idleCallbacks : Callbacks where
  node _ state _ _ := ⟨0, state, false, none⟩
  predicate _ _ _ _ := 0

def Node.outline (node : Node) : Node :=
  { node with callback :=
    match node.callback with
    | .json _ => .json (idleCallbacks.node node.name)
    | .jsonValue _ => .jsonValue (idleCallbacks.node node.name) }

/-- An edge with a predicate that never holds, if it has one. -/
def Edge.outline (edge : Edge) : Edge :=
  { edge with predicate :=
    match edge.predicate with
    | .always => .always
    | .json _ => .json (idleCallbacks.predicate edge.semanticId)
    | .jsonValue _ => .jsonValue (idleCallbacks.predicate edge.semanticId) }

def outlineGraph (graph : TurboGraph) : TurboGraph :=
  { graph with nodes := graph.nodes.map Node.outline, edges := graph.edges.map Edge.outline }

section

variable {callbacks : Callbacks} (graph : TurboGraph)

theorem findNode_outline (name : String) :
    findNode (outlineGraph graph) name =
      (findNode graph name).map fun entry => (entry.1.outline, entry.2) := by
  unfold findNode outlineGraph
  rw [List.zipIdx_map, List.find?_map]
  rfl

theorem nodeName_outline (index : Nat) : nodeName (outlineGraph graph) index = nodeName graph index := by
  unfold nodeName outlineGraph
  rw [List.getElem?_map, Option.map_map]
  rfl

theorem routeOf_outline (edge : Edge) :
    routeOf (outlineGraph graph) edge.outline = routeOf graph edge := by
  unfold routeOf
  rw [nodeName_outline]
  rcases edge with ⟨_, _, _, predicate⟩
  cases predicate with
  | always => rfl
  | json holds => rfl
  | jsonValue holds => rfl

theorem routesFrom_outline (index : Nat) (edges : List Edge) :
    routesFrom (outlineGraph graph) index (edges.map Edge.outline) = routesFrom graph index edges := by
  induction edges with
  | nil => rfl
  | cons edge edges ih =>
      rw [List.map_cons, routesFrom, routesFrom, routeOf_outline, ih]
      rfl

theorem routes_outline (name : String) : routes (outlineGraph graph) name = routes graph name := by
  unfold routes
  rw [findNode_outline]
  cases findNode graph name with
  | none => rfl
  | some entry => exact routesFrom_outline graph entry.2 graph.edges

theorem kindText_outline (node : Node) :
    node.outline.callback.kindText = node.callback.kindText := by
  rcases node with ⟨_, _, callback⟩
  cases callback with
  | json call => rfl
  | jsonValue call => rfl

theorem edgeRef_outline (edge : Edge) :
    edgeRef (outlineGraph graph) edge.outline = edgeRef graph edge := by
  unfold edgeRef
  rw [nodeName_outline, nodeName_outline]
  rcases edge with ⟨_, _, _, predicate⟩
  cases predicate with
  | always => rfl
  | json holds => rfl
  | jsonValue holds => rfl

theorem topologyJson_outline : topologyJson (outlineGraph graph) = topologyJson graph := by
  have documents : ∀ nodes : List Node, (nodes.map Node.outline).map nodeJson =
      nodes.map nodeJson := by
    intro nodes
    rw [List.map_map]
    refine List.map_congr_left fun node _ => ?_
    rw [Function.comp_apply, nodeJson, kindText_outline]
    rfl
  have sorted : (graph.nodes.map Node.outline).mergeSort
      (fun left right => (nodeCompare left right).isLE) =
        (graph.nodes.mergeSort fun left right => (nodeCompare left right).isLE).map
          Node.outline := by
    refine (List.map_mergeSort fun left _ right _ => ?_).symm
    rw [nodeCompare, nodeCompare, kindText_outline, kindText_outline]
    rfl
  have references : (graph.edges.map Edge.outline).map (edgeRef (outlineGraph graph)) =
      graph.edges.map (edgeRef graph) := by
    rw [List.map_map]
    exact List.map_congr_left fun edge _ => edgeRef_outline graph edge
  unfold topologyJson
  rw [show (outlineGraph graph).nodes = graph.nodes.map Node.outline from rfl,
    show (outlineGraph graph).edges = graph.edges.map Edge.outline from rfl, sorted, documents,
    references]
  rfl

theorem outline_perform (call : BuildCall) :
    outlineGraph (performBuild callbacks graph call) =
      performBuild idleCallbacks (outlineGraph graph) call := by
  cases call with
  | addNodeEx name semanticId =>
      rw [performBuild, performBuild, addNodeEx, addNodeEx, findNode_outline]
      cases findNode graph name with
      | some entry => rfl
      | none => simp [outlineGraph, Node.outline]
  | addJsonValueNodeEx name semanticId =>
      rw [performBuild, performBuild, addNodeEx, addNodeEx, findNode_outline]
      cases findNode graph name with
      | some entry => rfl
      | none => simp [outlineGraph, Node.outline]
  | addEdgeEx source target semanticId kind =>
      rw [performBuild, performBuild, addEdgeEx, addEdgeEx, findNode_outline, findNode_outline]
      cases findNode graph source with
      | none => rfl
      | some entry =>
          cases findNode graph target with
          | none => rfl
          | some entry' => cases kind <;> simp [outlineGraph, Edge.outline, EdgeKind.predicate]
  | setEntry name =>
      rw [performBuild, performBuild, setEntry, setEntry, findNode_outline]
      cases findNode graph name with
      | some entry => rfl
      | none => rfl

end

theorem outline_build (callbacks : Callbacks) (name : String) (calls : List BuildCall) :
    outlineGraph (build callbacks name calls) = build idleCallbacks name calls := by
  have steps : ∀ (calls : List BuildCall) (graph : TurboGraph),
      outlineGraph (calls.foldl (performBuild callbacks) graph) =
        calls.foldl (performBuild idleCallbacks) (outlineGraph graph) := by
    intro calls
    induction calls with
    | nil => exact fun _ => rfl
    | cons call calls ih =>
        intro graph
        rw [List.foldl_cons, ih, outline_perform, List.foldl_cons]
  exact steps calls (create name)

theorem routes_build (callbacks : Callbacks) (name : String) (calls : List BuildCall)
    (node : String) :
    routes (build callbacks name calls) node = routes (build idleCallbacks name calls) node := by
  rw [← routes_outline, outline_build]

theorem topologyJson_build (callbacks : Callbacks) (name : String) (calls : List BuildCall) :
    topologyJson (build callbacks name calls) = topologyJson (build idleCallbacks name calls) := by
  rw [← topologyJson_outline, outline_build]

/-! ## Resuming on another graph -/

/-- What a resume on another graph must not change. -/
def Outcome.summary (outcome : Outcome) : Status × Nat × Option String × Option Json :=
  (outcome.result.status, outcome.result.steps, outcome.result.nextNode, outcome.state)

def RunsTo (codec : JsonCodec) (graph : TurboGraph) (options : Options) (checkpoint : Checkpoint)
    (summary : Status × Nat × Option String × Option Json) : Prop :=
  ∃ count outcome, runCheckpointJsonValue codec graph options count checkpoint = some outcome ∧
    outcome.summary = summary

/-- Every checkpoint that fits both graphs runs to the same outcomes on both, whatever callbacks
belong to their names. -/
def ResumesAlike (codec : JsonCodec) (name name' : String) (calls calls' : List BuildCall) : Prop :=
  ∀ (callbacks : Callbacks) (options : Options) (checkpoint : Checkpoint),
    checkpointMatchesGraph codec (build callbacks name calls) checkpoint = true →
    checkpointMatchesGraph codec (build callbacks name' calls') checkpoint = true →
    ∀ summary, RunsTo codec (build callbacks name calls) options checkpoint summary ↔
      RunsTo codec (build callbacks name' calls') options checkpoint summary

theorem RunsTo.unique {codec : JsonCodec} {graph : TurboGraph} {options : Options}
    {checkpoint : Checkpoint} {left right : Status × Nat × Option String × Option Json}
    (runs : RunsTo codec graph options checkpoint left)
    (runs' : RunsTo codec graph options checkpoint right) : left = right := by
  obtain ⟨count, outcome, ran, rfl⟩ := runs
  obtain ⟨count', outcome', ran', rfl⟩ := runs'
  unfold runCheckpointJsonValue at ran ran'
  split at ran
  next fits =>
    rw [if_pos fits] at ran'
    obtain ⟨ended, within, rfl⟩ := Option.map_eq_some_iff.mp ran
    obtain ⟨ended', within', rfl⟩ := Option.map_eq_some_iff.mp ran'
    rw [Loop.Ends.unique ⟨count, within⟩ ⟨count', within'⟩]
  next mismatch =>
    rw [if_neg mismatch] at ran'
    cases ran
    cases ran'
    rfl

/-- The end of a run of one step over nodes that do nothing. -/
def probeSummary : Routed → Status × Nat × Option String × Option Json
  | .next target => (.stepLimit, 1, some target, none)
  | .missing target => (.nodeNotFound, 1, some target, none)
  | .failed => (.error, 1, none, some .null)
  | .nowhere true => (.routeNotFound, 1, none, none)
  | .nowhere false => (.ok, 1, none, some .null)

theorem probeSummary_injective : Function.Injective probeSummary := by
  intro left right same
  rcases left with _ | _ | _ | (_ | _) <;> rcases right with _ | _ | _ | (_ | _) <;>
    simp_all [probeSummary]

/-- Callbacks that do nothing, with given results of the predicates. -/
def probeCallbacks (holds : String → Int) : Callbacks where
  node := idleCallbacks.node
  predicate id _ _ _ := holds id

def probeOptions : Options := ⟨1, none, [], false, false⟩

/-- The round of such a run after the call of a node. -/
def probeRound (name : String) : Routed → Walk ⊕ Ended
  | .missing next => .inr ⟨⟨.nodeNotFound, some name, some next, 1⟩, .null, []⟩
  | .failed => .inr ⟨⟨.error, some name, none, 1⟩, .null, []⟩
  | .nowhere true => .inr ⟨⟨.routeNotFound, some name, none, 1⟩, .null, []⟩
  | .nowhere false => .inr ⟨⟨.ok, some name, none, 1⟩, .null, []⟩
  | .next next => .inl ⟨next, some name, 1, .null, false, []⟩

theorem probe_runs {codec : JsonCodec} {graph : TurboGraph}
    (built : Built (probeCallbacks holds) graph) {node : String}
    (known : (findNode graph node).isSome = true) {topologyId : Option String}
    (fits : checkpointMatchesGraph codec graph ⟨node, 0, .null, topologyId⟩ = true) :
    RunsTo codec graph probeOptions ⟨node, 0, .null, topologyId⟩
      (probeSummary (follow holds (routes graph node) false)) := by
  obtain ⟨⟨entry, index⟩, found⟩ := Option.isSome_iff_exists.mp known
  have called : callNode graph entry .null 0 = .ok ⟨0, .null, false, none⟩ := by
    rcases built.nodes entry (findNode_some found).1 with own | own <;> rw [callNode, own] <;> rfl
  have routed : resolveNext graph entry index 0 ⟨0, .null, false, none⟩ =
      follow holds (routes graph node) false := routeEdges_routes built found .null 0
  have first : round codec graph probeOptions (startWalk probeOptions node 0 .null) =
      concludeRound codec graph probeOptions (startWalk probeOptions node 0 .null) entry index
        ⟨0, .null, false, none⟩ := by
    unfold round startWalk
    dsimp only
    rw [found]
    dsimp only
    rw [called]
    rfl
  have concluded : concludeRound codec graph probeOptions (startWalk probeOptions node 0 .null)
      entry index ⟨0, .null, false, none⟩ =
        probeRound entry.name (follow holds (routes graph node) false) := by
    rw [← routed]
    rfl
  have runs : ∀ ended, Loop.Ends (round codec graph probeOptions)
      (startWalk probeOptions node 0 .null) ended →
        RunsTo codec graph probeOptions ⟨node, 0, .null, topologyId⟩ ended.outcome.summary := by
    rintro ended ⟨count, within⟩
    refine ⟨count, ended.outcome, ?_, rfl⟩
    rw [runCheckpointJsonValue, if_pos fits]
    exact Option.map_eq_some_iff.mpr ⟨ended, within, rfl⟩
  rw [concluded] at first
  cases next : follow holds (routes graph node) false with
  | next target =>
      rw [next] at first
      exact runs ⟨⟨.stepLimit, some entry.name, some target, 1⟩, .null, []⟩
        (.step first (.done rfl))
  | missing target =>
      rw [next] at first
      exact runs _ (.done first)
  | failed =>
      rw [next] at first
      exact runs _ (.done first)
  | nowhere outgoing =>
      rw [next] at first
      cases outgoing with
      | true => exact runs _ (.done first)
      | false => exact runs _ (.done first)

section

variable {codec : JsonCodec} {name name' : String} {calls calls' : List BuildCall}

theorem topology_same (same : topologyJson (build idleCallbacks name calls) =
    topologyJson (build idleCallbacks name' calls')) (callbacks : Callbacks) :
    topologyJson (build callbacks name calls) = topologyJson (build callbacks name' calls') := by
  rw [topologyJson_build, same, ← topologyJson_build]

theorem build_sameNodes (same : topologyJson (build idleCallbacks name calls) =
    topologyJson (build idleCallbacks name' calls')) (callbacks : Callbacks) :
    SameNodes (build callbacks name calls) (build callbacks name' calls') :=
  sameNodes_of_topology (built_build callbacks name calls) (built_build callbacks name' calls')
    (topology_same same callbacks)

/-- Runs of one step show the routes of a node for any results of the predicates. -/
theorem sameRoutes_of_resumesAlike (same : topologyJson (build idleCallbacks name calls) =
      topologyJson (build idleCallbacks name' calls'))
    (alike : ResumesAlike codec name name' calls calls') (node : String) :
    reachableRoutes [] (routes (build idleCallbacks name calls) node) =
      reachableRoutes [] (routes (build idleCallbacks name' calls') node) := by
  refine (follow_same_iff _ _).mp fun holds => ?_
  rw [← routes_build (probeCallbacks holds) name calls node,
    ← routes_build (probeCallbacks holds) name' calls' node]
  have nodes := build_sameNodes same (probeCallbacks holds)
  cases known : (findNode (build (probeCallbacks holds) name calls) node).isSome with
  | false =>
      have known' := known
      rw [nodes.isSome] at known'
      rw [Option.isSome_eq_false_iff, Option.isNone_iff_eq_none] at known known'
      rw [routes, known, routes, known']
  | true =>
      have known' := known
      rw [nodes.isSome] at known'
      have fits : checkpointMatchesGraph codec (build (probeCallbacks holds) name calls)
          ⟨node, 0, .null, some (topologyId (build (probeCallbacks holds) name calls) codec)⟩ =
            true := beq_self_eq_true _
      have fits' : checkpointMatchesGraph codec (build (probeCallbacks holds) name' calls')
          ⟨node, 0, .null, some (topologyId (build (probeCallbacks holds) name calls) codec)⟩ =
            true := by
        rw [topologyId, topology_same same]
        exact beq_self_eq_true _
      have runs := probe_runs (built_build _ name calls) known fits
      have runs' := probe_runs (built_build _ name' calls') known' fits'
      exact probeSummary_injective
        (RunsTo.unique ((alike _ _ _ fits fits' _).mp runs) runs')

theorem resumesAlike_of_sameRoutes (same : topologyJson (build idleCallbacks name calls) =
      topologyJson (build idleCallbacks name' calls'))
    (sameRoutes : ∀ node, reachableRoutes [] (routes (build idleCallbacks name calls) node) =
      reachableRoutes [] (routes (build idleCallbacks name' calls') node)) :
    ResumesAlike codec name name' calls calls' := by
  intro callbacks options checkpoint fits fits' summary
  have sameId : topologyId (build callbacks name calls) codec =
      topologyId (build callbacks name' calls') codec := by
    rw [topologyId, topology_same same, topologyId]
  have rounds := round_same codec (built_build callbacks name calls)
    (built_build callbacks name' calls') (build_sameNodes same callbacks) sameId
    (fun node => by rw [routes_build, sameRoutes, ← routes_build]) options
  have runs : ∀ count,
      runCheckpointJsonValue codec (build callbacks name calls) options count checkpoint =
        runCheckpointJsonValue codec (build callbacks name' calls') options count checkpoint := by
    intro count
    rw [runCheckpointJsonValue, runCheckpointJsonValue, if_pos fits, if_pos fits', rounds]
  simp only [RunsTo, runs]

end

/-- Graphs with the same topology id resume checkpoints alike exactly when each node has the same
reachable routes in both. -/
theorem resumesAlike_iff (codec : JsonCodec) (name name' : String) (calls calls' : List BuildCall)
    (faithful : ∀ value, value = topologyJson (build idleCallbacks name calls) ∨
      value = topologyJson (build idleCallbacks name' calls') →
        codec.parse (codec.serialize value).val = some value)
    (sameId : topologyId (build idleCallbacks name calls) codec =
      topologyId (build idleCallbacks name' calls') codec) :
    ResumesAlike codec name name' calls calls' ↔
      ∀ node, reachableRoutes [] (routes (build idleCallbacks name calls) node) =
        reachableRoutes [] (routes (build idleCallbacks name' calls') node) := by
  have same : topologyJson (build idleCallbacks name calls) =
      topologyJson (build idleCallbacks name' calls') := by
    have read := faithful _ (.inl rfl)
    rw [topologyId, topologyId] at sameId
    rw [sameId, faithful _ (.inr rfl)] at read
    exact (Option.some.inj read).symm
  exact ⟨sameRoutes_of_resumesAlike same, resumesAlike_of_sameRoutes same⟩

/-! ## Edges in another order -/

/-- A node with two unconditional edges, to itself and to another one. -/
def sampleCalls (first second : String) : List BuildCall :=
  [.addNodeEx "start" none, .addNodeEx "other" none, .addEdgeEx "start" first none .always,
    .addEdgeEx "start" second none .always, .setEntry "start"]

/-- The topology of the sample, for both orders. -/
def sampleTopology : Json :=
  .object [("graph_name", .string "sample"), ("entry_node", .string "start"),
    ("nodes", .array [
      .object [("name", .string "other"), ("semantic_id", .string "other"), ("kind", .string "json")],
      .object [("name", .string "start"), ("semantic_id", .string "start"),
        ("kind", .string "json")]]),
    ("edges", .array [
      .object [("from", .string "start"), ("to", .string "other"),
        ("semantic_id", .string "start->other"), ("predicate_kind", .string "always")],
      .object [("from", .string "start"), ("to", .string "start"),
        ("semantic_id", .string "start->start"), ("predicate_kind", .string "always")]])]

theorem mergeSort_pair {α : Type} (le : α → α → Bool) (first second : α) :
    [first, second].mergeSort le =
      if le first second then [first, second] else [second, first] := by
  simp [List.mergeSort, List.MergeSort.Internal.splitInTwo, List.merge]

theorem sampleCalls_topology :
    topologyJson (build idleCallbacks "sample" (sampleCalls "start" "other")) = sampleTopology ∧
      topologyJson (build idleCallbacks "sample" (sampleCalls "other" "start")) =
        sampleTopology := by
  have nodes : ∀ calls, (build idleCallbacks "sample" calls).nodes =
      [⟨"start", "start", .json (idleCallbacks.node "start")⟩,
        ⟨"other", "other", .json (idleCallbacks.node "other")⟩] →
      (build idleCallbacks "sample" calls).nodes.mergeSort
        (fun left right => (nodeCompare left right).isLE) =
      [⟨"other", "other", .json (idleCallbacks.node "other")⟩,
        ⟨"start", "start", .json (idleCallbacks.node "start")⟩] := by
    intro calls same
    rw [same, mergeSort_pair, if_neg (by decide +kernel)]
  constructor
  · have edges : (build idleCallbacks "sample" (sampleCalls "start" "other")).edges.map
        (edgeRef (build idleCallbacks "sample" (sampleCalls "start" "other"))) =
          [⟨"start->start", "start", "start", "always"⟩,
            ⟨"start->other", "start", "other", "always"⟩] := by decide +kernel
    rw [topologyJson, nodes _ rfl, edges, mergeSort_pair, if_neg (by decide +kernel)]
    rfl
  · have edges : (build idleCallbacks "sample" (sampleCalls "other" "start")).edges.map
        (edgeRef (build idleCallbacks "sample" (sampleCalls "other" "start"))) =
          [⟨"start->other", "start", "other", "always"⟩,
            ⟨"start->start", "start", "start", "always"⟩] := by decide +kernel
    rw [topologyJson, nodes _ rfl, edges, mergeSort_pair, if_pos (by decide +kernel)]
    rfl

/-- The first sample with its nodes the other way round. -/
def swappedCalls : List BuildCall :=
  [.addNodeEx "other" none, .addNodeEx "start" none, .addEdgeEx "start" "start" none .always,
    .addEdgeEx "start" "other" none .always, .setEntry "start"]

theorem swappedCalls_topology :
    topologyJson (build idleCallbacks "sample" swappedCalls) = sampleTopology := by
  have nodes : (build idleCallbacks "sample" swappedCalls).nodes =
      [⟨"other", "other", .json (idleCallbacks.node "other")⟩,
        ⟨"start", "start", .json (idleCallbacks.node "start")⟩] := rfl
  have edges : (build idleCallbacks "sample" swappedCalls).edges.map
      (edgeRef (build idleCallbacks "sample" swappedCalls)) =
        [⟨"start->start", "start", "start", "always"⟩,
          ⟨"start->other", "start", "other", "always"⟩] := by decide +kernel
  rw [topologyJson, nodes, mergeSort_pair, if_pos (by decide +kernel), edges, mergeSort_pair,
    if_neg (by decide +kernel)]
  rfl

theorem swappedCalls_routes (node : String) :
    routes (build idleCallbacks "sample" (sampleCalls "start" "other")) node =
      routes (build idleCallbacks "sample" swappedCalls) node := by
  by_cases known : node ∈ ["start", "other"]
  · revert node
    decide +kernel
  · have absent : ∀ calls, (build idleCallbacks "sample" calls).nodes.map Node.name ⊆
        ["start", "other"] → routes (build idleCallbacks "sample" calls) node = [] := by
      intro calls named
      have none : findNode (build idleCallbacks "sample" calls) node = none :=
        findNode_none.mpr fun other member same =>
          known (named (List.mem_map.mpr ⟨other, member, same⟩))
      rw [routes, none]
    rw [absent _ (by decide +kernel), absent _ (by decide +kernel)]

def sampleCodec : JsonCodec := Provider.knownCodec [sampleTopology]

theorem sampleCalls_faithful :
    sampleCodec.parse (sampleCodec.serialize sampleTopology).val = some sampleTopology :=
  Provider.knownCodec_faithful [sampleTopology] sampleTopology (by decide +kernel) (by decide +kernel)

/-- The sample, built in two orders. -/
theorem resumesAlike_sample :
    ResumesAlike sampleCodec "sample" "sample" (sampleCalls "start" "other") swappedCalls := by
  have same := sampleCalls_topology.1.trans swappedCalls_topology.symm
  refine (resumesAlike_iff sampleCodec "sample" "sample" (sampleCalls "start" "other") swappedCalls
    ?_ (by rw [topologyId, same, topologyId])).mpr fun node => by rw [swappedCalls_routes]
  rintro value (rfl | rfl)
  · rw [sampleCalls_topology.1]
    exact sampleCalls_faithful
  · rw [swappedCalls_topology]
    exact sampleCalls_faithful

/-- The two orders have the same topology id, and a checkpoint at the first node goes to another
node in each. -/
theorem edge_order_differs :
    topologyId (build idleCallbacks "sample" (sampleCalls "start" "other")) sampleCodec =
        topologyId (build idleCallbacks "sample" (sampleCalls "other" "start")) sampleCodec ∧
      ¬ ResumesAlike sampleCodec "sample" "sample" (sampleCalls "start" "other")
        (sampleCalls "other" "start") := by
  have same := sampleCalls_topology.1.trans sampleCalls_topology.2.symm
  refine ⟨by rw [topologyId, same, topologyId], fun alike => ?_⟩
  exact absurd (sameRoutes_of_resumesAlike same alike "start") (by decide +kernel)

end TurboAgent.Graph
