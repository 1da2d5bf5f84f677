import TurboAgent.Graph.Resume
import TurboAgent.Graph.Topology

/-!
# The two executors

`turbo_graph_run` and `turbo_graph_run_json_value` are separate loops over the same graphs.  The
first one changes the state of its caller in place and knows plain callbacks only: it refuses a
node with a JSON-value callback, and it takes an edge with a JSON-value predicate as one without a
predicate.  Its other difference is that a plain callback may choose a node that the graph does not
have, which the second one finds out before it counts the step.
-/

namespace TurboAgent.Graph

open Logic
open Provider (JsonCodec)
open Provider (knownCodec)

section

variable (codec : JsonCodec) (graph : TurboGraph) (options : Options)

/-- The first edge of a node whose plain predicate holds. -/
def routePlainEdges (index : Nat) (state : Json) (node : String) (step : Nat) :
    List Edge → Bool → Routed
  | [], outgoing => .nowhere outgoing
  | edge :: edges, outgoing =>
      if edge.fromIndex ≠ index then routePlainEdges index state node step edges outgoing
      else
        match edge.predicate with
        -- Only `json_predicate` is looked at.
        | .always | .jsonValue _ => .next (nodeName graph edge.toIndex)
        | .json holds =>
            if holds state node step < 0 then .failed
            else if 0 < holds state node step then .next (nodeName graph edge.toIndex)
            else routePlainEdges index state node step edges true

/-- The next node of a call in `turbo_graph_run_internal`. -/
def resolvePlain (node : Node) (index step : Nat) (called : Called) : Routed :=
  match called.nextNode with
  | some next => if (findNode graph next).isSome then .next next else .missing next
  | none => routePlainEdges graph index called.state node.name step graph.edges false

/-- The part of a round of `turbo_graph_run_internal` after the call. -/
def concludePlain (walk : Walk) (node : Node) (index : Nat) (called : Called) : Walk ⊕ Ended :=
  let ended (status : Status) (nextNode : Option String) (emitted : List Checkpoint) : Walk ⊕ Ended :=
    .inr ⟨⟨status, some node.name, nextNode, walk.steps + 1⟩, called.state, emitted⟩
  let emit (nextNode : String) : List Checkpoint :=
    emitCheckpoint codec graph options nextNode (walk.steps + 1) called.state walk.emitted
  if called.status < 0 then ended .error none walk.emitted
  else if called.stop ∨ 0 < called.status then
    match called.nextNode with
    | none => ended .stop none walk.emitted
    | some next =>
        if (findNode graph next).isSome then ended .interrupted (some next) (emit next)
        else ended .nodeNotFound (some next) walk.emitted
  else
    match resolvePlain graph node index walk.steps called with
    | .missing next => ended .nodeNotFound (some next) walk.emitted
    | .failed => ended .error none walk.emitted
    | .nowhere true => ended .routeNotFound none walk.emitted
    | .nowhere false => ended .ok none walk.emitted
    | .next next =>
        if shouldInterruptBefore options next then ended .interrupted (some next) (emit next)
        else .inl ⟨next, some node.name, walk.steps + 1, called.state, false, emit next⟩

/-- One round of `turbo_graph_run_internal`. -/
def plainRound (walk : Walk) : Walk ⊕ Ended :=
  let ended (status : Status) (emitted : List Checkpoint) : Walk ⊕ Ended :=
    .inr ⟨⟨status, walk.lastNode, some walk.currentNode, walk.steps⟩, walk.state, emitted⟩
  if 0 < options.maxSteps ∧ options.maxSteps ≤ walk.steps then ended .stepLimit walk.emitted
  else if !walk.skipInitialInterrupt && shouldInterruptBefore options walk.currentNode then
    ended .interrupted
      (emitCheckpoint codec graph options walk.currentNode walk.steps walk.state walk.emitted)
  else
    match findNode graph walk.currentNode with
    | none => ended .nodeNotFound walk.emitted
    | some (node, index) =>
        match node.callback with
        | .jsonValue _ => ended .invalidArgument walk.emitted
        | .json call =>
            concludePlain codec graph options walk node index
              (call walk.state node.name walk.steps)

/-- `turbo_graph_run`, within a number of rounds.  The state at its end is the one that its caller
has. -/
def run (count : Nat) (state : Json) : Option Ended :=
  match options.startNode <|> graph.entryNode with
  | none => some ⟨⟨.invalidArgument, none, none, 0⟩, state, []⟩
  | some start =>
      Loop.rounds (plainRound codec graph options) count (startWalk options start 0 state)

end

/-! ## Edges -/

/-- A predicate lets a run through: there is none, or its value is positive. -/
def Predicate.Allows (state : Json) (node : String) (step : Nat) : Predicate → Prop
  | .always => True
  | .json holds | .jsonValue holds => 0 < holds state node step

def NodeCallback.IsPlain : NodeCallback → Prop
  | .json _ => True
  | .jsonValue _ => False

/-- The predicate takes plain states, or there is none. -/
def Predicate.IsPlain : Predicate → Prop
  | .always | .json _ => True
  | .jsonValue _ => False

/-- A run goes to the next node along an edge whose predicate lets it through. -/
def TakesEdge (graph : TurboGraph) (index : Nat) (state : Json) (node : String) (step : Nat)
    (next : String) : Prop :=
  ∃ edge ∈ graph.edges, edge.fromIndex = index ∧ nodeName graph edge.toIndex = next ∧
    edge.predicate.Allows state node step

section

variable {graph : TurboGraph} {index : Nat} {state : Json} {node : String} {step : Nat}

theorem routeEdges_allows {edges : List Edge} {outgoing : Bool} {next : String}
    (routed : routeEdges graph index state node step edges outgoing = .next next) :
    ∃ edge ∈ edges, edge.fromIndex = index ∧ nodeName graph edge.toIndex = next ∧
      edge.predicate.Allows state node step := by
  induction edges generalizing outgoing with
  | nil => cases routed
  | cons edge edges ih =>
      have later : ∀ {outgoing}, routeEdges graph index state node step edges outgoing = .next next →
          ∃ taken ∈ edge :: edges, taken.fromIndex = index ∧ nodeName graph taken.toIndex = next ∧
            taken.predicate.Allows state node step := fun routed =>
        let ⟨taken, member, rest⟩ := ih routed
        ⟨taken, List.mem_cons_of_mem edge member, rest⟩
      rw [routeEdges] at routed
      split at routed
      next => exact later routed
      next here =>
        have here : edge.fromIndex = index := not_not.mp here
        cases kind : edge.predicate with
        | always =>
            rw [kind] at routed
            cases routed
            exact ⟨edge, List.mem_cons_self, here, rfl, kind ▸ trivial⟩
        | json holds | jsonValue holds =>
            rw [kind] at routed
            dsimp only at routed
            split at routed
            next => cases routed
            split at routed
            next positive =>
              cases routed
              exact ⟨edge, List.mem_cons_self, here, rfl, kind ▸ positive⟩
            next => exact later routed

/-- Where the edges of a node have plain predicates, both executors take the same one. -/
theorem routePlainEdges_eq {edges : List Edge}
    (plain : ∀ edge ∈ edges, edge.fromIndex = index → edge.predicate.IsPlain) (outgoing : Bool) :
    routePlainEdges graph index state node step edges outgoing =
      routeEdges graph index state node step edges outgoing := by
  induction edges generalizing outgoing with
  | nil => rfl
  | cons edge edges ih =>
      have rest := ih fun edge member => plain edge (List.mem_cons_of_mem _ member)
      rw [routePlainEdges, routeEdges, rest]
      split
      next => rfl
      next here =>
        have isPlain := plain edge List.mem_cons_self (not_not.mp here)
        cases kind : edge.predicate with
        | always => rfl
        | json holds => rw [rest]
        | jsonValue holds => exact (kind ▸ isPlain).elim

end

/-! ## The executors side by side -/

/-- JSON-value predicates stand on edges out of nodes with JSON-value callbacks only. -/
def Separate (graph : TurboGraph) : Prop :=
  ∀ edge ∈ graph.edges, ∀ node, graph.nodes[edge.fromIndex]? = some node →
    node.callback.IsPlain → edge.predicate.IsPlain

/-- Plain callbacks choose nodes of the graph only, as `turbo_graph_ctx_set_next` has it. -/
def ChoosesKnown (graph : TurboGraph) : Prop :=
  ∀ node ∈ graph.nodes, ∀ call, node.callback = .json call → ∀ state step next,
    (call state node.name step).nextNode = some next → (findNode graph next).isSome = true

/-- The end with which `turbo_graph_run` refuses to call a node. -/
def refusal (walk : Walk) : Ended :=
  ⟨⟨.invalidArgument, walk.lastNode, some walk.currentNode, walk.steps⟩, walk.state, walk.emitted⟩

def AtJsonValueNode (graph : TurboGraph) (walk : Walk) : Prop :=
  ∃ node index, findNode graph walk.currentNode = some (node, index) ∧ ¬ node.callback.IsPlain

/-- Where the run of the one executor is about to call a node with a JSON-value callback, the
other one ends. -/
def Refuses (codec : JsonCodec) (graph : TurboGraph) (options : Options) (state : Json)
    (ended : Ended) : Prop :=
  ∃ start walk, (options.startNode <|> graph.entryNode) = some start ∧
    Loop.Visits (round codec graph options) (startWalk options start 0 state) walk ∧
    AtJsonValueNode graph walk ∧ ended = refusal walk

section

variable {codec : JsonCodec} {graph : TurboGraph} {options : Options} {node : Node} {index : Nat}

theorem resolvePlain_eq (separate : Separate graph) (here : graph.nodes[index]? = some node)
    (plain : node.callback.IsPlain) (step : Nat) (called : Called) :
    resolvePlain graph node index step called = resolveNext graph node index step called := by
  unfold resolvePlain resolveNext
  cases called.nextNode with
  | some next => rfl
  | none =>
      refine routePlainEdges_eq (fun edge member out => ?_) false
      exact separate edge member node (out ▸ here) plain

theorem concludePlain_eq (separate : Separate graph) (walk : Walk)
    (here : graph.nodes[index]? = some node) (plain : node.callback.IsPlain) (called : Called) :
    concludePlain codec graph options walk node index called =
      concludeRound codec graph options walk node index called := by
  rw [concludePlain, resolvePlain_eq separate here plain]
  rfl

theorem callNode_known (chooses : ChoosesKnown graph) (member : node ∈ graph.nodes) {call : NodeFn}
    (plain : node.callback = .json call) (state : Json) (step : Nat) :
    callNode graph node state step = .ok (call state node.name step) := by
  rw [callNode, plain]
  dsimp only
  cases chosen : (call state node.name step).nextNode with
  | none => rfl
  | some next => exact if_pos (chooses node member call plain state step next chosen)

/-- A round of the one executor is a round of the other, or refuses a JSON-value callback. -/
theorem plainRound_eq (separate : Separate graph) (chooses : ChoosesKnown graph) (walk : Walk) :
    plainRound codec graph options walk = round codec graph options walk ∨
      ∃ last, plainRound codec graph options walk = .inr last ∧
        (AtJsonValueNode graph walk ∧ last = refusal walk) := by
  unfold plainRound round
  dsimp only
  split
  next => exact .inl rfl
  split
  next => exact .inl rfl
  cases found : findNode graph walk.currentNode with
  | none => exact .inl rfl
  | some entry =>
      obtain ⟨node, index⟩ := entry
      obtain ⟨member, _, here⟩ := findNode_some found
      cases kind : node.callback with
      | jsonValue call =>
          exact .inr ⟨refusal walk, by simp only [kind]; rfl, ⟨node, index, found, kind ▸ id⟩, rfl⟩
      | json call =>
          have plain : node.callback.IsPlain := kind ▸ trivial
          refine .inl ?_
          simp only [kind]
          rw [callNode_known chooses member kind]
          exact concludePlain_eq separate walk here plain _

theorem resolveNext_allows {step : Nat} {called : Called} {next : String}
    (routed : resolveNext graph node index step called = .next next) :
    called.nextNode = some next ∨ TakesEdge graph index called.state node.name step next := by
  unfold resolveNext at routed
  cases chosen : called.nextNode with
  | some choice =>
      rw [chosen] at routed
      dsimp only at routed
      split at routed
      next =>
        cases routed
        exact .inl rfl
      next => cases routed
  | none =>
      rw [chosen] at routed
      exact .inr (routeEdges_allows routed)

variable {state : Json}

/-- `turbo_graph_run` ends as the other executor does, or refuses a node that this one comes to. -/
theorem runJsonValue_of_run (separate : Separate graph) (chooses : ChoosesKnown graph) {count : Nat}
    {ended : Ended} (ran : run codec graph options count state = some ended) :
    (∃ rounds, runJsonValue codec graph options rounds state = some ended.outcome) ∨
      Refuses codec graph options state ended := by
  unfold run at ran
  unfold runJsonValue Refuses
  cases starts : (options.startNode <|> graph.entryNode) with
  | none =>
      rw [starts] at ran
      cases ran
      exact .inl ⟨0, rfl⟩
  | some start =>
      rw [starts] at ran
      have ends : Loop.Ends (plainRound codec graph options) (startWalk options start 0 state) ended :=
        ⟨count, ran⟩
      rcases ends.orGivesUp (plainRound_eq separate chooses) with
        ⟨rounds, ends⟩ | ⟨walk, visits, jsonValue, same⟩
      · exact .inl ⟨rounds, by dsimp only; rw [ends]; rfl⟩
      · exact .inr ⟨start, walk, rfl, visits, jsonValue, same⟩

theorem run_of_runJsonValue (separate : Separate graph) (chooses : ChoosesKnown graph) {count : Nat}
    {outcome : Outcome} (ran : runJsonValue codec graph options count state = some outcome) :
    ∃ rounds ended, run codec graph options rounds state = some ended ∧
      (ended.outcome = outcome ∨ Refuses codec graph options state ended) := by
  unfold runJsonValue at ran
  unfold run Refuses
  cases starts : (options.startNode <|> graph.entryNode) with
  | none =>
      rw [starts] at ran
      cases ran
      exact ⟨0, _, rfl, .inl rfl⟩
  | some start =>
      rw [starts] at ran
      obtain ⟨ended, within, rfl⟩ := Option.map_eq_some_iff.mp ran
      have ends : Loop.Ends (round codec graph options) (startWalk options start 0 state) ended :=
        ⟨count, within⟩
      rcases ends.unlessGivesUp (plainRound_eq separate chooses) with
        ⟨rounds, ends⟩ | ⟨walk, last, visits, ⟨jsonValue, same⟩, rounds, ends⟩
      · exact ⟨rounds, ended, ends, .inl rfl⟩
      · exact ⟨rounds, last, ends, .inr ⟨start, walk, rfl, visits, jsonValue, same⟩⟩

end

/-- The JSON-value executor takes an edge only if its predicate lets it through.  Where JSON-value
predicates stand on edges out of JSON-value nodes, and plain callbacks choose nodes of the graph,
the two executors come to the same end, unless `turbo_graph_run` refuses a JSON-value node that the
other one comes to, and it takes the edges that the other one takes. -/
theorem executors_agree (codec : JsonCodec) (graph : TurboGraph) (options : Options) :
    (∀ node index step called next, resolveNext graph node index step called = .next next →
      called.nextNode = some next ∨ TakesEdge graph index called.state node.name step next) ∧
    (Separate graph → ChoosesKnown graph →
      (∀ node index step called next, graph.nodes[index]? = some node → node.callback.IsPlain →
        resolvePlain graph node index step called = .next next →
          called.nextNode = some next ∨ TakesEdge graph index called.state node.name step next) ∧
      ∀ state,
        (∀ count ended, run codec graph options count state = some ended →
          (∃ rounds, runJsonValue codec graph options rounds state = some ended.outcome) ∨
            Refuses codec graph options state ended) ∧
        ∀ count outcome, runJsonValue codec graph options count state = some outcome →
          ∃ rounds ended, run codec graph options rounds state = some ended ∧
            (ended.outcome = outcome ∨ Refuses codec graph options state ended)) := by
  refine ⟨fun _ _ _ _ _ routed => resolveNext_allows routed, fun separate chooses => ⟨?_, ?_⟩⟩
  · intro node index step called next here plain routed
    exact resolveNext_allows (resolvePlain_eq separate here plain step called ▸ routed)
  · intro state
    exact ⟨fun _ _ ran => runJsonValue_of_run separate chooses ran,
      fun _ _ ran => run_of_runJsonValue separate chooses ran⟩

/-- Two nodes whose callbacks do nothing, with an edge between them. -/
def pairGraph (callback : NodeFn → NodeCallback) (choice : Option String) (predicate : Predicate) :
    TurboGraph where
  name := "pair"
  entryNode := some "first"
  nodes := [
    ⟨"first", "first", callback fun state _ step =>
      ⟨0, state, false, if step = 0 then choice else none⟩⟩,
    ⟨"second", "second", callback fun state _ _ => ⟨0, state, false, none⟩⟩]
  edges := [⟨0, 1, "first->second", predicate⟩]

/-- Two plain nodes with a predicate between them. -/
theorem executors_agree_sample :
    (∃ rounds, runJsonValue (knownCodec [])
        (pairGraph .json none (.json fun _ _ _ => 1)) (interruptOptions 0 none false []) rounds .null =
          some ⟨⟨.ok, some "second", none, 2⟩, some .null, some ⟨"second", 1, .null,
            some (topologyId (pairGraph .json none (.json fun _ _ _ => 1)) (knownCodec []))⟩⟩) ∨
      Refuses (knownCodec []) (pairGraph .json none (.json fun _ _ _ => 1))
        (interruptOptions 0 none false []) .null
        ⟨⟨.ok, some "second", none, 2⟩, .null, [⟨"second", 1, .null,
          some (topologyId (pairGraph .json none (.json fun _ _ _ => 1)) (knownCodec []))⟩]⟩ := by
  have separate : Separate (pairGraph .json none (.json fun _ _ _ => 1)) := by
    intro edge member node _ _
    cases List.mem_singleton.mp member
    trivial
  have chooses : ChoosesKnown (pairGraph .json none (.json fun _ _ _ => 1)) := by
    intro node member call plain state step next chosen
    simp only [pairGraph, List.mem_cons, List.not_mem_nil, or_false] at member
    rcases member with rfl | rfl <;> cases plain <;> simp at chosen
  exact (((executors_agree (knownCodec []) _ (interruptOptions 0 none false [])).2 separate
    chooses).2 .null).1 2 _ rfl

/-- With JSON-value callbacks on all nodes and edges, `turbo_graph_run` does not run the graph.
Where a plain callback chooses a node that the graph does not have, only one executor counts the
step. -/
theorem executors_differ :
    ((∀ node ∈ (pairGraph .jsonValue none (.jsonValue fun _ _ _ => 1)).nodes,
        ¬ node.callback.IsPlain) ∧
      (∀ edge ∈ (pairGraph .jsonValue none (.jsonValue fun _ _ _ => 1)).edges,
        ¬ edge.predicate.IsPlain) ∧
      (run (knownCodec []) (pairGraph .jsonValue none (.jsonValue fun _ _ _ => 1))
        (interruptOptions 0 none false []) 2 .null).map Ended.result =
          some ⟨.invalidArgument, none, some "first", 0⟩ ∧
      (runJsonValue (knownCodec []) (pairGraph .jsonValue none (.jsonValue fun _ _ _ => 1))
        (interruptOptions 0 none false []) 2 .null).map Outcome.result =
          some ⟨.ok, some "second", none, 2⟩) ∧
    (run (knownCodec []) (pairGraph .json (some "third") .always)
        (interruptOptions 0 none false []) 2 .null).map Ended.result =
          some ⟨.nodeNotFound, some "first", some "third", 1⟩ ∧
      (runJsonValue (knownCodec []) (pairGraph .json (some "third") .always)
        (interruptOptions 0 none false []) 2 .null).map Outcome.result =
          some ⟨.nodeNotFound, none, some "third", 0⟩ := by
  refine ⟨⟨?_, ?_, rfl, rfl⟩, rfl, rfl⟩
  · intro node member
    simp only [pairGraph, List.mem_cons, List.not_mem_nil, or_false] at member
    rcases member with rfl | rfl <;> exact id
  · intro edge member
    cases List.mem_singleton.mp member
    exact id

end TurboAgent.Graph
