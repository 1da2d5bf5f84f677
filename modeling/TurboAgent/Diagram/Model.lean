import TurboAgent.Data.Json
import TurboAgent.Logic.Layers

/-!
# Diagram views

A view is a JSON record of nodes and directed edges between them.  It is checked as a whole,
grown one node or edge at a time, and searched for the neighborhood of a node or for a
shortest path between two nodes.

Allocations succeed.
-/

namespace TurboAgent.Diagram

structure Library where
  /-- `vstr_utf8_valid`. -/
  utf8Valid : String → Bool
  /-- The length of `json_number_text`. -/
  numberTextLength : (mantissa : Int) → (exponent : Nat) → Nat

inductive Error where
  | einval
  | eproto
  | enospc
  | enoent
  deriving DecidableEq

/-- `TURBO_DIAGRAM_MAX_NODES`. -/
def maxNodes : Nat := 128

/-- `TURBO_DIAGRAM_MAX_EDGES`. -/
def maxEdges : Nat := 512

/-- `TURBO_DIAGRAM_MAX_TEXT_BYTES`. -/
def maxTextBytes : Nat := 2048

/-- `TURBO_DIAGRAM_MAX_OUTPUT_BYTES`. -/
def maxOutputBytes : Nat := 1024 * 1024

/-- `TURBO_DIAGRAM_MAX_QUERY_VALUES`. -/
def maxQueryValues : Nat := 8192

/-- `TURBO_DIAGRAM_MAX_QUERY_DEPTH`. -/
def maxQueryDepth : Nat := 32

/-- `TURBO_DIAGRAM_MAX_QUERY_BYTES`. -/
def maxQueryBytes : Nat := 1024 * 1024

/-! ## Checks -/

section Checks

variable (library : Library)

/-- A character that a text may have: no control but line feed, carriage return and tab. -/
def plainChar (ch : Char) : Bool :=
  !((ch.toNat < 32 && ch != '\n' && ch != '\r' && ch != '\t') || ch.toNat == 127)

/-- `text_valid`. -/
def textValid (text : String) (empty : Bool) : Bool :=
  (empty || !text.isEmpty) && text.length ≤ maxTextBytes && noNul text &&
    library.utf8Valid text && text.toList.all plainChar

/-- `field`. -/
def field (object : Option Json) (name : String) (empty : Bool) : Option String :=
  match object.bind (·.field name) with
  | some (.string text) => if textValid library text empty then some text else none
  | _ => none

def elements (view : Json) (name : String) : Option (List Json) :=
  match view.field name with
  | some (.array elements) => some elements
  | _ => none

/-- The elements of `json_object_get(view, "nodes")`. -/
def nodesOf (view : Json) : List Json := (elements view "nodes").getD []

/-- The elements of `json_object_get(view, "edges")`. -/
def edgesOf (view : Json) : List Json := (elements view "edges").getD []

def kindValid (kind : String) : Bool :=
  kind == "plan" || kind == "execution" || kind == "knowledge"

/-- `view_valid`. -/
def viewValid (view : Json) : Bool :=
  view.isObject &&
    (match field library (some view) "kind" false with
      | some kind => kindValid kind
      | none => false) &&
    Json.asInt64 (view.field "schema_version") (-1) == 1 &&
    (elements view "nodes").isSome && (elements view "edges").isSome

/-- `node_index`; `SIZE_MAX` is `none`. -/
def nodeIndex (nodes : List Json) (id : String) : Option Nat :=
  nodes.findIdx? fun node => field library (some node) "id" false == some id

def nodeValid (nodes : List Json) (node : Json) (index : Nat) : Bool :=
  match field library (some node) "id" false with
  | some id => (field library (some node) "label" false).isSome &&
      nodeIndex library nodes id == some index
  | none => false

def edgeValid (nodes : List Json) (edge : Json) : Bool :=
  match field library (some edge) "from" false, field library (some edge) "to" false with
  | some source, some target => (field library (some edge) "label" true).isSome &&
      (nodeIndex library nodes source).isSome && (nodeIndex library nodes target).isSome
  | _, _ => false

/-- `graph_validate`. -/
def graphValidate (view : Json) : Except Error Unit :=
  if !viewValid library view then .error .eproto
  else if nodesOf view = [] then .error .eproto
  else if maxNodes < (nodesOf view).length ∨ maxEdges < (edgesOf view).length then .error .enospc
  else if !(nodesOf view).zipIdx.all fun entry => nodeValid library (nodesOf view) entry.1 entry.2
    then .error .eproto
  else if !(edgesOf view).all (edgeValid library (nodesOf view)) then .error .eproto
  else .ok ()

/-! ## Building -/

/-- `turbo_diagram_create`. -/
def create (kind : String) : Option Json :=
  if kindValid kind then
    some (((((Json.object []).set "schema_version" (.int 1)).set "kind" (.string kind)).set
      "nodes" (.array [])).set "edges" (.array []))
  else none

/-- `turbo_diagram_add_node`. -/
def addNode (view : Json) (id label : CString) : Except Error Json :=
  if !viewValid library view || !textValid library id.1 false ||
      !textValid library label.1 false then .error .einval
  else if maxNodes ≤ (nodesOf view).length then .error .enospc
  else if (nodeIndex library (nodesOf view) id.1).isSome then .error .eproto
  else
    let node := ((Json.object []).set "id" (.string id.1)).set "label" (.string label.1)
    .ok (view.set "nodes" (.array (nodesOf view ++ [node])))

/-- `turbo_diagram_add_edge`. -/
def addEdge (view : Json) (source target label : CString) : Except Error Json :=
  if !viewValid library view || !textValid library source.1 false ||
      !textValid library target.1 false || !textValid library label.1 true then .error .einval
  else if nodesOf view = [] then .error .eproto
  else if maxNodes < (nodesOf view).length ∨ maxEdges ≤ (edgesOf view).length then
    .error .enospc
  else if (nodeIndex library (nodesOf view) source.1).isNone ||
      (nodeIndex library (nodesOf view) target.1).isNone then .error .eproto
  else
    let edge := (((Json.object []).set "from" (.string source.1)).set "to"
      (.string target.1)).set "label" (.string label.1)
    .ok (view.set "edges" (.array (edgesOf view ++ [edge])))

/-! ## Selection -/

/-- The part of `query_budget` for one value: its size and its number of children. -/
def charge (depth size count : Nat) (budget : Nat × Nat) : Except Error (Nat × Nat) :=
  if maxQueryDepth < depth ∨ budget.1 = 0 then .error .enospc
  else if budget.2 < size ∨ budget.1 - 1 < count then .error .enospc
  else .ok (budget.1 - 1, budget.2 - size)

mutual
/-- `query_budget`; a budget is the values and the bytes that are left. -/
def queryBudget (depth : Nat) : Json → Nat × Nat → Except Error (Nat × Nat)
  | .null, budget => charge depth 0 0 budget
  | .bool _, budget => charge depth 0 0 budget
  | .number mantissa exponent, budget =>
      charge depth (library.numberTextLength mantissa exponent) 0 budget
  | .string text, budget => charge depth text.length 0 budget
  | .array elements, budget => do
      queryBudgetElements (depth + 1) elements (← charge depth 0 elements.length budget)
  | .object fields, budget => do
      queryBudgetFields (depth + 1) fields (← charge depth 0 fields.length budget)

/-- The loop of `query_budget` over the elements of an array. -/
def queryBudgetElements (depth : Nat) : List Json → Nat × Nat → Except Error (Nat × Nat)
  | [], budget => .ok budget
  | value :: values, budget => do
      queryBudgetElements depth values (← queryBudget depth value budget)

/-- The loop of `query_budget` over the fields of an object. -/
def queryBudgetFields (depth : Nat) :
    List (String × Json) → Nat × Nat → Except Error (Nat × Nat)
  | [], budget => .ok budget
  | (key, value) :: fields, budget =>
      if budget.2 < key.length then .error .enospc
      else do
        queryBudgetFields depth fields
          (← queryBudget depth value (budget.1, budget.2 - key.length))
end

/-- `turbo_diagram_direction_t`; a caller may also pass another number. -/
inductive Direction where
  | incoming
  | outgoing
  | both
  | other
  deriving DecidableEq

def endOf (nodes : List Json) (edge : Json) (name : String) : Nat :=
  ((field library (some edge) name false).bind (nodeIndex library nodes)).getD (2 ^ 64 - 1)

/-- The arrays `from` and `to`. -/
def ends (view : Json) : List (Nat × Nat) :=
  (edgesOf view).map fun edge =>
    (endOf library (nodesOf view) edge "from", endOf library (nodesOf view) edge "to")

/-- The arrays `distances`, `predecessor` and `predecessor_edge`, and the flag `discovered`. -/
abbrev Search := Layers.Search Nat Nat

/-- The body of the loop over the edges, at the edge with this index. -/
def follow (direction : Direction) (depth : Nat) (search : Search)
    (edge : (Nat × Nat) × Nat) : Search :=
  let search :=
    if direction ≠ .incoming then Layers.relax depth search ⟨edge.1.1, edge.1.2, edge.2⟩
    else search
  if direction ≠ .outgoing then Layers.relax depth search ⟨edge.1.2, edge.1.1, edge.2⟩
  else search

def searchFrom (direction : Direction) (ends : List (Nat × Nat)) :
    (rounds depth : Nat) → Search → Search
  | 0, _, search => search
  | rounds + 1, depth, search =>
      let next := ends.zipIdx.foldl (follow direction depth) { search with discovered := false }
      if next.discovered then searchFrom direction ends rounds (depth + 1) next else next

def directionName : Direction → String
  | .incoming => "incoming"
  | .outgoing => "outgoing"
  | _ => "both"

/-- The fields of `selection` that only a path has. -/
def pathFields (target : Option (String × Nat)) : Json :=
  match target with
  | none => .object []
  | some (targetId, hopCount) =>
      (((Json.object []).set "mode" (.string "shortest_path")).set "target_id"
        (.string targetId)).set "hop_count" (.int hopCount)

/-- The part of `diagram_select` that copies: the distances of the selected nodes, the edges
that are kept, and the target and its distance if there is one. -/
def copySelected (view : Json) (focusId : String) (direction : Direction) (maxHops : Nat)
    (distances : Nat → Option Nat) (keeps : Nat → Bool) (target : Option (String × Nat)) :
    Json :=
  let nodes := nodesOf view
  let edges := edgesOf view
  let selectedNodes := nodes.zipIdx.filterMap fun entry =>
    (distances entry.2).map fun distance =>
      entry.1.set "selection_distance" (.int distance)
  let selectedEdges := edges.zipIdx.filterMap fun entry =>
    if keeps entry.2 && (distances (endOf library nodes entry.1 "from")).isSome &&
        (distances (endOf library nodes entry.1 "to")).isSome then some entry.1
    else none
  let selection := (pathFields target).set "scope" (.string "input_view")
    |>.set "focus_id" (.string focusId)
    |>.set "direction" (.string (directionName direction))
    |>.set "max_hops" (.int maxHops)
    |>.set "input_nodes" (.int nodes.length)
    |>.set "input_edges" (.int edges.length)
    |>.set "omitted_nodes" (.int (nodes.length - selectedNodes.length : Nat))
    |>.set "omitted_edges" (.int (edges.length - selectedEdges.length : Nat))
  ((view.set "selection" selection).set "nodes" (.array selectedNodes)).set "edges"
    (.array selectedEdges)

/-- The search of `diagram_select`. -/
def searched (view : Json) (direction : Direction) (maxHops focus : Nat) : Search :=
  searchFrom direction (ends library view) maxHops 0 (Layers.Search.initial focus)

/-- The nodes off the path lose their distances. -/
def keepPath (focus : Nat) (path : List (Nat × Nat)) (distances : Nat → Option Nat) :
    Nat → Option Nat :=
  fun index => if index = focus ∨ index ∈ path.map Prod.fst then distances index else none

/-- The part of `diagram_select` after the search for a target that is a node.  There is no
result when the walk back would read a predecessor that no edge has set; no walk is longer than
`max_hops`. -/
def selectPath (view : Json) (focusId targetId : CString) (direction : Direction)
    (maxHops focus target : Nat) : Option (Except Error Json) :=
  let search := searched library view direction maxHops focus
  match search.distance target with
  | none => some (.error .enoent)
  | some hopCount =>
  match Layers.trace search.parent focus maxHops target with
  | none => none
  | some path =>
      some (.ok (copySelected library view focusId.1 direction maxHops
        (keepPath focus path search.distance) (fun index => decide (index ∈ path.map Prod.snd))
        (some (targetId.1, hopCount))))

/-- The part of `diagram_select` for a focus that is a node. -/
def selectFrom (view : Json) (focusId : CString) (targetId : Option CString)
    (direction : Direction) (maxHops focus : Nat) : Option (Except Error Json) :=
  match targetId with
  | none =>
      some (.ok (copySelected library view focusId.1 direction maxHops
        (searched library view direction maxHops focus).distance (fun _ => true) none))
  | some targetId =>
  match nodeIndex library (nodesOf view) targetId.1 with
  | none => some (.error .enoent)
  | some target => selectPath library view focusId targetId direction maxHops focus target

/-- `diagram_select`. -/
def diagramSelect (view : Json) (focusId : CString) (targetId : Option CString)
    (direction : Direction) (maxHops : Nat) : Option (Except Error Json) :=
  if !textValid library focusId.1 false ∨
      (targetId.any fun targetId => !textValid library targetId.1 false) ∨
      maxNodes ≤ maxHops ∨ direction = .other then some (.error .einval)
  else match queryBudget library 0 view (maxQueryValues, maxQueryBytes) with
  | .error error => some (.error error)
  | .ok _ =>
  match graphValidate library view with
  | .error error => some (.error error)
  | .ok _ =>
  match nodeIndex library (nodesOf view) focusId.1 with
  | none => some (.error .enoent)
  | some focus => selectFrom library view focusId targetId direction maxHops focus

/-- `turbo_diagram_neighborhood`. -/
def neighborhood (view : Json) (focusId : CString) (direction : Direction) (maxHops : Nat) :
    Option (Except Error Json) :=
  diagramSelect library view focusId none direction maxHops

/-- `turbo_diagram_shortest_path`. -/
def shortestPath (view : Json) (focusId : CString) (targetId : Option CString)
    (direction : Direction) (maxHops : Nat) : Option (Except Error Json) :=
  match targetId with
  | none => some (.error .einval)
  | some targetId => diagramSelect library view focusId (some targetId) direction maxHops

end Checks

end TurboAgent.Diagram
