import TurboAgent.Data.Fields
import TurboAgent.Diagram.Model
import TurboAgent.Logic.Lists

/-!
# Selections

A neighborhood has exactly the nodes within the given distance of its focus and the edges
between them; a shortest path is found exactly if its target is one of these nodes.  A
selection is again a valid view.
-/

namespace TurboAgent.Diagram

variable {library : Library} {view : Json}

/-! ## Valid views -/

def idOf (library : Library) (node : Json) : Option String :=
  field library (some node) "id" false

/-- Nodes have ids and labels, and no two of them the same id. -/
structure NodesValid (library : Library) (nodes : List Json) : Prop where
  named : ∀ node ∈ nodes, ∃ id, idOf library node = some id
  labelled : ∀ node ∈ nodes, (field library (some node) "label" false).isSome = true
  distinct : (nodes.map (idOf library)).Nodup

variable {nodes : List Json} {id : String} {index : Nat}

theorem nodeIndex_eq_some (found : nodeIndex library nodes id = some index) :
    ∃ node, nodes[index]? = some node ∧ idOf library node = some id := by
  obtain ⟨inside, same, -⟩ := List.findIdx?_eq_some_iff_getElem.mp found
  exact ⟨nodes[index], List.getElem?_eq_getElem inside, beq_iff_eq.mp same⟩

theorem nodeIndex_of_getElem (distinct : (nodes.map (idOf library)).Nodup) {node : Json}
    (place : nodes[index]? = some node) (named : idOf library node = some id) :
    nodeIndex library nodes id = some index := by
  obtain ⟨inside, rfl⟩ := List.getElem?_eq_some_iff.mp place
  refine List.findIdx?_eq_some_iff_getElem.mpr ⟨inside, beq_iff_eq.mpr named, ?_⟩
  intro earlier less same
  have again : idOf library nodes[earlier] = some id := beq_iff_eq.mp same
  have twice := (List.pairwise_iff_getElem.mp distinct) earlier index
    (by rw [List.length_map]; omega) (by rw [List.length_map]; exact inside) less
  rw [List.getElem_map, List.getElem_map, named, again] at twice
  exact twice rfl

theorem nodeIndex_isSome :
    (nodeIndex library nodes id).isSome = true ↔ ∃ node ∈ nodes, idOf library node = some id := by
  rw [nodeIndex, List.findIdx?_isSome, List.any_eq_true]
  simp only [beq_iff_eq]
  rfl

theorem nodesValid_iff :
    (nodes.zipIdx.all fun entry => nodeValid library nodes entry.1 entry.2) = true ↔
      NodesValid library nodes := by
  have each : ∀ node index, nodeValid library nodes node index = true ↔
      (field library (some node) "label" false).isSome = true ∧
        ∃ id, idOf library node = some id ∧ nodeIndex library nodes id = some index := by
    intro node index
    unfold nodeValid idOf
    cases field library (some node) "id" false <;> simp
  simp only [List.all_eq_true, each, Prod.forall, List.mk_mem_zipIdx_iff_getElem?]
  constructor
  · intro valid
    have place : ∀ node ∈ nodes, ∃ index, nodes[index]? = some node := fun node member =>
      List.mem_iff_getElem?.mp member
    refine ⟨?_, ?_, ?_⟩
    · intro node member
      obtain ⟨index, found⟩ := place node member
      obtain ⟨-, id, named, -⟩ := valid node index found
      exact ⟨id, named⟩
    · intro node member
      obtain ⟨index, found⟩ := place node member
      exact (valid node index found).1
    · rw [List.Nodup, List.pairwise_iff_getElem]
      intro left right leftLt rightLt less same
      rw [List.length_map] at leftLt rightLt
      rw [List.getElem_map, List.getElem_map] at same
      obtain ⟨-, id, named, first⟩ := valid _ left (List.getElem?_eq_getElem leftLt)
      obtain ⟨-, other, named', second⟩ := valid _ right (List.getElem?_eq_getElem rightLt)
      rw [← same, named, Option.some.injEq] at named'
      rw [← named', first, Option.some.injEq] at second
      omega
  · intro valid node index found
    have member := List.mem_of_getElem? found
    obtain ⟨id, named⟩ := valid.named node member
    exact ⟨valid.labelled node member, id, named, nodeIndex_of_getElem valid.distinct found named⟩

/-- An edge has a label and leads from node to node. -/
structure Leads (library : Library) (nodes : List Json) (edge : Json) (source target : Nat) :
    Prop where
  labelled : (field library (some edge) "label" true).isSome = true
  source : ∃ id, field library (some edge) "from" false = some id ∧
    nodeIndex library nodes id = some source
  target : ∃ id, field library (some edge) "to" false = some id ∧
    nodeIndex library nodes id = some target

theorem edgeValid_iff {edge : Json} :
    edgeValid library nodes edge = true ↔
      ∃ source target, Leads library nodes edge source target := by
  unfold edgeValid
  constructor
  · intro valid
    cases isFrom : field library (some edge) "from" false with
    | none => simp [isFrom] at valid
    | some source =>
    cases isTo : field library (some edge) "to" false with
    | none => simp [isFrom, isTo] at valid
    | some target =>
        simp only [isFrom, isTo, Bool.and_eq_true, Option.isSome_iff_exists] at valid
        obtain ⟨⟨labelled, first, isFirst⟩, second, isSecond⟩ := valid
        exact ⟨first, second, Option.isSome_iff_exists.mpr labelled, ⟨source, isFrom, isFirst⟩,
          ⟨target, isTo, isSecond⟩⟩
  · rintro ⟨first, second, labelled, ⟨source, isFrom, isFirst⟩, ⟨target, isTo, isSecond⟩⟩
    simp [isFrom, isTo, labelled, isFirst, isSecond]

/-- What `graph_validate` accepts. -/
structure ViewValid (library : Library) (view : Json) : Prop where
  formed : viewValid library view = true
  nonempty : nodesOf view ≠ []
  few : (nodesOf view).length ≤ maxNodes ∧ (edgesOf view).length ≤ maxEdges
  nodes : NodesValid library (nodesOf view)
  edges : ∀ edge ∈ edgesOf view, ∃ source target,
    Leads library (nodesOf view) edge source target

theorem graphValidate_iff : graphValidate library view = .ok () ↔ ViewValid library view := by
  unfold graphValidate
  constructor
  · intro accepted
    split_ifs at accepted with one two three four five
    refine ⟨by simpa using one, two, by omega, nodesValid_iff.mp (by simpa using four), ?_⟩
    intro edge member
    simp only [Bool.not_eq_true', Bool.not_eq_false, List.all_eq_true] at five
    exact edgeValid_iff.mp (five edge member)
  · intro valid
    have edges : (edgesOf view).all (edgeValid library (nodesOf view)) = true :=
      List.all_eq_true.mpr fun edge member => edgeValid_iff.mpr (valid.edges edge member)
    rw [valid.formed, if_neg (by simp), if_neg valid.nonempty, if_neg (by have := valid.few; omega),
      nodesValid_iff.mpr valid.nodes, if_neg (by simp), edges, if_neg (by simp)]

/-! ## Arcs -/

/-- The arcs that a direction gives to an edge. -/
def arcsOfEdge (direction : Direction) (edge : (Nat × Nat) × Nat) : List (Layers.Arc Nat Nat) :=
  (if direction ≠ .incoming then [⟨edge.1.1, edge.1.2, edge.2⟩] else []) ++
    (if direction ≠ .outgoing then [⟨edge.1.2, edge.1.1, edge.2⟩] else [])

/-- The arcs of a view, each with the index of its edge. -/
def arcs (library : Library) (direction : Direction) (view : Json) :
    List (Layers.Arc Nat Nat) :=
  (ends library view).zipIdx.flatMap (arcsOfEdge direction)

theorem follow_eq (direction : Direction) (depth : Nat) (search : Search)
    (edge : (Nat × Nat) × Nat) :
    follow direction depth search edge =
      (arcsOfEdge direction edge).foldl (Layers.relax depth) search := by
  unfold follow arcsOfEdge
  split_ifs <;> rfl

theorem searchFrom_eq (direction : Direction) (ends : List (Nat × Nat)) (rounds depth : Nat)
    (search : Search) : searchFrom direction ends rounds depth search =
      Layers.layers (ends.zipIdx.flatMap (arcsOfEdge direction)) rounds depth search := by
  have pass : ∀ (edges : List ((Nat × Nat) × Nat)) (depth : Nat) (search : Search),
      edges.foldl (follow direction depth) search =
        (edges.flatMap (arcsOfEdge direction)).foldl (Layers.relax depth) search := by
    intro edges depth
    induction edges with
    | nil => exact fun _ => rfl
    | cons edge edges ih =>
        intro search
        rw [List.foldl_cons, List.flatMap_cons, List.foldl_append, ih, follow_eq]
  induction rounds generalizing depth search with
  | zero => rfl
  | succ rounds ih =>
      rw [searchFrom, Layers.layers]
      simp only [pass, ih, Layers.pass]
      rfl

/-- The search of a view gives every node within the hops its distance. -/
theorem searchFrom_layered (direction : Direction) (maxHops focus : Nat) :
    Layers.Layered (arcs library direction view) focus maxHops
      (searched library view direction maxHops focus) := by
  have first : Layers.Layered (arcs library direction view) focus 0
    (Layers.Search.initial focus) := Layers.layered_initial
  have layered := first.layers maxHops
  rw [Nat.zero_add] at layered
  rw [searched, searchFrom_eq]
  exact layered

theorem ends_inside (valid : ViewValid library view) {edge : Nat × Nat}
    (member : edge ∈ ends library view) :
    edge.1 < (nodesOf view).length ∧ edge.2 < (nodesOf view).length := by
  obtain ⟨record, isEdge, rfl⟩ := List.mem_map.mp member
  obtain ⟨source, target, leads⟩ := valid.edges record isEdge
  obtain ⟨first, isFrom, isFirst⟩ := leads.source
  obtain ⟨second, isTo, isSecond⟩ := leads.target
  obtain ⟨_, inside, -⟩ := nodeIndex_eq_some isFirst
  obtain ⟨_, inside', -⟩ := nodeIndex_eq_some isSecond
  simp only [endOf, isFrom, isTo, Option.bind_some, isFirst, isSecond, Option.getD_some]
  exact ⟨(List.getElem?_eq_some_iff.mp inside).1, (List.getElem?_eq_some_iff.mp inside').1⟩

variable {direction : Direction}

/-- An arc goes along its edge, one way or the other. -/
theorem mem_arcs {arc : Layers.Arc Nat Nat} (member : arc ∈ arcs library direction view) :
    (ends library view)[arc.label]? = some (arc.source, arc.target) ∨
      (ends library view)[arc.label]? = some (arc.target, arc.source) := by
  obtain ⟨⟨⟨source, target⟩, index⟩, isEdge, among⟩ := List.mem_flatMap.mp member
  have place := List.mk_mem_zipIdx_iff_getElem?.mp isEdge
  rcases List.mem_append.mp among with forth | back
  · split_ifs at forth
    · rw [List.mem_singleton.mp forth]
      exact .inl place
    · cases forth
  · split_ifs at back
    · rw [List.mem_singleton.mp back]
      exact .inr place
    · cases back

theorem arcs_ends : ∀ arc ∈ arcs library direction view,
    ∀ other ∈ arcs library direction view, arc.label = other.label →
      (arc.target = other.target ∨
        (arc.target = other.source ∧ arc.source = other.target)) := by
  intro arc member other member' same
  rcases mem_arcs member with place | place <;> rcases mem_arcs member' with place' | place' <;>
    rw [same, place', Option.some.injEq, Prod.mk.injEq] at place
  · exact .inl place.2.symm
  · exact .inr ⟨place.2.symm, place.1.symm⟩
  · exact .inr ⟨place.1.symm, place.2.symm⟩
  · exact .inl place.1.symm

/-! ## Copies -/

/-- What is read of the items that are kept is, in order, some of what is read of all. -/
theorem sublist_map_filterMap {α β γ : Type} {f : α → Option β} {g : β → γ} {h : α → γ}
    (same : ∀ x y, f x = some y → g y = h x) {xs : List α} :
    ((xs.filterMap f).map g).Sublist (xs.map h) := by
  induction xs with
  | nil => exact List.Sublist.refl _
  | cons x xs ih =>
      rw [List.map_cons]
      cases kept : f x with
      | none =>
          rw [List.filterMap_cons_none kept]
          exact ih.cons _
      | some y =>
          rw [List.filterMap_cons_some kept, List.map_cons, same x y kept]
          exact ih.cons_cons _

section Copies

variable {focusId : String} {direction : Direction} {maxHops : Nat}
  {distances : Nat → Option Nat} {keeps : Nat → Bool} {target : Option (String × Nat)}

def selectNode (distances : Nat → Option Nat) (entry : Json × Nat) : Option Json :=
  (distances entry.2).map fun distance : Nat =>
    entry.1.set "selection_distance" (.int distance)

def selectEdge (library : Library) (nodes : List Json) (distances : Nat → Option Nat)
    (keeps : Nat → Bool) (entry : Json × Nat) : Option Json :=
  if keeps entry.2 && (distances (endOf library nodes entry.1 "from")).isSome &&
    (distances (endOf library nodes entry.1 "to")).isSome then some entry.1 else none

variable {name : String}

theorem elements_set_other {record value : Json} {key : String} (apart : key ≠ name) :
    elements (record.set key value) name = elements record name := by
  rw [elements, elements, Json.field_set_other _ _ apart]

theorem elements_set_same {record : Json} (object : record.isObject = true) {key : String}
    (values : List Json) : elements (record.set key (.array values)) key = some values := by
  rw [elements, Json.field_set_same object]

theorem nodesOf_copySelected (object : view.isObject = true) :
    nodesOf (copySelected library view focusId direction maxHops distances keeps target) =
      (nodesOf view).zipIdx.filterMap (selectNode distances) := by
  rw [copySelected, nodesOf, elements_set_other (by decide),
    elements_set_same (by rw [Json.isObject_set, object])]
  rfl

theorem edgesOf_copySelected (object : view.isObject = true) :
    edgesOf (copySelected library view focusId direction maxHops distances keeps target) =
      (edgesOf view).zipIdx.filterMap
        (selectEdge library (nodesOf view) distances keeps) := by
  rw [copySelected, edgesOf, elements_set_same
    (by rw [Json.isObject_set, Json.isObject_set, object])]
  rfl

theorem field_copySelected (apart : "selection" ≠ name) (notNodes : "nodes" ≠ name)
    (notEdges : "edges" ≠ name) :
    (copySelected library view focusId direction maxHops distances keeps target).field name =
      view.field name := by
  rw [copySelected, Json.field_set_other _ _ notEdges, Json.field_set_other _ _ notNodes,
    Json.field_set_other _ _ apart]

theorem isObject_copySelected :
    (copySelected library view focusId direction maxHops distances keeps target).isObject =
      view.isObject := by
  rw [copySelected, Json.isObject_set, Json.isObject_set, Json.isObject_set]

theorem textField_congr {left right : Json} {empty : Bool}
    (same : left.field name = right.field name) :
    field library (some left) name empty = field library (some right) name empty := by
  rw [field, field, Option.bind_some, Option.bind_some, same]

theorem idOf_selected (node value : Json) :
    idOf library (node.set "selection_distance" value) = idOf library node :=
  textField_congr (Json.field_set_other _ _ (by decide))

theorem viewValid_object (formed : viewValid library view = true) : view.isObject = true := by
  simp only [viewValid, Bool.and_eq_true] at formed
  exact formed.1.1.1.1

theorem mem_selected {node : Json} :
    node ∈ nodes.zipIdx.filterMap (selectNode distances) ↔
      ∃ original index distance, nodes[index]? = some original ∧
        distances index = some distance ∧
        node = original.set "selection_distance" (.int distance) := by
  rw [List.mem_filterMap]
  constructor
  · rintro ⟨⟨original, index⟩, member, selected⟩
    obtain ⟨distance, far, rfl⟩ := Option.map_eq_some_iff.mp selected
    exact ⟨original, index, distance, List.mk_mem_zipIdx_iff_getElem?.mp member, far, rfl⟩
  · rintro ⟨original, index, distance, place, far, rfl⟩
    exact ⟨(original, index), List.mk_mem_zipIdx_iff_getElem?.mpr place,
      Option.map_eq_some_iff.mpr ⟨distance, far, rfl⟩⟩

theorem NodesValid.selected (valid : NodesValid library nodes) :
    NodesValid library (nodes.zipIdx.filterMap (selectNode distances)) where
  named := by
    intro node member
    obtain ⟨original, index, distance, place, -, rfl⟩ := mem_selected.mp member
    rw [idOf_selected]
    exact valid.named _ (List.mem_of_getElem? place)
  labelled := by
    intro node member
    obtain ⟨original, index, distance, place, -, rfl⟩ := mem_selected.mp member
    rw [textField_congr (Json.field_set_other _ _ (by decide))]
    exact valid.labelled _ (List.mem_of_getElem? place)
  distinct := by
    refine valid.distinct.sublist ?_
    conv_rhs => rw [← List.zipIdx_map_fst 0 nodes, List.map_map]
    refine sublist_map_filterMap fun entry node selected => ?_
    obtain ⟨distance, -, rfl⟩ := Option.map_eq_some_iff.mp selected
    exact idOf_selected _ _

theorem nodeIndex_selected (found : nodeIndex library nodes id = some index)
    (chosen : (distances index).isSome = true) :
    ∃ place, nodeIndex library (nodes.zipIdx.filterMap (selectNode distances)) id =
      some place := by
  obtain ⟨node, place, named⟩ := nodeIndex_eq_some found
  obtain ⟨distance, far⟩ := Option.isSome_iff_exists.mp chosen
  apply Option.isSome_iff_exists.mp
  refine nodeIndex_isSome.mpr ⟨node.set "selection_distance" (.int distance), ?_, ?_⟩
  · exact mem_selected.mpr ⟨node, index, distance, place, far, rfl⟩
  · rw [idOf_selected, named]

/-- A selection of a valid view with some node is a valid view. -/
theorem ViewValid.copySelected (valid : ViewValid library view)
    (inside : index < (nodesOf view).length) (chosen : (distances index).isSome = true) :
    ViewValid library
      (copySelected library view focusId direction maxHops distances keeps target) := by
  have object := viewValid_object valid.formed
  have formed := valid.formed
  refine ⟨?_, ?_, ?_, ?_, ?_⟩
  · have kind : field library (some (Diagram.copySelected library view focusId direction maxHops
        distances keeps target)) "kind" false = field library (some view) "kind" false :=
      textField_congr (field_copySelected (by decide) (by decide) (by decide))
    simp only [viewValid, Bool.and_eq_true] at formed ⊢
    rw [isObject_copySelected, kind, field_copySelected (by decide) (by decide) (by decide)]
    refine ⟨⟨formed.1.1, ?_⟩, ?_⟩
    · rw [Diagram.copySelected, elements_set_other (by decide),
        elements_set_same (by rw [Json.isObject_set, object])]
      rfl
    · rw [Diagram.copySelected, elements_set_same
        (by rw [Json.isObject_set, Json.isObject_set, object])]
      rfl
  · rw [nodesOf_copySelected object]
    obtain ⟨distance, far⟩ := Option.isSome_iff_exists.mp chosen
    exact List.ne_nil_of_mem (mem_selected.mpr
      ⟨_, index, distance, List.getElem?_eq_getElem inside, far, rfl⟩)
  · rw [nodesOf_copySelected object, edgesOf_copySelected object]
    have nodes := List.length_filterMap_le (selectNode distances) (nodesOf view).zipIdx
    have edges := List.length_filterMap_le (selectEdge library (nodesOf view) distances keeps)
      (edgesOf view).zipIdx
    rw [List.length_zipIdx] at nodes edges
    exact ⟨Nat.le_trans nodes valid.few.1, Nat.le_trans edges valid.few.2⟩
  · rw [nodesOf_copySelected object]
    exact valid.nodes.selected
  · rw [nodesOf_copySelected object, edgesOf_copySelected object]
    intro edge member
    obtain ⟨⟨original, place⟩, isEdge, selected⟩ := List.mem_filterMap.mp member
    unfold selectEdge at selected
    split_ifs at selected with kept
    cases selected
    simp only [Bool.and_eq_true] at kept
    have inView : original ∈ edgesOf view :=
      List.mem_of_getElem? (List.mk_mem_zipIdx_iff_getElem?.mp isEdge)
    obtain ⟨source, target, leads⟩ := valid.edges original inView
    obtain ⟨first, isFrom, isFirst⟩ := leads.source
    obtain ⟨second, isTo, isSecond⟩ := leads.target
    have ends := kept
    rw [endOf, isFrom, Option.bind_some, isFirst, Option.getD_some, endOf, isTo,
      Option.bind_some, isSecond, Option.getD_some] at ends
    obtain ⟨start, isStart⟩ := nodeIndex_selected isFirst ends.1.2
    obtain ⟨stop, isStop⟩ := nodeIndex_selected isSecond ends.2
    exact ⟨start, stop, leads.labelled, ⟨first, isFrom, isStart⟩, ⟨second, isTo, isStop⟩⟩

end Copies

/-! ## Counts -/

theorem isObject_pathFields (target : Option (String × Nat)) :
    (pathFields target).isObject = true := by
  cases target <;> rfl

theorem selection_copySelected (object : view.isObject = true) {focusId : String} {maxHops : Nat}
    {distances : Nat → Option Nat} {keeps : Nat → Bool} {target : Option (String × Nat)} :
    ∃ selection,
      (copySelected library view focusId direction maxHops distances keeps target).field
        "selection" = some selection ∧
      selection.field "omitted_nodes" = some (.int ((nodesOf view).length -
        ((nodesOf view).zipIdx.filterMap (selectNode distances)).length : Nat)) ∧
      selection.field "omitted_edges" = some (.int ((edgesOf view).length -
        ((edgesOf view).zipIdx.filterMap
          (selectEdge library (nodesOf view) distances keeps)).length : Nat)) ∧
      selection.field "hop_count" = (pathFields target).field "hop_count" := by
  rw [copySelected, Json.field_set_other _ _ (by decide), Json.field_set_other _ _ (by decide),
    Json.field_set_same object]
  refine ⟨_, rfl, ?_, ?_, ?_⟩
  · rw [Json.field_set_other _ _ (by decide), Json.field_set_same]
    · rfl
    · simp only [Json.isObject_set, isObject_pathFields]
  · rw [Json.field_set_same]
    · rfl
    · simp only [Json.isObject_set, isObject_pathFields]
  · simp (disch := decide) only [Json.field_set_other]

/-- As many items are kept as there are indices to keep. -/
theorem length_filterMap_zipIdx {α β : Type} {f : α × Nat → Option β} {xs : List α}
    {chosen : List Nat} (distinct : chosen.Nodup) (inside : ∀ index ∈ chosen, index < xs.length)
    (picks : ∀ x index, xs[index]? = some x → ((f (x, index)).isSome = true ↔ index ∈ chosen)) :
    (xs.zipIdx.filterMap f).length = chosen.length := by
  have picked : ∀ entry ∈ xs.zipIdx,
      (f entry).isSome = true ↔ decide (entry.2 ∈ chosen) = true := by
    rintro ⟨x, index⟩ member
    rw [decide_eq_true_iff]
    exact picks x index (List.mk_mem_zipIdx_iff_getElem?.mp member)
  rw [List.length_filterMap_eq_countP, List.countP_congr picked]
  have indices : xs.zipIdx.countP (fun entry => decide (entry.2 ∈ chosen)) =
      (List.range xs.length).countP fun index => decide (index ∈ chosen) := by
    rw [List.range_eq_range', ← List.zipIdx_map_snd 0 xs, List.countP_map]
    rfl
  rw [indices, List.countP_eq_length_filter]
  refine (List.Perm.length_eq ?_)
  refine (List.perm_ext_iff_of_nodup (List.nodup_range.filter _) distinct).mpr fun index => ?_
  rw [List.mem_filter, List.mem_range, decide_eq_true_iff]
  exact ⟨And.right, fun member => ⟨inside index member, member⟩⟩

/-! ## Neighborhoods and paths -/

/-- Both ends of an edge are selected. -/
def bothEnds (library : Library) (view : Json) (distances : Nat → Option Nat) (index : Nat) :
    Bool :=
  match (ends library view)[index]? with
  | some (source, target) => (distances source).isSome && (distances target).isSome
  | none => false

/-- A selection from a view: some nodes, each with its distance, and some edges, in the order
of the view; the numbers of the others; and a valid view again. -/
structure Selected (library : Library) (view out : Json) (distances : Nat → Option Nat)
    (kept : Nat → Bool) : Prop where
  nodes : nodesOf out = (nodesOf view).zipIdx.filterMap (selectNode distances)
  edges : edgesOf out = (edgesOf view).zipIdx.filterMap fun entry =>
    if kept entry.2 then some entry.1 else none
  omitted : ∃ selection, out.field "selection" = some selection ∧ ∃ omittedNodes omittedEdges : Nat,
    selection.field "omitted_nodes" = some (.int omittedNodes) ∧
    selection.field "omitted_edges" = some (.int omittedEdges) ∧
    omittedNodes + (nodesOf out).length = (nodesOf view).length ∧
    omittedEdges + (edgesOf out).length = (edgesOf view).length
  valid : graphValidate library out = .ok ()

/-- The distances within the hops. -/
def Within (library : Library) (view : Json) (direction : Direction) (focus maxHops : Nat)
    (distances : Nat → Option Nat) : Prop :=
  ∀ index count, distances index = some count ↔
    count ≤ maxHops ∧ Layers.Nearest (arcs library direction view) focus count index

/-- A call with proper arguments on a valid view within the limits. -/
structure Admitted (library : Library) (view : Json) (direction : Direction) (maxHops : Nat) :
    Prop where
  direction : direction ≠ .other
  hops : maxHops < maxNodes
  budget : ∃ rest, queryBudget library 0 view (maxQueryValues, maxQueryBytes) = .ok rest
  valid : graphValidate library view = .ok ()

theorem ends_getElem {edge : Json} (place : (edgesOf view)[index]? = some edge) :
    (ends library view)[index]? = some (endOf library (nodesOf view) edge "from",
      endOf library (nodesOf view) edge "to") := by
  rw [ends, List.getElem?_map, place]
  rfl

theorem index_lt (located : nodeIndex library nodes id = some index) : index < nodes.length := by
  obtain ⟨node, place, -⟩ := nodeIndex_eq_some located
  exact (List.getElem?_eq_some_iff.mp place).1

theorem textValid_of_located (located : nodeIndex library (nodesOf view) id = some index) :
    textValid library id false = true := by
  obtain ⟨node, -, named⟩ := nodeIndex_eq_some located
  unfold idOf field at named
  split at named
  next text _ =>
    split_ifs at named with valid
    cases named
    exact valid
  next => cases named

section Selecting

variable {focusId : CString} {direction : Direction} {maxHops focus : Nat}

theorem selected_copy (valid : ViewValid library view) {id : String}
    {distances : Nat → Option Nat} {keeps kept : Nat → Bool} {target : Option (String × Nat)}
    {index : Nat} (inside : index < (nodesOf view).length)
    (chosen : (distances index).isSome = true)
    (same : ∀ index edge, (edgesOf view)[index]? = some edge →
      kept index = (keeps index && bothEnds library view distances index)) :
    Selected library view
      (copySelected library view id direction maxHops distances keeps target) distances kept := by
  have object := viewValid_object valid.formed
  refine ⟨nodesOf_copySelected object, ?_, ?_,
    graphValidate_iff.mpr (valid.copySelected inside chosen)⟩
  · rw [edgesOf_copySelected object]
    refine List.filterMap_congr ?_
    rintro ⟨edge, index⟩ member
    have place := List.mk_mem_zipIdx_iff_getElem?.mp member
    rw [selectEdge]
    dsimp only
    rw [same index edge place, bothEnds, ends_getElem place, Bool.and_assoc]
  · obtain ⟨selection, stored, nodes, edges, -⟩ := selection_copySelected object
    refine ⟨selection, stored, _, _, nodes, edges, ?_, ?_⟩
    · rw [nodesOf_copySelected object]
      have few := List.length_filterMap_le (selectNode distances) (nodesOf view).zipIdx
      rw [List.length_zipIdx] at few
      exact Nat.sub_add_cancel few
    · rw [edgesOf_copySelected object]
      have few := List.length_filterMap_le (selectEdge library (nodesOf view) distances keeps)
        (edgesOf view).zipIdx
      rw [List.length_zipIdx] at few
      exact Nat.sub_add_cancel few

variable {target : Nat}

/-- Both ends of an edge on the way are on the way. -/
theorem descent_bothEnds {distance : Nat → Option Nat} {count : Nat} {path : List (Nat × Nat)}
    (descent : Layers.Descent (arcs library direction view) focus distance count target path)
    (onPath : index ∈ path.map Prod.snd) :
    bothEnds library view (keepPath focus path distance) index = true := by
  obtain ⟨entry, member, rfl⟩ := List.mem_map.mp onPath
  obtain ⟨arc, isArc, below, -, rfl, far, near, place⟩ := descent.entry member
  have target : arc.target = focus ∨ arc.target ∈ path.map Prod.fst :=
    .inr (List.mem_map.mpr ⟨_, member, rfl⟩)
  unfold bothEnds keepPath
  rcases mem_arcs isArc with ends | ends <;>
    simp only [ends, if_pos target, if_pos place, far, near] <;> rfl

variable (admitted : Admitted library view direction maxHops)
  (located : nodeIndex library (nodesOf view) focusId.1 = some focus)

theorem searched_focus (direction : Direction) (maxHops focus : Nat) :
    (searched library view direction maxHops focus).distance focus = some 0 :=
  ((searchFrom_layered direction maxHops focus).known focus 0).mpr
    ⟨Nat.zero_le _, Layers.nearest_zero.mpr rfl⟩

include admitted located

theorem diagramSelect_eq {targetId : Option CString}
    (targetText : ∀ id ∈ targetId, textValid library id.1 false = true) :
    diagramSelect library view focusId targetId direction maxHops =
      selectFrom library view focusId targetId direction maxHops focus := by
  obtain ⟨rest, budget⟩ := admitted.budget
  have argumentsOk : ¬((!textValid library focusId.1 false) = true ∨
      (targetId.any fun targetId => !textValid library targetId.1 false) = true ∨
      maxNodes ≤ maxHops ∨ direction = .other) := by
    have focusText := textValid_of_located located
    have hops := admitted.hops
    have proper := admitted.direction
    rintro (wrong | wrong | wrong | wrong)
    · simp [focusText] at wrong
    · cases targetId with
      | none => cases wrong
      | some id => simp [targetText id rfl] at wrong
    · omega
    · exact proper wrong
  rw [diagramSelect, if_neg argumentsOk, budget, admitted.valid]
  simp only [located]

/-- A neighborhood is the selection of all nodes within the hops. -/
theorem neighborhood_selects : ∃ out, neighborhood library view focusId direction maxHops =
    some (.ok out) ∧
    Selected library view out (searched library view direction maxHops focus).distance
      (bothEnds library view (searched library view direction maxHops focus).distance) := by
  have valid := graphValidate_iff.mp admitted.valid
  have inside := index_lt located
  refine ⟨_, diagramSelect_eq admitted located (by simp), ?_⟩
  refine selected_copy valid inside ?_ fun index edge _ => (Bool.true_and _).symm
  rw [searched_focus]
  rfl

variable {targetId : CString}

theorem shortestPath_far (there : nodeIndex library (nodesOf view) targetId.1 = some target)
    (far : ∀ count ≤ maxHops, ¬Layers.Nearest (arcs library direction view) focus count target) :
    shortestPath library view focusId (some targetId) direction maxHops =
      some (.error .enoent) := by
  have unknown : (searched library view direction maxHops focus).distance target = none := by
    cases found : (searched library view direction maxHops focus).distance target with
    | none => rfl
    | some count =>
        obtain ⟨within, nearest⟩ :=
          ((searchFrom_layered direction maxHops focus).known target count).mp found
        exact absurd nearest (far count within)
  rw [shortestPath, diagramSelect_eq admitted located (by
    intro id same
    cases same
    exact textValid_of_located there)]
  simp only [selectFrom, there, selectPath, unknown]

/-- A target within the hops is found, with one shortest path. -/
theorem shortestPath_near {count : Nat}
    (there : nodeIndex library (nodesOf view) targetId.1 = some target) (within : count ≤ maxHops)
    (nearest : Layers.Nearest (arcs library direction view) focus count target) :
    ∃ out path, shortestPath library view focusId (some targetId) direction maxHops =
      some (.ok out) ∧
      Layers.Descent (arcs library direction view) focus
        (searched library view direction maxHops focus).distance count target path ∧
      Selected library view out
        (keepPath focus path (searched library view direction maxHops focus).distance)
        (fun index => decide (index ∈ path.map Prod.snd)) ∧
      (nodesOf out).length = count + 1 ∧ (edgesOf out).length = count ∧
      ∃ selection, out.field "selection" = some selection ∧
        selection.field "hop_count" = some (.int count) := by
  have valid := graphValidate_iff.mp admitted.valid
  have layered := @searchFrom_layered library view direction maxHops focus
  have known := (layered.known target count).mpr ⟨within, nearest⟩
  obtain ⟨path, traced, descent⟩ := layered.trace known within
  have chosen : (keepPath focus path
      (searched library view direction maxHops focus).distance focus).isSome = true := by
    rw [keepPath, if_pos (.inl rfl), searched_focus]
    rfl
  have same : ∀ index edge, (edgesOf view)[index]? = some edge →
      decide (index ∈ path.map Prod.snd) = (decide (index ∈ path.map Prod.snd) &&
        bothEnds library view (keepPath focus path
          (searched library view direction maxHops focus).distance) index) := by
    intro index edge _
    by_cases onPath : index ∈ path.map Prod.snd
    · rw [decide_eq_true onPath, Bool.true_and, descent_bothEnds descent onPath]
    · rw [decide_eq_false onPath, Bool.false_and]
  have selected := @selected_copy library view direction maxHops valid focusId.1 _ _ _
    (some (targetId.1, count)) focus (index_lt located) chosen same
  refine ⟨_, path, ?_, descent, selected, ?_, ?_, ?_⟩
  · rw [shortestPath, diagramSelect_eq admitted located (by
      intro id same
      cases same
      exact textValid_of_located there)]
    simp only [selectFrom, there, selectPath, known, traced]
  · rw [selected.nodes, length_filterMap_zipIdx descent.nodup]
    · rw [List.length_cons, List.length_map, descent.length]
    · intro index member
      rcases List.mem_cons.mp member with rfl | onPath
      · exact index_lt located
      · obtain ⟨entry, inside, rfl⟩ := List.mem_map.mp onPath
        obtain ⟨arc, isArc, -, -, rfl, -⟩ := descent.entry inside
        rcases mem_arcs isArc with ends | ends
        · exact (ends_inside valid (List.mem_of_getElem? ends)).2
        · exact (ends_inside valid (List.mem_of_getElem? ends)).1
    · intro node index _
      rw [selectNode, Option.isSome_map, keepPath, List.mem_cons]
      split_ifs with onPath
      · refine iff_of_true ?_ onPath
        rcases onPath with rfl | onPath
        · rw [searched_focus]
          rfl
        · obtain ⟨entry, inside, rfl⟩ := List.mem_map.mp onPath
          obtain ⟨arc, -, below, -, rfl, far, -⟩ := descent.entry inside
          exact Option.isSome_iff_exists.mpr ⟨_, far⟩
      · exact iff_of_false Bool.false_ne_true onPath
  · rw [selected.edges, length_filterMap_zipIdx (descent.nodup_labels arcs_ends)]
    · rw [List.length_map, descent.length]
    · intro index onPath
      obtain ⟨entry, inside, rfl⟩ := List.mem_map.mp onPath
      obtain ⟨arc, isArc, -, -, rfl, -⟩ := descent.entry inside
      have fits : ∀ {edge}, (ends library view)[arc.label]? = some edge →
          arc.label < (edgesOf view).length := by
        intro edge place
        have bound := (List.getElem?_eq_some_iff.mp place).1
        rwa [ends, List.length_map] at bound
      exact (mem_arcs isArc).elim fits fits
    · intro edge index _
      dsimp only
      by_cases onPath : index ∈ path.map Prod.snd
      · rw [decide_eq_true onPath]
        exact iff_of_true rfl onPath
      · rw [decide_eq_false onPath]
        exact iff_of_false Bool.false_ne_true onPath
  · obtain ⟨selection, stored, -, -, hops⟩ :=
      selection_copySelected (viewValid_object valid.formed)
    exact ⟨selection, stored, hops.trans rfl⟩

/-- A path is found exactly if its target is a node within the hops. -/
theorem shortestPath_ok_iff :
    (∃ out, shortestPath library view focusId (some targetId) direction maxHops =
      some (.ok out)) ↔ ∃ target count,
        nodeIndex library (nodesOf view) targetId.1 = some target ∧ count ≤ maxHops ∧
        Layers.Nearest (arcs library direction view) focus count target := by
  constructor
  · rintro ⟨out, found⟩
    by_cases targetText : textValid library targetId.1 false = true
    swap
    · rw [shortestPath, diagramSelect, if_pos (.inr (.inl (by simpa using targetText)))] at found
      cases found
    cases there : nodeIndex library (nodesOf view) targetId.1 with
    | none =>
        rw [shortestPath, diagramSelect_eq admitted located (by
          intro id same
          cases same
          exact targetText)] at found
        simp only [selectFrom, there] at found
        cases found
    | some target =>
        by_contra unreached
        have far : ∀ count ≤ maxHops,
            ¬Layers.Nearest (arcs library direction view) focus count target :=
          fun count within nearest => unreached ⟨target, count, rfl, within, nearest⟩
        rw [shortestPath_far admitted located there far] at found
        cases found
  · rintro ⟨target, count, there, within, nearest⟩
    obtain ⟨out, -, found, -⟩ := shortestPath_near admitted located there within nearest
    exact ⟨out, found⟩

end Selecting

/-- The arcs of a view with the same nodes and the same edges in another order have the same
ends. -/
theorem arcs_covered {other : Json} (nodes : nodesOf other = nodesOf view)
    (edges : (edgesOf other).Perm (edgesOf view)) :
    Layers.Covered (arcs library direction view) (arcs library direction other) := by
  intro arc member
  have among : ∀ {edge}, edge ∈ ends library view → ∃ index, (edge, index) ∈
      (ends library other).zipIdx := by
    intro edge inView
    have perm : (ends library other).Perm (ends library view) := by
      rw [ends, ends, nodes]
      exact edges.map _
    obtain ⟨index, place⟩ := List.mem_iff_getElem?.mp (perm.mem_iff.mpr inView)
    exact ⟨index, List.mk_mem_zipIdx_iff_getElem?.mpr place⟩
  obtain ⟨⟨⟨source, target⟩, index⟩, isEdge, isArc⟩ := List.mem_flatMap.mp member
  obtain ⟨place, again⟩ := among (List.mem_of_getElem? (List.mk_mem_zipIdx_iff_getElem?.mp isEdge))
  rcases List.mem_append.mp isArc with forth | back
  · split_ifs at forth with follows
    · rw [List.mem_singleton.mp forth]
      refine ⟨⟨source, target, place⟩, List.mem_flatMap.mpr ⟨_, again, ?_⟩, rfl, rfl⟩
      exact List.mem_append_left _ (by rw [if_pos follows]; exact List.mem_cons_self)
    · cases forth
  · split_ifs at back with follows
    · rw [List.mem_singleton.mp back]
      refine ⟨⟨target, source, place⟩, List.mem_flatMap.mpr ⟨_, again, ?_⟩, rfl, rfl⟩
      exact List.mem_append_right _ (by rw [if_pos follows]; exact List.mem_cons_self)
    · cases back

/-- The order of the edges has no part in the distances. -/
theorem searched_order {maxHops focus : Nat} {other : Json} (nodes : nodesOf other = nodesOf view)
    (edges : (edgesOf other).Perm (edgesOf view)) :
    (searched library other direction maxHops focus).distance =
      (searched library view direction maxHops focus).distance := by
  funext index
  apply Option.ext
  intro count
  rw [(searchFrom_layered direction maxHops focus).known,
    (searchFrom_layered direction maxHops focus).known,
    Layers.nearest_congr (arcs_covered nodes.symm edges.symm) (arcs_covered nodes edges)]

/-- A neighborhood has exactly the nodes within the hops and the edges between them, a path is
found exactly if its target is one of these nodes and is then a shortest one, and the order of
the edges has no part in the distances. -/
theorem selection_exact {focusId : CString} {direction : Direction} {maxHops focus : Nat}
    (admitted : Admitted library view direction maxHops)
    (located : nodeIndex library (nodesOf view) focusId.1 = some focus) :
    (∃ out distances, neighborhood library view focusId direction maxHops = some (.ok out) ∧
      Within library view direction focus maxHops distances ∧
      Selected library view out distances (bothEnds library view distances)) ∧
    (∀ targetId : CString,
      (∃ out, shortestPath library view focusId (some targetId) direction maxHops =
        some (.ok out)) ↔ ∃ target count,
          nodeIndex library (nodesOf view) targetId.1 = some target ∧ count ≤ maxHops ∧
          Layers.Nearest (arcs library direction view) focus count target) ∧
    (∀ (targetId : CString) (target count : Nat),
      nodeIndex library (nodesOf view) targetId.1 = some target → count ≤ maxHops →
      Layers.Nearest (arcs library direction view) focus count target →
      ∃ out distances path,
        shortestPath library view focusId (some targetId) direction maxHops =
          some (.ok out) ∧
        Within library view direction focus maxHops distances ∧
        Layers.Descent (arcs library direction view) focus distances count target path ∧
        Selected library view out (keepPath focus path distances)
          (fun index => decide (index ∈ path.map Prod.snd)) ∧
        (nodesOf out).length = count + 1 ∧ (edgesOf out).length = count ∧
        ∃ selection, out.field "selection" = some selection ∧
          selection.field "hop_count" = some (.int count)) ∧
    (∀ other, Admitted library other direction maxHops → nodesOf other = nodesOf view →
      (edgesOf other).Perm (edgesOf view) → ∃ out out',
        neighborhood library view focusId direction maxHops = some (.ok out) ∧
        neighborhood library other focusId direction maxHops = some (.ok out') ∧
        nodesOf out' = nodesOf out) := by
  have known := (@searchFrom_layered library view direction maxHops focus).known
  obtain ⟨out, found, selected⟩ := neighborhood_selects admitted located
  refine ⟨⟨out, _, found, known, selected⟩,
    fun targetId => shortestPath_ok_iff admitted located, ?_, ?_⟩
  · intro targetId target count there within nearest
    obtain ⟨out, path, found, rest⟩ := shortestPath_near admitted located there within nearest
    exact ⟨out, _, path, found, known, rest⟩
  · intro other admitted' nodes edges
    obtain ⟨out', found', selected'⟩ :=
      neighborhood_selects admitted' (nodes.symm ▸ located)
    refine ⟨out, out', found, found', ?_⟩
    rw [selected.nodes, selected'.nodes, nodes, searched_order nodes edges]

/-- A base library that takes every text. -/
def plainLibrary : Library := ⟨fun _ => true, fun _ _ => 1⟩

/-- Three nodes in a ring, with two edges from the first to the second. -/
def ringView : Json := .object [("schema_version", .int 1), ("kind", .string "plan"),
  ("nodes", .array [.object [("id", .string "a"), ("label", .string "A")],
    .object [("id", .string "b"), ("label", .string "List<B>")],
    .object [("id", .string "c"), ("label", .string "C")]]),
  ("edges", .array [.object [("from", .string "a"), ("to", .string "b"), ("label", .string "")],
    .object [("from", .string "a"), ("to", .string "b"), ("label", .string "x|y")],
    .object [("from", .string "b"), ("to", .string "c"), ("label", .string "")],
    .object [("from", .string "c"), ("to", .string "a"), ("label", .string "")]])]

theorem ringView_admitted : Admitted plainLibrary ringView .outgoing 2 where
  direction := Direction.noConfusion
  hops := by decide
  budget := ⟨(8162, 1048455), by decide +kernel⟩
  valid := by decide +kernel

theorem noNul_a : noNul "a" = true := by decide
theorem noNul_c : noNul "c" = true := by decide

/-- The neighborhood of the first node, and the path from it to the third one. -/
theorem selection_exact_sample :
    (∃ out distances,
      neighborhood plainLibrary ringView ⟨"a", noNul_a⟩ .outgoing 2 = some (.ok out) ∧
      Within plainLibrary ringView .outgoing 0 2 distances ∧
      Selected plainLibrary ringView out distances (bothEnds plainLibrary ringView distances)) ∧
    ∃ out, shortestPath plainLibrary ringView ⟨"a", noNul_a⟩ (some ⟨"c", noNul_c⟩) .outgoing 2 =
      some (.ok out) ∧ (nodesOf out).length = 3 ∧ (edgesOf out).length = 2 := by
  have near := ((@searchFrom_layered plainLibrary ringView .outgoing 2 0).known 2 2).mp
    (by decide +kernel)
  obtain ⟨whole, -, paths, -⟩ := @selection_exact plainLibrary ringView ⟨"a", noNul_a⟩ .outgoing 2 0
    ringView_admitted (by decide +kernel)
  obtain ⟨out, -, -, found, -, -, -, nodes, edges, -⟩ :=
    paths ⟨"c", noNul_c⟩ 2 2 (by decide +kernel) near.1 near.2
  exact ⟨whole, out, found, nodes, edges⟩

end TurboAgent.Diagram
