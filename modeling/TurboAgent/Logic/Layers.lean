import Mathlib

/-!
# Breadth-first layers

The distances from a start are found layer by layer.  A pass goes once through all the arcs,
in the order they have, and every arc that leaves the last layer for a vertex without a
distance gives it one.  The order of the arcs has no part in the distances; it only chooses
among the arcs of equal distance the one that is remembered.
-/

namespace TurboAgent.Layers

open Function (update update_of_ne update_self)

variable {α ι : Type}

/-- A labelled arc. -/
structure Arc (α ι : Type) where
  (source target : α)
  label : ι
  deriving DecidableEq

/-! ## Distances -/

/-- A walk of so many arcs from the start to a vertex. -/
inductive Walk (arcs : List (Arc α ι)) (start : α) : Nat → α → Prop where
  | here : Walk arcs start 0 start
  | step {count : Nat} {arc : Arc α ι} (walk : Walk arcs start count arc.source)
      (member : arc ∈ arcs) : Walk arcs start (count + 1) arc.target

/-- The distance of a vertex: a walk of that length and no shorter one. -/
def Nearest (arcs : List (Arc α ι)) (start : α) (count : Nat) (vertex : α) : Prop :=
  Walk arcs start count vertex ∧ ∀ shorter < count, ¬Walk arcs start shorter vertex

variable {arcs : List (Arc α ι)} {start vertex : α} {count : Nat}

theorem Nearest.unique {other : Nat} (left : Nearest arcs start count vertex)
    (right : Nearest arcs start other vertex) : count = other := by
  rcases Nat.lt_trichotomy count other with less | same | more
  · exact absurd left.1 (right.2 _ less)
  · exact same
  · exact absurd right.1 (left.2 _ more)

/-- Where a walk leads there is a distance. -/
theorem Walk.nearest (walk : Walk arcs start count vertex) :
    ∃ least ≤ count, Nearest arcs start least vertex := by
  induction count using Nat.strongRecOn with
  | ind count ih =>
      by_cases shortest : ∀ shorter < count, ¬Walk arcs start shorter vertex
      · exact ⟨count, Nat.le_refl _, walk, shortest⟩
      · push Not at shortest
        obtain ⟨shorter, less, other⟩ := shortest
        obtain ⟨least, within, nearest⟩ := ih shorter less other
        exact ⟨least, Nat.le_trans within (Nat.le_of_lt less), nearest⟩

theorem nearest_zero : Nearest arcs start 0 vertex ↔ vertex = start := by
  constructor
  · rintro ⟨walk, -⟩
    cases walk
    rfl
  · rintro rfl
    exact ⟨.here, fun _ less => absurd less (Nat.not_lt_zero _)⟩

/-- A vertex of a later layer is reached from one of the layer before it. -/
theorem Nearest.before (nearest : Nearest arcs start (count + 1) vertex) :
    ∃ arc ∈ arcs, arc.target = vertex ∧ Nearest arcs start count arc.source := by
  obtain ⟨walk, shortest⟩ := nearest
  cases walk with
  | @step _ arc walk member =>
      refine ⟨arc, member, rfl, walk, fun shorter less other => ?_⟩
      exact shortest (shorter + 1) (Nat.succ_lt_succ less) (.step other member)

/-- Every arc has one with the same ends among the others. -/
def Covered (arcs others : List (Arc α ι)) : Prop :=
  ∀ arc ∈ arcs, ∃ other ∈ others, other.source = arc.source ∧ other.target = arc.target

theorem Walk.mono {others : List (Arc α ι)} (covered : Covered arcs others)
    (walk : Walk arcs start count vertex) : Walk others start count vertex := by
  induction walk with
  | here => exact .here
  | step _ member ih =>
      obtain ⟨other, inside, source, target⟩ := covered _ member
      rw [← source] at ih
      rw [← target]
      exact .step ih inside

/-- Distances depend neither on the order of the arcs nor on their labels. -/
theorem nearest_congr {others : List (Arc α ι)} (forth : Covered arcs others)
    (back : Covered others arcs) :
    Nearest arcs start count vertex ↔ Nearest others start count vertex :=
  ⟨fun nearest => ⟨nearest.1.mono forth, fun shorter less walk =>
      nearest.2 shorter less (walk.mono back)⟩,
    fun nearest => ⟨nearest.1.mono back, fun shorter less walk =>
      nearest.2 shorter less (walk.mono forth)⟩⟩

/-- After a layer without vertices there are none. -/
theorem nearest_empty {depth : Nat} (empty : ∀ vertex, ¬Nearest arcs start depth vertex) :
    ∀ extra vertex, ¬Nearest arcs start (depth + extra) vertex := by
  intro extra
  induction extra with
  | zero => exact empty
  | succ extra ih =>
      intro vertex nearest
      obtain ⟨arc, -, -, before⟩ := nearest.before
      exact ih arc.source before

/-! ## The search -/

/-- The distances so far, the arc that gave each of them, and whether the pass has found
any. -/
structure Search (α ι : Type) where
  distance : α → Option Nat
  parent : α → Option (α × ι)
  discovered : Bool

/-- The distances up to a depth are right, and every one but the start's was given by an
arc. -/
structure Layered (arcs : List (Arc α ι)) (start : α) (depth : Nat) (search : Search α ι) :
    Prop where
  known : ∀ vertex count, search.distance vertex = some count ↔
    count ≤ depth ∧ Nearest arcs start count vertex
  given : ∀ vertex count, search.distance vertex = some (count + 1) →
    ∃ arc ∈ arcs, arc.target = vertex ∧ search.parent vertex = some (arc.source, arc.label) ∧
      search.distance arc.source = some count

/-- Within a pass: the arcs so far have given the distances of the next layer. -/
structure Passing (arcs done : List (Arc α ι)) (start : α) (depth : Nat)
    (search : Search α ι) : Prop where
  known : ∀ vertex count, search.distance vertex = some count ↔
    (count ≤ depth ∧ Nearest arcs start count vertex) ∨
      (count = depth + 1 ∧ Nearest arcs start count vertex ∧
        ∃ arc ∈ done, arc.target = vertex ∧ Nearest arcs start depth arc.source)
  given : ∀ vertex count, search.distance vertex = some (count + 1) →
    ∃ arc ∈ arcs, arc.target = vertex ∧ search.parent vertex = some (arc.source, arc.label) ∧
      search.distance arc.source = some count
  found : search.discovered = false → ∀ vertex, search.distance vertex ≠ some (depth + 1)

variable {done : List (Arc α ι)} {depth : Nat} {search : Search α ι} {arc : Arc α ι}

theorem Layered.passing (layered : Layered arcs start depth search) :
    Passing arcs [] start depth { search with discovered := false } where
  known := by
    intro vertex count
    rw [layered.known]
    simp
  given := layered.given
  found := by
    intro _ vertex isNext
    have within := ((layered.known _ _).mp isNext).1
    omega

/-- A distance of the layer itself. -/
theorem Passing.layer (passing : Passing arcs done start depth search) :
    search.distance vertex = some depth ↔ Nearest arcs start depth vertex := by
  rw [passing.known]
  constructor
  · rintro (⟨-, nearest⟩ | ⟨impossible, -⟩)
    · exact nearest
    · omega
  · exact fun nearest => .inl ⟨Nat.le_refl _, nearest⟩

/-- After a pass the next layer is known. -/
theorem Passing.layered (passing : Passing arcs arcs start depth search) :
    Layered arcs start (depth + 1) search where
  known := by
    intro vertex count
    rw [passing.known]
    constructor
    · rintro (⟨within, nearest⟩ | ⟨rfl, nearest, -⟩)
      · exact ⟨Nat.le_succ_of_le within, nearest⟩
      · exact ⟨Nat.le_refl _, nearest⟩
    · rintro ⟨within, nearest⟩
      rcases Nat.lt_or_eq_of_le within with less | rfl
      · exact .inl ⟨Nat.le_of_lt_succ less, nearest⟩
      · exact .inr ⟨rfl, nearest, nearest.before⟩
  given := passing.given

variable [DecidableEq α]

/-- Only the start has a distance. -/
def Search.initial (start : α) : Search α ι where
  distance := update (fun _ => none) start (some 0)
  parent := fun _ => none
  discovered := false

/-- An arc that leaves the layer gives its target a distance, unless it has one. -/
def relax (depth : Nat) (search : Search α ι) (arc : Arc α ι) : Search α ι :=
  if search.distance arc.source = some depth ∧ search.distance arc.target = none then {
    distance := update search.distance arc.target (some (depth + 1))
    parent := update search.parent arc.target (some (arc.source, arc.label))
    discovered := true }
  else search

/-- A pass over the arcs. -/
def pass (arcs : List (Arc α ι)) (depth : Nat) (search : Search α ι) : Search α ι :=
  arcs.foldl (relax depth) { search with discovered := false }

/-- Passes for one layer after another, until there are enough or one finds nothing. -/
def layers (arcs : List (Arc α ι)) : (rounds depth : Nat) → Search α ι → Search α ι
  | 0, _, search => search
  | rounds + 1, depth, search =>
      let next := pass arcs depth search
      if next.discovered then layers arcs rounds (depth + 1) next else next

theorem initial_distance : (Search.initial start : Search α ι).distance vertex =
    if vertex = start then some 0 else none :=
  Function.update_apply (fun _ => none) start (some 0) vertex

theorem layered_initial : Layered arcs start 0 (Search.initial start) where
  known := by
    intro vertex count
    rw [initial_distance, Nat.le_zero]
    split_ifs with same
    · rw [Option.some.injEq]
      constructor
      · rintro rfl
        exact ⟨rfl, nearest_zero.mpr same⟩
      · exact fun within => within.1.symm
    · refine iff_of_false id ?_
      rintro ⟨rfl, nearest⟩
      exact same (nearest_zero.mp nearest)
  given := by
    intro vertex count isGiven
    rw [initial_distance] at isGiven
    split_ifs at isGiven
    cases isGiven

theorem Passing.relax (passing : Passing arcs done start depth search) (member : arc ∈ arcs) :
    Passing arcs (done ++ [arc]) start depth (relax depth search arc) := by
  unfold Layers.relax
  by_cases relaxed : search.distance arc.source = some depth ∧ search.distance arc.target = none
  · rw [if_pos relaxed]
    obtain ⟨leaves, unknown⟩ := relaxed
    have source := passing.layer.mp leaves
    have fresh : ∀ count ≤ depth, ¬Walk arcs start count arc.target := by
      intro count within walk
      obtain ⟨least, less, nearest⟩ := walk.nearest
      have isKnown := (passing.known _ _).mpr (.inl ⟨Nat.le_trans less within, nearest⟩)
      rw [unknown] at isKnown
      cases isKnown
    have target : Nearest arcs start (depth + 1) arc.target :=
      ⟨.step source.1 member, fun shorter less => fresh shorter (Nat.le_of_lt_succ less)⟩
    have apart : arc.source ≠ arc.target := by
      intro same
      rw [same, unknown] at leaves
      cases leaves
    refine ⟨?_, ?_, fun undiscovered => Bool.noConfusion undiscovered⟩
    · intro vertex count
      dsimp only
      by_cases same : vertex = arc.target
      · subst same
        rw [update_self, Option.some.injEq]
        constructor
        · rintro rfl
          exact .inr ⟨rfl, target, arc, List.mem_append_right _ List.mem_cons_self, rfl, source⟩
        · rintro (⟨-, nearest⟩ | ⟨-, nearest, -⟩) <;> exact target.unique nearest
      · rw [update_of_ne same, passing.known]
        have others : (∃ given ∈ done ++ [arc], given.target = vertex ∧
            Nearest arcs start depth given.source) ↔
            ∃ given ∈ done, given.target = vertex ∧ Nearest arcs start depth given.source := by
          constructor
          · rintro ⟨given, isGiven, rfl, nearest⟩
            rcases List.mem_append.mp isGiven with old | new
            · exact ⟨given, old, rfl, nearest⟩
            · rw [List.mem_singleton.mp new] at same
              exact absurd rfl same
          · rintro ⟨given, old, rest⟩
            exact ⟨given, List.mem_append_left _ old, rest⟩
        rw [others]
    · intro vertex count isGiven
      dsimp only at isGiven ⊢
      by_cases same : vertex = arc.target
      · subst same
        rw [update_self, Option.some.injEq] at isGiven
        refine ⟨arc, member, rfl, update_self .., ?_⟩
        rw [update_of_ne apart, leaves]
        exact congrArg some (Nat.succ.inj isGiven)
      · rw [update_of_ne same] at isGiven
        obtain ⟨given, inside, rfl, parent, before⟩ := passing.given _ _ isGiven
        refine ⟨given, inside, rfl, ?_, ?_⟩
        · rw [update_of_ne same]
          exact parent
        · rw [update_of_ne]
          · exact before
          · intro same
            rw [same, unknown] at before
            cases before
  · rw [if_neg relaxed]
    refine ⟨?_, passing.given, passing.found⟩
    intro vertex count
    rw [passing.known]
    constructor
    · rintro (old | ⟨isNext, nearest, given, inside, rest⟩)
      · exact .inl old
      · exact .inr ⟨isNext, nearest, given, List.mem_append_left _ inside, rest⟩
    · rintro (old | ⟨rfl, nearest, given, inside, rfl, source⟩)
      · exact .inl old
      · rcases List.mem_append.mp inside with before | last
        · exact .inr ⟨rfl, nearest, given, before, rfl, source⟩
        rw [List.mem_singleton.mp last] at nearest source ⊢
        -- the arc leaves the layer, so its target has a distance, which is the nearest one
        cases isKnown : search.distance arc.target with
        | none => exact absurd ⟨passing.layer.mpr source, isKnown⟩ relaxed
        | some count =>
            have places := (passing.known _ _).mp isKnown
            rcases places with ⟨within, other⟩ | ⟨rfl, -, there⟩
            · have same := nearest.unique other
              omega
            · exact .inr ⟨rfl, nearest, there⟩

theorem Passing.foldl (passing : Passing arcs done start depth search)
    {rest : List (Arc α ι)} (inside : ∀ arc ∈ rest, arc ∈ arcs) :
    Passing arcs (done ++ rest) start depth (rest.foldl (Layers.relax depth) search) := by
  induction rest generalizing done search with
  | nil => simpa using passing
  | cons arc rest ih =>
      have split : done ++ arc :: rest = (done ++ [arc]) ++ rest := by simp
      obtain ⟨member, others⟩ := List.forall_mem_cons.mp inside
      rw [split, List.foldl_cons]
      exact ih (passing.relax member) others

theorem Layered.pass (layered : Layered arcs start depth search) :
    Layered arcs start (depth + 1) (pass arcs depth search) ∧
      ((Layers.pass arcs depth search).discovered = false →
        ∀ vertex, ¬Nearest arcs start (depth + 1) vertex) := by
  have passing := layered.passing.foldl (fun arc member => member)
  rw [List.nil_append] at passing
  refine ⟨passing.layered, fun nothing vertex nearest => ?_⟩
  exact passing.found nothing vertex ((passing.layered.known _ _).mpr ⟨Nat.le_refl _, nearest⟩)

/-- The passes give every vertex within their number its distance. -/
theorem Layered.layers (layered : Layered arcs start depth search) (rounds : Nat) :
    Layered arcs start (depth + rounds) (layers arcs rounds depth search) := by
  induction rounds generalizing depth search with
  | zero => exact layered
  | succ rounds ih =>
      obtain ⟨next, last⟩ := layered.pass
      rw [Layers.layers]
      cases more : (Layers.pass arcs depth search).discovered with
      | true =>
          rw [if_pos rfl, Nat.add_succ, ← Nat.succ_add]
          exact ih next
      | false =>
          rw [if_neg Bool.false_ne_true]
          refine ⟨fun vertex count => ?_, next.given⟩
          rw [next.known]
          refine ⟨fun within => ⟨by omega, within.2⟩, fun within => ⟨?_, within.2⟩⟩
          by_contra beyond
          obtain ⟨extra, rfl⟩ := Nat.exists_eq_add_of_le (Nat.le_of_lt (Nat.not_le.mp beyond))
          exact nearest_empty (last more) extra vertex within.2

/-! ## Paths -/

/-- The way back from a vertex to the start, each vertex with the label of the arc that gave it
its distance. -/
def trace (parent : α → Option (α × ι)) (start : α) : (fuel : Nat) → α → Option (List (α × ι))
  | 0, vertex => if vertex = start then some [] else none
  | fuel + 1, vertex =>
      if vertex = start then some []
      else match parent vertex with
        | none => none
        | some (before, label) => (trace parent start fuel before).map ((vertex, label) :: ·)

/-- A way back on which every arc leads one layer down. -/
inductive Descent (arcs : List (Arc α ι)) (start : α) (distance : α → Option Nat) :
    Nat → α → List (α × ι) → Prop where
  | start (zero : distance start = some 0) : Descent arcs start distance 0 start []
  | step {count : Nat} {arc : Arc α ι} {path : List (α × ι)} (member : arc ∈ arcs)
      (far : distance arc.target = some (count + 1))
      (rest : Descent arcs start distance count arc.source path) :
      Descent arcs start distance (count + 1) arc.target ((arc.target, arc.label) :: path)

/-- The way back from a vertex with a distance is found. -/
theorem Layered.trace (layered : Layered arcs start depth search) {fuel : Nat}
    (far : search.distance vertex = some count) (enough : count ≤ fuel) :
    ∃ path, trace search.parent start fuel vertex = some path ∧
      Descent arcs start search.distance count vertex path := by
  induction fuel generalizing vertex count with
  | zero =>
      obtain rfl := Nat.le_zero.mp enough
      have same : vertex = start := nearest_zero.mp ((layered.known _ _).mp far).2
      subst same
      exact ⟨[], if_pos rfl, .start far⟩
  | succ fuel ih =>
      cases count with
      | zero =>
          have same : vertex = start := nearest_zero.mp ((layered.known _ _).mp far).2
          subst same
          exact ⟨[], if_pos rfl, .start far⟩
      | succ count =>
          have apart : vertex ≠ start := by
            rintro rfl
            have zero := (layered.known vertex 0).mpr ⟨Nat.zero_le _, nearest_zero.mpr rfl⟩
            rw [far] at zero
            cases zero
          obtain ⟨arc, member, rfl, parent, before⟩ := layered.given _ _ far
          obtain ⟨path, traced, descent⟩ := ih before (Nat.le_of_succ_le_succ enough)
          refine ⟨(arc.target, arc.label) :: path, ?_, .step member far descent⟩
          rw [Layers.trace, if_neg apart, parent]
          simp only [traced, Option.map_some]

section Descent

omit [DecidableEq α]

variable {distance : α → Option Nat} {path : List (α × ι)}

theorem Descent.length (descent : Descent arcs start distance count vertex path) :
    path.length = count := by
  induction descent with
  | start => rfl
  | step _ _ _ ih => rw [List.length_cons, ih]

theorem Descent.far (descent : Descent arcs start distance count vertex path) :
    distance vertex = some count := by
  cases descent with
  | start zero => exact zero
  | step _ far _ => exact far

theorem Descent.head (descent : Descent arcs start distance count vertex path) :
    vertex = start ∨ vertex ∈ path.map Prod.fst := by
  cases descent with
  | start => exact .inl rfl
  | step => exact .inr List.mem_cons_self

/-- Every vertex on the way has a distance, and its arc leads one layer down. -/
theorem Descent.entry (descent : Descent arcs start distance count vertex path)
    {entry : α × ι} (member : entry ∈ path) :
    ∃ arc ∈ arcs, ∃ below < count, entry = (arc.target, arc.label) ∧
      distance arc.target = some (below + 1) ∧ distance arc.source = some below ∧
      (arc.source = start ∨ arc.source ∈ path.map Prod.fst) := by
  induction descent with
  | start => cases member
  | @step count arc path inside far rest ih =>
      rcases List.mem_cons.mp member with rfl | later
      · refine ⟨arc, inside, count, Nat.lt_succ_self _, rfl, far, rest.far, ?_⟩
        rw [List.map_cons]
        exact rest.head.imp id (List.mem_cons_of_mem _)
      · obtain ⟨other, isArc, below, less, same, above, under, place⟩ := ih later
        refine ⟨other, isArc, below, Nat.lt_succ_of_lt less, same, above, under, ?_⟩
        rw [List.map_cons]
        exact place.imp id (List.mem_cons_of_mem _)

/-- No vertex is on the way twice. -/
theorem Descent.nodup (descent : Descent arcs start distance count vertex path) :
    (start :: path.map Prod.fst).Nodup := by
  have away : ∀ {count vertex path}, Descent arcs start distance count vertex path →
      distance start = some 0 := by
    intro count vertex path descent
    induction descent with
    | start zero => exact zero
    | step _ _ _ ih => exact ih
  refine List.nodup_cons.mpr ⟨?_, ?_⟩
  · intro member
    obtain ⟨entry, inside, same⟩ := List.mem_map.mp member
    obtain ⟨arc, -, below, -, rfl, far, -⟩ := descent.entry inside
    dsimp only at same
    rw [same, away descent] at far
    cases far
  · clear away
    induction descent with
    | start => exact List.nodup_nil
    | @step count arc path member far rest ih =>
        rw [List.map_cons, List.nodup_cons]
        refine ⟨?_, ih⟩
        intro again
        obtain ⟨entry, inside, same⟩ := List.mem_map.mp again
        obtain ⟨other, -, below, less, rfl, above, -⟩ := rest.entry inside
        dsimp only at same
        rw [same, far, Option.some.injEq] at above
        omega

/-- No label is on the way twice, if arcs with one label have the same two ends. -/
theorem Descent.nodup_labels (descent : Descent arcs start distance count vertex path)
    (ends : ∀ arc ∈ arcs, ∀ other ∈ arcs, arc.label = other.label →
      (arc.target = other.target ∨ (arc.target = other.source ∧ arc.source = other.target))) :
    (path.map Prod.snd).Nodup := by
  induction descent with
  | start => exact List.nodup_nil
  | @step count arc path member far rest ih =>
      rw [List.map_cons, List.nodup_cons]
      refine ⟨?_, ih⟩
      intro again
      obtain ⟨entry, inside, same⟩ := List.mem_map.mp again
      obtain ⟨other, isArc, below, less, rfl, above, under, -⟩ := rest.entry inside
      rcases ends arc member other isArc same.symm with target | ⟨target, -⟩
      · rw [target, above, Option.some.injEq] at far
        omega
      · rw [target, under, Option.some.injEq] at far
        omega

end Descent

end TurboAgent.Layers
