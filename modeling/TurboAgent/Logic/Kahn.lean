import TurboAgent.Logic.Lists

/-!
# Topological sorting

Nodes are the numbers below a bound, and each has a list of the nodes that must come before it.
A node is ready when nothing is missing before it.  Visiting ready nodes one by one, and telling
their successors, reaches every node only if there is no cycle.
-/

namespace TurboAgent.Logic.Kahn

/-- How much is still missing before each node, and the nodes that are ready. -/
structure State where
  missing : Nat → Nat
  queue : List Nat

section

variable (before : Nat → List Nat) (count : Nat)

/-- What there is at the start. -/
def initial : State where
  missing := fun node => (before node).length
  queue := (List.range count).filter fun node => (before node).length = 0

/-- Something before a node was visited. -/
def relax (state : State) (node : Nat) : Option State :=
  if state.missing node = 0 then none
  else
    let left := state.missing node - 1
    some ⟨Function.update state.missing node left,
      if left = 0 then state.queue ++ [node] else state.queue⟩

/-- Tell a list of nodes. -/
def relaxAll : State → List Nat → Option State
  | state, [] => some state
  | state, node :: nodes => (relax state node).bind fun next => relaxAll next nodes

/-- The nodes that are told of a visit, once for each time that they wait for it. -/
def waiting (current : Nat) : List Nat :=
  (List.range count).flatMap fun node => ((before node).filter (· = current)).map fun _ => node

/-- Visit ready nodes for a number of rounds: the nodes visited, and the nodes still ready. -/
def visit : Nat → List Nat → State → Option (List Nat × List Nat)
  | 0, visited, state => some (visited, state.queue)
  | rounds + 1, visited, state =>
      match state.queue with
      | [] => some (visited, [])
      | current :: queue =>
          (relaxAll ⟨state.missing, queue⟩ (waiting before count current)).bind fun next =>
            visit rounds (visited ++ [current]) next

/-- A node comes directly before another. -/
def Before (first second : Nat) : Prop := second < count ∧ first ∈ before second

/-- In a list, everything that comes before a node stands in front of it. -/
def Ordered (nodes : List Nat) : Prop :=
  ∀ front node back, nodes = front ++ node :: back → ∀ earlier ∈ before node, earlier ∈ front

/-- What holds between two visits. -/
structure Sound (visited : List Nat) (state : State) : Prop where
  nodup : (visited ++ state.queue).Nodup
  bounded : ∀ node ∈ visited ++ state.queue, node < count
  missing : ∀ node < count, state.missing node = (before node).countP (· ∉ visited)
  ready : ∀ node < count, node ∈ visited ++ state.queue ↔ state.missing node = 0
  ordered : Ordered before visited

/-- A moment of the visits: the nodes visited, the queue, and the nodes still to be told of the
last visit. -/
structure Moment where
  visited : List Nat
  state : State
  untold : List Nat

/-- From one moment to the next: a node is taken from the queue, or a node is told. -/
inductive Moves : Moment → Moment → Prop
  | take {visited missing current queue} :
      Moves ⟨visited, ⟨missing, current :: queue⟩, []⟩
        ⟨visited ++ [current], ⟨missing, queue⟩, waiting before count current⟩
  | tell {visited state next node untold} : relax state node = some next →
      Moves ⟨visited, state, node :: untold⟩ ⟨visited, next, untold⟩

/-- What holds at every moment. -/
structure Midway (moment : Moment) : Prop where
  nodup : (moment.visited ++ moment.state.queue).Nodup
  bounded : ∀ node ∈ moment.visited ++ moment.state.queue, node < count
  untold : ∀ node ∈ moment.untold, node < count
  missing : ∀ node < count, moment.state.missing node =
    (before node).countP (· ∉ moment.visited) + moment.untold.count node
  ready : ∀ node < count, node ∈ moment.visited ++ moment.state.queue ↔
    moment.state.missing node = 0

end

variable {before : Nat → List Nat} {count current node : Nat}

theorem count_waiting (bound : node < count) :
    (waiting before count current).count node = (before node).count current := by
  have general : ∀ nodes : List Nat, nodes.Nodup →
      (nodes.flatMap fun node => ((before node).filter (· = current)).map fun _ => node).count node =
        if node ∈ nodes then (before node).count current else 0 := by
    intro nodes distinct
    induction nodes with
    | nil => simp
    | cons first nodes ih =>
        rw [List.nodup_cons] at distinct
        rw [List.flatMap_cons, List.count_append, ih distinct.2]
        by_cases same : node = first
        · subst same
          rw [if_neg distinct.1, if_pos List.mem_cons_self, List.map_const', List.count_replicate_self,
            ← List.countP_eq_length_filter, Nat.add_zero, List.count]
          congr 1
        · have absent : (((before first).filter (· = current)).map fun _ => first).count node = 0 := by
            simp [List.count_eq_zero, same]
          rw [absent, Nat.zero_add]
          simp [same]
  rw [waiting, general _ List.nodup_range]
  simp [bound]

/-- Visiting one more node leaves less to wait for. -/
theorem countP_visited {nodes visited : List Nat} {current : Nat} (fresh : current ∉ visited) :
    nodes.countP (· ∉ visited ++ [current]) + nodes.count current =
      nodes.countP (· ∉ visited) := by
  induction nodes with
  | nil => simp
  | cons node nodes ih =>
      simp only [List.countP_cons, List.count_cons]
      by_cases same : node = current
      · subst same
        simp [fresh] at ih ⊢
        omega
      · by_cases seen : node ∈ visited
        · simp [same, seen]
          simpa using ih
        · simp [same, seen]
          simp at ih
          omega

variable {visited : List Nat}

theorem ordered_append (ordered : Ordered before visited)
    (ready : ∀ earlier ∈ before current, earlier ∈ visited) :
    Ordered before (visited ++ [current]) := by
  intro front node back split earlier member
  rcases List.eq_nil_or_concat back with rfl | ⟨rest, last, rfl⟩
  · have ends : visited ++ [current] = front ++ [node] := split
    obtain ⟨same, here⟩ := List.append_inj' ends rfl
    cases here
    rw [← same]
    exact ready earlier member
  · have ends : visited ++ [current] = (front ++ node :: rest) ++ [last] := by
      rw [split]
      simp
    obtain ⟨same, -⟩ := List.append_inj' ends rfl
    exact ordered front node rest same earlier member

theorem sound_initial : Sound before count [] (initial before count) where
  nodup := List.Nodup.filter _ List.nodup_range
  bounded := by
    intro node member
    simp only [initial, List.nil_append, List.mem_filter, List.mem_range] at member
    exact member.1
  missing := by simp [initial]
  ready := by
    intro node bound
    simp [initial, bound]
  ordered := by
    intro front node back split
    simp at split

variable {state : State}

theorem Midway.of_sound (sound : Sound before count visited state) :
    Midway before count ⟨visited, state, []⟩ where
  nodup := sound.nodup
  bounded := sound.bounded
  untold := by simp
  missing := by simpa using sound.missing
  ready := sound.ready

variable {moment : Moment}

/-- A node that is still to be told waits for something. -/
theorem Midway.waits (midway : Midway before count moment) (member : node ∈ moment.untold) :
    moment.state.missing node ≠ 0 := by
  have counted := midway.missing node (midway.untold node member)
  have some := List.count_pos_iff.mpr member
  omega

theorem Midway.length_le (midway : Midway before count moment) :
    (moment.visited ++ moment.state.queue).length ≤ count := by
  have within : moment.visited ++ moment.state.queue ⊆ List.range count := by
    intro node member
    exact List.mem_range.mpr (midway.bounded node member)
  simpa using (List.subperm_of_subset midway.nodup within).length_le

variable {queue : List Nat} {missing : Nat → Nat}

theorem midway_take (midway : Midway before count ⟨visited, ⟨missing, current :: queue⟩, []⟩) :
    Midway before count
      ⟨visited ++ [current], ⟨missing, queue⟩, waiting before count current⟩ := by
  have order : (visited ++ current :: queue).Nodup := midway.nodup
  have fresh : current ∉ visited := by
    intro member
    rw [List.nodup_append] at order
    exact order.2.2 current member current List.mem_cons_self rfl
  constructor
  case nodup => simpa using order
  case bounded => simpa using midway.bounded
  case untold =>
    intro node member
    simp only [waiting, List.mem_flatMap, List.mem_range, List.mem_map] at member
    obtain ⟨other, below, _, _, rfl⟩ := member
    exact below
  case missing =>
    intro node bound
    have here := midway.missing node bound
    have visits := @countP_visited (before node) visited current fresh
    simp only [List.count_nil, Nat.add_zero] at here
    rw [count_waiting bound]
    exact here.trans visits.symm
  case ready => simpa using midway.ready

theorem midway_tell {untold : List Nat} {next : State}
    (midway : Midway before count ⟨visited, state, node :: untold⟩)
    (told : relax state node = some next) : Midway before count ⟨visited, next, untold⟩ := by
  have bound : node < count := midway.untold node List.mem_cons_self
  have waits : state.missing node ≠ 0 := midway.waits List.mem_cons_self
  have late : node ∉ visited ++ state.queue := fun known =>
    waits ((midway.ready node bound).mp known)
  rw [relax, if_neg waits, Option.some.injEq] at told
  subst told
  have queued : ∀ other, other ∈ visited ++
        (if state.missing node - 1 = 0 then state.queue ++ [node] else state.queue) ↔
      other ∈ visited ++ state.queue ∨ other = node ∧ state.missing node - 1 = 0 := by
    intro other
    split
    next last => simp [last, or_assoc]
    next more => simp [more]
  constructor
  case nodup =>
    simp only
    split
    next =>
      rw [← List.append_assoc]
      exact Lists.nodup_snoc midway.nodup late
    next => exact midway.nodup
  case bounded =>
    intro other member
    rcases (queued other).mp member with known | ⟨rfl, -⟩
    · exact midway.bounded other known
    · exact bound
  case untold => exact fun other member => midway.untold other (List.mem_cons_of_mem _ member)
  case missing =>
    intro other below
    have counted := midway.missing other below
    simp only at counted ⊢
    by_cases same : other = node
    · subst same
      rw [List.count_cons_self] at counted
      rw [Function.update_self]
      omega
    · rw [List.count_cons_of_ne (Ne.symm same)] at counted
      rw [Function.update_of_ne same]
      exact counted
  case ready =>
    intro other below
    have known := midway.ready other below
    simp only at known ⊢
    rw [queued, known]
    by_cases same : other = node
    · subst same
      simp [waits]
    · simp [same]

/-- Telling succeeds from a sound state, and keeps what holds in between. -/
theorem midway_relaxAll {untold : List Nat} (midway : Midway before count ⟨visited, state, untold⟩) :
    ∃ next, relaxAll state untold = some next ∧ Midway before count ⟨visited, next, []⟩ := by
  induction untold generalizing state with
  | nil => exact ⟨state, rfl, midway⟩
  | cons node untold ih =>
      have waits : state.missing node ≠ 0 := midway.waits List.mem_cons_self
      obtain ⟨next, rest, after⟩ := ih (midway_tell midway (if_neg waits))
      refine ⟨next, ?_, after⟩
      rw [relaxAll, relax, if_neg waits]
      exact rest

/-- One visit succeeds, and keeps what holds between visits. -/
theorem sound_visit (sound : Sound before count visited ⟨missing, current :: queue⟩) :
    ∃ next, relaxAll ⟨missing, queue⟩ (waiting before count current) = some next ∧
      Sound before count (visited ++ [current]) next := by
  have midway := midway_take (.of_sound sound)
  obtain ⟨next, told, after⟩ := midway_relaxAll midway
  refine ⟨next, told, ⟨after.nodup, after.bounded, by simpa using after.missing, after.ready, ?_⟩⟩
  apply ordered_append sound.ordered
  intro earlier member
  have bound := sound.bounded current (by simp)
  have zero := (sound.ready current bound).mp (by simp)
  have none : (before current).countP (· ∉ visited) = 0 :=
    (sound.missing current bound).symm.trans zero
  rw [List.countP_eq_zero] at none
  simpa using none earlier member

/-- One visit keeps what holds between visits. -/
theorem sound_step {next : State} (sound : Sound before count visited ⟨missing, current :: queue⟩)
    (told : relaxAll ⟨missing, queue⟩ (waiting before count current) = some next) :
    Sound before count (visited ++ [current]) next := by
  obtain ⟨other, done, after⟩ := sound_visit sound
  rw [told, Option.some.injEq] at done
  rwa [done]

/-- What is missing never goes below nothing. -/
theorem visit_total {rounds : Nat} (sound : Sound before count visited state) :
    ∃ done rest, visit before count rounds visited state = some (done, rest) := by
  induction rounds generalizing visited state with
  | zero => exact ⟨visited, state.queue, rfl⟩
  | succ rounds ih =>
      rw [visit]
      split
      next => exact ⟨visited, [], rfl⟩
      next current queue ready =>
        obtain ⟨missing, _⟩ := state
        cases ready
        obtain ⟨next, told, after⟩ := sound_visit sound
        rw [told, Option.bind_some]
        exact ih after

/-- What holds in between holds at every moment. -/
theorem midway_run {first last : Moment} (midway : Midway before count first)
    (run : Relation.ReflTransGen (Moves before count) first last) : Midway before count last := by
  induction run with
  | refl => exact midway
  | tail _ move ih =>
      cases move with
      | take => exact midway_take ih
      | tell told => exact midway_tell ih told

/-- At every moment the nodes visited and the nodes that are ready are no more than there are. -/
theorem queue_bounded
    (run : Relation.ReflTransGen (Moves before count) ⟨[], initial before count, []⟩ moment) :
    (moment.visited ++ moment.state.queue).length ≤ count :=
  (midway_run (.of_sound sound_initial) run).length_le

variable {done rest : List Nat}

theorem visit_sound {rounds : Nat} (sound : Sound before count visited state)
    (ended : visit before count rounds visited state = some (done, rest)) :
    ∃ missing, Sound before count done ⟨missing, rest⟩ ∧
      (rest = [] ∨ done.length = visited.length + rounds) := by
  induction rounds generalizing visited state with
  | zero =>
      cases ended
      exact ⟨state.missing, sound, .inr rfl⟩
  | succ rounds ih =>
      rw [visit] at ended
      split at ended
      next empty =>
        cases ended
        refine ⟨state.missing, ?_, .inl rfl⟩
        rw [← empty]
        exact sound
      next current queue ready =>
        rw [Option.bind_eq_some_iff] at ended
        obtain ⟨next, told, later⟩ := ended
        obtain ⟨missing, queue⟩ := state
        cases ready
        obtain ⟨missing, soundEnd, length⟩ := ih (sound_step sound told) later
        refine ⟨missing, soundEnd, length.imp_right ?_⟩
        intro equal
        rw [equal, List.length_append, List.length_singleton]
        omega

/-- As many rounds as there are nodes leave no node ready. -/
theorem visit_complete
    (ended : visit before count count [] (initial before count) = some (done, rest)) :
    rest = [] := by
  obtain ⟨missing, sound, empty | full⟩ := visit_sound sound_initial ended
  · exact empty
  · have bound := (Midway.of_sound sound).length_le
    simp only [List.length_append, full, List.length_nil] at bound
    exact List.length_eq_zero_iff.mp (by omega)

/-- When every node is visited, each comes after what it waits for. -/
theorem visit_ordered
    (ended : visit before count count [] (initial before count) = some (done, rest))
    (all : done.length = count) :
    done.Nodup ∧ (∀ node, node ∈ done ↔ node < count) ∧ Ordered before done := by
  obtain ⟨missing, sound, -⟩ := visit_sound sound_initial ended
  have distinct : done.Nodup := (List.nodup_append.mp sound.nodup).1
  have within : done ⊆ List.range count := by
    intro node member
    exact List.mem_range.mpr (sound.bounded node (List.mem_append_left _ member))
  have same : done.Perm (List.range count) :=
    (List.subperm_of_subset distinct within).perm_of_length_le (by simp [all])
  refine ⟨distinct, ?_, sound.ordered⟩
  intro node
  rw [same.mem_iff, List.mem_range]

theorem idxOf_lt {nodes : List Nat} (ordered : Ordered before nodes) {first second : Nat}
    (member : second ∈ nodes) (edge : first ∈ before second) :
    nodes.idxOf first < nodes.idxOf second := by
  obtain ⟨front, back, split, fresh⟩ := List.eq_append_cons_of_mem member
  have early := ordered front second back split first edge
  rw [split, List.idxOf_append_of_mem early, List.idxOf_append_of_notMem fresh]
  have bound := List.idxOf_lt_length_of_mem early
  omega

/-- When every node is visited there is no cycle. -/
theorem acyclic (ended : visit before count count [] (initial before count) = some (done, rest))
    (all : done.length = count) (node : Nat) :
    ¬Relation.TransGen (Before before count) node node := by
  obtain ⟨-, members, ordered⟩ := visit_ordered ended all
  have increasing : ∀ first second, Relation.TransGen (Before before count) first second →
      done.idxOf first < done.idxOf second := by
    intro first second path
    induction path with
    | single edge => exact idxOf_lt ordered ((members _).mpr edge.1) edge.2
    | tail _ edge ih => exact ih.trans (idxOf_lt ordered ((members _).mpr edge.1) edge.2)
  intro cycle
  exact Nat.lt_irrefl _ (increasing node node cycle)

/-- Without a cycle, what comes before a node can be followed back to a first one. -/
theorem wellFounded_of_acyclic (none : ∀ node, ¬Relation.TransGen (Before before count) node node)
    (inside : ∀ node < count, ∀ earlier ∈ before node, earlier < count) :
    WellFounded (Before before count) := by
  let within : Fin count → Fin count → Prop := fun first second =>
    Relation.TransGen (Before before count) first second
  have : IsTrans (Fin count) within := ⟨fun _ _ _ => Relation.TransGen.trans⟩
  have : Std.Irrefl within := ⟨fun node => none node⟩
  have founded : WellFounded within := Finite.wellFounded_of_trans_of_irrefl within
  have below : ∀ node : Fin count, Acc (Before before count) node := by
    intro node
    induction node using founded.induction with
    | _ node ih =>
      refine ⟨_, fun earlier edge => ?_⟩
      exact ih ⟨earlier, inside node node.2 earlier edge.2⟩ (.single edge)
  refine ⟨fun node => ⟨_, fun earlier edge => ?_⟩⟩
  exact below ⟨earlier, inside node edge.1 earlier edge.2⟩

/-- Without a cycle every node is visited. -/
theorem visit_all (none : ∀ node, ¬Relation.TransGen (Before before count) node node)
    (inside : ∀ node < count, ∀ earlier ∈ before node, earlier < count)
    (ended : visit before count count [] (initial before count) = some (done, rest)) :
    done.length = count := by
  have empty := visit_complete ended
  subst empty
  obtain ⟨missing, sound, -⟩ := visit_sound sound_initial ended
  have each : ∀ node, node < count → node ∈ done := by
    intro node
    induction node using (wellFounded_of_acyclic none inside).induction with
    | _ node ih =>
      intro bound
      have nothing : (before node).countP (· ∉ done) = 0 := by
        rw [List.countP_eq_zero]
        intro earlier member
        simpa using ih earlier ⟨bound, member⟩ (inside node bound earlier member)
      have listed := (sound.ready node bound).mpr ((sound.missing node bound).trans nothing)
      simpa using listed
  have distinct : done.Nodup := (List.nodup_append.mp sound.nodup).1
  have same : done.Perm (List.range count) := by
    rw [List.perm_ext_iff_of_nodup distinct List.nodup_range]
    intro node
    rw [List.mem_range]
    exact ⟨fun member => sound.bounded node (List.mem_append_left _ member), each node⟩
  simpa using same.length_eq

/-- The visits reach every node exactly when there is no cycle. -/
theorem visit_all_iff (inside : ∀ node < count, ∀ earlier ∈ before node, earlier < count) :
    (∃ done rest, visit before count count [] (initial before count) = some (done, rest) ∧
      done.length = count) ↔ ∀ node, ¬Relation.TransGen (Before before count) node node := by
  constructor
  · rintro ⟨done, rest, ended, all⟩
    exact acyclic ended all
  · intro none
    have start : Sound before count [] (initial before count) := sound_initial
    obtain ⟨done, rest, ended⟩ := (visit_total start : ∃ done rest,
      visit before count count [] (initial before count) = some (done, rest))
    exact ⟨done, rest, ended, visit_all none inside ended⟩

end TurboAgent.Logic.Kahn
