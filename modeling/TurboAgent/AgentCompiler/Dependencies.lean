import TurboAgent.AgentCompiler.Admission

/-!
# Which dependencies are admitted

The passes over ids, names and cycles, taken together, admit exactly the steps with distinct
ids whose dependencies are known, listed once, few enough and without a cycle.  Dependencies are
compared by position in a plan and by id in its source, and both give the same order.
-/

namespace TurboAgent.AgentCompiler

open StepSource (stepId)

/-- The passes of `turbo_agent_compile_dag` over ids and dependencies. -/
def dependencyPasses (sources : List StepSource) (admitted : List Step) :
    Compiled (List Step) := do
  let ids := sources.map stepId
  checkIds [] ids
  let steps ← resolveDependencies ids 0 (sources.zip admitted)
  validateAcyclic steps
  return steps

/-- A step lists another among its dependencies, by id. -/
def Precedes (sources : List StepSource) (first second : CString) : Prop :=
  ∃ source ∈ sources, source.stepId = second ∧ first ∈ source.dependsOn

structure DependenciesOrdered (sources : List StepSource) : Prop where
  distinct : (sources.map stepId).Nodup
  known : ∀ source ∈ sources, source.dependsOn ⊆ sources.map stepId
  once : ∀ source ∈ sources, source.dependsOn.Nodup
  few : (sources.map fun source => source.dependsOn.length).sum ≤ maxEdges
  acyclic : ∀ id, ¬Relation.TransGen (Precedes sources) id id

def withPositions (ids : List CString) (pair : StepSource × Step) : Step :=
  { pair.2 with dependencies := pair.1.dependsOn.map ids.idxOf }

section

variable {ids : List CString} {name : CString}

theorem findSourceStep_of_mem (member : name ∈ ids) :
    findSourceStep ids name = some (ids.idxOf name) := by
  rw [findSourceStep, List.findIdx?_eq_some_iff_findIdx_eq]
  exact ⟨List.idxOf_lt_length_of_mem member, by simp [List.idxOf, beq_eq_decide]⟩

theorem findSourceStep_of_not_mem (absent : name ∉ ids) : findSourceStep ids name = none := by
  rw [findSourceStep, List.findIdx?_eq_none_iff]
  intro id member
  exact decide_eq_false fun same => absent (same ▸ member)

theorem idxOf_mem_map {names : List CString} (known : names ⊆ ids) :
    ids.idxOf name ∈ names.map ids.idxOf ↔ name ∈ names := by
  constructor
  · intro member
    obtain ⟨other, listed, same⟩ := List.mem_map.mp member
    rw [(List.idxOf_inj (known listed)).mp same] at listed
    exact listed
  · exact List.mem_map_of_mem

theorem resolveEdges_iff (named : ∀ id ∈ ids, id.1 ≠ "") {prior names : List CString}
    {resolved : List Nat} (known : prior ⊆ ids) (distinct : prior.Nodup) :
    resolveEdges ids (prior.map ids.idxOf) names = .ok resolved ↔
      resolved = (prior ++ names).map ids.idxOf ∧ names ⊆ ids ∧ (prior ++ names).Nodup := by
  induction names generalizing prior with
  | nil =>
      simp only [resolveEdges, Except.ok.injEq, List.append_nil, List.nil_subset, distinct,
        and_true]
      exact eq_comm
  | cons name names ih =>
      have snoc : prior.map ids.idxOf ++ [ids.idxOf name] = (prior ++ [name]).map ids.idxOf := by
        simp
      simp only [resolveEdges, Outcome.bind_eq_ok, Outcome.orFail_eq_ok, Outcome.require_eq_ok,
        exists_const]
      by_cases member : name ∈ ids
      · rw [if_neg (named name member), findSourceStep_of_mem member]
        simp only [Option.some.injEq, exists_eq_left', idxOf_mem_map known]
        have extended : prior ++ [name] ⊆ ids := by simp [known, member]
        constructor
        · rintro ⟨fresh, rest⟩
          rw [snoc, ih extended (Lists.nodup_snoc distinct fresh)] at rest
          simpa [member] using rest
        · rintro ⟨rfl, others, apart⟩
          have fresh : name ∉ prior := fun listed =>
            (List.nodup_append.mp apart).2.2 name listed name List.mem_cons_self rfl
          refine ⟨fresh, ?_⟩
          rw [snoc, ih extended (Lists.nodup_snoc distinct fresh)]
          rw [List.cons_subset] at others
          simpa [others.2] using apart
      · rw [findSourceStep_of_not_mem member]
        simp [member]

/-- The pass over all steps finds the dependencies of each, and not too many. -/
theorem resolveDependencies_iff (named : ∀ id ∈ ids, id.1 ≠ "") {edges : Nat}
    {pairs : List (StepSource × Step)} {steps : List Step} (few : edges ≤ maxEdges) :
    resolveDependencies ids edges pairs = .ok steps ↔
      steps = pairs.map (withPositions ids) ∧
      (∀ pair ∈ pairs, pair.1.dependsOn ⊆ ids ∧ pair.1.dependsOn.Nodup) ∧
      edges + (pairs.map fun pair => pair.1.dependsOn.length).sum ≤ maxEdges := by
  induction pairs generalizing edges steps with
  | nil => simp [resolveDependencies, few, eq_comm]
  | cons pair pairs ih =>
      obtain ⟨source, step⟩ := pair
      have first := fun resolved => @resolveEdges_iff ids named [] source.dependsOn resolved
        (List.nil_subset _) List.nodup_nil
      simp only [List.map_nil, List.nil_append] at first
      simp only [resolveDependencies, Outcome.bind_eq_ok, Outcome.require_eq_ok, first,
        Outcome.pure_eq_ok, exists_const, List.map_cons, List.sum_cons, List.forall_mem_cons]
      constructor
      · rintro ⟨room, _, ⟨rfl, known, once⟩, others, rest, rfl⟩
        obtain ⟨rfl, each, total⟩ := (ih (by omega)).mp rest
        exact ⟨rfl, ⟨⟨known, once⟩, each⟩, by omega⟩
      · rintro ⟨rfl, ⟨⟨known, once⟩, each⟩, total⟩
        exact ⟨by omega, _, ⟨rfl, known, once⟩, _, (ih (by omega)).mpr ⟨rfl, each, by omega⟩, rfl⟩

end

theorem validateAcyclic_iff {steps : List Step}
    (inside : ∀ index < steps.length, ∀ earlier ∈ dependenciesAt steps index,
      earlier < steps.length) :
    validateAcyclic steps = .ok () ↔ ∀ index, ¬Relation.TransGen (DependsOn steps) index index := by
  rw [DependsOn, ← Logic.Kahn.visit_all_iff inside]
  simp only [validateAcyclic, Outcome.bind_eq_ok, Outcome.orFail_eq_ok, Outcome.require_eq_ok,
    Prod.exists]

section

variable {sources : List StepSource} {admitted : List Step}

theorem dependsOn_iff (distinct : (sources.map stepId).Nodup)
    (same : admitted.length = sources.length) {first second : Nat} :
    let ids := sources.map stepId
    DependsOn ((sources.zip admitted).map (withPositions ids)) first second ↔
      ∃ earlier later, Precedes sources earlier later ∧ ids.idxOf earlier = first ∧
        ids.idxOf later = second := by
  intro ids
  have position : ∀ index source, sources[index]? = some source →
      ids.idxOf source.stepId = index := by
    intro index source found
    obtain ⟨bound, here⟩ := List.getElem?_eq_some_iff.mp found
    have within : index < ids.length := by simpa [ids] using bound
    have there : ids[index] = source.stepId := by simp [ids, here]
    rw [← there]
    exact distinct.idxOf_getElem index within
  have listed : ∀ index, dependenciesAt ((sources.zip admitted).map (withPositions ids)) index =
      (sources[index]?).elim [] fun source => source.dependsOn.map ids.idxOf := by
    intro index
    by_cases bound : index < sources.length
    · have other : index < admitted.length := by omega
      simp [dependenciesAt, withPositions, bound, other]
    · simp [dependenciesAt, bound]
  rw [DependsOn, Logic.Kahn.Before, listed]
  constructor
  · rintro ⟨-, member⟩
    cases found : sources[second]? with
    | none => simp [found] at member
    | some source =>
        rw [found, Option.elim_some, List.mem_map] at member
        obtain ⟨earlier, depends, rfl⟩ := member
        exact ⟨earlier, source.stepId, ⟨source, List.mem_of_getElem? found, rfl, depends⟩, rfl,
          position second source found⟩
  · rintro ⟨earlier, later, ⟨source, member, rfl, depends⟩, rfl, rfl⟩
    obtain ⟨index, bound, here⟩ := List.getElem_of_mem member
    have found : sources[index]? = some source := by
      rw [List.getElem?_eq_getElem bound, here]
    rw [position index source found]
    refine ⟨by simpa [same] using bound, ?_⟩
    rw [found]
    exact List.mem_map_of_mem depends

theorem acyclic_iff (distinct : (sources.map stepId).Nodup)
    (same : admitted.length = sources.length)
    (known : ∀ source ∈ sources, source.dependsOn ⊆ sources.map stepId) :
    (∀ index, ¬Relation.TransGen (DependsOn ((sources.zip admitted).map
        (withPositions (sources.map stepId)))) index index) ↔
      ∀ id, ¬Relation.TransGen (Precedes sources) id id := by
  have edge := fun first second => @dependsOn_iff sources admitted distinct same first second
  simp only at edge
  constructor
  · intro none id cycle
    refine none _ (cycle.lift (sources.map stepId).idxOf ?_)
    intro earlier later precedes
    exact (edge _ _).mpr ⟨earlier, later, precedes, rfl, rfl⟩
  · intro none index cycle
    have member : ∀ {earlier later}, Precedes sources earlier later →
        earlier ∈ sources.map stepId := by
      rintro earlier later ⟨source, listed, -, depends⟩
      exact known source listed depends
    have named : ∀ first second, Relation.TransGen (DependsOn ((sources.zip admitted).map
          (withPositions (sources.map stepId)))) first second →
        ∃ earlier later, Relation.TransGen (Precedes sources) earlier later ∧
          earlier ∈ sources.map stepId ∧
          (sources.map stepId).idxOf earlier = first ∧
          (sources.map stepId).idxOf later = second := by
      intro first second path
      induction path with
      | single direct =>
          obtain ⟨earlier, later, precedes, rfl, rfl⟩ := (edge _ _).mp direct
          exact ⟨earlier, later, .single precedes, member precedes, rfl, rfl⟩
      | tail _ direct ih =>
          obtain ⟨earlier, middle, path, listed, rfl, meets⟩ := ih
          obtain ⟨next, later, precedes, rfl, rfl⟩ := (edge _ _).mp direct
          rw [eq_comm, List.idxOf_inj (member precedes)] at meets
          subst meets
          exact ⟨earlier, later, path.tail precedes, listed, rfl, rfl⟩
    obtain ⟨earlier, later, path, listed, here, there⟩ := named index index cycle
    rw [← there, List.idxOf_inj listed] at here
    subst here
    exact none earlier path

end

/-- The queue of `dag_validate_acyclic` at some moment of its run. -/
def QueueAt (steps : List Step) : Logic.Kahn.Moment → Prop :=
  Relation.ReflTransGen (Logic.Kahn.Moves (dependenciesAt steps) steps.length)
    ⟨[], Logic.Kahn.initial (dependenciesAt steps) steps.length, []⟩

theorem dependencyPasses_eq_ok {sources : List StepSource} {admitted steps : List Step} :
    dependencyPasses sources admitted = .ok steps ↔
      checkIds [] (sources.map stepId) = .ok () ∧
      resolveDependencies (sources.map stepId) 0 (sources.zip admitted) = .ok steps ∧
      validateAcyclic steps = .ok () := by
  simp only [dependencyPasses, Outcome.bind_eq_ok, Outcome.pure_eq_ok]
  constructor
  · rintro ⟨_, checked, _, resolves, _, acyclic, rfl⟩
    exact ⟨checked, resolves, acyclic⟩
  · rintro ⟨checked, resolves, acyclic⟩
    exact ⟨_, checked, _, resolves, _, acyclic, rfl⟩

section

variable {sources : List StepSource} {admitted : List Step}

theorem forall_zip (same : admitted.length = sources.length) {p : StepSource → Prop} :
    (∀ pair ∈ sources.zip admitted, p pair.1) ↔ ∀ source ∈ sources, p source := by
  rw [← List.forall_mem_map, List.map_fst_zip same.ge]

theorem sum_zip (same : admitted.length = sources.length) (f : StepSource → Nat) :
    ((sources.zip admitted).map fun pair => f pair.1).sum = (sources.map f).sum := by
  have split : ((sources.zip admitted).map fun pair => f pair.1) =
      ((sources.zip admitted).map Prod.fst).map f := by simp
  rw [split, List.map_fst_zip same.ge]

theorem withPositions_inside (same : admitted.length = sources.length)
    (known : ∀ source ∈ sources, source.dependsOn ⊆ sources.map stepId) :
    let steps := (sources.zip admitted).map (withPositions (sources.map stepId))
    ∀ index < steps.length, ∀ earlier ∈ dependenciesAt steps index, earlier < steps.length := by
  intro steps index bound earlier member
  have length : steps.length = sources.length := by simp [steps, same]
  rw [dependenciesAt, List.getElem?_eq_getElem bound, Option.elim_some] at member
  obtain ⟨pair, listed, here⟩ := List.mem_map.mp (List.getElem_mem bound)
  rw [← here, withPositions, List.mem_map] at member
  obtain ⟨name, depends, rfl⟩ := member
  have there := (forall_zip same).mpr known pair listed depends
  simpa [length] using List.idxOf_lt_length_of_mem there

/-- The passes accept exactly steps with ids whose dependencies are in order. -/
theorem dependencyPasses_iff (same : admitted.length = sources.length) :
    (∃ steps, dependencyPasses sources admitted = .ok steps) ↔
      (∀ source ∈ sources, source.stepId.1 ≠ "") ∧ DependenciesOrdered sources := by
  have each := forall_zip same (p := fun source =>
    source.dependsOn ⊆ sources.map stepId ∧ source.dependsOn.Nodup)
  simp only [dependencyPasses_eq_ok, checkIds_eq_ok List.nodup_nil, List.nil_append]
  constructor
  · rintro ⟨steps, ⟨named, distinct⟩, resolves, acyclic⟩
    obtain ⟨rfl, paired, few⟩ := (resolveDependencies_iff named (Nat.zero_le _)).mp resolves
    have dependencies := each.mp paired
    have known := fun source member => (dependencies source member).1
    rw [Nat.zero_add, sum_zip same fun source => source.dependsOn.length] at few
    rw [validateAcyclic_iff (withPositions_inside same known),
      acyclic_iff distinct same known] at acyclic
    rw [List.forall_mem_map] at named
    exact ⟨named, distinct, known, fun source member => (dependencies source member).2, few,
      acyclic⟩
  · rintro ⟨named, ordered⟩
    rw [← List.forall_mem_map (f := stepId) (P := fun id => id.1 ≠ "")] at named
    refine ⟨_, ⟨named, ordered.distinct⟩,
      (resolveDependencies_iff named (Nat.zero_le _)).mpr ⟨rfl, ?_, ?_⟩, ?_⟩
    · exact each.mpr fun source member =>
        ⟨ordered.known source member, ordered.once source member⟩
    · rw [Nat.zero_add, sum_zip same fun source => source.dependsOn.length]
      exact ordered.few
    · rw [validateAcyclic_iff (withPositions_inside same ordered.known),
        acyclic_iff ordered.distinct same ordered.known]
      exact ordered.acyclic

end

/-- The passes accept exactly steps with ids whose dependencies are in order, and the queue never
holds more entries than there are steps. -/
theorem dependencyPasses_exact (sources : List StepSource) (admitted : List Step)
    (same : admitted.length = sources.length) :
    ((∃ steps, dependencyPasses sources admitted = .ok steps) ↔
      (∀ source ∈ sources, source.stepId.1 ≠ "") ∧ DependenciesOrdered sources) ∧
    ∀ steps, resolveDependencies (sources.map stepId) 0 (sources.zip admitted) =
        .ok steps →
      ∀ moment, QueueAt steps moment →
        (moment.visited ++ moment.state.queue).length ≤ sources.length := by
  refine ⟨dependencyPasses_iff same, ?_⟩
  intro steps resolves moment run
  have lengths := (resolveDependencies_eq_ok resolves).length_eq
  rw [List.length_zip, same, Nat.min_self] at lengths
  rw [lengths]
  exact Logic.Kahn.queue_bounded run

def plainSource (id : CString) (dependsOn : List CString) : StepSource where
  stepId := id
  toolName := anyTool.name
  arguments := some (textArguments "a")
  dependsOn
  retryLimit := 0
  flags := 0

def plainStep (id : CString) : Step where
  stepId := id
  toolName := anyTool.name
  arguments := textArguments "a"
  dependencies := []
  retryLimit := 0
  flags := 0
  policy := ⟨.sequential, .none⟩
  effects := .unknown
  capabilities := []
  executionMetadata := none

/-- `dependencyPasses_exact` for a step that waits for another. -/
theorem dependencyPasses_exact_sample :
    let sources := [plainSource ⟨"b", rfl⟩ [⟨"a", rfl⟩], plainSource ⟨"a", rfl⟩ []]
    let admitted := [plainStep ⟨"b", rfl⟩, plainStep ⟨"a", rfl⟩]
    ((∃ steps, dependencyPasses sources admitted = .ok steps) ↔
      (∀ source ∈ sources, source.stepId.1 ≠ "") ∧ DependenciesOrdered sources) ∧
    ∀ steps, resolveDependencies (sources.map stepId) 0 (sources.zip admitted) =
        .ok steps →
      ∀ moment, QueueAt steps moment →
        (moment.visited ++ moment.state.queue).length ≤ sources.length :=
  dependencyPasses_exact _ _ rfl

/-- A step with an empty id is refused, though its dependencies are in order. -/
theorem empty_id_refused :
    let sources := [plainSource ⟨"", rfl⟩ []]
    DependenciesOrdered sources ∧
      ¬∃ steps, dependencyPasses sources [plainStep ⟨"", rfl⟩] = .ok steps := by
  intro sources
  constructor
  · constructor
    case distinct => exact List.nodup_singleton _
    case known => simp [sources, plainSource]
    case once => simp [sources, plainSource]
    case few => decide
    case acyclic =>
      intro id cycle
      obtain ⟨first, ⟨source, member, -, depends⟩, -⟩ := Relation.TransGen.head'_iff.mp cycle
      rw [List.mem_singleton.mp member] at depends
      cases depends
  · intro accepted
    have named := ((dependencyPasses_iff rfl).mp accepted).1
    exact named _ List.mem_cons_self rfl

end TurboAgent.AgentCompiler
