import TurboAgent.AgentCompiler.Region
import TurboAgent.Logic.Runs

/-!
# Discovery of regions

The optimizer is given a linear chain of value edges between the steps of a plan.  It asks for each
edge whether its two steps make a region, and compiles every maximal run of edges that do.  That
the steps of a run make one region follows from its edges: the chain has no step twice, and what a
step is prepared to depends on its index alone.
-/

namespace TurboAgent.AgentCompiler

open Logic.Runs (Run)

variable {libraries : NativeLibraries}

/-- `turbo_agent_cflow_value_edge_t`; `current` says whether its size and its version are
accepted. -/
structure ValueEdge where
  current : Bool
  (producerStepIndex consumerStepIndex : Nat)
  operatorKind : Int
  consumerProperty : Option CString
  deriving DecidableEq

/-- `turbo_agent_cflow_composition_source_t`. -/
structure CompositionSource where
  current : Bool
  edges : List ValueEdge
  deriving DecidableEq

/-- `turbo_agent_cflow_optimizer_options_t`. -/
structure OptimizerOptions where
  current : Bool
  enabled : Int
  deriving DecidableEq

/-- `turbo_agent_cflow_optimizer_status_t`, if it is not `TURBO_AGENT_CFLOW_OPTIMIZER_OK`. -/
inductive OptimizerError where
  | invalidArgument
  | regionCompileFailed
  deriving DecidableEq

/-- `optimizer_options_valid`. -/
def optimizerOptionsValid (options : OptimizerOptions) : Bool :=
  options.current && (options.enabled = 0 || options.enabled = 1)

/-! ## Sources -/

def edgeValid (dagSteps : Nat) (edge : ValueEdge) : Bool :=
  edge.current && edge.operatorKind = operatorMap && namesProperty edge.consumerProperty &&
    edge.producerStepIndex < dagSteps && edge.consumerStepIndex < dagSteps &&
    edge.producerStepIndex ≠ edge.consumerStepIndex

def Follows (before after : ValueEdge) : Prop :=
  before.consumerStepIndex = after.producerStepIndex

instance : DecidableRel Follows := fun before after =>
  inferInstanceAs (Decidable (before.consumerStepIndex = after.producerStepIndex))

/-- An edge does not lead back to a step of an earlier one. -/
def Leaves (earlier later : ValueEdge) : Prop :=
  earlier.producerStepIndex ≠ later.consumerStepIndex ∧
    earlier.consumerStepIndex ≠ later.consumerStepIndex

instance : DecidableRel Leaves := fun earlier later =>
  inferInstanceAs (Decidable (earlier.producerStepIndex ≠ later.consumerStepIndex ∧
    earlier.consumerStepIndex ≠ later.consumerStepIndex))

/-- The loop of `optimizer_source_valid`. -/
def edgesValid (dagSteps : Nat) : List ValueEdge → List ValueEdge → Bool
  | _, [] => true
  | prior, edge :: edges =>
      edgeValid dagSteps edge && prior.getLast?.all (fun before => Follows before edge) &&
        prior.all (fun earlier => Leaves earlier edge) &&
        edgesValid dagSteps (prior ++ [edge]) edges

/-- `optimizer_source_valid`. -/
def optimizerSourceValid (dag : FrozenDag libraries) (source : CompositionSource) : Bool :=
  source.current && source.edges.length ≤ dag.stepCount - 1 &&
    edgesValid dag.stepCount [] source.edges

/-! ## Regions -/

/-- The first step of a region that begins with an edge. -/
def producerStep (edge : ValueEdge) : RegionStep :=
  { RegionStep.init with
    dagStepIndex := edge.producerStepIndex
    operatorKind := edge.operatorKind }

def consumerStep (edge : ValueEdge) : RegionStep :=
  { RegionStep.init with
    dagStepIndex := edge.consumerStepIndex
    operatorKind := edge.operatorKind
    consumerProperty := edge.consumerProperty }

def regionSource (edges : List ValueEdge) : RegionSource where
  current := true
  steps :=
    match edges with
    | [] => []
    | first :: _ => producerStep first :: edges.map consumerStep

/-- `optimizer_admit_edge`. -/
def admitEdge (dag : FrozenDag libraries) (edge : ValueEdge) : Except RegionError Unit :=
  regionAdmit dag (regionSource [edge])

def runEdges (edges : List ValueEdge) (run : Run) : List ValueEdge :=
  (edges.drop run.first).take (run.last - run.first + 1)

/-- `turbo_agent_cflow_optimizer_region_t`. -/
structure OptimizerRegion (libraries : NativeLibraries) where
  plan : RegionPlan libraries
  dagStepIndices : List Nat
  stepCount : Nat

/-- `optimizer_compile_region`. -/
def compileRegion (dag : FrozenDag libraries) (source : CompositionSource) (run : Run) :
    Except OptimizerError (OptimizerRegion libraries) :=
  if run.last < run.first then .error .invalidArgument
  else
    let region := regionSource (runEdges source.edges run)
    match compileCflowRegion dag region with
    | .ok plan => .ok ⟨plan, region.steps.map RegionStep.dagStepIndex, region.steps.length⟩
    | .error _ => .error .regionCompileFailed

/-- `turbo_agent_cflow_optimizer_result_t`. -/
structure OptimizerResult (libraries : NativeLibraries) where
  enabled : Bool
  edgeStatuses : List (Except RegionError Unit)
  regions : List (OptimizerRegion libraries)

/-- The status of an edge is `TURBO_AGENT_CFLOW_REGION_OK`. -/
def statusOk (statuses : List (Except RegionError Unit)) (index : Nat) : Bool :=
  match statuses[index]? with
  | some (.ok _) => true
  | _ => false

/-- `turbo_agent_cflow_optimizer_discover`. -/
def discover (dag : FrozenDag libraries) (source : CompositionSource)
    (options : OptimizerOptions) : Except OptimizerError (OptimizerResult libraries) :=
  if !(optimizerOptionsValid options && optimizerSourceValid dag source) then
    .error .invalidArgument
  else if options.enabled = 0 then
    .ok ⟨false, List.replicate source.edges.length (.error .invalidArgument), []⟩
  else do
    let statuses := source.edges.map (admitEdge dag)
    let regions ← Logic.Runs.scan (statusOk statuses) source.edges.length
      (compileRegion dag source) 0
    return ⟨true, statuses, regions⟩

/-! ## Chains of edges -/

section Chains

variable {dagSteps : Nat} {prior edges : List ValueEdge}

theorem edgesValid_spec (valid : edgesValid dagSteps prior edges = true) :
    (∀ edge ∈ edges, edgeValid dagSteps edge = true) ∧
      List.IsChain Follows (prior.getLast?.toList ++ edges) ∧ edges.Pairwise Leaves ∧
      ∀ earlier ∈ prior, ∀ edge ∈ edges, Leaves earlier edge := by
  induction edges generalizing prior with
  | nil =>
      refine ⟨by simp, ?_, List.Pairwise.nil, by simp⟩
      cases prior.getLast? <;> simp
  | cons edge edges ih =>
      rw [edgesValid] at valid
      simp only [Bool.and_eq_true, List.all_eq_true, decide_eq_true_eq, Option.all_eq_true] at valid
      obtain ⟨⟨⟨edgeIsValid, follows⟩, leaves⟩, rest⟩ := valid
      obtain ⟨all, chain, pairwise, later⟩ := ih rest
      rw [List.getLast?_concat] at chain
      refine ⟨List.forall_mem_cons.mpr ⟨edgeIsValid, all⟩,
        isChain_last_cons.mpr ⟨follows, chain⟩, ?_, ?_⟩
      · refine List.pairwise_cons.mpr ⟨fun other member => ?_, pairwise⟩
        exact later edge (List.mem_append_right _ (List.mem_singleton_self _)) other member
      · intro earlier isPrior
        refine List.forall_mem_cons.mpr ⟨leaves earlier isPrior, fun other member => ?_⟩
        exact later earlier (List.mem_append_left _ isPrior) other member

/-- A chain of edges that can be a region: valid edges, one after the other, without a step that
comes twice. -/
structure Chain (dagSteps : Nat) (edges : List ValueEdge) : Prop where
  valid : ∀ edge ∈ edges, edgeValid dagSteps edge = true
  follows : List.IsChain Follows edges
  leaves : edges.Pairwise Leaves

theorem Chain.runEdges (chain : Chain dagSteps edges) (run : Run) :
    Chain dagSteps (runEdges edges run) where
  valid := fun edge member =>
    chain.valid edge (List.mem_of_mem_drop (List.mem_of_mem_take member))
  follows := (chain.follows.drop _).take _
  leaves := (chain.leaves.drop).take

end Chains

theorem chain_of_sourceValid {dag : FrozenDag libraries} {source : CompositionSource}
    (valid : optimizerSourceValid dag source = true) : Chain dag.stepCount source.edges := by
  rw [optimizerSourceValid, Bool.and_eq_true] at valid
  obtain ⟨all, chain, pairwise, -⟩ := edgesValid_spec valid.2
  exact ⟨all, chain, pairwise⟩

/-! ## Regions of admitted edges -/

section Regions

variable {dag : FrozenDag libraries} {dagSteps : Nat} {edge : ValueEdge} {edges : List ValueEdge}

theorem regionAdmit_eq_ok {source : RegionSource} :
    regionAdmit dag source = .ok () ↔ ∃ prepared, regionPrepare dag source = .ok prepared := by
  rw [regionAdmit]
  cases regionPrepare dag source with
  | error error => simp [Except.map]
  | ok prepared => simp [Except.map]

/-- Where an edge is admitted, its two steps are, and the second may follow the first. -/
theorem prepared_of_admitEdge (admitted : admitEdge dag edge = .ok ()) :
    ∃ before after, stepAdmitted dag (producerStep edge) = .ok before ∧
      stepAdmitted dag (consumerStep edge) = .ok after ∧ Linked dag before after := by
  obtain ⟨prepared, prepares⟩ := regionAdmit_eq_ok.mp admitted
  obtain ⟨-, each, -, chain⟩ := regionPrepare_eq_ok.mp prepares
  cases each with
  | @cons _ before _ _ first each =>
      cases each with
      | @cons _ after _ _ second each =>
          cases each
          exact ⟨before, after, first, second, List.isChain_pair.mp chain⟩

/-- What a step is prepared to depends on its index alone, up to the step itself. -/
theorem stepAdmitted_alike {step other : RegionStep} {made again : PreparedStep libraries}
    (makes : stepAdmitted dag step = .ok made) (makesAgain : stepAdmitted dag other = .ok again)
    (same : step.dagStepIndex = other.dagStepIndex) :
    made.toolName = again.toolName ∧ made.projection = again.projection := by
  unfold stepAdmitted at makes makesAgain
  rw [same] at makes
  simp only [Outcome.bind_eq_ok, Outcome.orFail_eq_ok, Outcome.pure_eq_ok] at makes makesAgain
  obtain ⟨toolName, named, projection, admitted, rfl⟩ := makes
  obtain ⟨toolName', named', projection', admitted', rfl⟩ := makesAgain
  rw [named] at named'
  cases named'
  rw [admitted] at admitted'
  cases admitted'
  exact ⟨rfl, rfl⟩

theorem linked_alike {before other after : PreparedStep libraries}
    (alike : before.toolName = other.toolName ∧ before.projection = other.projection)
    (linked : Linked dag other after) : Linked dag before after := by
  rw [Linked, checkLink, alike.1, alike.2]
  exact linked

/-- The steps that a chain of admitted edges leads to follow one another, after any step that is
prepared where the chain begins. -/
theorem consumers_prepared (admitted : ∀ edge ∈ edges, admitEdge dag edge = .ok ()) :
    ∀ {step : RegionStep} {before : PreparedStep libraries},
      stepAdmitted dag step = .ok before → List.IsChain Follows edges →
      (∀ first ∈ edges.head?, step.dagStepIndex = first.producerStepIndex) →
      ∃ prepared,
        List.Forall₂ (fun step made => stepAdmitted dag step = .ok made) (edges.map consumerStep)
          prepared ∧
        List.IsChain (Linked dag) (before :: prepared) := by
  induction edges with
  | nil => exact fun _ _ _ => ⟨[], .nil, List.isChain_singleton _⟩
  | cons edge edges ih =>
      intro step before makes follows begins
      obtain ⟨here, rest⟩ := List.forall_mem_cons.mp admitted
      obtain ⟨other, after, makesOther, makesAfter, linked⟩ := prepared_of_admitEdge here
      have alike := stepAdmitted_alike makes makesOther (begins edge rfl)
      obtain ⟨prepared, each, chain⟩ := ih rest makesAfter (List.isChain_cons.mp follows).2
        (List.isChain_cons.mp follows).1
      refine ⟨after :: prepared, .cons makesAfter each, ?_⟩
      exact List.isChain_cons_cons.mpr ⟨linked_alike alike linked, chain⟩

theorem edgeValid_spec (valid : edgeValid dagSteps edge = true) :
    edge.operatorKind = operatorMap ∧ namesProperty edge.consumerProperty = true ∧
      edge.producerStepIndex ≠ edge.consumerStepIndex := by
  simp only [edgeValid, Bool.and_eq_true, decide_eq_true_eq] at valid
  obtain ⟨⟨⟨⟨⟨-, isMap⟩, named⟩, -⟩, -⟩, different⟩ := valid
  exact ⟨isMap, named, different⟩

theorem regionSource_valid (chain : Chain dagSteps edges) (nonempty : edges ≠ []) :
    regionSourceValid (regionSource edges) = true := by
  obtain ⟨first, rest, rfl⟩ := List.exists_cons_of_ne_nil nonempty
  have specs := fun edge member => edgeValid_spec (chain.valid edge member)
  have isMap := (specs first List.mem_cons_self).1
  simp only [regionSourceValid, regionSource, Bool.true_and, Bool.and_eq_true, List.all_eq_true,
    decide_eq_true_eq]
  refine ⟨⟨?_, ?_⟩, rfl, ?_⟩
  · simp
  · intro step member
    rcases List.mem_cons.mp member with rfl | later
    · exact ⟨rfl, isMap⟩
    · obtain ⟨edge, isEdge, rfl⟩ := List.mem_map.mp later
      exact ⟨rfl, (specs edge isEdge).1⟩
  · intro step member
    obtain ⟨edge, isEdge, rfl⟩ := List.mem_map.mp member
    exact (specs edge isEdge).2.1

theorem regionSource_nodup (chain : Chain dagSteps edges) :
    ((regionSource edges).steps.map RegionStep.dagStepIndex).Nodup := by
  cases edges with
  | nil => exact List.nodup_nil
  | cons first rest =>
      obtain ⟨firstLeaves, -⟩ := List.pairwise_cons.mp chain.leaves
      have different := (edgeValid_spec (chain.valid first List.mem_cons_self)).2.2
      have consumers : ((first :: rest).map ValueEdge.consumerStepIndex).Nodup :=
        List.Pairwise.map _ (fun _ _ leaves => leaves.2) chain.leaves
      have asMap : ((first :: rest).map consumerStep).map RegionStep.dagStepIndex =
          (first :: rest).map ValueEdge.consumerStepIndex := by
        rw [List.map_map]
        rfl
      simp only [regionSource]
      rw [List.map_cons, asMap, List.nodup_cons]
      refine ⟨?_, consumers⟩
      intro member
      obtain ⟨edge, isEdge, same⟩ := List.mem_map.mp member
      rcases List.mem_cons.mp isEdge with rfl | later
      · exact different same.symm
      · exact (firstLeaves edge later).1 same.symm

theorem regionPrepare_of_admitted (chain : Chain dagSteps edges) (nonempty : edges ≠ [])
    (admitted : ∀ edge ∈ edges, admitEdge dag edge = .ok ()) :
    ∃ prepared, regionPrepare dag (regionSource edges) = .ok prepared ∧ prepared ≠ [] := by
  have valid := regionSource_valid chain nonempty
  have distinct := regionSource_nodup chain
  obtain ⟨first, rest, rfl⟩ := List.exists_cons_of_ne_nil nonempty
  obtain ⟨before, -, makes, -⟩ := prepared_of_admitEdge (admitted first List.mem_cons_self)
  obtain ⟨prepared, each, linked⟩ :=
    consumers_prepared admitted makes chain.follows (by rintro _ ⟨⟩; rfl)
  exact ⟨before :: prepared, regionPrepare_eq_ok.mpr ⟨valid, .cons makes each, distinct, linked⟩,
    List.cons_ne_nil _ _⟩

theorem compileCflowRegion_cases {source : RegionSource} {prepared : List (PreparedStep libraries)}
    (prepares : regionPrepare dag source = .ok prepared) (nonempty : prepared ≠ []) :
    (∃ plan, compileCflowRegion dag source = .ok plan) ∨
      compileCflowRegion dag source = .error .cflowRejected := by
  obtain ⟨first, rest, rfl⟩ := List.exists_cons_of_ne_nil nonempty
  rw [compileCflowRegion, prepares]
  cases made : compileSurface first.projection ((first :: rest).map PreparedStep.projection) with
  | none =>
      rw [List.map_cons] at made
      right
      simp [Bind.bind, Except.bind, List.getLast?_cons, made, Outcome.orFail]
  | some plan =>
      rw [List.map_cons] at made
      refine .inl ⟨⟨plan, libraries.inputType first.projection,
        libraries.outputType (rest.getLast?.getD first).projection, (first :: rest).length⟩, ?_⟩
      simp [Bind.bind, Except.bind, List.getLast?_cons, made, Outcome.orFail, pure, Except.pure]

variable {run : Run}

theorem compileRegion_cases {source : CompositionSource} {prepared : List (PreparedStep libraries)}
    (ordered : run.first ≤ run.last)
    (prepares : regionPrepare dag (regionSource (runEdges source.edges run)) = .ok prepared)
    (nonempty : prepared ≠ []) :
    (∃ plan, compileCflowRegion dag (regionSource (runEdges source.edges run)) = .ok plan ∧
      compileRegion dag source run = .ok ⟨plan,
        (regionSource (runEdges source.edges run)).steps.map RegionStep.dagStepIndex,
        (regionSource (runEdges source.edges run)).steps.length⟩) ∨
    compileCflowRegion dag (regionSource (runEdges source.edges run)) = .error .cflowRejected ∧
      compileRegion dag source run = .error .regionCompileFailed := by
  rw [compileRegion, if_neg (Nat.not_lt.mpr ordered)]
  dsimp only
  rcases compileCflowRegion_cases prepares nonempty with ⟨plan, compiles⟩ | rejected
  · rw [compiles]
    exact .inl ⟨plan, rfl, rfl⟩
  · rw [rejected]
    exact .inr ⟨rfl, rfl⟩

theorem mem_runEdges (ordered : run.first ≤ run.last) :
    edge ∈ runEdges edges run ↔
      ∃ index, run.Covers index ∧ edges[index]? = some edge := by
  rw [runEdges, List.mem_iff_getElem?]
  constructor
  · rintro ⟨offset, found⟩
    rw [List.getElem?_take] at found
    split at found
    next within =>
      rw [List.getElem?_drop] at found
      refine ⟨run.first + offset, ⟨?_, ?_⟩, found⟩ <;> omega
    next => cases found
  · rintro ⟨index, ⟨after, before⟩, found⟩
    have offset : run.first + (index - run.first) = index := by omega
    refine ⟨index - run.first, ?_⟩
    rw [List.getElem?_take, if_pos (by omega), List.getElem?_drop, offset, found]

theorem runEdges_ne_nil (ordered : run.first ≤ run.last) (within : run.last < edges.length) :
    runEdges edges run ≠ [] := by
  have found : edges[run.last]? = some (edges.get ⟨run.last, within⟩) :=
    List.getElem?_eq_getElem within
  exact List.ne_nil_of_mem ((mem_runEdges ordered).mpr ⟨run.last, ⟨ordered, le_rfl⟩, found⟩)

end Regions

/-! ## Discovery -/

section Discovery

variable {dag : FrozenDag libraries} {source : CompositionSource} {options : OptimizerOptions}

def admittedRuns (dag : FrozenDag libraries) (source : CompositionSource) : List Run :=
  Logic.Runs.runs (statusOk (source.edges.map (admitEdge dag))) source.edges.length 0

theorem statusOk_iff {index : Nat} {edge : ValueEdge} (found : source.edges[index]? = some edge) :
    statusOk (source.edges.map (admitEdge dag)) index = true ↔ admitEdge dag edge = .ok () := by
  rw [statusOk, List.getElem?_map, found, Option.map_some]
  cases admitEdge dag edge with
  | error error => simp
  | ok value => simp

theorem covered_iff {index : Nat} {edge : ValueEdge} (found : source.edges[index]? = some edge) :
    (∃ run ∈ admittedRuns dag source, run.Covers index) ↔ admitEdge dag edge = .ok () := by
  obtain ⟨within, -⟩ := List.getElem?_eq_some_iff.mp found
  rw [admittedRuns, Logic.Runs.covered_iff (Nat.zero_le index) within, statusOk_iff found]

theorem regionPrepare_run (valid : optimizerSourceValid dag source = true) {run : Run}
    (member : run ∈ admittedRuns dag source) :
    ∃ prepared, regionPrepare dag (regionSource (runEdges source.edges run)) = .ok prepared ∧
      prepared ≠ [] := by
  obtain ⟨-, ordered, within⟩ := Logic.Runs.bounds_of_mem member
  apply regionPrepare_of_admitted ((chain_of_sourceValid valid).runEdges run)
    (runEdges_ne_nil ordered within)
  intro edge isInside
  obtain ⟨index, covers, found⟩ := (mem_runEdges ordered).mp isInside
  exact (covered_iff found).mp ⟨run, member, covers⟩

def IsRegion (dag : FrozenDag libraries) (source : CompositionSource) (run : Run)
    (region : OptimizerRegion libraries) : Prop :=
  let steps := (regionSource (runEdges source.edges run)).steps
  compileCflowRegion dag (regionSource (runEdges source.edges run)) = .ok region.plan ∧
    region.dagStepIndices = steps.map RegionStep.dagStepIndex ∧ region.stepCount = steps.length

theorem isRegion_of_compileRegion {run : Run} {region : OptimizerRegion libraries}
    (compiles : compileRegion dag source run = .ok region) : IsRegion dag source run region := by
  rw [compileRegion] at compiles
  split at compiles
  next => cases compiles
  dsimp only at compiles
  split at compiles
  next plan compiled =>
    cases compiles
    exact ⟨compiled, rfl, rfl⟩
  next => cases compiles

theorem discover_enabled (valid : optimizerSourceValid dag source = true)
    (accepted : optimizerOptionsValid options = true) (enabled : options.enabled ≠ 0) :
    discover dag source options =
      ((admittedRuns dag source).mapM (compileRegion dag source)).map fun regions =>
        ⟨true, source.edges.map (admitEdge dag), regions⟩ := by
  rw [discover, accepted, valid, if_neg (by decide), if_neg enabled]
  dsimp only
  rw [Logic.Runs.scan_eq]
  rfl

/-- The maximal runs of admitted edges are in order, do not touch, and cover exactly the edges
that are admitted; all of them are prepared.  The discovery returns them as its regions, unless it
is not enabled or CFlow rejects one of them. -/
theorem discover_exact (valid : optimizerSourceValid dag source = true)
    (accepted : optimizerOptionsValid options = true) :
    (admittedRuns dag source).Pairwise (fun left right => left.last + 1 < right.first) ∧
    (∀ run ∈ admittedRuns dag source, run.first ≤ run.last ∧ run.last < source.edges.length) ∧
    (∀ index edge, source.edges[index]? = some edge →
      ((∃ run ∈ admittedRuns dag source, run.Covers index) ↔ admitEdge dag edge = .ok ())) ∧
    (∀ run ∈ admittedRuns dag source, ∃ prepared,
      regionPrepare dag (regionSource (runEdges source.edges run)) = .ok prepared) ∧
    (options.enabled = 0 →
      ∃ result, discover dag source options = .ok result ∧ result.regions = []) ∧
    (options.enabled ≠ 0 →
      (∃ result, discover dag source options = .ok result ∧
        result.edgeStatuses = source.edges.map (admitEdge dag) ∧
        List.Forall₂ (IsRegion dag source) (admittedRuns dag source) result.regions) ∨
      discover dag source options = .error .regionCompileFailed ∧
        ∃ run ∈ admittedRuns dag source,
          compileCflowRegion dag (regionSource (runEdges source.edges run)) =
            .error .cflowRejected) := by
  have bounds : ∀ run ∈ admittedRuns dag source,
      run.first ≤ run.last ∧ run.last < source.edges.length :=
    fun run member => (Logic.Runs.bounds_of_mem member).2
  refine ⟨Logic.Runs.runs_apart _ _ _, bounds, fun index edge => covered_iff, ?_, ?_, ?_⟩
  · intro run member
    obtain ⟨prepared, prepares, -⟩ := regionPrepare_run valid member
    exact ⟨prepared, prepares⟩
  · intro disabled
    rw [discover, accepted, valid, if_neg (by decide), if_pos disabled]
    exact ⟨_, rfl, rfl⟩
  · intro enabled
    rw [discover_enabled valid accepted enabled]
    cases compiled : (admittedRuns dag source).mapM (compileRegion dag source) with
    | ok regions =>
        exact .inl ⟨_, rfl, rfl,
          (Outcome.mapM_eq_ok.mp compiled).imp fun _ _ => isRegion_of_compileRegion⟩
    | error error =>
        obtain ⟨run, member, fails⟩ := Outcome.mapM_error compiled
        obtain ⟨prepared, prepares, nonempty⟩ := regionPrepare_run valid member
        right
        rcases compileRegion_cases (bounds run member).1 prepares nonempty with
          ⟨plan, -, compiles⟩ | ⟨rejected, refused⟩
        · rw [fails] at compiles
          cases compiles
        · rw [fails] at refused
          cases refused
          exact ⟨rfl, run, member, rejected⟩

end Discovery

/-! A plan of two native functions of integers, the second of which takes the result of the
first. -/

/-- One native type and one native function, with a CFlow that compiles plans or does not. -/
def sampleLibraries (compiles : Bool) : NativeLibraries where
  TypeDesc := NativeKind
  Function := Unit
  Abi := Unit
  Callable := Unit
  Projection := Unit
  Graph := Nat
  Plan := Nat
  typeDescValid := fun _ => true
  size := fun _ => 4
  kind := id
  typeEqual := fun left right => left = right
  paramCount := fun _ => 1
  resultIsValue := fun _ => true
  effectsArePure := fun _ => true
  functionParam := fun _ => some (true, some .integer)
  returnType := fun _ => some .integer
  functionProjectionAdmit := fun _ _ _ => some ()
  inputType := fun _ => .integer
  outputType := fun _ => .integer
  graphInit := fun _ => some 0
  graphAddFunctionProjection := fun graph _ => some (graph + 1)
  planCompileSurface := fun graph => if compiles then some graph else none

/-- A pure tool that takes an integer and gives one. -/
def pureTool (name : String) (plain : noNul name = true) : ToolRegistry.Tool where
  definition := {
    registration := {
      name := ⟨name, plain⟩
      definition := ⟨none, some (.object [("type", .string "object"),
        ("properties", .object [("value", .object [("type", .string "integer")])])]), true⟩
      policy := ⟨.parallelSafe, .readOnly⟩
      requiredCapabilities := []
      effects := EffectFlags.pure }
    description := ⟨"", noNul_empty⟩
    callbacks := ⟨some 1, none, none, none, none, none⟩
    resultSchemaJson := some (some (.object [("type", .string "integer")]))
    strictResult := 1 }
  valid := by
    have effects : EffectFlags.Valid EffectFlags.pure := by decide
    exact ⟨⟨.inr rfl, effects, nofun, List.nodup_nil, by simp⟩, rfl, .inr rfl, fun _ => rfl, rfl⟩
  executionMetadata := none

def pureTools : ToolRegistry.Registry where
  tools := [pureTool "chain.a" (by decide), pureTool "chain.b" (by decide)]
  distinct := by decide

def pureStep (name : CString) : Step where
  stepId := name
  toolName := name
  arguments := ⟨.object [], ⟨List.nodup_nil, trivial⟩, trivial⟩
  dependencies := []
  retryLimit := 0
  flags := 0
  policy := ⟨.parallelSafe, .readOnly⟩
  effects := EffectFlags.pure
  capabilities := []
  executionMetadata := none

def sampleDag (compiles : Bool) : FrozenDag (sampleLibraries compiles) where
  dag := {
    steps := [pureStep ⟨"chain.a", by decide⟩, pureStep ⟨"chain.b", by decide⟩]
    replanBudget := 0
    templateKind := .generic
    planGeneration := 0
    approvedTools := pureTools.plain
    capabilities := []
    effects := EffectFlags.pure
    planHash := 0 }
  tools := pureTools
  approved := rfl
  nativeProjection := fun _ => some ⟨some (), some (), ()⟩

def sampleEdge : ValueEdge :=
  ⟨true, 0, 1, operatorMap, some ⟨"value", by decide⟩⟩

def sampleComposition : CompositionSource :=
  ⟨true, [sampleEdge]⟩

theorem discover_exact_sample :
    (∃ result, discover (sampleDag true) sampleComposition ⟨true, 1⟩ = .ok result ∧
      result.edgeStatuses = sampleComposition.edges.map (admitEdge (sampleDag true)) ∧
      List.Forall₂ (IsRegion (sampleDag true) sampleComposition)
        (admittedRuns (sampleDag true) sampleComposition) result.regions) ∨
    discover (sampleDag true) sampleComposition ⟨true, 1⟩ = .error .regionCompileFailed ∧
      ∃ run ∈ admittedRuns (sampleDag true) sampleComposition,
        compileCflowRegion (sampleDag true)
          (regionSource (runEdges sampleComposition.edges run)) = .error .cflowRejected :=
  (discover_exact (by decide +kernel) (by decide)).2.2.2.2.2 (by decide)

/-- An admitted edge is in no region if the optimizer is not enabled, and there is no result at
all if CFlow rejects the plan of its region. -/
theorem discover_without_regions :
    (optimizerSourceValid (sampleDag true) sampleComposition = true ∧
      optimizerOptionsValid ⟨true, 0⟩ = true ∧
      admitEdge (sampleDag true) sampleEdge = .ok () ∧
      ∃ result, discover (sampleDag true) sampleComposition ⟨true, 0⟩ = .ok result ∧
        result.regions = []) ∧
    optimizerSourceValid (sampleDag false) sampleComposition = true ∧
      optimizerOptionsValid ⟨true, 1⟩ = true ∧
      admitEdge (sampleDag false) sampleEdge = .ok () ∧
      discover (sampleDag false) sampleComposition ⟨true, 1⟩ = .error .regionCompileFailed := by
  have admitted : ∀ compiles, admitEdge (sampleDag compiles) sampleEdge = .ok () := by
    intro compiles
    cases compiles <;> rfl
  have valid : ∀ compiles,
      optimizerSourceValid (sampleDag compiles) sampleComposition = true := by
    intro compiles
    cases compiles <;> rfl
  refine ⟨⟨valid true, by decide, admitted true, ⟨_, rfl, rfl⟩⟩, valid false, by decide,
    admitted false, ?_⟩
  have passed : statusOk [admitEdge (sampleDag false) sampleEdge] 0 = true := by
    rw [admitted]
    rfl
  have found : admittedRuns (sampleDag false) sampleComposition = [⟨0, 0⟩] := by
    simp [admittedRuns, sampleComposition, Logic.Runs.runs, Logic.Runs.stop, Logic.Runs.next,
      passed]
  rw [discover_enabled (valid false) (by decide) (by decide), found]
  rfl

end TurboAgent.AgentCompiler
