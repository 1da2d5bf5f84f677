import TurboAgent.AgentCompiler.Contracts
import TurboAgent.AgentCompiler.Dag

/-!
# Regions of native steps

A region is a linear sequence of steps whose tools are pure native functions of one scalar, where
each step takes the result of the one before.  Its preparation checks the steps one after the
other; its compilation hands their projections to CFlow.

The CMeta and CFlow libraries are parameters, and allocation is taken to succeed.
-/

namespace TurboAgent.AgentCompiler

open ToolExecutor (ExecutionMode Idempotency)
open Outcome (bind_eq_ok orFail pure_eq_ok require require_eq_ok)

inductive NativeKind where
  | bool
  | integer
  | float
  | other
  deriving DecidableEq

/-- What is used of the CMeta and CFlow libraries.  The first parameter of a function comes with
whether its flags are `CMETA_PARAM_IN`. -/
structure NativeLibraries where
  (TypeDesc Function Abi Callable Projection Graph Plan : Type)
  typeDescValid : TypeDesc → Bool
  size : TypeDesc → Nat
  kind : TypeDesc → NativeKind
  typeEqual : TypeDesc → TypeDesc → Bool
  paramCount : Function → Nat
  (resultIsValue effectsArePure : Function → Bool)
  functionParam : Function → Option (Bool × Option TypeDesc)
  returnType : Function → Option TypeDesc
  functionProjectionAdmit : Function → Abi → Callable → Option Projection
  (inputType outputType : Projection → TypeDesc)
  graphInit : TypeDesc → Option Graph
  graphAddFunctionProjection : Graph → Projection → Option Graph
  planCompileSurface : Graph → Option Plan

variable {libraries : NativeLibraries}

/-- `turbo_tool_native_projection_t`. -/
structure NativeProjection (libraries : NativeLibraries) where
  function : Option libraries.Function
  abi : Option libraries.Abi
  callable : libraries.Callable

/-- An executable DAG with the whole registry that it is frozen with.  Each tool may have a native
projection. -/
structure FrozenDag (libraries : NativeLibraries) where
  dag : ExecutableDag
  tools : ToolRegistry.Registry
  approved : tools.plain = dag.approvedTools
  nativeProjection : CString → Option (NativeProjection libraries)

/-- `turbo_agent_executable_dag_step_tool_name`. -/
def FrozenDag.stepToolName (dag : FrozenDag libraries) (index : Nat) : Option CString :=
  (dag.dag.steps[index]?).map Step.toolName

/-- `turbo_agent_executable_dag_step_count`. -/
def FrozenDag.stepCount (dag : FrozenDag libraries) : Nat :=
  dag.dag.steps.length

/-- `turbo_agent_cflow_region_status_t`, if it is not `TURBO_AGENT_CFLOW_REGION_OK`. -/
inductive RegionError where
  | invalidArgument
  | notApproved
  | policyBarrier
  | logicalContractBarrier
  | nativeProjectionBarrier
  | ownershipBarrier
  | typeBarrier
  | cflowRejected
  deriving DecidableEq

/-- `TURBO_AGENT_CFLOW_REGION_OPERATOR_MAP`. -/
def operatorMap : Int := 1

/-- `turbo_agent_cflow_region_step_t`; `current` says whether its size and its version are
accepted. -/
structure RegionStep where
  current : Bool
  dagStepIndex : Nat
  operatorKind : Int
  consumerProperty : Option CString
  deriving DecidableEq

/-- `turbo_agent_cflow_region_step_init`. -/
def RegionStep.init : RegionStep := ⟨true, 0, operatorMap, none⟩

/-- `turbo_agent_cflow_region_source_t`. -/
structure RegionSource where
  current : Bool
  steps : List RegionStep
  deriving DecidableEq

def namesProperty (property : Option CString) : Bool :=
  property.any fun text => text.1 ≠ ""

/-- `region_source_valid`. -/
def regionSourceValid (source : RegionSource) : Bool :=
  source.current && 2 ≤ source.steps.length &&
    source.steps.all (fun step => step.current && step.operatorKind = operatorMap) &&
    match source.steps with
    | [] => false
    | first :: rest =>
        !namesProperty first.consumerProperty &&
          rest.all fun step => namesProperty step.consumerProperty

/-! ## Admission of a tool -/

/-- `region_scalar_type_supported`. -/
def scalarTypeSupported : Option libraries.TypeDesc → Bool
  | none => false
  | some type =>
      libraries.typeDescValid type && libraries.size type ≠ 0 &&
        (libraries.kind type = .bool || libraries.kind type = .integer ||
          libraries.kind type = .float)

def paramSupported : Option (Bool × Option libraries.TypeDesc) → Bool
  | none => false
  | some (isIn, type) => isIn && scalarTypeSupported type

/-- `region_admit_native_map`. -/
def admitNativeMap (dag : FrozenDag libraries) (toolName : CString) :
    Except RegionError libraries.Projection := do
  let tool ← orFail .notApproved (dag.tools.find toolName)
  require .policyBarrier (tool.entry.effects = EffectFlags.pure ∧
    tool.definition.registration.policy.idempotency = .readOnly ∧
    tool.definition.registration.policy.mode = .parallelSafe)
  let native ← orFail .nativeProjectionBarrier (dag.nativeProjection tool.name)
  let function ← orFail .ownershipBarrier native.function
  let abi ← orFail .ownershipBarrier native.abi
  require .ownershipBarrier (libraries.paramCount function = 1 ∧
    libraries.resultIsValue function = true ∧ libraries.effectsArePure function = true)
  require .typeBarrier (paramSupported (libraries.functionParam function) = true ∧
    scalarTypeSupported (libraries.returnType function) = true)
  orFail .cflowRejected
    (libraries.functionProjectionAdmit function abi native.callable)

/-! ## Preparation -/

structure PreparedStep (libraries : NativeLibraries) where
  source : RegionStep
  toolName : CString
  projection : libraries.Projection

/-- The comparison of a step with the one before. -/
def checkLink (dag : FrozenDag libraries) (before after : PreparedStep libraries) :
    Except RegionError Unit := do
  require .logicalContractBarrier
    (toolResultSlotCompatibility dag.tools before.toolName after.toolName
      (after.source.consumerProperty.getD ⟨"", noNul_empty⟩) = .compatible)
  require .typeBarrier
    (libraries.typeEqual (libraries.outputType before.projection)
      (libraries.inputType after.projection) = true)

/-- One round of the loop of `region_prepare`, after the steps that are prepared. -/
def prepareStep (dag : FrozenDag libraries) (prior : List (PreparedStep libraries))
    (step : RegionStep) : Except RegionError (PreparedStep libraries) := do
  let toolName ← orFail .notApproved
    ((dag.stepToolName step.dagStepIndex).filter fun name => name.1 ≠ "")
  require .invalidArgument
    (step.dagStepIndex ∉ prior.map fun other => other.source.dagStepIndex)
  let projection ← admitNativeMap dag toolName
  let prepared : PreparedStep libraries := ⟨step, toolName, projection⟩
  match prior.getLast? with
  | none => return prepared
  | some before => do
      checkLink dag before prepared
      return prepared

/-- The loop of `region_prepare`. -/
def prepareSteps (dag : FrozenDag libraries) :
    List (PreparedStep libraries) → List RegionStep →
      Except RegionError (List (PreparedStep libraries))
  | prior, [] => .ok prior
  | prior, step :: steps => do
      let prepared ← prepareStep dag prior step
      prepareSteps dag (prior ++ [prepared]) steps

/-- `region_prepare`. -/
def regionPrepare (dag : FrozenDag libraries) (source : RegionSource) :
    Except RegionError (List (PreparedStep libraries)) := do
  require .invalidArgument (regionSourceValid source = true)
  prepareSteps dag [] source.steps

/-- `turbo_agent_cflow_region_admit`. -/
def regionAdmit (dag : FrozenDag libraries) (source : RegionSource) : Except RegionError Unit :=
  (regionPrepare dag source).map fun _ => ()

/-! ## Compilation -/

/-- `turbo_agent_cflow_region_plan_t`. -/
structure RegionPlan (libraries : NativeLibraries) where
  plan : libraries.Plan
  (inputType outputType : libraries.TypeDesc)
  stepCount : Nat

/-- The plan that CFlow compiles of prepared steps, if it does. -/
def compileSurface (first : libraries.Projection) (projections : List libraries.Projection) :
    Option libraries.Plan := do
  let graph ← libraries.graphInit (libraries.inputType first)
  let graph ← projections.foldlM libraries.graphAddFunctionProjection graph
  libraries.planCompileSurface graph

/-- `turbo_agent_compile_cflow_region`.  What is prepared is never empty. -/
def compileCflowRegion (dag : FrozenDag libraries) (source : RegionSource) :
    Except RegionError (RegionPlan libraries) := do
  let prepared ← regionPrepare dag source
  match prepared.head?, prepared.getLast? with
  | some first, some last => do
      let plan ← orFail .cflowRejected
        (compileSurface first.projection (prepared.map PreparedStep.projection))
      return ⟨plan, libraries.inputType first.projection, libraries.outputType last.projection,
        prepared.length⟩
  | _, _ => .error .invalidArgument

/-! ## What is prepared -/

def stepAdmitted (dag : FrozenDag libraries) (step : RegionStep) :
    Except RegionError (PreparedStep libraries) := do
  let toolName ← orFail .notApproved
    ((dag.stepToolName step.dagStepIndex).filter fun name => name.1 ≠ "")
  let projection ← admitNativeMap dag toolName
  return ⟨step, toolName, projection⟩

def Linked (dag : FrozenDag libraries) (before after : PreparedStep libraries) : Prop :=
  checkLink dag before after = .ok ()

section Prepared

variable {α : Type} {dag : FrozenDag libraries} {prior result : List (PreparedStep libraries)}

theorem prepareStep_eq_ok {step : RegionStep} {prepared : PreparedStep libraries} :
    prepareStep dag prior step = .ok prepared ↔
      stepAdmitted dag step = .ok prepared ∧
      step.dagStepIndex ∉ (prior.map fun other => other.source.dagStepIndex) ∧
      ∀ before, prior.getLast? = some before → Linked dag before prepared := by
  unfold prepareStep stepAdmitted Linked
  simp only [bind_eq_ok, Outcome.orFail_eq_ok, require_eq_ok,
    pure_eq_ok]
  constructor
  · rintro ⟨toolName, named, -, fresh, projection, admitted, linked⟩
    cases last : prior.getLast? with
    | none =>
        rw [last] at linked
        cases linked
        exact ⟨⟨toolName, named, projection, admitted, rfl⟩, fresh, by simp⟩
    | some before =>
        rw [last] at linked
        obtain ⟨⟨⟩, passes, made⟩ := bind_eq_ok.mp linked
        cases made
        refine ⟨⟨toolName, named, projection, admitted, rfl⟩, fresh, ?_⟩
        intro _ same
        cases same
        exact passes
  · rintro ⟨⟨toolName, named, projection, admitted, rfl⟩, fresh, linked⟩
    refine ⟨toolName, named, ⟨⟩, fresh, projection, admitted, ?_⟩
    cases last : prior.getLast? with
    | none => rfl
    | some before =>
        exact bind_eq_ok.mpr ⟨(), linked before last, rfl⟩

theorem source_of_admitted {step : RegionStep} {prepared : PreparedStep libraries}
    (admitted : stepAdmitted dag step = .ok prepared) : prepared.source = step := by
  unfold stepAdmitted at admitted
  simp only [bind_eq_ok, pure_eq_ok] at admitted
  obtain ⟨-, -, -, -, rfl⟩ := admitted
  rfl

theorem isChain_last_cons {related : α → α → Prop} {last : Option α} {first : α} {rest : List α} :
    List.IsChain related (last.toList ++ first :: rest) ↔
      (∀ before, last = some before → related before first) ∧
        List.IsChain related (first :: rest) := by
  cases last with
  | none => simp
  | some before => simp

/-- Steps are prepared exactly when each of them is admitted, no two have one index and each
follows the one before. -/
theorem prepareSteps_eq_ok {steps : List RegionStep} :
    prepareSteps dag prior steps = .ok result ↔
      ∃ prepared, List.Forall₂ (fun step made => stepAdmitted dag step = .ok made) steps prepared ∧
        result = prior ++ prepared ∧
        (steps.map RegionStep.dagStepIndex).Nodup ∧
        (∀ step ∈ steps, step.dagStepIndex ∉ prior.map fun other => other.source.dagStepIndex) ∧
        List.IsChain (Linked dag) (prior.getLast?.toList ++ prepared) := by
  induction steps generalizing prior with
  | nil =>
      rw [prepareSteps]
      constructor
      · intro same
        obtain rfl : prior = result := Except.ok.inj same
        refine ⟨[], .nil, (List.append_nil _).symm, List.nodup_nil, by simp, ?_⟩
        cases prior.getLast? <;> simp
      · rintro ⟨prepared, each, rfl, -⟩
        cases each
        rw [List.append_nil]
  | cons step steps ih =>
      rw [prepareSteps, bind_eq_ok]
      constructor
      · rintro ⟨made, makes, rest⟩
        obtain ⟨admitted, fresh, linked⟩ := prepareStep_eq_ok.mp makes
        obtain ⟨prepared, each, rfl, distinct, apart, chain⟩ := ih.mp rest
        rw [List.getLast?_concat] at chain
        simp only [List.map_append, List.map_cons, List.map_nil, List.mem_append,
          List.mem_singleton, not_or, source_of_admitted admitted] at apart
        refine ⟨made :: prepared, .cons admitted each, by simp, ?_, ?_,
          isChain_last_cons.mpr ⟨linked, chain⟩⟩
        · rw [List.map_cons, List.nodup_cons, List.mem_map]
          refine ⟨?_, distinct⟩
          rintro ⟨other, member, same⟩
          exact (apart other member).2 same
        · exact List.forall_mem_cons.mpr ⟨fresh, fun other member => (apart other member).1⟩
      · rintro ⟨prepared, each, rfl, distinct, apart, chain⟩
        cases each with
        | @cons _ made _ rest admitted each =>
            obtain ⟨linked, chain⟩ := isChain_last_cons.mp chain
            obtain ⟨fresh, apart⟩ := List.forall_mem_cons.mp apart
            rw [List.map_cons, List.nodup_cons] at distinct
            refine ⟨made, prepareStep_eq_ok.mpr ⟨admitted, fresh, linked⟩, ih.mpr ?_⟩
            refine ⟨rest, each, by simp, distinct.2, ?_, ?_⟩
            · intro other member
              simp only [List.map_append, List.map_cons, List.map_nil, List.mem_append,
                List.mem_singleton, not_or, source_of_admitted admitted]
              refine ⟨apart other member, fun same => distinct.1 ?_⟩
              rw [← same]
              exact List.mem_map_of_mem member
            · rw [List.getLast?_concat]
              exact chain

/-- A region is prepared exactly when its source is valid and its steps fit together. -/
theorem regionPrepare_eq_ok {source : RegionSource} :
    regionPrepare dag source = .ok result ↔
      regionSourceValid source = true ∧
        List.Forall₂ (fun step made => stepAdmitted dag step = .ok made) source.steps result ∧
        (source.steps.map RegionStep.dagStepIndex).Nodup ∧ List.IsChain (Linked dag) result := by
  simp only [regionPrepare, bind_eq_ok, require_eq_ok, prepareSteps_eq_ok]
  constructor
  · rintro ⟨-, valid, _, each, rfl, distinct, -, chain⟩
    exact ⟨valid, each, distinct, chain⟩
  · rintro ⟨valid, each, distinct, chain⟩
    exact ⟨⟨⟩, valid, result, each, rfl, distinct, by simp, chain⟩

end Prepared

end TurboAgent.AgentCompiler
