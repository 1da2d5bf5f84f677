import TurboAgent.AgentCompiler.Config
import TurboAgent.Logic.Kahn

/-!
# The DAG compiler

A plan is admitted step by step and then as a whole: ids are distinct, each step names a tool and
arguments that the tool takes, dependencies are known and without a cycle.  What is admitted is
frozen, with the capabilities that it needs, its effects and its hash.

Passes follow the order of the source, so that a plan with several faults fails with the same one.
Allocation is taken to succeed.
-/

namespace TurboAgent.AgentCompiler

open ToolExecutor (ExecutionPolicy ExecutionMode Idempotency)
open Outcome (orFail require)

/-- `turbo_agent_dag_template_kind_t`. -/
inductive TemplateKind where
  | generic
  | change
  | repair
  deriving DecidableEq

def TemplateKind.code : TemplateKind → UInt32
  | .generic => 0
  | .change => 1
  | .repair => 2

/-- `turbo_agent_dag_step_source_t`.  A null pointer stands for an empty text. -/
structure StepSource where
  (stepId toolName : CString)
  arguments : Option Document
  dependsOn : List CString
  (retryLimit flags : UInt32)

/-- `turbo_agent_dag_source_t`.  A source of the first version has no template. -/
structure Source where
  steps : List StepSource
  replanBudget : UInt32
  template : Option (TemplateKind × UInt32)

namespace Source

/-- `dag_source_template_kind`. -/
def templateKind (source : Source) : TemplateKind :=
  source.template.elim .generic Prod.fst

/-- `dag_source_plan_generation`. -/
def planGeneration (source : Source) : UInt32 :=
  source.template.elim 0 Prod.snd

end Source

/-- `turbo_agent_executable_dag_step_t`. -/
structure Step where
  (stepId toolName : CString)
  arguments : Document
  dependencies : List Nat
  (retryLimit flags : UInt32)
  policy : ExecutionPolicy
  effects : EffectFlags
  capabilities : List CString
  executionMetadata : Option Document

/-- `turbo_agent_executable_dag_s`. -/
structure ExecutableDag where
  steps : List Step
  replanBudget : UInt32
  templateKind : TemplateKind
  planGeneration : UInt32
  approvedTools : Registry
  capabilities : List CString
  effects : EffectFlags
  planHash : UInt64

/-- `TURBO_AGENT_DAG_MAX_STEPS`. -/
def maxSteps : Nat := 1024

/-- `TURBO_AGENT_DAG_MAX_EDGES`. -/
def maxEdges : Nat := 16384

def stepFlags : UInt32 := 3

/-! ## Admission of a step -/

section

variable (numberText : Int → Nat → List UInt8) (double : Int → Nat → ToolSchema.Double)
  (config : Config) (registry : Registry)

def StepSource.validArguments (source : StepSource) : Option Document :=
  if source.stepId.1 = "" ∨ source.toolName.1 = "" ∨ source.flags &&& ~~~stepFlags ≠ 0 then none
  else source.arguments.filter fun arguments => arguments.value.isObject

/-- `dag_copy_capabilities`. -/
def copyCapabilities (required : List CString) : Compiled (List CString) := do
  require
    ⟨.capabilityDenied, "DAG step requires a capability not admitted by the compiler"⟩
    ((effectiveCapabilities required).all (capabilityAllowed config))
  return sortStrings (effectiveCapabilities required)

/-- `dag_admit_step`. -/
def admitStep (source : StepSource) : Compiled Step := do
  let arguments ← orFail ⟨.invalidArgument, "invalid DAG step source"⟩
    source.validArguments
  require ⟨.planLimit, "DAG step arguments exceed compiler limits"⟩
    (withinLimits numberText config 0 ⟨0, 0⟩ arguments.value).isSome
  let (canonicalName, definition) ← orFail
    ⟨.unresolvedTool, "DAG tool cannot be resolved during compilation"⟩
    (resolveTool registry source.toolName)
  checkArguments double "DAG tool arguments violate parameter schema"
    "DAG tool parameter schema is unsupported" definition arguments
  let entry ← orFail ⟨.unresolvedTool, "DAG tool metadata is unavailable"⟩
    (registry.find canonicalName)
  require ⟨.retryUnsafe, "DAG retry requires READ_ONLY or KEYED tool idempotency"⟩
    (source.retryLimit = 0 ∨ entry.registration.policy.idempotency ≠ .none)
  let capabilities ← copyCapabilities config entry.registration.requiredCapabilities
  return {
    stepId := source.stepId
    toolName := canonicalName
    arguments
    dependencies := []
    retryLimit := source.retryLimit
    flags := source.flags
    policy := entry.registration.policy
    effects := entry.effects
    capabilities
    executionMetadata := entry.executionMetadata }

end

/-! ## Dependencies -/

def checkIds : List CString → List CString → Compiled Unit
  | _, [] => .ok ()
  | prior, id :: ids => do
      require ⟨.invalidArgument, "DAG step ID is empty"⟩ (id.1 ≠ "")
      require ⟨.duplicateStep, "DAG contains duplicate step IDs"⟩ (id ∉ prior)
      checkIds (prior ++ [id]) ids

/-- `dag_find_source_step`. -/
def findSourceStep (ids : List CString) (id : CString) : Option Nat :=
  ids.findIdx? (· = id)

def resolveEdges (ids : List CString) : List Nat → List CString → Compiled (List Nat)
  | resolved, [] => .ok resolved
  | resolved, name :: names => do
      let index ← orFail
        ⟨.missingDependency, "DAG dependency does not reference a known step"⟩
        (if name.1 = "" then none else findSourceStep ids name)
      require ⟨.invalidArgument, "DAG step contains a duplicate dependency edge"⟩
        (index ∉ resolved)
      resolveEdges ids (resolved ++ [index]) names

/-- `dag_resolve_dependencies`, with the number of edges so far. -/
def resolveDependencies (ids : List CString) : Nat → List (StepSource × Step) →
    Compiled (List Step)
  | _, [] => .ok []
  | edges, (source, step) :: rest => do
      require ⟨.planLimit, "DAG edge count exceeds compiler limit"⟩
        (source.dependsOn.length ≤ maxEdges - edges)
      let dependencies ← resolveEdges ids [] source.dependsOn
      let others ← resolveDependencies ids (edges + source.dependsOn.length) rest
      return { step with dependencies } :: others

def dependenciesAt (steps : List Step) (index : Nat) : List Nat :=
  (steps[index]?).elim [] Step.dependencies

/-- `dag_validate_acyclic`. -/
def validateAcyclic (steps : List Step) : Compiled Unit := do
  let before := dependenciesAt steps
  let count := steps.length
  let (visited, _) ← orFail ⟨.cycle, "DAG topology is inconsistent"⟩
    (Logic.Kahn.visit before count count [] (Logic.Kahn.initial before count))
  require ⟨.cycle, "DAG contains a dependency cycle"⟩ (visited.length = count)

/-! ## Summaries -/

def distinctTexts (texts : List CString) : List CString :=
  texts.foldl (fun known text => if text ∈ known then known else known ++ [text]) []

/-- `dag_build_capability_union`. -/
def capabilityUnion (steps : List Step) : List CString :=
  sortStrings (distinctTexts (steps.flatMap Step.capabilities))

/-- The loop of `dag_effect_summary`. -/
def summarizeEffects : EffectFlags → Bool → List EffectFlags → EffectFlags
  | known, allPure, [] => if allPure then .pure else if known = 0 then .unknown else known
  | known, allPure, flags :: rest =>
      if flags &&& .unknown ≠ 0 then .unknown
      else if flags = .pure then summarizeEffects known allPure rest
      else summarizeEffects (known ||| (flags &&& ~~~.pure)) false rest

/-- `dag_effect_summary`. -/
def effectSummary (steps : List Step) : EffectFlags :=
  if steps.isEmpty then .unknown else summarizeEffects 0 true (steps.map Step.effects)

/-- `dag_build_projection`. -/
def buildProjection (registry : Registry) (steps : List Step) : Compiled Registry :=
  match registry.project (distinctTexts (steps.map Step.toolName)) with
  | .ok projection => .ok projection
  | .error _ => .error ⟨.unresolvedTool, "could not freeze DAG RuntimeTools projection"⟩

/-! ## The hash -/

section

variable (numberText : Int → Nat → List UInt8)

def hashDependencies (steps : List Step) (accumulator : Accumulator) (dependencies : List Nat) :
    Accumulator :=
  dependencies.foldl
    (fun accumulator index =>
      (steps[index]?).elim accumulator fun step => accumulator.cstring step.stepId.1)
    accumulator

def hashCall (accumulator : Accumulator) (step : Step) : Accumulator :=
  hashJson numberText ((accumulator.cstring step.stepId.1).cstring step.toolName.1)
    step.arguments.value

/-- The part of a step after its arguments and before its metadata. -/
def hashAttributes (steps : List Step) (accumulator : Accumulator) (step : Step) : Accumulator :=
  let policy := (accumulator.u32 (.ofNat step.policy.mode.code.toNat)).u32
    (.ofNat step.policy.idempotency.code.toNat)
  let limits := ((policy.u64 step.effects).u32 step.retryLimit).u32 step.flags
  let dependencies := hashDependencies steps (limits.u64 (.ofNat step.dependencies.length))
    step.dependencies
  step.capabilities.foldl (fun accumulator capability => accumulator.cstring capability.1)
    (dependencies.u64 (.ofNat step.capabilities.length))

/-- The loop of `dag_compute_hash`. -/
def hashSteps (steps : List Step) : Accumulator → List Step → Accumulator
  | accumulator, [] => accumulator
  | accumulator, step :: rest =>
      let called := hashCall numberText accumulator step
      if called.hash = 0 then called
      else
        hashSteps steps
          (hashMetadata numberText (hashAttributes steps called step) step.executionMetadata) rest

def hashHeader (plan : ExecutableDag) : Accumulator :=
  (((((Accumulator.start.cstring "TurboAgent.ExecutableDAG.v3").u32 3).u32
    plan.templateKind.code).u32 plan.planGeneration).u32 plan.replanBudget).u64
    (.ofNat plan.steps.length)

/-- `dag_compute_hash`. -/
def computeHash (plan : ExecutableDag) : Accumulator :=
  hashSteps numberText plan.steps (hashHeader plan) plan.steps

end

/-! ## Compilation -/

section

variable (numberText : Int → Nat → List UInt8) (double : Int → Nat → ToolSchema.Double)
  (config : Config) (registry : Registry)

/-- `dag_config_valid` and the checks of the source as a whole. -/
def validCompilation (source : Source) : Prop :=
  config.maxArgumentBytes ≠ 0 ∧ config.maxArgumentNodes ≠ 0 ∧ config.maxArgumentDepth ≠ 0 ∧
    source.steps ≠ [] ∧ source.steps.length ≤ maxSteps

instance (source : Source) : Decidable (validCompilation config source) :=
  inferInstanceAs (Decidable (_ ∧ _ ∧ _ ∧ ¬source.steps = [] ∧ _))

/-- The plan of admitted steps, before its hash is computed. -/
def assemble (source : Source) (steps : List Step) (approvedTools : Registry) : ExecutableDag where
  steps
  replanBudget := source.replanBudget
  templateKind := source.templateKind
  planGeneration := source.planGeneration
  approvedTools
  capabilities := capabilityUnion steps
  effects := effectSummary steps
  planHash := 0

/-- `turbo_agent_compile_dag`. -/
def compileDag (source : Source) : Compiled ExecutableDag := do
  require ⟨.invalidArgument, "invalid DAG compiler arguments"⟩
    (validCompilation config source)
  let ids := source.steps.map StepSource.stepId
  checkIds [] ids
  let admitted ← source.steps.mapM (admitStep numberText double config registry)
  let steps ← resolveDependencies ids 0 (source.steps.zip admitted)
  validateAcyclic steps
  let approvedTools ← buildProjection registry steps
  let plan := assemble source steps approvedTools
  let hash := (computeHash numberText plan).hash
  require ⟨.outOfMemory, "could not hash executable DAG"⟩ (hash ≠ 0)
  return { plan with planHash := hash }

end

end TurboAgent.AgentCompiler
