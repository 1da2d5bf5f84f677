import TurboAgent.AgentCompiler.Config

/-!
# The compiler of single calls

A plan of one tool call.  The only template that is compiled here is inspection: its tool may
only read, and when it reads over the network it has to declare that capability.
-/

namespace TurboAgent.AgentCompiler

open ToolExecutor (ExecutionPolicy)
open Outcome (orFail require)

/-- `turbo_agent_template_kind_t`. -/
inductive PlanTemplate where
  | invalid
  | inspect
  | change
  | repair
  deriving DecidableEq

/-- `turbo_agent_template_descriptor_t`. -/
structure TemplateDescriptor where
  version : UInt32
  (name inputContract : CString)
  (readOnly dagOnly : Bool)

/-- `turbo_agent_template_descriptor`. -/
def templateDescriptor : PlanTemplate → Option TemplateDescriptor
  | .invalid => none
  | .inspect => some ⟨1, ⟨"inspect", rfl⟩, ⟨"TurboAgent.Inspect.v1", rfl⟩, true, false⟩
  | .change => some ⟨1, ⟨"change", rfl⟩, ⟨"TurboAgent.Change.v1", rfl⟩, false, true⟩
  | .repair => some ⟨1, ⟨"repair", rfl⟩, ⟨"TurboAgent.Repair.v1", rfl⟩, false, true⟩

/-- `turbo_agent_typed_plan_t`.  A null pointer stands for an empty text. -/
structure TypedPlan where
  templateKind : PlanTemplate
  (stepId toolName : CString)
  arguments : Option Document

/-- `turbo_agent_executable_plan_s`. -/
structure ExecutablePlan where
  descriptor : TemplateDescriptor
  templateKind : PlanTemplate
  (stepId toolName : CString)
  arguments : Document
  projection : Registry
  policy : ExecutionPolicy
  capabilities : List CString
  executionMetadata : Option Document
  planHash : UInt64

section

variable (numberText : Int → Nat → List UInt8) (double : Int → Nat → ToolSchema.Double)
  (config : Config) (registry : Registry)

/-- `executable_plan_hash`. -/
def executablePlanHash (plan : ExecutablePlan) : Accumulator :=
  let template := ((Accumulator.start.cstring "TurboAgent.ExecutablePlan.v1").cstring
    plan.descriptor.name.1).u32 plan.descriptor.version
  let named := ((template.cstring plan.descriptor.inputContract.1).cstring plan.stepId.1).cstring
    plan.toolName.1
  let called := hashJson numberText named plan.arguments.value
  if called.hash = 0 then called
  else
    let policy := (called.u32 (.ofNat plan.policy.mode.code.toNat)).u32
      (.ofNat plan.policy.idempotency.code.toNat)
    hashMetadata numberText
      (plan.capabilities.foldl (fun accumulator capability => accumulator.cstring capability.1)
        policy)
      plan.executionMetadata

/-- `compiler_config_valid` and the checks of the source as a whole. -/
def validPlan (source : TypedPlan) : Prop :=
  config.maxSourceBytes ≠ 0 ∧ config.maxArgumentBytes ≠ 0 ∧ config.maxArgumentNodes ≠ 0 ∧
    config.maxArgumentDepth ≠ 0 ∧ source.stepId.1 ≠ "" ∧ source.toolName.1 ≠ ""

instance (source : TypedPlan) : Decidable (validPlan config source) :=
  inferInstanceAs (Decidable (_ ∧ _ ∧ _ ∧ _ ∧ _ ∧ _))

/-- What a tool of a read-only template may do. -/
def readOnlyEffects (effects : EffectFlags) : Prop :=
  effects = .pure ∨ effects = .read ∨ effects = .read ||| .network

instance (effects : EffectFlags) : Decidable (readOnlyEffects effects) :=
  inferInstanceAs (Decidable (_ ∨ _ ∨ _))

/-- The checks that a template makes of a tool. -/
def checkTemplate (descriptor : TemplateDescriptor) (entry : Entry) : Compiled Unit := do
  require ⟨.templateViolation,
      "read-only template requires READ_ONLY policy and PURE, READ, or READ|NETWORK effects"⟩
    (descriptor.readOnly = true →
      entry.registration.policy.idempotency = .readOnly ∧ readOnlyEffects entry.effects)
  require ⟨.templateViolation,
      "READ|NETWORK effects require the declared network capability"⟩
    (descriptor.readOnly = true → entry.effects = .read ||| .network →
      ∃ capability ∈ entry.registration.requiredCapabilities, capability.1 = "network")

def checkCapabilities (required : List CString) : Compiled Unit := do
  require ⟨.capabilityDenied, "tool requires a capability not admitted by the compiler"⟩
    (required.all (capabilityAllowed config))
  require ⟨.capabilityDenied, "legacy tool requires implicit custom_tools capability"⟩
    (required = [] → implicitCustomTools.all (capabilityAllowed config))

/-- The plan of an admitted call, before its hash is computed. -/
def freezePlan (descriptor : TemplateDescriptor) (source : TypedPlan) (arguments : Document)
    (canonicalName : CString) (entry : Entry) (projection : Registry) : ExecutablePlan where
  descriptor
  templateKind := source.templateKind
  stepId := source.stepId
  toolName := canonicalName
  arguments
  projection
  policy := entry.registration.policy
  capabilities := sortStrings (effectiveCapabilities entry.registration.requiredCapabilities)
  executionMetadata := entry.executionMetadata
  planHash := 0

/-- `turbo_agent_compile_plan`. -/
def compilePlan (source : TypedPlan) : Compiled ExecutablePlan := do
  require ⟨.invalidArgument, "invalid compiler or typed-plan arguments"⟩
    (validPlan config source)
  let descriptor ← orFail
    ⟨.unsupportedTemplate, "template descriptor is not registered"⟩
    (templateDescriptor source.templateKind)
  require ⟨.unsupportedTemplate,
      "DAG-only template must use the Phase-3 template compiler"⟩ (descriptor.dagOnly = false)
  let arguments ← orFail
    ⟨.invalidArgument, "Inspect arguments must be an explicit JSON object"⟩
    (source.arguments.filter fun arguments => arguments.value.isObject)
  require ⟨.planLimit, "tool arguments exceed compiler resource limits"⟩
    (withinLimits numberText config 0 ⟨0, 0⟩ arguments.value).isSome
  let (canonicalName, definition) ← orFail
    ⟨.unresolvedTool, "tool cannot be resolved during compilation"⟩
    (resolveTool registry source.toolName)
  checkArguments double "tool arguments do not satisfy parameter schema"
    "tool parameter schema is invalid or unsupported" definition arguments
  let entry ← orFail ⟨.unresolvedTool, "tool execution policy is unavailable"⟩
    (registry.find canonicalName)
  checkTemplate descriptor entry
  checkCapabilities config entry.registration.requiredCapabilities
  let projection ← orFail
    ⟨.unresolvedTool, "could not freeze the resolved tool projection"⟩
    (registry.project [canonicalName]).toOption
  let plan := freezePlan descriptor source arguments canonicalName entry projection
  let hash := (executablePlanHash numberText plan).hash
  require ⟨.outOfMemory, "could not freeze executable-plan semantics"⟩ (hash ≠ 0)
  return { plan with planHash := hash }

end

end TurboAgent.AgentCompiler
