import TurboAgent.AgentCompiler.PlanHash

/-!
# Limits and capabilities of a compiler

What both compilers check of one tool call: how large its arguments are, whether they meet the
parameter schema, and which capabilities it may need.
-/

namespace TurboAgent.AgentCompiler

open ToolSchema (cString elementsDepth fieldsDepth)

/-- `turbo_agent_compile_status_t` without `TURBO_AGENT_COMPILE_OK`. -/
inductive CompileStatus where
  | invalidArgument
  | unsupportedTemplate
  | unresolvedTool
  | capabilityDenied
  | templateViolation
  | outOfMemory
  | toolArgumentsInvalid
  | toolSchemaInvalid
  | planLimit
  | duplicateStep
  | missingDependency
  | cycle
  | retryUnsafe
  deriving DecidableEq

structure Failure where
  status : CompileStatus
  message : String
  deriving DecidableEq

abbrev Compiled (α : Type) := Except Failure α

/-- `turbo_agent_compiler_config_t`. -/
structure Config where
  allowedCapabilities : List CString
  denyUnlistedCapabilities : Bool
  (maxSourceBytes maxArgumentBytes maxArgumentNodes maxArgumentDepth : Nat)

/-! ## Capabilities -/

/-- `dag_capability_allowed`. -/
def capabilityAllowed (config : Config) (capability : CString) : Bool :=
  capability.1 != "" &&
    (!config.denyUnlistedCapabilities || config.allowedCapabilities.contains capability)

def implicitCustomTools : List CString := [⟨"custom_tools", rfl⟩]

def effectiveCapabilities (required : List CString) : List CString :=
  if required = [] then implicitCustomTools else required

/-! ## Tools -/

/-- `turbo_tool_registry_resolve_name`, and the definition that has the name that it gives. -/
def resolveTool (registry : Registry) (name : CString) :
    Option (CString × ToolSchema.Definition) :=
  (registry.find name).bind fun entry =>
    (registry.findExact entry.name).map fun own => (entry.name, own.registration.definition)

def orDefault (text default : String) : String :=
  if text = "" then default else text

/-- The check of arguments against the schema of a tool, with the messages for a validator that
says nothing. -/
def checkArguments (double : Int → Nat → ToolSchema.Double) (invalid unsupported : String)
    (definition : ToolSchema.Definition) (arguments : Document) : Compiled Unit :=
  match ToolSchema.validateArguments double definition arguments.value with
  | .ok () => .ok ()
  | .error rejection =>
      if rejection.refusal = .valueInvalid then
        .error ⟨.toolArgumentsInvalid, orDefault rejection.diagnostic invalid⟩
      else .error ⟨.toolSchemaInvalid, orDefault rejection.diagnostic unsupported⟩

/-! ## Limits -/

/-- What has been counted of an arguments tree. -/
structure Usage where
  (nodes bytes : Nat)
  deriving DecidableEq

/-- `dag_budget_add`. -/
def budgetAdd (config : Config) (amount : Nat) (usage : Usage) : Option Usage :=
  if config.maxArgumentBytes < usage.bytes ∨ config.maxArgumentBytes - usage.bytes < amount then
    none
  else some { usage with bytes := usage.bytes + amount }

section

variable (numberText : Int → Nat → List UInt8) (config : Config)

/-- The part of `dag_arguments_within_limits` before the switch. -/
def enterNode (depth : Nat) (usage : Usage) : Option Usage :=
  if config.maxArgumentDepth < depth ∨ config.maxArgumentNodes ≤ usage.nodes then none
  else some { usage with nodes := usage.nodes + 1 }

mutual
/-- `dag_arguments_within_limits`. -/
def withinLimits (depth : Nat) (usage : Usage) : Json → Option Usage
  | .null => enterNode config depth usage
  | .bool _ => enterNode config depth usage
  | .number mantissa exponent =>
      (enterNode config depth usage).bind fun entered =>
        budgetAdd config (numberText mantissa exponent).length entered
  | .string text =>
      (enterNode config depth usage).bind fun entered =>
        budgetAdd config (utf8 (cString text)).length entered
  | .array elements =>
      (enterNode config depth usage).bind fun entered =>
        elementsWithinLimits (depth + 1) entered elements
  | .object fields =>
      (enterNode config depth usage).bind fun entered =>
        fieldsWithinLimits (depth + 1) entered fields

def elementsWithinLimits (depth : Nat) (usage : Usage) : List Json → Option Usage
  | [] => some usage
  | element :: elements =>
      (withinLimits depth usage element).bind fun next =>
        elementsWithinLimits depth next elements

def fieldsWithinLimits (depth : Nat) (usage : Usage) : List (String × Json) → Option Usage
  | [] => some usage
  | (key, value) :: fields =>
      (budgetAdd config (utf8 (cString key)).length usage).bind fun named =>
        (withinLimits depth named value).bind fun next =>
          fieldsWithinLimits depth next fields
end

end

/-! ## What the limits are about -/

mutual
def nodeCount : Json → Nat
  | .array elements => elementsNodeCount elements + 1
  | .object fields => fieldsNodeCount fields + 1
  | _ => 1

def elementsNodeCount : List Json → Nat
  | [] => 0
  | element :: elements => nodeCount element + elementsNodeCount elements

def fieldsNodeCount : List (String × Json) → Nat
  | [] => 0
  | (_, value) :: fields => nodeCount value + fieldsNodeCount fields
end

section

variable (numberText : Int → Nat → List UInt8) (text : String → String)

mutual
/-- The bytes of all strings, keys and numbers of a tree, when strings are read by `text`. -/
def textBytes : Json → Nat
  | .number mantissa exponent => (numberText mantissa exponent).length
  | .string value => (utf8 (text value)).length
  | .array elements => elementsTextBytes elements
  | .object fields => fieldsTextBytes fields
  | _ => 0

def elementsTextBytes : List Json → Nat
  | [] => 0
  | element :: elements => textBytes element + elementsTextBytes elements

def fieldsTextBytes : List (String × Json) → Nat
  | [] => 0
  | (key, value) :: fields => (utf8 (text key)).length + textBytes value + fieldsTextBytes fields
end

end

section

variable {numberText : Int → Nat → List UInt8} {config : Config} {usage after : Usage}

theorem budgetAdd_eq_some {amount : Nat} (within : usage.bytes ≤ config.maxArgumentBytes) :
    budgetAdd config amount usage = some after ↔
      after = ⟨usage.nodes, usage.bytes + amount⟩ ∧ after.bytes ≤ config.maxArgumentBytes := by
  unfold budgetAdd
  split
  next exceeded =>
    simp only [reduceCtorEq, false_iff]
    rintro ⟨rfl, fits⟩
    simp only at fits
    omega
  next fits =>
    simp only [Option.some.injEq]
    constructor
    · rintro rfl
      simp only [true_and]
      omega
    · rintro ⟨rfl, -⟩
      rfl

variable {depth : Nat}

theorem enterNode_eq_some :
    enterNode config depth usage = some after ↔
      after = ⟨usage.nodes + 1, usage.bytes⟩ ∧ depth ≤ config.maxArgumentDepth ∧
        after.nodes ≤ config.maxArgumentNodes := by
  unfold enterNode
  split
  next exceeded =>
    simp only [reduceCtorEq, false_iff]
    rintro ⟨rfl, near, few⟩
    simp only at few
    omega
  next fits =>
    simp only [Option.some.injEq]
    constructor
    · rintro rfl
      simp only [true_and]
      omega
    · rintro ⟨rfl, -⟩
      rfl

structure Usage.Within (usage : Usage) (config : Config) : Prop where
  nodes : usage.nodes ≤ config.maxArgumentNodes
  bytes : usage.bytes ≤ config.maxArgumentBytes

theorem enterNode_within (within : usage.Within config) :
    enterNode config depth usage = some after ↔
      after = ⟨usage.nodes + 1, usage.bytes⟩ ∧ depth ≤ config.maxArgumentDepth ∧
        after.Within config := by
  rw [enterNode_eq_some]
  constructor
  · rintro ⟨rfl, near, few⟩
    exact ⟨rfl, near, few, within.bytes⟩
  · rintro ⟨rfl, near, fits⟩
    exact ⟨rfl, near, fits.nodes⟩

theorem enterNode_walk {nodes bytes deep : Nat} {walk : Usage → Option Usage}
    (within : usage.Within config)
    (spec : Usage.Within ⟨usage.nodes + 1, usage.bytes⟩ config → depth ≤ config.maxArgumentDepth →
      (walk ⟨usage.nodes + 1, usage.bytes⟩ = some after ↔
        after = ⟨usage.nodes + 1 + nodes, usage.bytes + bytes⟩ ∧
        depth + deep ≤ config.maxArgumentDepth ∧ after.Within config)) :
    (enterNode config depth usage).bind walk = some after ↔
      after = ⟨usage.nodes + (nodes + 1), usage.bytes + bytes⟩ ∧
        depth + deep ≤ config.maxArgumentDepth ∧ after.Within config := by
  have counted : usage.nodes + 1 + nodes = usage.nodes + (nodes + 1) := by omega
  simp only [Option.bind_eq_some_iff, enterNode_within within]
  constructor
  · rintro ⟨entered, ⟨rfl, near, fits⟩, walked⟩
    rw [← counted]
    exact (spec fits near).mp walked
  · rintro ⟨same, deeper, fits⟩
    have few := fits.nodes
    simp only [same] at few
    have near : depth ≤ config.maxArgumentDepth := by omega
    have entered : Usage.Within ⟨usage.nodes + 1, usage.bytes⟩ config := by
      constructor
      · simp only
        omega
      · exact within.bytes
    rw [← counted] at same
    exact ⟨_, ⟨rfl, near, entered⟩, (spec entered near).mpr ⟨same, deeper, fits⟩⟩

theorem enterNode_text {amount : Nat} (within : usage.Within config) :
    ((enterNode config depth usage).bind fun entered => budgetAdd config amount entered) =
        some after ↔
      after = ⟨usage.nodes + (0 + 1), usage.bytes + amount⟩ ∧
        depth + 0 ≤ config.maxArgumentDepth ∧ after.Within config := by
  apply enterNode_walk within
  intro entered near
  rw [budgetAdd_eq_some entered.bytes]
  constructor
  · rintro ⟨rfl, fits⟩
    exact ⟨rfl, near, entered.nodes, fits⟩
  · rintro ⟨rfl, -, fits⟩
    exact ⟨rfl, fits.bytes⟩

theorem Usage.within_of_add {nodes bytes nodes' bytes' : Nat}
    (fits : Usage.Within ⟨usage.nodes + (nodes + nodes'), usage.bytes + (bytes + bytes')⟩ config) :
    Usage.Within ⟨usage.nodes + nodes, usage.bytes + bytes⟩ config := by
  have few := fits.nodes
  have small := fits.bytes
  simp only at few small
  constructor
  · simp only
    omega
  · simp only
    omega

mutual
theorem withinLimits_eq_some {depth : Nat} {usage after : Usage} (within : usage.Within config) :
    (value : Json) → (withinLimits numberText config depth usage value = some after ↔
      after = ⟨usage.nodes + nodeCount value,
        usage.bytes + textBytes numberText cString value⟩ ∧
      depth + ToolSchema.depth value ≤ config.maxArgumentDepth ∧ after.Within config)
  | .null => enterNode_within within
  | .bool _ => enterNode_within within
  | .number _ _ => enterNode_text within
  | .string _ => enterNode_text within
  | .array elements =>
      enterNode_walk within fun entered near =>
        elementsWithinLimits_eq_some entered near elements
  | .object fields =>
      enterNode_walk within fun entered near => fieldsWithinLimits_eq_some entered near fields

theorem elementsWithinLimits_eq_some {depth : Nat} {usage after : Usage}
    (within : usage.Within config) (near : depth ≤ config.maxArgumentDepth) :
    (elements : List Json) →
      (elementsWithinLimits numberText config (depth + 1) usage elements = some after ↔
        after = ⟨usage.nodes + elementsNodeCount elements,
          usage.bytes + elementsTextBytes numberText cString elements⟩ ∧
        depth + elementsDepth elements ≤ config.maxArgumentDepth ∧
        after.Within config)
  | [] => by
      simp only [elementsWithinLimits, Option.some.injEq]
      constructor
      · rintro rfl
        exact ⟨rfl, near, within⟩
      · rintro ⟨rfl, -⟩
        rfl
  | element :: elements => by
      simp only [elementsWithinLimits, Option.bind_eq_some_iff,
        withinLimits_eq_some within element, elementsNodeCount, elementsTextBytes,
        elementsDepth]
      constructor
      · rintro ⟨next, ⟨rfl, deep, fits⟩, walked⟩
        obtain ⟨rfl, deeper, fits'⟩ := (elementsWithinLimits_eq_some fits near elements).mp walked
        refine ⟨?_, by omega, fits'⟩
        simp only [Usage.mk.injEq]
        omega
      · rintro ⟨rfl, deep, fits⟩
        have first := Usage.within_of_add fits
        refine ⟨_, ⟨rfl, by omega, first⟩,
          (elementsWithinLimits_eq_some first near elements).mpr ⟨?_, by omega, fits⟩⟩
        simp only [Usage.mk.injEq]
        omega

theorem fieldsWithinLimits_eq_some {depth : Nat} {usage after : Usage}
    (within : usage.Within config) (near : depth ≤ config.maxArgumentDepth) :
    (fields : List (String × Json)) →
      (fieldsWithinLimits numberText config (depth + 1) usage fields = some after ↔
        after = ⟨usage.nodes + fieldsNodeCount fields,
          usage.bytes + fieldsTextBytes numberText cString fields⟩ ∧
        depth + fieldsDepth fields ≤ config.maxArgumentDepth ∧
        after.Within config)
  | [] => by
      simp only [fieldsWithinLimits, Option.some.injEq]
      constructor
      · rintro rfl
        exact ⟨rfl, near, within⟩
      · rintro ⟨rfl, -⟩
        rfl
  | (key, value) :: fields => by
      simp only [fieldsWithinLimits, Option.bind_eq_some_iff, budgetAdd_eq_some within.bytes,
        fieldsNodeCount, fieldsTextBytes, fieldsDepth]
      constructor
      · rintro ⟨named, ⟨rfl, small⟩, next, here, walked⟩
        have fits : Usage.Within
            ⟨usage.nodes, usage.bytes + (utf8 (cString key)).length⟩ config :=
          ⟨within.nodes, small⟩
        obtain ⟨rfl, deep, fits⟩ := (withinLimits_eq_some fits value).mp here
        obtain ⟨rfl, deeper, fits'⟩ := (fieldsWithinLimits_eq_some fits near fields).mp walked
        refine ⟨?_, by omega, fits'⟩
        simp only [Usage.mk.injEq]
        omega
      · rintro ⟨rfl, deep, fits⟩
        have both := Usage.within_of_add fits
        have small := both.bytes
        simp only at small
        have named : Usage.Within
            ⟨usage.nodes, usage.bytes + (utf8 (cString key)).length⟩ config := by
          constructor
          · exact within.nodes
          · simp only
            omega
        rw [← Nat.add_assoc] at both
        refine ⟨_, ⟨rfl, named.bytes⟩, _,
          (withinLimits_eq_some named value).mpr ⟨rfl, by omega, both⟩,
          (fieldsWithinLimits_eq_some both near fields).mpr ⟨?_, by omega, fits⟩⟩
        simp only [Usage.mk.injEq]
        omega
end

theorem withinLimits_isSome {value : Json} :
    (withinLimits numberText config 0 ⟨0, 0⟩ value).isSome ↔
      nodeCount value ≤ config.maxArgumentNodes ∧
      textBytes numberText cString value ≤ config.maxArgumentBytes ∧
      ToolSchema.depth value ≤ config.maxArgumentDepth := by
  rw [Option.isSome_iff_exists]
  have start : Usage.Within ⟨0, 0⟩ config := ⟨Nat.zero_le _, Nat.zero_le _⟩
  simp only [withinLimits_eq_some start, Nat.zero_add]
  constructor
  · rintro ⟨after, rfl, near, fits⟩
    exact ⟨fits.nodes, fits.bytes, near⟩
  · rintro ⟨few, small, near⟩
    exact ⟨_, rfl, near, few, small⟩

end

end TurboAgent.AgentCompiler
