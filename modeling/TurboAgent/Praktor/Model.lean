import TurboAgent.AgentCompiler.Registry

/-!
# Capabilities of a workflow plan

What a Praktor workflow may do is read from the description of its plan: the effects of its
manifest and the tools of the host that it names.  A manifest that cannot be read, or is unknown
for a reason other than approved host tools, gives a fixed set of capabilities at once, and the
host tools are not looked at any more.

Allocations succeed.
-/

namespace TurboAgent.Praktor

open AgentCompiler (Registry Entry)
open ToolSchema (cString)

/-! ## Lists of capabilities -/

abbrev Derived := Except ToolStatus (List String)

/-- `turbo_praktor_capability_add`. -/
def capabilityAdd (list : List String) (capability : String) : Derived :=
  if capability = "" then .error .invalidArgument
  else if capability ∈ list then .ok list else .ok (list ++ [capability])

/-- The capabilities of `turbo_praktor_add_conservative_capabilities`. -/
def conservative : List String := ["network", "shell", "patch", "outside_workspace"]

/-- `turbo_praktor_add_conservative_capabilities`. -/
def addConservativeCapabilities (list : List String) : Derived :=
  conservative.foldlM capabilityAdd list

/-- `turbo_praktor_capability_from_effect`. -/
def capabilityFromEffect (list : List String) (effect : String) : Derived :=
  if effect = "" then .error .invalidArgument
  else if effect = "network" then capabilityAdd list "network"
  else if effect = "process" ∨ effect = "system_control" then capabilityAdd list "shell"
  else if effect = "filesystem_write" then capabilityAdd list "patch"
  else if effect = "outside_workspace" then capabilityAdd list "outside_workspace"
  else if effect = "plugin" ∨ effect = "native_extension" ∨ effect = "model_api" then
    capabilityAdd list "custom_tools"
  else if effect = "filesystem_read" then .ok list
  else capabilityAdd list "custom_tools" >>= addConservativeCapabilities

/-! ## Reading a description -/

/-- `json_get_bool` with default false. -/
def flag (record : Json) (key : String) : Bool := record.field key = some (.bool true)

def text? : Json → Option String
  | .string text => some (cString text)
  | _ => none

def filled : Option Json → Option (List Json)
  | some (.array []) => none
  | some (.array elements) => some elements
  | _ => none

/-- The array `host_tools`. -/
def hostTools (description : Json) : Option (List Json) :=
  match description.field "host_tools" with
  | some (.array entries) => some entries
  | _ => none

def hostToolName (entry : Json) : Option String := entry.getString "tool"

/-- The object `effect_manifest`. -/
def manifest? (description : Json) : Option Json :=
  (description.field "effect_manifest").filter Json.isObject

/-- The profile `harness_safe`. -/
def harnessSafe (description : Json) : Option Json :=
  (description.field "profiles").bind fun profiles => profiles.field "harness_safe"

def argument? (text : String) : Option CString :=
  if plain : noNul text = true then some ⟨text, plain⟩ else none

/-- `turbo_praktor_registry_exact_definition`. -/
def exactDefinition (registry : Option Registry) (name : String) : Option Entry :=
  if name = "" then none
  else registry.bind fun tools => (argument? name).bind tools.findExact

/-- `turbo_tool_registry_get_required_capabilities`. -/
def requiredCapabilities (registry : Option Registry) (name : String) : Derived :=
  match registry.bind fun tools => (argument? name).bind tools.find with
  | none => .error .notFound
  | some entry => .ok (entry.registration.requiredCapabilities.map Subtype.val)

/-- `turbo_praktor_plan_has_host_tools`. -/
def planHasHostTools (description : Json) : Bool :=
  (hostTools description).any fun entries => !entries.isEmpty

/-- `turbo_praktor_host_tool_manifest_contains`. -/
def hostToolManifestContains (description : Json) (name : String) : Bool :=
  (hostTools description).any fun entries =>
    entries.any fun entry => hostToolName entry == some name

def hostToolResolved (registry : Option Registry) (entry : Json) : Bool :=
  (hostToolName entry).any fun name => (exactDefinition registry name).isSome

/-- `turbo_praktor_host_tools_resolved`. -/
def hostToolsResolved (description : Json) (registry : Option Registry) : Bool :=
  match hostTools description with
  | none => false
  | some entries => entries.isEmpty || (registry.isSome && entries.all (hostToolResolved registry))

def reasonPrefix : String := "host tool effects resolved by embedding host: "

/-- One of the reasons why effects are unknown is a host tool that was approved. -/
def reasonResolved (description : Json) (registry : Option Registry) (reason : Json) : Bool :=
  (text? reason).any fun text =>
    reasonPrefix.toList.isPrefixOf text.toList &&
    let name := String.ofList (text.toList.drop reasonPrefix.length)
    name != "" && hostToolManifestContains description name &&
      (exactDefinition registry name).isSome

/-- `turbo_praktor_host_tool_unknowns_only`. -/
def hostToolUnknownsOnly (description : Json) (registry : Option Registry) : Bool :=
  hostToolsResolved description registry && planHasHostTools description &&
  (manifest? description).any (fun manifest =>
    flag manifest "unknown_effects" &&
    (filled (manifest.field "unknown_reasons")).any fun reasons =>
      reasons.all (reasonResolved description registry)) &&
  (filled ((harnessSafe description).bind fun profile => profile.field "reasons")).any
    fun reasons => reasons.all fun reason =>
      text? reason == some "harness_safe rejects workflows with unknown effects"

/-- `turbo_praktor_plan_metadata_valid`. -/
def planMetadataValid (description : Json) (requireHarnessSafe : Bool)
    (registry : Option Registry) : Bool :=
  description.isObject && (description.field "input_schema").any Json.isObject &&
  hostToolsResolved description registry &&
  (!requireHarnessSafe ||
    ((harnessSafe description).filter Json.isObject).any fun profile =>
      flag profile "qualified" || hostToolUnknownsOnly description registry)

/-! ## Derivation -/

/-- One host tool of `turbo_praktor_host_tool_capabilities`. -/
def addHostTool (registry : Option Registry) (list : List String) (entry : Json) : Derived :=
  match hostToolName entry with
  | none => .error .notFound
  | some name =>
      if (exactDefinition registry name).isSome then do
        let required ← requiredCapabilities registry name
        if required = [] then capabilityAdd list "custom_tools"
        else required.foldlM capabilityAdd list
      else .error .notFound

/-- `turbo_praktor_host_tool_capabilities`. -/
def hostToolCapabilities (description : Json) (registry : Option Registry) (list : List String) :
    Derived :=
  match hostTools description with
  | none => .error .invalidArgument
  | some entries => entries.foldlM (addHostTool registry) list

/-- The loop over the effects, and what follows it. -/
def addEffects (resolved : Bool) (rest : List String → Derived) :
    List Json → List String → Derived
  | [], list => rest list
  | value :: values, list =>
      match text? value with
      | none => addConservativeCapabilities list
      | some effect =>
          if resolved = true ∧ effect = "host_tool" then addEffects resolved rest values list
          else do
            let next ← capabilityFromEffect list effect
            addEffects resolved rest values next

/-- The effects of a manifest are unknown for a reason other than approved host tools. -/
def unknownOtherwise (description manifest : Json) (registry : Option Registry) : Bool :=
  flag manifest "unknown_effects" && !hostToolUnknownsOnly description registry

/-- `turbo_praktor_effect_capabilities`. -/
def effectCapabilities (description : Json) (registry : Option Registry) (list : List String) :
    Derived :=
  match manifest? description with
  | none => addConservativeCapabilities list
  | some manifest =>
      if unknownOtherwise description manifest registry then
        capabilityAdd list "custom_tools" >>= addConservativeCapabilities
      else
        match manifest.field "effects" with
        | some (.array effects) =>
            addEffects (flag manifest "unknown_effects")
              (fun list =>
                if planHasHostTools description then
                  hostToolCapabilities description registry list
                else .ok list) effects list
        | _ => addConservativeCapabilities list

end TurboAgent.Praktor
