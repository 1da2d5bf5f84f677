import TurboAgent.AgentCompiler.Registry

/-!
# The whole tool registry

Tools are registered and removed, and a registry is made from others by projection or by
composition.  Beside what a compiler reads of a tool, its description, its callbacks, its result
contract and its place in an export are kept here.

The text of a schema stands for what it parses to.  Native projections are left out here, and
allocations succeed.
-/

namespace TurboAgent.ToolRegistry

open AgentCompiler (Document Registration compatibleNameEquals nameByteValid)

/-- The address of a function or of data, other than `NULL`. -/
abbrev Pointer := UInt64

/-- The callbacks of a tool, with the data that is passed to them. -/
structure Callbacks where
  (handler jsonValueHandler contextHandler jsonValueContextHandler userData : Option Pointer)
  userDataFree : Option Pointer
  deriving DecidableEq

/-- `turbo_tool_definition_v6_t`. -/
structure Definition where
  registration : Registration
  description : CString
  callbacks : Callbacks
  resultSchemaJson : Option (Option Json)
  strictResult : Int

def Definition.handled (definition : Definition) : Bool :=
  definition.callbacks.handler.isSome || definition.callbacks.jsonValueHandler.isSome ||
    definition.callbacks.contextHandler.isSome ||
    definition.callbacks.jsonValueContextHandler.isSome

def resultSchemaValid : Option (Option Json) → Bool
  | none => true
  | some (some (.object _)) => true
  | some _ => false

/-- The checks of `turbo_tool_registry_add_with_policy`. -/
structure Definition.Valid (definition : Definition) : Prop where
  registration : definition.registration.Valid
  handled : definition.handled = true
  strictResult : definition.strictResult = 0 ∨ definition.strictResult = 1
  contract : definition.strictResult ≠ 0 → definition.resultSchemaJson.isSome = true
  resultSchema : resultSchemaValid definition.resultSchemaJson = true

instance (definition : Definition) : Decidable definition.Valid :=
  decidable_of_iff
    (definition.registration.Valid ∧ definition.handled = true ∧
      (definition.strictResult = 0 ∨ definition.strictResult = 1) ∧
      (definition.strictResult ≠ 0 → definition.resultSchemaJson.isSome = true) ∧
      resultSchemaValid definition.resultSchemaJson = true)
    ⟨fun ⟨registration, handled, strictResult, contract, resultSchema⟩ =>
        ⟨registration, handled, strictResult, contract, resultSchema⟩,
      fun valid => ⟨valid.registration, valid.handled, valid.strictResult, valid.contract,
        valid.resultSchema⟩⟩

/-- `turbo_tool_entry_t`: a definition that was accepted, with its execution metadata. -/
structure Tool where
  definition : Definition
  valid : definition.Valid
  executionMetadata : Option Document

namespace Tool

variable (tool : Tool)

def name : CString := tool.definition.registration.name

def entry : AgentCompiler.Entry :=
  ⟨tool.definition.registration, tool.valid.registration, tool.executionMetadata⟩

/-- `result_schema`. -/
def resultSchema : Option Json := tool.definition.resultSchemaJson.bind id

/-- The definition with which a tool is registered again elsewhere: the data of its callbacks is
borrowed. -/
def again : Definition :=
  { tool.definition with
    registration := { tool.definition.registration with effects := tool.entry.effects }
    callbacks := { tool.definition.callbacks with userDataFree := none } }

end Tool

/-- `turbo_tool_registry_s`.  No two tools have one name. -/
structure Registry where
  tools : List Tool
  distinct : (tools.map Tool.name).Nodup

namespace Registry

/-- `turbo_tool_registry_create`. -/
def create : Registry := ⟨[], List.nodup_nil⟩

section

variable (registry : Registry)

def plain : AgentCompiler.Registry where
  entries := registry.tools.map Tool.entry
  distinct := by
    rw [List.map_map]
    exact registry.distinct

/-! ## Finding -/

def findExact (name : CString) : Option Tool := registry.tools.find? fun tool => tool.name = name

/-- `turbo_tool_registry_find`. -/
def find (name : CString) : Option Tool :=
  match registry.findExact name with
  | some tool => some tool
  | none =>
      match registry.tools.filter fun tool => compatibleNameEquals tool.name name with
      | [tool] => some tool
      | _ => none

/-- `turbo_tool_registry_resolve_name`. -/
def resolveName (name : CString) : Except ToolStatus CString :=
  if name.1 = "" then .error .invalidArgument
  else
    match registry.find name with
    | none => .error .notFound
    | some tool => .ok tool.name

/-- `turbo_tool_registry_get_result_contract`: the schema, if there is one, and its strictness. -/
def getResultContract (name : CString) : Except ToolStatus (Option Json × Bool) :=
  match registry.find name with
  | none => .error .notFound
  | some tool => .ok (tool.resultSchema, decide (tool.definition.strictResult ≠ 0))

end

theorem findExact_name {registry : Registry} {name : CString} {tool : Tool}
    (found : registry.findExact name = some tool) : tool ∈ registry.tools ∧ tool.name = name :=
  ⟨List.mem_of_find?_eq_some found, by simpa using List.find?_some found⟩

theorem findExact_plain (registry : Registry) (name : CString) :
    registry.plain.findExact name = (registry.findExact name).map Tool.entry := by
  rw [AgentCompiler.Registry.findExact, findExact, plain, List.find?_map]
  rfl

theorem find_plain (registry : Registry) (name : CString) :
    registry.plain.find name = (registry.find name).map Tool.entry := by
  unfold AgentCompiler.Registry.find find
  rw [findExact_plain]
  cases registry.findExact name with
  | some tool => rfl
  | none =>
      have listed : (registry.plain.entries.filter fun entry =>
          compatibleNameEquals entry.name name) =
          (registry.tools.filter fun tool => compatibleNameEquals tool.name name).map Tool.entry := by
        rw [plain, List.filter_map]
        rfl
      dsimp only [Option.map_none]
      rw [listed]
      generalize registry.tools.filter (fun tool => compatibleNameEquals tool.name name) = matching
      rcases matching with _ | ⟨first, _ | ⟨second, rest⟩⟩
      · rfl
      · rfl
      · rfl

theorem findExact_none {registry : Registry} {name : CString} (absent : registry.find name = none) :
    name ∉ registry.tools.map Tool.name := by
  have plain : registry.plain.find name = none := by
    rw [find_plain, absent]
    rfl
  have fresh := AgentCompiler.Registry.findExact_none plain
  rw [Registry.plain, List.map_map] at fresh
  exact fresh

/-! ## Adding and removing -/

/-- `turbo_tool_registry_add_with_policy`. -/
def addWithPolicy (registry : Registry) (definition : Definition) : Except ToolStatus Registry :=
  if valid : definition.Valid then
    match absent : registry.find definition.registration.name with
    | some _ => .error .duplicate
    | none => .ok ⟨registry.tools ++ [⟨definition, valid, none⟩], by
        rw [List.map_append, List.map_singleton]
        exact Lists.nodup_snoc registry.distinct (findExact_none absent)⟩
  else .error .invalidArgument

/-- `turbo_tool_registry_remove`. -/
def remove (registry : Registry) (name : CString) : Except ToolStatus Registry :=
  if registry.tools.any fun tool => tool.name = name then
    .ok ⟨registry.tools.eraseP fun tool => tool.name = name,
      registry.distinct.sublist (List.eraseP_sublist.map Tool.name)⟩
  else .error .notFound

def annotate (tools : List Tool) (name : CString) (metadata : Option Document) : List Tool :=
  tools.map fun tool =>
    if tool.name = name then { tool with executionMetadata := metadata } else tool

theorem annotate_names (tools : List Tool) (name : CString) (metadata : Option Document) :
    (annotate tools name metadata).map Tool.name = tools.map Tool.name := by
  rw [annotate, List.map_map]
  apply List.map_congr_left
  intro tool _
  rw [Function.comp]
  split
  next => rfl
  next => rfl

/-- `turbo_tool_registry_set_execution_metadata`. -/
def setExecutionMetadata (registry : Registry) (name : CString) (metadata : Option Document) :
    Except ToolStatus Registry :=
  if name.1 = "" ∨ metadata.any (fun document => !document.value.isObject) then
    .error .invalidArgument
  else
    match registry.find name with
    | none => .error .notFound
    | some tool => .ok ⟨annotate registry.tools tool.name metadata, by
        rw [annotate_names]
        exact registry.distinct⟩

/-! ## Projection and composition -/

/-- A tool of another registry, registered here. -/
def addAgain (registry : Registry) (tool : Tool) : Except ToolStatus Registry := do
  let added ← registry.addWithPolicy tool.again
  match tool.executionMetadata with
  | none => return added
  | some metadata => added.setExecutionMetadata tool.name (some metadata)

/-- The loop of `turbo_tool_registry_project`. -/
def projectNames (source : Registry) : Registry → List CString → List CString →
    Except ToolStatus Registry
  | projection, _, [] => .ok projection
  | projection, previous, name :: names =>
      if name.1 = "" then .error .invalidArgument
      else if name ∈ previous then .error .duplicate
      else
        match source.findExact name with
        | none => .error .notFound
        | some tool => do
            let next ← projection.addAgain tool
            projectNames source next (previous ++ [name]) names

/-- `turbo_tool_registry_project`. -/
def project (source : Registry) (names : List CString) : Except ToolStatus Registry :=
  projectNames source create [] names

def composeTools (composite : Registry) (tools : List Tool) : Except ToolStatus Registry :=
  tools.foldlM addAgain composite

/-- One source of `turbo_tool_registry_compose`. -/
def composeSource (composite : Registry) : Option Registry → Except ToolStatus Registry
  | none => .error .invalidArgument
  | some source => composite.composeTools source.tools

/-- `turbo_tool_registry_compose`. -/
def compose (sources : List (Option Registry)) : Except ToolStatus Registry :=
  sources.foldlM composeSource create

/-! ## The export -/

/-- The bytes of a name with every unusual one replaced. -/
def compatibleBytes (name : CString) : List UInt8 :=
  (utf8 name.1).map fun byte => if nameByteValid byte then byte else asciiByte '_'

/-- `turbo_tool_schema_openai_compatible_name`. -/
def compatibleName (name : CString) : Option String :=
  if name.1 = "" then none
  else some (String.ofList ((compatibleBytes name).map fun byte => Char.ofNat byte.toNat))

/-- `turbo_tool_schema_openai_compatible_name_seen`. -/
def compatibleNameSeen (previous : List Tool) (name : String) : Bool :=
  previous.any fun tool =>
    match compatibleName tool.name with
    | none => true
    | some seen => seen == name

def openaiTool (tool : Tool) (name : String) (parameters : Json) : Json :=
  .object [("type", .string "function"), ("name", .string name),
    ("description", .string tool.definition.description.1),
    ("strict", .bool tool.definition.registration.definition.strict), ("parameters", parameters)]

/-- The loop of `turbo_tool_schema_build_openai_tools`. -/
def buildTools : List Tool → List Tool → Option (List Json)
  | _, [] => some []
  | previous, tool :: tools =>
      match compatibleName tool.name with
      | none => none
      | some name =>
          if compatibleNameSeen previous name then none
          else
            match ToolSchema.parseParameters tool.definition.registration.definition with
            | none => none
            | some parameters =>
                (buildTools (previous ++ [tool]) tools).map fun rest =>
                  openaiTool tool name parameters :: rest

/-- `turbo_tool_schema_build_openai_tools`. -/
def buildOpenaiTools (registry : Registry) : Option Json :=
  (buildTools [] registry.tools).map .array

end Registry

end TurboAgent.ToolRegistry
