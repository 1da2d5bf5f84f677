import TurboAgent.ToolRegistry.Export

/-!
# Native projections of tools

A tool may have a native function beside its callbacks.  The registry binds it with the CMeta
library, which is a parameter, and publishes it again wherever the tool is registered again.
-/

namespace TurboAgent.ToolRegistry

open Logic
open AgentCompiler (Document EffectFlags)

structure CMeta where
  (Function Abi Callable Signature TypeDesc : Type)
  functionDescValid : Function → Bool
  functionAbiDescValid : Abi → Bool
  functionDescEqual : Function → Function → Bool
  abiFunction : Abi → Function
  callableBind : Callable → Option Callable
  fnSignature : Callable → Option Signature
  isValueProtocol : Signature → Bool
  signatureParamCount : Signature → Nat
  signatureParam : Signature → Nat → TypeDesc
  signatureReturn : Signature → TypeDesc
  functionParamCount : Function → Nat
  functionParam : Function → Nat → Option TypeDesc
  functionReturn : Function → TypeDesc
  typeEqual : TypeDesc → TypeDesc → Bool
  callableEffects : Callable → UInt64
  functionEffects : Function → UInt64
  callableProperties : Callable → UInt64
  functionProperties : Function → UInt64
  effectsArePure : UInt64 → Bool

def CMeta.Rebinds (cmeta : CMeta) : Prop :=
  ∀ callable bound, cmeta.callableBind callable = some bound →
    cmeta.callableBind bound = some bound

variable {cmeta : CMeta}

/-- `turbo_tool_native_projection_t`; `current` says whether its size and its version are
accepted. -/
structure NativeProjection (cmeta : CMeta) where
  current : Bool
  function : cmeta.Function
  abi : cmeta.Abi
  callable : cmeta.Callable

namespace NativeProjection

def signatureMatches (bound : cmeta.Callable) (function : cmeta.Function) : Bool :=
  match cmeta.fnSignature bound with
  | none => false
  | some signature =>
      cmeta.isValueProtocol signature &&
        cmeta.signatureParamCount signature == cmeta.functionParamCount function &&
        cmeta.typeEqual (cmeta.signatureReturn signature) (cmeta.functionReturn function) &&
        cmeta.callableEffects bound == cmeta.functionEffects function &&
        cmeta.callableProperties bound == cmeta.functionProperties function &&
        (List.range (cmeta.functionParamCount function)).all fun parameter =>
          match cmeta.functionParam function parameter with
          | none => false
          | some type => cmeta.typeEqual (cmeta.signatureParam signature parameter) type

/-- `turbo_tool_native_projection_bind`. -/
def bind (projection : NativeProjection cmeta) : Option (NativeProjection cmeta) :=
  if projection.current && cmeta.functionDescValid projection.function &&
      cmeta.functionAbiDescValid projection.abi &&
      cmeta.functionDescEqual projection.function (cmeta.abiFunction projection.abi) then
    match cmeta.callableBind projection.callable with
    | none => none
    | some bound =>
        if signatureMatches bound projection.function then
          some { projection with current := true, callable := bound }
        else none
  else none

theorem bind_again (rebinds : cmeta.Rebinds) {projection bound : NativeProjection cmeta}
    (binds : projection.bind = some bound) : bound.bind = some bound := by
  unfold bind at binds
  split at binds
  next valid =>
    split at binds
    next => cases binds
    next callable here =>
      split at binds
      next same =>
        cases binds
        simp only [Bool.and_eq_true] at valid
        simp only [bind, valid, rebinds _ _ here, same, Bool.and_self, if_true]
      next => cases binds
  next => cases binds

end NativeProjection

/-- A projection that the registry keeps for a tool. -/
structure Published (tool : Tool) (projection : NativeProjection cmeta) : Prop where
  bound : ∃ original : NativeProjection cmeta, original.bind = some projection
  pure : tool.entry.effects = EffectFlags.pure →
    cmeta.effectsArePure (cmeta.functionEffects projection.function) = true

/-- `turbo_tool_entry_t`, with its native projection. -/
structure NativeTool (cmeta : CMeta) where
  tool : Tool
  metadata : ∀ document ∈ tool.executionMetadata, document.value.isObject = true
  nativeProjection : Option (NativeProjection cmeta)
  published : ∀ projection ∈ nativeProjection, Published tool projection

namespace NativeTool

def name (entry : NativeTool cmeta) : CString := entry.tool.name

def ofDefinition (definition : Definition) (valid : definition.Valid) : NativeTool cmeta where
  tool := ⟨definition, valid, none⟩
  metadata := fun _ absent => absurd absent (Option.not_mem_none _)
  nativeProjection := none
  published := fun _ absent => absurd absent (Option.not_mem_none _)

def annotate (metadata : Option Document)
    (objects : ∀ document ∈ metadata, document.value.isObject = true) (entry : NativeTool cmeta) :
    NativeTool cmeta where
  tool := { entry.tool with executionMetadata := metadata }
  metadata := objects
  nativeProjection := entry.nativeProjection
  published := fun projection member =>
    ⟨(entry.published projection member).bound, (entry.published projection member).pure⟩

end NativeTool

/-- `turbo_tool_registry_s`, with the native projections. -/
structure NativeRegistry (cmeta : CMeta) where
  entries : List (NativeTool cmeta)
  distinct : (entries.map NativeTool.name).Nodup

namespace NativeRegistry

/-- `turbo_tool_registry_create`. -/
def create : NativeRegistry cmeta := ⟨[], List.nodup_nil⟩

variable (registry : NativeRegistry cmeta)

def names : List CString := registry.entries.map NativeTool.name

def plain : Registry where
  tools := registry.entries.map NativeTool.tool
  distinct := by
    rw [List.map_map]
    exact registry.distinct

def findExact (name : CString) : Option (NativeTool cmeta) :=
  registry.entries.find? fun entry => entry.name = name

/-- `turbo_tool_registry_find`. -/
def find (name : CString) : Option (NativeTool cmeta) :=
  (registry.plain.find name).bind fun tool => registry.findExact tool.name

theorem plain_names : registry.plain.names = registry.names := by
  rw [Registry.names, plain, List.map_map]
  rfl

variable {registry}
variable {entry : NativeTool cmeta}

theorem findExact_name {name : CString} (found : registry.findExact name = some entry) :
    entry ∈ registry.entries ∧ entry.name = name :=
  ⟨List.mem_of_find?_eq_some found, by simpa using List.find?_some found⟩

theorem findExact_own (member : entry ∈ registry.entries) :
    registry.findExact entry.name = some entry := by
  cases found : registry.findExact entry.name with
  | none =>
      have absent := List.find?_eq_none.mp found entry member
      simp at absent
  | some other =>
      obtain ⟨listed, same⟩ := findExact_name found
      rw [List.inj_on_of_nodup_map registry.distinct listed member same]

theorem find_own (member : entry ∈ registry.entries) : registry.find entry.name = some entry := by
  have plain : registry.plain.findExact entry.name = some entry.tool := by
    rw [Registry.findExact, NativeRegistry.plain, List.find?_map]
    have own := findExact_own member
    rw [findExact] at own
    exact congrArg (Option.map NativeTool.tool) own
  rw [find, Registry.find, plain]
  exact findExact_own member

theorem absent_names {name : CString} (absent : registry.plain.find name = none) :
    name ∉ registry.names :=
  plain_names registry ▸ Registry.findExact_none absent

/-! ## Adding, removing and changing -/

/-- `turbo_tool_registry_add_v6`. -/
def add (registry : NativeRegistry cmeta) (definition : Definition) :
    Except ToolStatus (NativeRegistry cmeta) :=
  if valid : definition.Valid then
    match absent : registry.plain.find definition.registration.name with
    | some _ => .error .duplicate
    | none => .ok ⟨registry.entries ++ [.ofDefinition definition valid], by
        rw [List.map_append, List.map_singleton]
        exact Lists.nodup_snoc registry.distinct (absent_names absent)⟩
  else .error .invalidArgument

/-- `turbo_tool_registry_remove`. -/
def remove (registry : NativeRegistry cmeta) (name : CString) :
    Except ToolStatus (NativeRegistry cmeta) :=
  if registry.entries.any fun entry => entry.name = name then
    .ok ⟨registry.entries.eraseP fun entry => entry.name = name,
      registry.distinct.sublist (List.eraseP_sublist.map NativeTool.name)⟩
  else .error .notFound

/-- An entry in the place of the one with its name. -/
def replace (registry : NativeRegistry cmeta) (entry : NativeTool cmeta) : NativeRegistry cmeta where
  entries := registry.entries.map fun other => if other.name = entry.name then entry else other
  distinct := by
    have kept : (registry.entries.map fun other =>
        if other.name = entry.name then entry else other).map NativeTool.name =
          registry.entries.map NativeTool.name := by
      rw [List.map_map]
      apply List.map_congr_left
      intro other _
      rw [Function.comp]
      split
      next same => exact same.symm
      next => rfl
    rw [kept]
    exact registry.distinct

/-- `turbo_tool_registry_set_execution_metadata`. -/
def setExecutionMetadata (registry : NativeRegistry cmeta) (name : CString)
    (metadata : Option Document) : Except ToolStatus (NativeRegistry cmeta) :=
  if objects : name.1 ≠ "" ∧ ∀ document ∈ metadata, document.value.isObject = true then
    match registry.find name with
    | none => .error .notFound
    | some entry => .ok (registry.replace (entry.annotate metadata objects.2))
  else .error .invalidArgument

/-- `turbo_tool_registry_publish_native_projection`. -/
def publishNativeProjection (registry : NativeRegistry cmeta) (name : CString)
    (projection : NativeProjection cmeta) : Except ToolStatus (NativeRegistry cmeta) :=
  if name.1 = "" then .error .invalidArgument
  else
    match registry.find name with
    | none => .error .notFound
    | some entry =>
        if entry.nativeProjection.isSome then .error .duplicate
        else
          match binds : projection.bind with
          | none => .error .invalidArgument
          | some bound =>
              if pure : entry.tool.entry.effects = EffectFlags.pure →
                  cmeta.effectsArePure (cmeta.functionEffects bound.function) = true then
                .ok (registry.replace { entry with
                  nativeProjection := some bound
                  published := fun _ same => Option.some.inj same ▸ ⟨⟨projection, binds⟩, pure⟩ })
              else .error .invalidArgument

/-- `turbo_tool_registry_get_native_projection`. -/
def getNativeProjection (registry : NativeRegistry cmeta) (name : CString) :
    Except ToolStatus (NativeProjection cmeta) :=
  match (registry.find name).bind NativeTool.nativeProjection with
  | none => .error .notFound
  | some projection => .ok projection

/-! ## Projection and composition -/

/-- A tool of another registry, registered here. -/
def addAgain (registry : NativeRegistry cmeta) (entry : NativeTool cmeta) :
    Except ToolStatus (NativeRegistry cmeta) := do
  let added ← registry.add entry.tool.again
  let annotated ← entry.tool.executionMetadata.elim (.ok added) fun metadata =>
    added.setExecutionMetadata entry.name (some metadata)
  entry.nativeProjection.elim (.ok annotated) fun projection =>
    annotated.publishNativeProjection entry.name projection

/-- The loop of `turbo_tool_registry_project`. -/
def projectNames (source : NativeRegistry cmeta) : NativeRegistry cmeta → List CString →
    List CString → Except ToolStatus (NativeRegistry cmeta)
  | projection, _, [] => .ok projection
  | projection, previous, name :: names =>
      if name.1 = "" then .error .invalidArgument
      else if name ∈ previous then .error .duplicate
      else
        match source.findExact name with
        | none => .error .notFound
        | some entry => do
            let next ← projection.addAgain entry
            projectNames source next (previous ++ [name]) names

/-- `turbo_tool_registry_project`. -/
def project (source : NativeRegistry cmeta) (names : List CString) :
    Except ToolStatus (NativeRegistry cmeta) :=
  projectNames source create [] names

end NativeRegistry

end TurboAgent.ToolRegistry
