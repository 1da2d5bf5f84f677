import TurboAgent.Data.Bytes
import TurboAgent.Data.Strcmp
import TurboAgent.Logic.Lists
import TurboAgent.Logic.Outcome
import TurboAgent.ToolExecutor.Model
import TurboAgent.ToolSchema.Correctness

/-!
# The tool registry

What a compiler reads of a tool: its parameter schema, its execution policy, the capabilities
that it requires, its effects and its execution metadata.  A name finds the tool that has it, or
else the only tool whose name becomes it when every unusual character is replaced.

Callbacks and native projections are left out: nothing that is compiled depends on them.
-/

namespace TurboAgent.AgentCompiler

open ToolExecutor (ExecutionPolicy ExecutionMode Idempotency)

/-! ## Documents -/

mutual
def PlainKeys : Json → Prop
  | .array elements => ElementsPlainKeys elements
  | .object fields => FieldsPlainKeys fields
  | _ => True

def ElementsPlainKeys : List Json → Prop
  | [] => True
  | element :: elements => PlainKeys element ∧ ElementsPlainKeys elements

def FieldsPlainKeys : List (String × Json) → Prop
  | [] => True
  | (key, value) :: fields => noNul key = true ∧ PlainKeys value ∧ FieldsPlainKeys fields
end

/-- A JSON value as the JSON library holds it. -/
structure Document where
  value : Json
  keyed : ToolSchema.Keyed value
  plainKeys : PlainKeys value

/-! ## Effects -/

/-- `turbo_tool_effect_flags_t`. -/
abbrev EffectFlags := UInt64

namespace EffectFlags

/-- `TURBO_TOOL_EFFECT_UNKNOWN`. -/
def unknown : EffectFlags := 1

/-- `TURBO_TOOL_EFFECT_PURE`. -/
def pure : EffectFlags := 2

/-- `TURBO_TOOL_EFFECT_READ`. -/
def read : EffectFlags := 4

/-- `TURBO_TOOL_EFFECT_NETWORK`. -/
def network : EffectFlags := 32

/-- `TURBO_TOOL_EFFECT_KNOWN_MASK`. -/
def knownMask : EffectFlags := 127

/-- `turbo_tool_effect_flags_valid`. -/
def Valid (flags : EffectFlags) : Prop :=
  flags &&& ~~~knownMask = 0 ∧
    (flags = 0 ∨ (flags &&& unknown ≠ 0 → flags = unknown) ∧
      (flags &&& pure ≠ 0 → flags = pure))

instance (flags : EffectFlags) : Decidable flags.Valid := by
  unfold Valid
  infer_instance

/-- `turbo_tool_effect_flags_normalize`. -/
def normalize (flags : EffectFlags) : EffectFlags :=
  if flags = 0 then unknown else flags

theorem normalize_valid {flags : EffectFlags} (valid : flags.Valid) : flags.normalize.Valid := by
  unfold normalize
  split
  next => decide
  next => exact valid

theorem normalize_normalize (flags : EffectFlags) : flags.normalize.normalize = flags.normalize := by
  by_cases none : flags = 0
  · subst none
    rfl
  · simp only [normalize, if_neg none]

end EffectFlags

/-! ## Entries -/

/-- `turbo_tool_definition_v6_t`. -/
structure Registration where
  name : CString
  definition : ToolSchema.Definition
  policy : ExecutionPolicy
  requiredCapabilities : List CString
  effects : EffectFlags

/-- The checks of `turbo_tool_registry_add_with_policy`.  A count of capabilities is a `size_t`. -/
structure Registration.Valid (registration : Registration) : Prop where
  parameters : registration.definition.parametersJson.isSome ∨
    registration.definition.parametersSchema.isSome
  effects : registration.effects.Valid
  named : ∀ capability ∈ registration.requiredCapabilities, capability.1 ≠ ""
  distinct : registration.requiredCapabilities.Nodup
  counted : registration.requiredCapabilities.length < 18446744073709551616

instance (registration : Registration) : Decidable registration.Valid :=
  decidable_of_iff
    ((registration.definition.parametersJson.isSome ∨
        registration.definition.parametersSchema.isSome) ∧
      registration.effects.Valid ∧
      (∀ capability ∈ registration.requiredCapabilities, capability.1 ≠ "") ∧
      registration.requiredCapabilities.Nodup ∧
      registration.requiredCapabilities.length < 18446744073709551616)
    ⟨fun ⟨parameters, effects, named, distinct, counted⟩ =>
        ⟨parameters, effects, named, distinct, counted⟩,
      fun valid => ⟨valid.parameters, valid.effects, valid.named, valid.distinct, valid.counted⟩⟩

/-- `turbo_tool_entry_t`: a registration that was accepted, with its execution metadata. -/
structure Entry where
  registration : Registration
  valid : registration.Valid
  executionMetadata : Option Document

namespace Entry

def name (entry : Entry) : CString := entry.registration.name

/-- The effects of a tool, as the registry keeps them. -/
def effects (entry : Entry) : EffectFlags := entry.registration.effects.normalize

end Entry

/-! ## Finding -/

/-- `turbo_tool_openai_name_char_valid`. -/
def nameByteValid (byte : UInt8) : Bool := isIdChar (Char.ofNat byte.toNat)

/-- `turbo_tool_openai_compatible_name_equals`. -/
def compatibleNameEquals (original compatible : CString) : Bool :=
  (utf8 original.1).map (fun byte => if nameByteValid byte then byte else asciiByte '_') ==
    utf8 compatible.1

/-- `turbo_tool_registry_s`.  No two tools have one name. -/
structure Registry where
  entries : List Entry
  distinct : (entries.map Entry.name).Nodup

namespace Registry

def empty : Registry := ⟨[], List.nodup_nil⟩

def findExact (registry : Registry) (name : CString) : Option Entry :=
  registry.entries.find? fun entry => entry.name = name

/-- `turbo_tool_registry_find`. -/
def find (registry : Registry) (name : CString) : Option Entry :=
  match registry.findExact name with
  | some entry => some entry
  | none =>
      match registry.entries.filter fun entry => compatibleNameEquals entry.name name with
      | [entry] => some entry
      | _ => none

variable {registry : Registry} {name : CString} {entry : Entry}

theorem findExact_name (found : registry.findExact name = some entry) :
    entry ∈ registry.entries ∧ entry.name = name :=
  ⟨List.mem_of_find?_eq_some found, by simpa using List.find?_some found⟩

theorem findExact_own (member : entry ∈ registry.entries) :
    registry.findExact entry.name = some entry := by
  obtain ⟨entries, distinct⟩ := registry
  simp only [findExact]
  induction entries with
  | nil => cases member
  | cons first rest ih =>
      rw [List.map_cons, List.nodup_cons] at distinct
      rcases List.mem_cons.mp member with rfl | later
      · simp
      · have other : first.name ≠ entry.name := by
          intro same
          exact distinct.1 (same ▸ List.mem_map_of_mem later)
        rw [List.find?_cons_of_neg (by simpa using other)]
        exact ih distinct.2 later

theorem mem_of_find (found : registry.find name = some entry) : entry ∈ registry.entries := by
  unfold find at found
  split at found
  next exact here =>
    cases found
    exact (findExact_name here).1
  split at found
  next only here =>
    cases found
    have listed : entry ∈ registry.entries.filter fun entry =>
        compatibleNameEquals entry.name name := by
      rw [here]
      exact List.mem_singleton_self _
    exact (List.mem_filter.mp listed).1
  next => cases found

theorem find_again (found : registry.find name = some entry) :
    registry.find entry.name = some entry := by
  simp only [find, findExact_own (mem_of_find found)]

theorem findExact_none (absent : registry.find name = none) :
    name ∉ registry.entries.map Entry.name := by
  intro listed
  obtain ⟨entry, member, rfl⟩ := List.mem_map.mp listed
  simp [find, findExact_own member] at absent

/-! ## Adding -/

/-- `turbo_tool_registry_add_v6`. -/
def add (registry : Registry) (registration : Registration) : Except ToolStatus Registry :=
  if valid : registration.Valid then
    match absent : registry.find registration.name with
    | some _ => .error .duplicate
    | none => .ok ⟨registry.entries ++ [⟨registration, valid, none⟩], by
        rw [List.map_append, List.map_singleton]
        exact Lists.nodup_snoc registry.distinct (findExact_none absent)⟩
  else .error .invalidArgument

def annotate (entries : List Entry) (name : CString) (metadata : Document) : List Entry :=
  entries.map fun entry =>
    if entry.name = name then { entry with executionMetadata := some metadata } else entry

theorem annotate_names (entries : List Entry) (name : CString) (metadata : Document) :
    (annotate entries name metadata).map Entry.name = entries.map Entry.name := by
  rw [annotate, List.map_map]
  apply List.map_congr_left
  intro entry _
  rw [Function.comp]
  split
  next => rfl
  next => rfl

/-- `turbo_tool_registry_set_execution_metadata`. -/
def setExecutionMetadata (registry : Registry) (name : CString) (metadata : Document) :
    Except ToolStatus Registry :=
  if metadata.value.isObject then
    match registry.find name with
    | none => .error .notFound
    | some entry => .ok ⟨annotate registry.entries entry.name metadata, by
        rw [annotate_names]
        exact registry.distinct⟩
  else .error .invalidArgument

/-- One name of `turbo_tool_registry_project`. -/
def projectName (source projection : Registry) (name : CString) : Except ToolStatus Registry :=
  if name.1 = "" then .error .invalidArgument
  else
    match source.findExact name with
    | none => .error .notFound
    | some entry => do
        let added ← projection.add { entry.registration with effects := entry.effects }
        match entry.executionMetadata with
        | none => return added
        | some metadata => added.setExecutionMetadata entry.name metadata

/-- The loop of `turbo_tool_registry_project`. -/
def projectNames (source : Registry) : Registry → List CString → List CString →
    Except ToolStatus Registry
  | projection, _, [] => .ok projection
  | projection, previous, name :: names =>
      if name ∈ previous then .error .duplicate
      else do
        let next ← projectName source projection name
        projectNames source next (previous ++ [name]) names

/-- `turbo_tool_registry_project`. -/
def project (source : Registry) (names : List CString) : Except ToolStatus Registry :=
  projectNames source empty [] names

end Registry

end TurboAgent.AgentCompiler
