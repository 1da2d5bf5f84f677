import TurboAgent.ToolRegistry.Export

/-!
# The names of an export lead back

A provider calls a tool by the name under which it was exported.  That name is plain, so that it
can only be the canonical name of a tool that it is also the alias of.
-/

namespace TurboAgent.ToolRegistry

open Logic
open AgentCompiler (compatibleNameEquals nameByteValid)

/-! ## Aliases as names -/

theorem nameByteValid_small {byte : UInt8} (valid : nameByteValid byte = true) :
    byte.toNat ≤ 127 := by
  have bound : ∀ ch : Char, isIdChar ch = true → ch.toNat ≤ 127 := by
    intro ch isId
    simp only [isIdChar, Bool.or_eq_true, Bool.and_eq_true, decide_eq_true_eq] at isId
    rcases isId with (((⟨-, upper⟩ | ⟨-, upper⟩) | ⟨-, upper⟩) | rfl) | rfl
    · exact Nat.le_trans upper (by decide)
    · exact Nat.le_trans upper (by decide)
    · exact Nat.le_trans upper (by decide)
    · decide
    · decide
  rw [← charOf_toNat]
  exact bound _ valid

theorem compatibleBytes_valid {name : CString} {byte : UInt8}
    (member : byte ∈ Registry.compatibleBytes name) : nameByteValid byte = true := by
  obtain ⟨original, -, rfl⟩ := List.mem_map.mp member
  split
  next valid => exact valid
  next => decide

theorem utf8_ofBytes {bytes : List UInt8} (small : ∀ byte ∈ bytes, byte.toNat ≤ 127) :
    utf8 (String.ofList (bytes.map fun byte => Char.ofNat byte.toNat)) = bytes := by
  rw [utf8, String.toList_ofList, List.flatMap_map]
  induction bytes with
  | nil => rfl
  | cons byte rest ih =>
      obtain ⟨here, later⟩ := List.forall_mem_cons.mp small
      have code : (Char.ofNat byte.toNat).val.toNat = byte.toNat := charOf_toNat byte
      have single : (Char.ofNat byte.toNat).utf8Size = 1 :=
        Char.utf8Size_eq_one_iff.mpr (UInt32.le_iff_toNat_le.mpr (code.symm ▸ here))
      have encoded : String.utf8EncodeChar (Char.ofNat byte.toNat) = [byte] := by
        rw [String.utf8EncodeChar_eq_singleton single]
        congr 1
        apply UInt8.toNat_inj.mp
        rw [UInt32.toNat_toUInt8, code, Nat.mod_eq_of_lt byte.toNat_lt]
      rw [List.flatMap_cons, ih later, encoded]
      rfl

theorem compatibleName_plain {name : CString} {text : String}
    (named : Registry.compatibleName name = some text) :
    ∃ external : CString, external.1 = text ∧ PlainName external ∧ external.1 ≠ "" ∧
      Registry.compatibleName external = Registry.compatibleName name := by
  unfold Registry.compatibleName at named
  split at named
  next => cases named
  next filled =>
    cases named
    have small : ∀ byte ∈ Registry.compatibleBytes name, byte.toNat ≤ 127 :=
      fun byte member => nameByteValid_small (compatibleBytes_valid member)
    have bytes := utf8_ofBytes small
    have chars : (String.ofList ((Registry.compatibleBytes name).map
        fun byte => Char.ofNat byte.toNat)).toList.all isIdChar = true := by
      rw [String.toList_ofList, List.all_map, List.all_eq_true]
      exact fun byte member => compatibleBytes_valid member
    have plain : PlainName ⟨_, noNul_of_idChars chars⟩ := by
      intro byte member
      rw [bytes] at member
      exact compatibleBytes_valid member
    refine ⟨⟨_, noNul_of_idChars chars⟩, rfl, plain, ?_, ?_⟩
    · intro empty
      have none : Registry.compatibleBytes name = [] := by
        rw [← bytes]
        exact congrArg utf8 empty
      exact filled (compatibleBytes_eq_nil.mp none)
    · rw [compatibleName_eq_iff, compatibleBytes_plain plain]
      exact bytes

/-! ## Finding by an alias -/

namespace Registry

theorem find_alias {registry : Registry} (distinct : AliasesDistinct registry.names) {tool : Tool}
    (member : tool ∈ registry.tools) {external : CString} (plain : PlainName external)
    (same : compatibleName external = compatibleName tool.name) :
    registry.find external = some tool := by
  have aliases : (registry.tools.map fun tool => compatibleName tool.name).Nodup := by
    rwa [AliasesDistinct, names, List.map_map] at distinct
  unfold find
  cases exact : registry.findExact external with
  | some other =>
      -- A tool with this very name has this alias, so that it is the tool.
      obtain ⟨listed, rfl⟩ := findExact_name exact
      rw [List.inj_on_of_nodup_map aliases listed member same]
  | none =>
      have only : (registry.tools.filter fun tool => compatibleNameEquals tool.name external) =
          [tool] := by
        refine Lists.eq_singleton_of_image (fun tool => compatibleName tool.name)
          (compatibleName external) ?_ ?_ ?_
        · exact aliases.sublist (List.filter_sublist.map _)
        · exact List.mem_filter.mpr ⟨member, (compatibleNameEquals_iff plain).mpr same.symm⟩
        · intro other listed
          exact (compatibleNameEquals_iff plain).mp (List.mem_filter.mp listed).2
      dsimp only
      rw [only]

end Registry

/-- The names of an export are distinct, and each of them is resolved to the tool that it was
exported from. -/
theorem exported_resolves {registry : Registry} {exported : List Json}
    (built : registry.buildOpenaiTools = some (.array exported)) :
    (exported.map fun entry => entry.field "name").Nodup ∧
    List.Forall₂ (fun entry tool => ∃ (external : CString) (parameters : Json),
      entry = Registry.openaiTool tool external.1 parameters ∧
      entry.getString "name" = some external.1 ∧ registry.find external = some tool ∧
      registry.resolveName external = .ok tool.name) exported registry.tools := by
  refine ⟨exported_distinct built, ?_⟩
  have distinct := ((Registry.buildOpenaiTools_isSome registry).mp (built ▸ rfl)).1
  obtain ⟨list, listed, same⟩ := Option.map_eq_some_iff.mp built
  cases same
  obtain ⟨length, each⟩ := List.forall₂_iff_zip.mp (Registry.buildTools_each listed)
  refine List.forall₂_iff_zip.mpr ⟨length, fun {entry tool} together => ?_⟩
  have member := (List.of_mem_zip together).2
  obtain ⟨text, parameters, named, -, rfl⟩ := each together
  obtain ⟨external, rfl, plain, filled, sameAlias⟩ := compatibleName_plain named
  have found := Registry.find_alias distinct member plain sameAlias
  refine ⟨external, parameters, rfl, ?_, found, ?_⟩
  · exact Json.getString_of_field (Registry.openaiTool_name tool external.1 parameters) external.2
  · rw [Registry.resolveName, if_neg filled, found]

theorem noNul_dotted : noNul "fs.read" = true := by decide

theorem noNul_list : noNul "list" = true := by decide

/-- Two tools, the first of which has an unusual character in its name. -/
def dottedRegistry : Registry :=
  sampleRegistry [⟨"fs.read", noNul_dotted⟩, ⟨"list", noNul_list⟩] (by decide)

def exportedEntry (name : String) : Json :=
  .object [("type", .string "function"), ("name", .string name), ("description", .string ""),
    ("strict", .bool false), ("parameters", .object [])]

def dottedExport : List Json := [exportedEntry "fs_read", exportedEntry "list"]

theorem exported_resolves_sample :
    List.Forall₂ (fun entry tool => ∃ (external : CString) (parameters : Json),
      entry = Registry.openaiTool tool external.1 parameters ∧
      entry.getString "name" = some external.1 ∧ dottedRegistry.find external = some tool ∧
      dottedRegistry.resolveName external = .ok tool.name) dottedExport dottedRegistry.tools := by
  have built : dottedRegistry.buildOpenaiTools = some (.array dottedExport) := by rfl
  exact (exported_resolves built).2

end TurboAgent.ToolRegistry
