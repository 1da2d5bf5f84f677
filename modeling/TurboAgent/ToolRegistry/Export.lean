import TurboAgent.ToolRegistry.Model

/-!
# Aliases of tools

A provider sees tools under compatible names, in which every unusual character of the canonical
name is replaced.  Tools with different names may share such an alias: a registration is refused if
its name is the alias of one tool, and it is accepted if its name and another one have the same
alias.  The export then fails and exposes neither.
-/

namespace TurboAgent.ToolRegistry

open Logic
open AgentCompiler (compatibleNameEquals nameByteValid)

def Registry.names (registry : Registry) : List CString := registry.tools.map Tool.name

def AliasesDistinct (names : List CString) : Prop := (names.map Registry.compatibleName).Nodup

/-- A name without unusual characters, which is its own alias. -/
def PlainName (name : CString) : Prop := ∀ byte ∈ utf8 name.1, nameByteValid byte = true

instance (name : CString) : Decidable (PlainName name) := by
  unfold PlainName
  infer_instance

/-- A name that may come to others: it is plain, or none of them has its alias. -/
def Clear (names : List CString) (name : CString) : Prop :=
  PlainName name ∨ ∀ other ∈ names, Registry.compatibleName other ≠ Registry.compatibleName name

/-- Every name of a list may come to the ones before it. -/
def EachClear (allowed : List CString → CString → Prop) (names : List CString) : Prop :=
  ∀ front name back, names = front ++ name :: back → allowed front name

def sourceNames (source : Option Registry) : List CString := (source.map Registry.names).getD []

/-- The registries that are made by any sequence of calls in which every name that is accepted may
come to the names before it. -/
inductive Reached (allowed : List CString → CString → Prop) : Registry → Prop where
  | create : Reached allowed .create
  | add {registry next : Registry} {definition : Definition} (reached : Reached allowed registry)
      (added : registry.addWithPolicy definition = .ok next)
      (clear : allowed registry.names definition.registration.name) : Reached allowed next
  | remove {registry next : Registry} {name : CString} (reached : Reached allowed registry)
      (removed : registry.remove name = .ok next) : Reached allowed next
  | project {source next : Registry} {names : List CString} (reached : Reached allowed source)
      (projected : source.project names = .ok next) : Reached allowed next
  | compose {sources : List (Option Registry)} {next : Registry}
      (reached : ∀ source, some source ∈ sources → Reached allowed source)
      (composed : Registry.compose sources = .ok next)
      (clear : EachClear allowed (sources.flatMap sourceNames)) : Reached allowed next

/-! ## Names and aliases -/

variable {name : CString}

theorem compatibleBytes_eq_nil : Registry.compatibleBytes name = [] ↔ name.1 = "" := by
  rw [Registry.compatibleBytes, List.map_eq_nil_iff]
  constructor
  · intro none
    exact utf8_injective none
  · intro empty
    rw [empty]
    rfl

theorem compatibleName_eq_iff {left right : CString} :
    Registry.compatibleName left = Registry.compatibleName right ↔
      Registry.compatibleBytes left = Registry.compatibleBytes right := by
  unfold Registry.compatibleName
  by_cases leftEmpty : left.1 = ""
  · rw [if_pos leftEmpty, compatibleBytes_eq_nil.mpr leftEmpty]
    by_cases rightEmpty : right.1 = ""
    · rw [if_pos rightEmpty, compatibleBytes_eq_nil.mpr rightEmpty]
      exact iff_of_true rfl rfl
    · rw [if_neg rightEmpty]
      exact iff_of_false nofun fun same => rightEmpty (compatibleBytes_eq_nil.mp same.symm)
  · rw [if_neg leftEmpty]
    by_cases rightEmpty : right.1 = ""
    · rw [if_pos rightEmpty, compatibleBytes_eq_nil.mpr rightEmpty]
      exact iff_of_false nofun fun same => leftEmpty (compatibleBytes_eq_nil.mp same)
    · rw [if_neg rightEmpty, Option.some.injEq, String.ofList_inj]
      exact (List.map_injective_iff.mpr charOf_injective).eq_iff

theorem compatibleBytes_plain (plain : PlainName name) :
    Registry.compatibleBytes name = utf8 name.1 := by
  unfold Registry.compatibleBytes
  refine (List.map_congr_left fun byte member => ?_).trans (List.map_id _)
  exact if_pos (plain byte member)

theorem compatibleNameEquals_iff {original : CString} (plain : PlainName name) :
    compatibleNameEquals original name = true ↔
      Registry.compatibleName original = Registry.compatibleName name := by
  rw [compatibleName_eq_iff, compatibleBytes_plain plain]
  exact beq_iff_eq

variable {registry : Registry}

theorem apart_of_plain (distinct : AliasesDistinct registry.names) (plain : PlainName name)
    (absent : registry.find name = none) :
    ∀ other ∈ registry.names, Registry.compatibleName other ≠ Registry.compatibleName name := by
  intro other listed same
  obtain ⟨tool, member, rfl⟩ := List.mem_map.mp listed
  have only : (registry.tools.filter fun tool => compatibleNameEquals tool.name name) = [tool] := by
    refine Lists.eq_singleton_of_image (fun tool => Registry.compatibleName tool.name)
      (Registry.compatibleName name) ?_ ?_ ?_
    · rw [AliasesDistinct, Registry.names, List.map_map] at distinct
      exact distinct.sublist (List.filter_sublist.map _)
    · exact List.mem_filter.mpr ⟨member, (compatibleNameEquals_iff plain).mpr same⟩
    · intro other listed
      exact (compatibleNameEquals_iff plain).mp (List.mem_filter.mp listed).2
  unfold Registry.find at absent
  split at absent
  next => cases absent
  rw [only] at absent
  cases absent

/-! ## What the calls do to the names -/

variable {next : Registry}

theorem addWithPolicy_names {definition : Definition}
    (added : registry.addWithPolicy definition = .ok next) :
    next.names = registry.names ++ [definition.registration.name] ∧
      registry.find definition.registration.name = none := by
  unfold Registry.addWithPolicy at added
  split at added
  next =>
    split at added
    next => cases added
    next absent =>
      cases added
      exact ⟨List.map_append, absent⟩
  next => cases added

theorem setExecutionMetadata_names {metadata : Option AgentCompiler.Document}
    (set : registry.setExecutionMetadata name metadata = .ok next) :
    next.names = registry.names := by
  unfold Registry.setExecutionMetadata at set
  split at set
  next => cases set
  split at set
  next => cases set
  cases set
  exact Registry.annotate_names _ _ _

theorem addAgain_names {tool : Tool} (added : registry.addAgain tool = .ok next) :
    next.names = registry.names ++ [tool.name] ∧ registry.find tool.name = none := by
  unfold Registry.addAgain at added
  obtain ⟨between, first, rest⟩ := Outcome.bind_eq_ok.mp added
  have names := addWithPolicy_names first
  split at rest
  next =>
    cases rest
    exact names
  next => exact ⟨(setExecutionMetadata_names rest).trans names.1, names.2⟩

theorem remove_names (removed : registry.remove name = .ok next) :
    next.names.Sublist registry.names := by
  unfold Registry.remove at removed
  split at removed
  next =>
    cases removed
    exact List.eraseP_sublist.map Tool.name
  next => cases removed

theorem AliasesDistinct.snoc (distinct : AliasesDistinct registry.names)
    (absent : registry.find name = none) (clear : Clear registry.names name) :
    AliasesDistinct (registry.names ++ [name]) := by
  have apart : ∀ other ∈ registry.names,
      Registry.compatibleName other ≠ Registry.compatibleName name := by
    rcases clear with plain | apart
    · exact apart_of_plain distinct plain absent
    · exact apart
  rw [AliasesDistinct, List.map_append, List.map_singleton]
  refine Lists.nodup_snoc distinct fun listed => ?_
  obtain ⟨other, member, same⟩ := List.mem_map.mp listed
  exact apart other member same

variable {names : List CString}

theorem AliasesDistinct.sublist {others : List CString} (distinct : AliasesDistinct names)
    (sublist : others.Sublist names) : AliasesDistinct others :=
  List.Nodup.sublist (sublist.map Registry.compatibleName) distinct

/-- A projection has names of its source only, so that none of them has the alias of another. -/
theorem projectNames_aliases {source : Registry} (distinct : AliasesDistinct source.names)
    {previous : List CString} {projection : Registry}
    (projected : source.projectNames projection previous names = .ok next)
    (within : projection.names ⊆ source.names) (soFar : AliasesDistinct projection.names) :
    AliasesDistinct next.names := by
  induction names generalizing previous projection with
  | nil =>
      cases projected
      exact soFar
  | cons name names ih =>
      rw [Registry.projectNames] at projected
      split at projected
      next => cases projected
      split at projected
      next => cases projected
      split at projected
      next => cases projected
      next tool found =>
        obtain ⟨between, added, rest⟩ := Outcome.bind_eq_ok.mp projected
        obtain ⟨grown, absent⟩ := addAgain_names added
        have listed : tool.name ∈ source.names :=
          List.mem_map_of_mem (Registry.findExact_name found).1
        have apart : ∀ other ∈ projection.names,
            Registry.compatibleName other ≠ Registry.compatibleName tool.name := by
          intro other member same
          have equal := List.inj_on_of_nodup_map distinct (within member) listed same
          exact Registry.findExact_none absent (equal ▸ member)
        refine ih rest ?_ ?_
        · rw [grown]
          exact List.append_subset.mpr ⟨within, List.cons_subset.mpr ⟨listed, List.nil_subset _⟩⟩
        · rw [grown]
          exact soFar.snoc absent (.inr apart)

theorem project_aliases {source : Registry} (projected : source.project names = .ok next)
    (distinct : AliasesDistinct source.names) : AliasesDistinct next.names :=
  projectNames_aliases distinct projected (List.nil_subset _) List.nodup_nil

variable {tools : List Tool}

theorem composeTools_aliases {composite : Registry}
    (composed : composite.composeTools tools = .ok next) (soFar : AliasesDistinct composite.names)
    (clear : ∀ front name back, tools.map Tool.name = front ++ name :: back →
      Clear (composite.names ++ front) name) :
    next.names = composite.names ++ tools.map Tool.name ∧ AliasesDistinct next.names := by
  induction tools generalizing composite with
  | nil =>
      cases composed
      exact ⟨(List.append_nil _).symm, soFar⟩
  | cons tool tools ih =>
      rw [Registry.composeTools, List.foldlM_cons] at composed
      obtain ⟨between, added, rest⟩ := Outcome.bind_eq_ok.mp composed
      obtain ⟨grown, absent⟩ := addAgain_names added
      have here : Clear composite.names tool.name := by
        have first := clear [] tool.name (tools.map Tool.name) rfl
        rwa [List.append_nil] at first
      obtain ⟨names, distinct⟩ := ih rest (grown ▸ soFar.snoc absent here) (by
        intro front name back split
        have later := clear (tool.name :: front) name back (by
          rw [List.map_cons, split, List.cons_append])
        rwa [grown, List.append_assoc])
      refine ⟨?_, distinct⟩
      rw [names, grown, List.append_assoc]
      rfl

theorem composeSources_aliases {sources : List (Option Registry)} {composite : Registry}
    (composed : sources.foldlM Registry.composeSource composite = .ok next)
    (soFar : AliasesDistinct composite.names)
    (clear : ∀ front name back, sources.flatMap sourceNames = front ++ name :: back →
      Clear (composite.names ++ front) name) : AliasesDistinct next.names := by
  induction sources generalizing composite with
  | nil =>
      cases composed
      exact soFar
  | cons source sources ih =>
      rw [List.foldlM_cons] at composed
      obtain ⟨between, first, rest⟩ := Outcome.bind_eq_ok.mp composed
      cases source with
      | none => cases first
      | some source =>
          have listed : (some source :: sources).flatMap sourceNames =
              source.names ++ sources.flatMap sourceNames := List.flatMap_cons
          obtain ⟨grown, distinct⟩ := composeTools_aliases first soFar (by
            intro front name back split
            refine clear front name (back ++ sources.flatMap sourceNames) ?_
            rw [listed, Registry.names, split, List.append_assoc]
            rfl)
          refine ih rest distinct ?_
          intro front name back split
          have later := clear (source.names ++ front) name back (by
            rw [listed, split, List.append_assoc])
          rwa [grown, List.append_assoc]

theorem Reached.aliases (reached : Reached Clear registry) : AliasesDistinct registry.names := by
  induction reached with
  | create => exact List.nodup_nil
  | add _ added clear ih =>
      obtain ⟨grown, absent⟩ := addWithPolicy_names added
      exact grown ▸ ih.snoc absent clear
  | remove _ removed ih => exact ih.sublist (remove_names removed)
  | project _ projected ih => exact project_aliases projected ih
  | compose _ composed clear _ => exact composeSources_aliases composed List.nodup_nil clear

/-! ## The export -/

def Exportable (tool : Tool) : Prop :=
  tool.name.1 ≠ "" ∧
    (ToolSchema.parseParameters tool.definition.registration.definition).isSome = true

namespace Registry

theorem compatibleName_eq_none : compatibleName name = none ↔ name.1 = "" := by
  unfold compatibleName
  split
  next empty => exact iff_of_true rfl empty
  next filled => exact iff_of_false nofun filled

variable {previous : List Tool}

theorem compatibleNameSeen_iff {name : String} :
    compatibleNameSeen previous name = true ↔
      ∃ tool ∈ previous, compatibleName tool.name = none ∨ compatibleName tool.name = some name := by
  simp only [compatibleNameSeen, List.any_eq_true]
  refine exists_congr fun tool => and_congr_right fun _ => ?_
  cases compatibleName tool.name with
  | none => simp
  | some seen => simp

theorem exports_cons {tool : Tool} (exportable : Exportable tool)
    (apart : ∀ other ∈ previous, compatibleName other.name ≠ compatibleName tool.name) :
    ((∀ tool ∈ tools, Exportable tool) ∧
        (tools.map fun tool => compatibleName tool.name).Nodup ∧
        ∀ later ∈ tools, ∀ other ∈ previous ++ [tool],
          compatibleName other.name ≠ compatibleName later.name) ↔
      (∀ each ∈ tool :: tools, Exportable each) ∧
        ((tool :: tools).map fun tool => compatibleName tool.name).Nodup ∧
        ∀ later ∈ tool :: tools, ∀ other ∈ previous,
          compatibleName other.name ≠ compatibleName later.name := by
  rw [List.map_cons, List.nodup_cons]
  constructor
  · rintro ⟨exports, distinct, disjoint⟩
    refine ⟨List.forall_mem_cons.mpr ⟨exportable, exports⟩, ⟨?_, distinct⟩, ?_⟩
    · intro listed
      obtain ⟨later, member, same⟩ := List.mem_map.mp listed
      exact disjoint later member tool (List.mem_append_right _ (List.mem_singleton_self tool))
        same.symm
    · exact List.forall_mem_cons.mpr ⟨apart, fun later member other before =>
        disjoint later member other (List.mem_append_left _ before)⟩
  · rintro ⟨exports, ⟨fresh, distinct⟩, disjoint⟩
    refine ⟨(List.forall_mem_cons.mp exports).2, distinct, fun later member other before => ?_⟩
    rcases List.mem_append.mp before with earlier | here
    · exact disjoint later (List.mem_cons_of_mem _ member) other earlier
    · intro same
      rw [List.mem_singleton.mp here] at same
      exact fresh (List.mem_map.mpr ⟨later, member, same.symm⟩)

theorem buildTools_isSome {previous tools : List Tool}
    (named : ∀ tool ∈ previous, tool.name.1 ≠ "") :
    (buildTools previous tools).isSome = true ↔
      (∀ tool ∈ tools, Exportable tool) ∧
        (tools.map fun tool => compatibleName tool.name).Nodup ∧
        ∀ tool ∈ tools, ∀ other ∈ previous, compatibleName other.name ≠ compatibleName tool.name := by
  induction tools generalizing previous with
  | nil => simp [buildTools]
  | cons tool tools ih =>
      rw [buildTools]
      cases named' : compatibleName tool.name with
      | none =>
          refine iff_of_false nofun fun ⟨exportable, _⟩ => ?_
          exact (exportable tool List.mem_cons_self).1 (compatibleName_eq_none.mp named')
      | some name =>
          have filled : tool.name.1 ≠ "" := fun empty =>
            absurd (named'.symm.trans (compatibleName_eq_none.mpr empty)) nofun
          dsimp only
          split
          next seen =>
            obtain ⟨other, member, unnamed | same⟩ := compatibleNameSeen_iff.mp seen
            · exact absurd (compatibleName_eq_none.mp unnamed) (named other member)
            · refine iff_of_false nofun fun ⟨_, _, apart⟩ => ?_
              exact apart tool List.mem_cons_self other member (same.trans named'.symm)
          next unseen =>
            have apart : ∀ other ∈ previous, compatibleName other.name ≠ compatibleName tool.name :=
              fun other member same => unseen (compatibleNameSeen_iff.mpr
                ⟨other, member, .inr (same.trans named')⟩)
            cases parsed : ToolSchema.parseParameters tool.definition.registration.definition with
            | none =>
                refine iff_of_false nofun fun ⟨exportable, _⟩ => ?_
                exact absurd (parsed ▸ (exportable tool List.mem_cons_self).2) nofun
            | some parameters =>
                have exportable : Exportable tool := ⟨filled, parsed ▸ rfl⟩
                have named : ∀ other ∈ previous ++ [tool], other.name.1 ≠ "" := by
                  intro other member
                  rcases List.mem_append.mp member with before | here
                  · exact named other before
                  · exact List.mem_singleton.mp here ▸ filled
                dsimp only
                rw [Option.isSome_map, ih named]
                exact exports_cons exportable apart

theorem openaiTool_name (tool : Tool) (name : String) (parameters : Json) :
    (openaiTool tool name parameters).field "name" = some (.string name) := by
  simp [openaiTool, Json.field, Json.findField]

theorem buildTools_each {previous tools : List Tool} {exported : List Json}
    (built : buildTools previous tools = some exported) :
    List.Forall₂ (fun entry tool => ∃ text parameters, compatibleName tool.name = some text ∧
      ToolSchema.parseParameters tool.definition.registration.definition = some parameters ∧
      entry = openaiTool tool text parameters) exported tools := by
  induction tools generalizing previous exported with
  | nil =>
      cases built
      exact .nil
  | cons tool tools ih =>
      rw [buildTools] at built
      cases named : compatibleName tool.name with
      | none =>
          rw [named] at built
          cases built
      | some text =>
          rw [named] at built
          dsimp only at built
          split at built
          next => cases built
          split at built
          next => cases built
          next parameters parsed =>
            obtain ⟨rest, later, rfl⟩ := Option.map_eq_some_iff.mp built
            exact .cons ⟨text, parameters, named, parsed, rfl⟩ (ih later)

theorem buildTools_names {exported : List Json} (built : buildTools previous tools = some exported) :
    exported.map (fun tool => tool.field "name") =
      tools.map fun tool => (compatibleName tool.name).map Json.string := by
  have each := buildTools_each built
  rw [← List.forall₂_eq_eq_eq, List.forall₂_map_left_iff, List.forall₂_map_right_iff]
  refine each.imp fun entry tool ⟨text, parameters, named, _, here⟩ => ?_
  rw [here, named, openaiTool_name]
  rfl

/-- The export succeeds when the aliases are distinct and every tool can be exported by itself. -/
theorem buildOpenaiTools_isSome (registry : Registry) :
    registry.buildOpenaiTools.isSome = true ↔
      AliasesDistinct registry.names ∧ ∀ tool ∈ registry.tools, Exportable tool := by
  have bare := @buildTools_isSome [] registry.tools (by simp)
  rw [buildOpenaiTools, Option.isSome_map, bare, AliasesDistinct, names, List.map_map]
  exact ⟨fun ⟨exportable, distinct, _⟩ => ⟨distinct, exportable⟩,
    fun ⟨distinct, exportable⟩ => ⟨exportable, distinct, by simp⟩⟩

end Registry

theorem exported_distinct {exported : List Json}
    (built : registry.buildOpenaiTools = some (.array exported)) :
    (exported.map fun tool => tool.field "name").Nodup := by
  have distinct := ((Registry.buildOpenaiTools_isSome registry).mp (built ▸ rfl)).1
  obtain ⟨list, listed, same⟩ := Option.map_eq_some_iff.mp built
  cases same
  rw [Registry.buildTools_names listed]
  rw [AliasesDistinct, Registry.names, List.map_map] at distinct
  have injective : Function.Injective (Option.map Json.string) :=
    Option.map_injective fun _ _ => Json.string.inj
  have mapped := distinct.map injective
  rwa [List.map_map] at mapped

/-- The export succeeds if and only if the aliases of the tools are distinct and every tool has a
name and parameters, and the names in an export are distinct.  The aliases are distinct in every
registry that is made, in whatever order, without a name that has unusual characters and the alias
of a tool before it. -/
theorem export_iff (registry : Registry) :
    (registry.buildOpenaiTools.isSome = true ↔
      AliasesDistinct registry.names ∧ ∀ tool ∈ registry.tools, Exportable tool) ∧
    (∀ exported, registry.buildOpenaiTools = some (.array exported) →
      (exported.map fun tool => tool.field "name").Nodup) ∧
    (Reached Clear registry → AliasesDistinct registry.names) :=
  ⟨Registry.buildOpenaiTools_isSome registry, fun _ built => exported_distinct built,
    Reached.aliases⟩

def sampleDefinition (name : CString) : Definition where
  registration := ⟨name, ⟨none, some (.object []), false⟩, ⟨.sequential, .none⟩, [], 0⟩
  description := ⟨"", by decide⟩
  callbacks := ⟨some 1, none, none, none, none, none⟩
  resultSchemaJson := none
  strictResult := 0

theorem sampleDefinition_valid (name : CString) : (sampleDefinition name).Valid := by
  have effects : AgentCompiler.EffectFlags.Valid 0 := by decide
  exact ⟨⟨.inr rfl, effects, nofun, List.nodup_nil, by simp [sampleDefinition]⟩, rfl, .inl rfl,
    fun other => absurd rfl other, rfl⟩

def sampleRegistry (names : List CString) (distinct : names.Nodup) : Registry where
  tools := names.map fun name => ⟨sampleDefinition name, sampleDefinition_valid name, none⟩
  distinct := by
    rw [List.map_map]
    exact (List.map_id names).symm ▸ distinct

theorem sampleRegistry_add (names : List CString) (name : CString) (distinct : names.Nodup)
    (absent : (sampleRegistry names distinct).find name = none) (more : (names ++ [name]).Nodup) :
    (sampleRegistry names distinct).addWithPolicy (sampleDefinition name) =
      .ok (sampleRegistry (names ++ [name]) more) := by
  have found : (sampleRegistry names distinct).find
      (sampleDefinition name).registration.name = none := absent
  rw [Registry.addWithPolicy, dif_pos (sampleDefinition_valid name)]
  split
  next some => exact absurd (found.symm.trans some) nofun
  next => simp [sampleRegistry]

/-- A plain name beside the alias of another tool. -/
theorem export_iff_sample :
    AliasesDistinct (sampleRegistry [⟨"fs.read", by decide⟩, ⟨"fs_write", by decide⟩]
      (by decide)).names := by
  have first := sampleRegistry_add [] ⟨"fs.read", by decide⟩ List.nodup_nil rfl (by decide)
  have second := sampleRegistry_add [⟨"fs.read", by decide⟩] ⟨"fs_write", by decide⟩ (by decide)
    (by decide) (by decide)
  have reached : Reached Clear (sampleRegistry [⟨"fs.read", by decide⟩] (by decide)) :=
    .add .create first (.inr nofun)
  have plain : PlainName ⟨"fs_write", by decide⟩ := by decide +kernel
  exact (export_iff _).2.2 (.add reached second (.inl plain))

/-- A name with the alias of a tool before it is registered, and then nothing is exported.  The
other way round it is refused. -/
theorem alias_shared :
    (∃ registry, Reached (fun _ _ => True) registry ∧ ¬ AliasesDistinct registry.names ∧
      registry.buildOpenaiTools = none) ∧
    ∃ registry, Reached (fun _ _ => True) registry ∧
      registry.addWithPolicy (sampleDefinition ⟨"fs_read", by decide⟩) = .error .duplicate := by
  constructor
  · have first := sampleRegistry_add [] ⟨"fs_read", by decide⟩ List.nodup_nil rfl (by decide)
    have second := sampleRegistry_add [⟨"fs_read", by decide⟩] ⟨"fs.read", by decide⟩ (by decide)
      (by decide) (by decide)
    have shared : ¬ AliasesDistinct (sampleRegistry
        [⟨"fs_read", by decide⟩, ⟨"fs.read", by decide⟩] (by decide)).names := by
      unfold AliasesDistinct
      decide
    refine ⟨_, .add (.add .create first trivial) second trivial, shared, ?_⟩
    exact Option.not_isSome_iff_eq_none.mp fun exports =>
      shared ((Registry.buildOpenaiTools_isSome _).mp exports).1
  · have first := sampleRegistry_add [] ⟨"fs.read", by decide⟩ List.nodup_nil rfl (by decide)
    refine ⟨_, .add .create first trivial, ?_⟩
    rw [Registry.addWithPolicy, dif_pos (sampleDefinition_valid _)]
    rfl

end TurboAgent.ToolRegistry
