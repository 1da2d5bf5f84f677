import TurboAgent.Praktor.Model

/-!
# What the derived capabilities cover

A derivation adds capabilities to a list: what it adds is said once, for every description, and
compared with what the plan can do.  Where it is cut short, the tools of the host go missing
unless the fixed set happens to hold what they require.
-/

namespace TurboAgent.Praktor

open AgentCompiler (Registry Entry)
open ToolSchema (cString)

/-! ## What is added -/

/-- The capabilities of the effects that are known. -/
def effectTable : List (String × List String) :=
  [("network", ["network"]), ("process", ["shell"]), ("system_control", ["shell"]),
    ("filesystem_write", ["patch"]), ("outside_workspace", ["outside_workspace"]),
    ("plugin", ["custom_tools"]), ("native_extension", ["custom_tools"]),
    ("model_api", ["custom_tools"]), ("filesystem_read", [])]

def widest : List String := "custom_tools" :: conservative

def capabilitiesOf (effect : String) : List String :=
  (effectTable.lookup effect).getD widest

/-- A list with further capabilities: no capability comes twice. -/
structure Adds (list capabilities result : List String) : Prop where
  nodup : list.Nodup → result.Nodup
  mem : ∀ capability, capability ∈ result ↔ capability ∈ list ∨ capability ∈ capabilities

section

variable {list capabilities more next result : List String}

theorem Adds.refl : Adds list [] list :=
  ⟨id, fun _ => by simp⟩

theorem Adds.trans (first : Adds list capabilities next) (second : Adds next more result) :
    Adds list (capabilities ++ more) result where
  nodup distinct := second.nodup (first.nodup distinct)
  mem capability := by rw [second.mem, first.mem, List.mem_append, or_assoc]

theorem capabilityAdd_adds {capability : String}
    (added : capabilityAdd list capability = .ok result) : Adds list [capability] result := by
  unfold capabilityAdd at added
  split at added
  next => cases added
  split at added
  next known =>
    cases added
    refine ⟨id, fun other => ?_⟩
    rw [List.mem_singleton]
    exact ⟨.inl, fun either => either.elim id fun same => same ▸ known⟩
  next fresh =>
    cases added
    exact ⟨fun distinct => Lists.nodup_snoc distinct fresh, fun other => List.mem_append⟩

theorem foldlM_adds {α : Type} {add : List String → α → Derived} {needs : α → List String}
    {items : List α} (adds : ∀ item ∈ items, ∀ list result, add list item = .ok result →
      Adds list (needs item) result)
    (ran : items.foldlM add list = .ok result) : Adds list (items.flatMap needs) result := by
  induction items generalizing list with
  | nil =>
      cases ran
      exact .refl
  | cons item items ih =>
      rw [List.foldlM_cons, Outcome.bind_eq_ok] at ran
      obtain ⟨next, first, rest⟩ := ran
      have head := adds item List.mem_cons_self list next first
      exact head.trans (ih (fun item member => adds item (List.mem_cons_of_mem _ member)) rest)

theorem addAll_adds (ran : capabilities.foldlM capabilityAdd list = .ok result) :
    Adds list capabilities result := by
  have adds := @foldlM_adds list result String capabilityAdd (fun capability => [capability])
    capabilities (fun _ _ _ _ => capabilityAdd_adds) ran
  rwa [List.flatMap_singleton'] at adds

theorem addWidest_adds
    (ran : (capabilityAdd list "custom_tools" >>= addConservativeCapabilities) = .ok result) :
    Adds list widest result := by
  obtain ⟨next, first, rest⟩ := Outcome.bind_eq_ok.mp ran
  exact (capabilityAdd_adds first).trans (addAll_adds rest)

theorem capabilityFromEffect_adds {effect : String}
    (ran : capabilityFromEffect list effect = .ok result) :
    Adds list (capabilitiesOf effect) result := by
  have only : ∀ capability, capabilityAdd list capability = .ok result →
      effectTable.lookup effect = some [capability] → Adds list (capabilitiesOf effect) result := by
    intro capability added listed
    rw [capabilitiesOf, listed]
    exact capabilityAdd_adds added
  unfold capabilityFromEffect at ran
  split at ran
  next => cases ran
  split at ran
  next same => exact only _ ran (by rw [same]; rfl)
  next network =>
    split at ran
    next same => exact only _ ran (by rcases same with rfl | rfl <;> rfl)
    next process =>
      split at ran
      next same => exact only _ ran (by rw [same]; rfl)
      next write =>
        split at ran
        next same => exact only _ ran (by rw [same]; rfl)
        next outside =>
          split at ran
          next same => exact only _ ran (by rcases same with rfl | rfl | rfl <;> rfl)
          next custom =>
            split at ran
            next same =>
              cases ran
              rw [same]
              exact .refl
            next other =>
              have unknown : effectTable.lookup effect = none := by
                simp only [not_or] at process custom
                rw [List.lookup_eq_none_iff]
                simp [effectTable, network, process, write, outside, custom, other]
              rw [capabilitiesOf, unknown]
              exact addWidest_adds ran

/-! ## Host tools -/

def toolNeeds (tool : Entry) : List String :=
  if tool.registration.requiredCapabilities = [] then ["custom_tools"]
  else tool.registration.requiredCapabilities.map Subtype.val

/-- What an entry of `host_tools` requires. -/
def entryNeeds (registry : Option Registry) (entry : Json) : List String :=
  (((hostToolName entry).bind (exactDefinition registry)).map toolNeeds).getD []

def hostToolNeeds (description : Json) (registry : Option Registry) : List String :=
  ((hostTools description).getD []).flatMap (entryNeeds registry)

variable {registry : Option Registry} {description : Json}

theorem requiredCapabilities_exact {name : String} {tool : Entry}
    (found : exactDefinition registry name = some tool) :
    requiredCapabilities registry name =
      .ok (tool.registration.requiredCapabilities.map Subtype.val) := by
  rw [exactDefinition] at found
  split at found
  next => cases found
  simp only [Option.bind_eq_some_iff] at found
  obtain ⟨tools, rfl, argument, isArgument, exact⟩ := found
  simp [requiredCapabilities, isArgument, Registry.find, exact]

theorem addHostTool_adds {entry : Json} (ran : addHostTool registry list entry = .ok result) :
    Adds list (entryNeeds registry entry) result := by
  rw [addHostTool] at ran
  rw [entryNeeds]
  split at ran
  next => cases ran
  next name isName =>
    rw [isName, Option.bind_some]
    split at ran
    next known =>
      obtain ⟨tool, found⟩ := Option.isSome_iff_exists.mp known
      rw [requiredCapabilities_exact found] at ran
      rw [found, Option.map_some, Option.getD_some, toolNeeds]
      dsimp only [Bind.bind, Except.bind] at ran
      simp only [List.map_eq_nil_iff] at ran
      split at ran
      next none => rw [if_pos none]; exact capabilityAdd_adds ran
      next some => rw [if_neg some]; exact addAll_adds ran
    next => cases ran

theorem capabilityAdd_ok {capability : String} (named : capability ≠ "") (list : List String) :
    ∃ result, capabilityAdd list capability = .ok result := by
  rw [capabilityAdd, if_neg named]
  split
  next => exact ⟨_, rfl⟩
  next => exact ⟨_, rfl⟩

theorem foldlM_ok {α : Type} {add : List String → α → Derived} {items : List α}
    (adds : ∀ item ∈ items, ∀ list, ∃ result, add list item = .ok result) (list : List String) :
    ∃ result, items.foldlM add list = .ok result := by
  induction items generalizing list with
  | nil => exact ⟨list, rfl⟩
  | cons item items ih =>
      obtain ⟨next, first⟩ := adds item List.mem_cons_self list
      obtain ⟨result, rest⟩ :=
        ih (fun item member => adds item (List.mem_cons_of_mem _ member)) next
      exact ⟨result, by rw [List.foldlM_cons, first]; exact rest⟩

theorem addHostTool_ok {entry : Json} (resolved : hostToolResolved registry entry = true)
    (list : List String) : ∃ result, addHostTool registry list entry = .ok result := by
  rw [hostToolResolved, Option.any_eq_true] at resolved
  obtain ⟨name, isName, known⟩ := resolved
  obtain ⟨tool, found⟩ := Option.isSome_iff_exists.mp known
  simp only [addHostTool, isName, known, if_true, requiredCapabilities_exact found, Bind.bind,
    Except.bind]
  split
  next => exact capabilityAdd_ok (by decide) list
  apply foldlM_ok
  intro capability member
  obtain ⟨required, isRequired, rfl⟩ := List.mem_map.mp member
  exact capabilityAdd_ok (tool.valid.named required isRequired)

theorem hostToolCapabilities_adds
    (ran : (if planHasHostTools description then hostToolCapabilities description registry list
      else .ok list) = .ok result) : Adds list (hostToolNeeds description registry) result := by
  rw [planHasHostTools, hostToolCapabilities] at ran
  rw [hostToolNeeds]
  cases named : hostTools description with
  | none =>
      rw [named] at ran
      cases ran
      exact .refl
  | some entries =>
      rw [named] at ran
      cases entries with
      | nil =>
          cases ran
          exact .refl
      | cons entry entries => exact foldlM_adds (fun _ _ _ _ => addHostTool_adds) ran

theorem hostToolCapabilities_ok (resolved : hostToolsResolved description registry = true)
    (list : List String) : ∃ result, (if planHasHostTools description then
      hostToolCapabilities description registry list else .ok list) = .ok result := by
  rw [hostToolsResolved] at resolved
  rw [planHasHostTools, hostToolCapabilities]
  cases named : hostTools description with
  | none => exact ⟨list, rfl⟩
  | some entries =>
      rw [named] at resolved
      cases entries with
      | nil => exact ⟨list, rfl⟩
      | cons entry entries =>
          simp only [List.isEmpty_cons, Bool.false_or, Bool.and_eq_true] at resolved
          exact foldlM_ok (fun item member =>
            addHostTool_ok (List.all_eq_true.mp resolved.2 item member)) list

/-! ## The whole derivation -/

def isText (value : Json) : Bool := (text? value).isSome

/-- What a listed effect needs.  The host tools stand for themselves when they were approved. -/
def effectNeeds (resolved : Bool) (value : Json) : List String :=
  match text? value with
  | none => []
  | some effect =>
      if resolved = true ∧ effect = "host_tool" then [] else capabilitiesOf effect

def needs (description : Json) (registry : Option Registry) : List String :=
  match manifest? description with
  | none => conservative
  | some manifest =>
      if unknownOtherwise description manifest registry then widest
      else
        match manifest.field "effects" with
        | some (.array effects) =>
            (effects.takeWhile isText).flatMap (effectNeeds (flag manifest "unknown_effects")) ++
              if effects.all isText then hostToolNeeds description registry else conservative
        | _ => conservative

theorem addEffects_adds {resolved : Bool} {rest : List String → Derived} {effects : List Json}
    (finishes : ∀ list result, rest list = .ok result → Adds list more result)
    (ran : addEffects resolved rest effects list = .ok result) :
    Adds list ((effects.takeWhile isText).flatMap (effectNeeds resolved) ++
      if effects.all isText then more else conservative) result := by
  induction effects generalizing list with
  | nil => exact finishes list result ran
  | cons value values ih =>
      rw [addEffects] at ran
      split at ran
      next none =>
        rw [List.takeWhile_cons_of_neg (by simp [isText, none])]
        simpa [isText, none] using addAll_adds ran
      next effect isEffect =>
        have text : isText value = true := by simp [isText, isEffect]
        rw [List.takeWhile_cons_of_pos text, List.flatMap_cons, List.all_cons, text, Bool.true_and,
          List.append_assoc, effectNeeds, isEffect]
        dsimp only
        split at ran
        next approved =>
          rw [if_pos approved]
          exact ih ran
        next other =>
          rw [if_neg other]
          obtain ⟨next, first, last⟩ := Outcome.bind_eq_ok.mp ran
          exact (capabilityFromEffect_adds first).trans (ih last)

theorem effectCapabilities_adds (ran : effectCapabilities description registry list = .ok result) :
    Adds list (needs description registry) result := by
  rw [effectCapabilities] at ran
  rw [needs]
  cases isManifest : manifest? description with
  | none =>
      rw [isManifest] at ran
      exact addAll_adds ran
  | some manifest =>
      rw [isManifest] at ran
      dsimp only at ran ⊢
      by_cases unknown : unknownOtherwise description manifest registry = true
      · rw [if_pos unknown] at ran ⊢
        exact addWidest_adds ran
      · rw [if_neg unknown] at ran ⊢
        cases isList : manifest.field "effects" with
        | none =>
            rw [isList] at ran
            exact addAll_adds ran
        | some value =>
            rw [isList] at ran
            cases value with
            | array effects => exact addEffects_adds (fun _ _ => hostToolCapabilities_adds) ran
            | _ => exact addAll_adds ran

/-! ## Coverage -/

def listed (manifest : Json) : List Json :=
  match manifest.field "effects" with
  | some (.array effects) => effects
  | _ => []

/-- A text that is no known effect, nor the host tools that were approved; or no text. -/
def Unrecognised (resolved : Bool) (value : Json) : Prop :=
  ∀ effect, text? value = some effect →
    effectTable.lookup effect = none ∧ ¬(resolved = true ∧ effect = "host_tool")

/-- The manifest or its effects are missing, malformed, unrecognised, or unknown for a reason other
than approved host tools. -/
def Unclear (description : Json) (registry : Option Registry) : Prop :=
  ∀ manifest, manifest? description = some manifest →
    unknownOtherwise description manifest registry = true ∨
    ∀ effects, manifest.field "effects" = some (.array effects) →
      ∃ value ∈ effects, Unrecognised (flag manifest "unknown_effects") value

def declare (description : Json) (effects : List String) : Json :=
  description.set "effect_manifest" (.object [("effects", .array (effects.map .string))])

def Known (effects : List String) : Prop :=
  ∀ effect ∈ effects, (effectTable.lookup effect).isSome = true

/-- What is derived covers what the plan can do. -/
structure Covers (description : Json) (registry : Option Registry) (start result : List String) :
    Prop where
  nodup : result.Nodup
  effects : ∀ manifest, manifest? description = some manifest → ∀ value ∈ listed manifest,
    ∀ effect, text? value = some effect → ∀ capabilities,
      effectTable.lookup effect = some capabilities → capabilities ⊆ result
  hostTools : hostToolNeeds description registry ⊆ result
  unclear : Unclear description registry → conservative ⊆ result
  dominates : Unclear description registry → ∀ effects, Known effects → ∀ other,
    effectCapabilities (declare description effects) registry start = .ok other → other ⊆ result

/-- The derivation ends before the host tools: there is no manifest or no list of effects, an
effect is no text, or they are unknown for a reason other than approved host tools. -/
def CutShort (description : Json) (registry : Option Registry) : Prop :=
  ∀ manifest, manifest? description = some manifest →
    unknownOtherwise description manifest registry = true ∨
    ∀ effects, manifest.field "effects" = some (.array effects) → effects.all isText = false

/-- `custom_tools` is added before that: the effects are unknown, or one that needs it is listed
before the first that is no text. -/
def CustomFirst (description : Json) (registry : Option Registry) : Prop :=
  ∃ manifest, manifest? description = some manifest ∧
    (unknownOtherwise description manifest registry = true ∨
      ∃ value ∈ (listed manifest).takeWhile isText,
        "custom_tools" ∈ effectNeeds (flag manifest "unknown_effects") value)

theorem capabilitiesOf_subset (effect : String) : capabilitiesOf effect ⊆ widest := by
  rw [capabilitiesOf]
  cases found : effectTable.lookup effect with
  | none => exact fun _ => id
  | some capabilities =>
      have entries : ∀ entry ∈ effectTable, entry.2 ⊆ widest := by decide
      obtain ⟨before, after, same, -⟩ := List.lookup_eq_some_iff.mp found
      exact entries (effect, capabilities) (by rw [same]; simp)

theorem effectNeeds_subset (resolved : Bool) (value : Json) :
    effectNeeds resolved value ⊆ widest := by
  rw [effectNeeds]
  split
  next => exact List.nil_subset _
  next effect _ =>
    split
    next => exact List.nil_subset _
    next => exact capabilitiesOf_subset effect

theorem flatMap_effectNeeds_subset (resolved : Bool) (effects : List Json) :
    effects.flatMap (effectNeeds resolved) ⊆ widest := by
  intro capability member
  obtain ⟨value, -, needed⟩ := List.mem_flatMap.mp member
  exact effectNeeds_subset resolved value needed

theorem needs_of_cutShort (cut : CutShort description registry) :
    needs description registry ⊆ widest ∧ conservative ⊆ needs description registry ∧
      ("custom_tools" ∈ needs description registry ↔ CustomFirst description registry) := by
  have plain : "custom_tools" ∉ conservative := by decide
  have tail : conservative ⊆ widest := List.subset_cons_self _ _
  rw [needs]
  split
  next none => exact ⟨tail, fun _ => id, by simp [CustomFirst, none, plain]⟩
  next manifest isManifest =>
    split
    next unknown =>
      exact ⟨fun _ => id, tail, by simp [CustomFirst, isManifest, unknown, widest]⟩
    next known =>
      have cases := (cut manifest isManifest).resolve_left known
      split
      next effects isList =>
        have broken := cases effects isList
        rw [if_neg (by simp [broken])]
        refine ⟨?_, List.subset_append_right _ _, ?_⟩
        · exact List.append_subset.mpr ⟨flatMap_effectNeeds_subset _ _, tail⟩
        · simp [CustomFirst, isManifest, known, listed, isList, plain]
      next noList =>
        refine ⟨tail, fun _ => id, ?_⟩
        have empty : listed manifest = [] := by
          rw [listed]
          split
          next effects isList => exact absurd isList (noList effects)
          next => rfl
        simp [CustomFirst, isManifest, known, empty, plain]

theorem needs_of_not_cutShort (whole : ¬CutShort description registry) :
    ∃ manifest, manifest? description = some manifest ∧
      unknownOtherwise description manifest registry = false ∧
      needs description registry =
        (listed manifest).flatMap (effectNeeds (flag manifest "unknown_effects")) ++
          hostToolNeeds description registry ∧
      manifest.field "effects" = some (.array (listed manifest)) := by
  simp only [CutShort, not_forall, not_or] at whole
  obtain ⟨manifest, isManifest, known, effects, isList, all⟩ := whole
  have text : effects.all isText = true := by simpa using all
  have isListed : listed manifest = effects := by rw [listed, isList]
  refine ⟨manifest, isManifest, by simpa using known, ?_, by rw [isListed, isList]⟩
  have whole : effects.takeWhile isText = effects :=
    List.takeWhile_eq_self_iff.mpr (List.all_eq_true.mp text)
  simp only [needs, isManifest, if_neg known, isList, isListed, whole, text, if_true]

/-- What a listed effect needs is added, unless the derivation is cut short. -/
theorem listed_subset {manifest value : Json} {effect : String}
    (isManifest : manifest? description = some manifest)
    (whole : ¬CutShort description registry) (member : value ∈ listed manifest)
    (isEffect : text? value = some effect)
    (counts : ¬(flag manifest "unknown_effects" = true ∧ effect = "host_tool")) :
    capabilitiesOf effect ⊆ needs description registry := by
  obtain ⟨manifest', isManifest', -, same, -⟩ := needs_of_not_cutShort whole
  cases isManifest.symm.trans isManifest'
  rw [same]
  intro capability needed
  refine List.mem_append_left _ (List.mem_flatMap.mpr ⟨value, member, ?_⟩)
  rw [effectNeeds, isEffect]
  dsimp only
  rwa [if_neg counts]

/-- An unclear manifest is taken for everything, unless the derivation is cut short. -/
theorem widest_subset (unclear : Unclear description registry)
    (whole : ¬CutShort description registry) : widest ⊆ needs description registry := by
  obtain ⟨manifest, isManifest, known, -, isList⟩ := needs_of_not_cutShort whole
  obtain ⟨value, member, unrecognised⟩ :=
    (unclear manifest isManifest).resolve_left (by simp [known]) _ isList
  have text : isText value = true := by
    have all : ¬∀ effects, manifest.field "effects" = some (.array effects) →
        effects.all isText = false := by
      intro broken
      apply whole
      intro other isOther
      cases isManifest.symm.trans isOther
      exact .inr broken
    by_contra noText
    apply all
    intro effects isEffects
    cases isList.symm.trans isEffects
    exact List.all_eq_false.mpr ⟨value, member, noText⟩
  obtain ⟨effect, isEffect⟩ := Option.isSome_iff_exists.mp text
  obtain ⟨none, counts⟩ := unrecognised effect isEffect
  have all := listed_subset isManifest whole member isEffect counts
  rwa [capabilitiesOf, none] at all

theorem unclear_of_cutShort (cut : CutShort description registry) :
    Unclear description registry := by
  intro manifest isManifest
  refine (cut manifest isManifest).imp_right fun broken effects isList => ?_
  obtain ⟨value, member, noText⟩ := List.all_eq_false.mp (broken effects isList)
  refine ⟨value, member, fun effect isEffect => ?_⟩
  simp [isText, isEffect] at noText

/-! ## The plan with other effects -/

theorem hostTools_declare (description : Json) (effects : List String) :
    hostTools (declare description effects) = hostTools description := by
  rw [hostTools, declare, Json.field_set_other _ _ (by decide), hostTools]

theorem manifest_declare (object : description.isObject = true) (effects : List String) :
    manifest? (declare description effects) =
      some (.object [("effects", .array (effects.map .string))]) := by
  rw [manifest?, declare, Json.field_set_same object]
  rfl

theorem hostToolNeeds_declare (effects : List String) :
    hostToolNeeds (declare description effects) registry = hostToolNeeds description registry := by
  rw [hostToolNeeds, hostTools_declare, hostToolNeeds]

theorem needs_declare (object : description.isObject = true) (effects : List String) :
    needs (declare description effects) registry =
      effects.flatMap (fun effect => capabilitiesOf (cString effect)) ++
        hostToolNeeds description registry := by
  have texts : ∀ value ∈ effects.map Json.string, isText value = true := by
    intro value member
    obtain ⟨effect, -, rfl⟩ := List.mem_map.mp member
    rfl
  have isList : Json.field (.object [("effects", .array (effects.map .string))]) "effects" =
      some (.array (effects.map .string)) := rfl
  have known : ∀ description, unknownOtherwise description
      (.object [("effects", .array (effects.map .string))]) registry = false := fun _ => rfl
  rw [needs, manifest_declare object]
  simp only [known, isList, List.takeWhile_eq_self_iff.mpr texts, List.all_eq_true.mpr texts,
    if_true, hostToolNeeds_declare, List.flatMap_map]
  rfl

theorem plugin_known : Known ["plugin"] := by
  unfold Known
  decide

theorem plugin_derived (object : description.isObject = true)
    (resolved : hostToolsResolved description registry = true) (start : List String) :
    ∃ other, effectCapabilities (declare description ["plugin"]) registry start = .ok other := by
  have resolved' : hostToolsResolved (declare description ["plugin"]) registry = true := by
    rwa [hostToolsResolved, hostTools_declare]
  obtain ⟨next, first⟩ := @capabilityAdd_ok "custom_tools" (by decide) start
  obtain ⟨other, last⟩ := hostToolCapabilities_ok resolved' next
  have plugin : capabilityFromEffect start "plugin" = .ok next := first
  refine ⟨other, ?_⟩
  rw [effectCapabilities, manifest_declare object]
  change (capabilityFromEffect start "plugin" >>= fun next => _) = _
  rw [plugin]
  exact last

end

theorem pay_plain : noNul "pay" = true := by decide

theorem payments_plain : noNul "payments" = true := by decide

def payment : AgentCompiler.Registration where
  name := ⟨"pay", pay_plain⟩
  definition := ⟨some none, none, false⟩
  policy := ⟨.sequential, .none⟩
  requiredCapabilities := [⟨"payments", payments_plain⟩]
  effects := 0

theorem payment_valid : payment.Valid := by decide

theorem payment_distinct : ([⟨payment, payment_valid, none⟩].map Entry.name).Nodup := by decide

def payments : Registry := ⟨[⟨payment, payment_valid, none⟩], payment_distinct⟩

def payingPlan (manifest : List (String × Json)) : Json :=
  .object (("input_schema", .object []) ::
    ("host_tools", .array [.object [("tool", .string "pay")]]) :: manifest)

def networkManifest : List (String × Json) :=
  [("effect_manifest", .object [("effects", .array [.string "network"])])]

/-- The derived capabilities cover the plan exactly where the derivation goes through to the host
tools, or `custom_tools` was added before and the host tools require no more than the effects
may. -/
theorem effectCapabilities_covers_iff {description : Json} {requireHarnessSafe : Bool}
    {registry : Option Registry} {start result : List String}
    (valid : planMetadataValid description requireHarnessSafe registry = true)
    (distinct : start.Nodup)
    (derived : effectCapabilities description registry start = .ok result) :
    Covers description registry start result ↔
      (CutShort description registry →
        ("custom_tools" ∈ start ∨ CustomFirst description registry) ∧
          hostToolNeeds description registry ⊆ start ++ widest) := by
  simp only [planMetadataValid, Bool.and_eq_true] at valid
  obtain ⟨⟨⟨object, -⟩, resolved⟩, -⟩ := valid
  have adds := effectCapabilities_adds derived
  have added : needs description registry ⊆ result := fun capability needed =>
    (adds.mem capability).mpr (.inr needed)
  have kept : start ⊆ result := fun capability known => (adds.mem capability).mpr (.inl known)
  constructor
  · intro covers cut
    obtain ⟨within, -, custom⟩ := needs_of_cutShort cut
    have unclear := unclear_of_cutShort cut
    obtain ⟨other, plugin⟩ := plugin_derived object resolved start
    have all := covers.dominates unclear ["plugin"] plugin_known other plugin
    have needed : "custom_tools" ∈ other := by
      apply ((effectCapabilities_adds plugin).mem _).mpr
      rw [needs_declare object]
      exact .inr (List.mem_append_left _ (by decide))
    refine ⟨((adds.mem _).mp (all needed)).imp_right custom.mp, ?_⟩
    intro capability required
    rw [List.mem_append]
    exact ((adds.mem _).mp (covers.hostTools required)).imp_right fun here => within here
  · intro condition
    have five : Unclear description registry → widest ⊆ result := by
      intro unclear
      by_cases cut : CutShort description registry
      · obtain ⟨-, tail, custom⟩ := needs_of_cutShort cut
        refine List.cons_subset.mpr ⟨?_, fun _ member => added (tail member)⟩
        exact (condition cut).1.elim (fun known => kept known)
          fun first => added (custom.mpr first)
      · exact fun _ member => added (widest_subset unclear cut member)
    have hosts : hostToolNeeds description registry ⊆ result := by
      intro capability required
      by_cases cut : CutShort description registry
      · rcases List.mem_append.mp ((condition cut).2 required) with known | wide
        · exact kept known
        · exact five (unclear_of_cutShort cut) wide
      · obtain ⟨_, _, _, same, _⟩ := needs_of_not_cutShort cut
        exact added (by rw [same]; exact List.mem_append_right _ required)
    refine ⟨adds.nodup distinct, ?_, hosts, ?_, ?_⟩
    · intro manifest isManifest value member effect isEffect capabilities inTable
      have same : capabilitiesOf effect = capabilities := by rw [capabilitiesOf, inTable]; rfl
      rw [← same]
      by_cases cut : CutShort description registry
      · exact fun _ needed => five (unclear_of_cutShort cut) (capabilitiesOf_subset effect needed)
      · refine fun _ needed => added (listed_subset isManifest cut member isEffect ?_ needed)
        rintro ⟨-, rfl⟩
        cases inTable
    · exact fun unclear _ member => five unclear (List.mem_cons_of_mem _ member)
    · intro unclear effects _ other ran capability member
      rcases ((effectCapabilities_adds ran).mem capability).mp member with known | needed
      · exact kept known
      · rw [needs_declare object] at needed
        rcases List.mem_append.mp needed with effect | host
        · obtain ⟨effect, -, here⟩ := List.mem_flatMap.mp effect
          exact five unclear (capabilitiesOf_subset _ here)
        · exact hosts host

theorem effectCapabilities_covers_iff_network :
    Covers (payingPlan networkManifest) (some payments) ["runtime_tools"]
        ["runtime_tools", "network", "payments"] ↔
      (CutShort (payingPlan networkManifest) (some payments) →
        ("custom_tools" ∈ ["runtime_tools"] ∨
          CustomFirst (payingPlan networkManifest) (some payments)) ∧
          hostToolNeeds (payingPlan networkManifest) (some payments) ⊆
            ["runtime_tools"] ++ widest) :=
  @effectCapabilities_covers_iff (payingPlan networkManifest) false (some payments)
    ["runtime_tools"] ["runtime_tools", "network", "payments"] (by decide) (by decide) (by decide)

/-- Without a manifest the capability of the host tool is missing. -/
theorem missing_manifest_narrows :
    planMetadataValid (payingPlan []) false (some payments) = true ∧
      effectCapabilities (payingPlan []) (some payments) ["runtime_tools"] =
        .ok ["runtime_tools", "network", "shell", "patch", "outside_workspace"] ∧
      ¬Covers (payingPlan []) (some payments) ["runtime_tools"]
        ["runtime_tools", "network", "shell", "patch", "outside_workspace"] := by
  refine ⟨by decide, by decide, fun covers => ?_⟩
  have needed : "payments" ∈ hostToolNeeds (payingPlan []) (some payments) := by decide
  exact absurd (covers.hostTools needed) (by decide)

end TurboAgent.Praktor
