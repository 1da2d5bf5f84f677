import TurboAgent.AgentCompiler.Dag
import TurboAgent.ToolSchema.Soundness

/-!
# What an admitted plan guarantees

Each pass of the compiler has a lemma that says what holds when it succeeds, and the guarantees
of a plan are put together from them.  Lengths and schemas are checked on strings as C reads
them, up to the first NUL, and schemas on numbers as their doubles.
-/

namespace TurboAgent.AgentCompiler

open ToolSchema (Reading Satisfies parseParameters)
open Outcome (bind_eq_ok orFail_eq_ok pure_eq_ok require_eq_ok)
open ToolSchema (cString depth exactDouble)

/-! ## Guarantees -/

section

variable (numberText : Int → Nat → List UInt8) (reading : Reading) (config : Config)
  (registry : Registry)

/-- Arguments meet the limits of a compiler and the schema of a tool. -/
structure ArgumentsFit (definition : ToolSchema.Definition) (arguments : Json) : Prop where
  nodes : nodeCount arguments ≤ config.maxArgumentNodes
  bytes : textBytes numberText reading.text arguments ≤ config.maxArgumentBytes
  depth : depth arguments ≤ config.maxArgumentDepth
  schema : ∃ schema, parseParameters definition = some schema ∧
    Satisfies reading arguments schema

/-- A step is what its source asks for, and its tool and the compiler allow it. -/
structure StepSound (entry : Entry) (source : StepSource) (step : Step) : Prop where
  stepId : step.stepId = source.stepId
  resolved : registry.find source.toolName = some entry
  toolName : step.toolName = entry.name
  arguments : source.arguments = some step.arguments
  fits : ArgumentsFit numberText reading config entry.registration.definition step.arguments.value
  retryLimit : step.retryLimit = source.retryLimit
  retry : step.retryLimit ≠ 0 → entry.registration.policy.idempotency ≠ .none
  effects : step.effects = entry.effects
  capabilities : step.capabilities =
    sortStrings (effectiveCapabilities entry.registration.requiredCapabilities)
  allowed : config.denyUnlistedCapabilities = true →
    ∀ capability ∈ step.capabilities, capability ∈ config.allowedCapabilities

def DependenciesSound (steps : List Step) (source : StepSource) (step : Step) : Prop :=
  step.dependencies.Nodup ∧
    List.Forall₂ (fun name index => (steps[index]?).map Step.stepId = some name)
      source.dependsOn step.dependencies

def DependsOn (steps : List Step) : Nat → Nat → Prop :=
  Logic.Kahn.Before (dependenciesAt steps) steps.length

/-- A summary covers the effects of a step: it is unknown, or the step has no effects, or it has
each of them. -/
def Covers (summary flags : EffectFlags) : Prop :=
  summary = .unknown ∨ flags = .pure ∨ flags &&& ~~~summary = 0

structure Sound (source : Source) (plan : ExecutableDag) : Prop where
  steps : List.Forall₂ (fun source step => ∃ entry,
    StepSound numberText reading config registry entry source step) source.steps plan.steps
  unique : (plan.steps.map Step.stepId).Nodup
  dependencies : List.Forall₂ (DependenciesSound plan.steps) source.steps plan.steps
  acyclic : ∀ index, ¬Relation.TransGen (DependsOn plan.steps) index index
  sorted : plan.capabilities.Pairwise fun left right => StrLe left.1 right.1
  distinct : plan.capabilities.Nodup
  union : ∀ capability, capability ∈ plan.capabilities ↔
    ∃ step ∈ plan.steps, capability ∈ step.capabilities
  effects : ∀ step ∈ plan.steps, Covers plan.effects step.effects

end

section

variable {numberText : Int → Nat → List UInt8} {double : Int → Nat → ToolSchema.Double}
  {config : Config} {registry : Registry}

/-! ## Steps -/

variable {definition : ToolSchema.Definition}

theorem resolveTool_eq_some {name canonicalName : CString}
    (resolved : resolveTool registry name = some (canonicalName, definition)) :
    ∃ entry, registry.find name = some entry ∧ registry.find canonicalName = some entry ∧
      canonicalName = entry.name ∧ definition = entry.registration.definition := by
  simp only [resolveTool, Option.bind_eq_some_iff, Option.map_eq_some_iff, Prod.mk.injEq] at resolved
  obtain ⟨entry, found, own, same, rfl, rfl⟩ := resolved
  rw [Registry.findExact_own (Registry.mem_of_find found), Option.some.injEq] at same
  subst same
  exact ⟨entry, found, Registry.find_again found, rfl, rfl⟩

variable {arguments : Document}

theorem checkArguments_eq_ok {invalid unsupported : String} :
    checkArguments double invalid unsupported definition arguments = .ok () ↔
      ToolSchema.validateArguments double definition arguments.value = .ok () := by
  unfold checkArguments
  split
  next accepted => simp [accepted]
  next rejection rejected =>
    rw [rejected]
    split
    next => simp
    next => simp

theorem copyCapabilities_eq_ok {required copied : List CString} :
    copyCapabilities config required = .ok copied ↔
      (∀ capability ∈ effectiveCapabilities required, capabilityAllowed config capability = true) ∧
        copied = sortStrings (effectiveCapabilities required) := by
  simp only [copyCapabilities, bind_eq_ok, require_eq_ok, pure_eq_ok,
    exists_const, List.all_eq_true]
  exact and_congr_right fun _ => eq_comm

theorem allowed_of_capabilityAllowed {capability : CString}
    (allowed : capabilityAllowed config capability = true)
    (deny : config.denyUnlistedCapabilities = true) : capability ∈ config.allowedCapabilities := by
  simp only [capabilityAllowed, deny, Bool.not_true, Bool.false_or, Bool.and_eq_true,
    List.contains_iff_mem] at allowed
  exact allowed.2

theorem validArguments_eq_some {source : StepSource}
    (valid : source.validArguments = some arguments) : source.arguments = some arguments := by
  unfold StepSource.validArguments at valid
  split at valid
  next => cases valid
  next => exact (Option.filter_eq_some_iff.mp valid).1

theorem admitStep_sound {source : StepSource} {step : Step}
    (admitted : admitStep numberText double config registry source = .ok step) :
    ∃ entry, StepSound numberText (.c double) config registry entry source step := by
  simp only [admitStep, bind_eq_ok, orFail_eq_ok, require_eq_ok,
    pure_eq_ok] at admitted
  obtain ⟨arguments, formed, _, limits, ⟨canonicalName, definition⟩, resolved, _, accepted,
    entry, found, _, retry, capabilities, copied, rfl⟩ := admitted
  obtain ⟨same, resolvedFirst, again, rfl, rfl⟩ := resolveTool_eq_some resolved
  rw [again, Option.some.injEq] at found
  subst found
  obtain ⟨allowed, rfl⟩ := copyCapabilities_eq_ok.mp copied
  obtain ⟨few, small, near⟩ := withinLimits_isSome.mp limits
  have satisfied := ToolSchema.validateArguments_sound arguments.keyed
    (checkArguments_eq_ok.mp accepted)
  refine ⟨same, ?_⟩
  constructor
  case stepId => rfl
  case resolved => exact resolvedFirst
  case toolName => rfl
  case arguments => exact validArguments_eq_some formed
  case fits => exact ⟨few, small, near, satisfied⟩
  case retryLimit => rfl
  case retry => exact fun retries => retry.resolve_left retries
  case effects => rfl
  case capabilities => rfl
  case allowed =>
    intro deny capability member
    exact allowed_of_capabilityAllowed (allowed capability (mem_sortStrings.mp member)) deny

/-! ## Ids and dependencies -/

variable {ids : List CString}

theorem checkIds_eq_ok {prior : List CString} (distinct : prior.Nodup) :
    checkIds prior ids = .ok () ↔ (∀ id ∈ ids, id.1 ≠ "") ∧ (prior ++ ids).Nodup := by
  induction ids generalizing prior with
  | nil => simp [checkIds, distinct]
  | cons id ids ih =>
      simp only [checkIds, bind_eq_ok, require_eq_ok, exists_const,
        List.forall_mem_cons]
      constructor
      · rintro ⟨named, fresh, rest⟩
        obtain ⟨others, apart⟩ := (ih (Lists.nodup_snoc distinct fresh)).mp rest
        refine ⟨⟨named, others⟩, ?_⟩
        simpa using apart
      · rintro ⟨⟨named, others⟩, apart⟩
        have fresh : id ∉ prior := fun member =>
          (List.nodup_append.mp apart).2.2 id member id List.mem_cons_self rfl
        refine ⟨named, fresh, (ih (Lists.nodup_snoc distinct fresh)).mpr ⟨others, ?_⟩⟩
        simpa using apart

theorem findSourceStep_eq_some {id : CString} {index : Nat}
    (found : findSourceStep ids id = some index) : ids[index]? = some id := by
  rw [findSourceStep, List.findIdx?_eq_some_iff_getElem] at found
  obtain ⟨bound, same, -⟩ := found
  rw [List.getElem?_eq_getElem bound, of_decide_eq_true same]

theorem resolveEdges_eq_ok {names : List CString} {prior resolved : List Nat}
    (distinct : prior.Nodup) (done : resolveEdges ids prior names = .ok resolved) :
    ∃ added, resolved = prior ++ added ∧ resolved.Nodup ∧
      List.Forall₂ (fun name index => ids[index]? = some name) names added := by
  induction names generalizing prior with
  | nil =>
      cases done
      exact ⟨[], by simp, distinct, .nil⟩
  | cons name names ih =>
      simp only [resolveEdges, bind_eq_ok, orFail_eq_ok, require_eq_ok] at done
      obtain ⟨index, known, _, fresh, rest⟩ := done
      obtain ⟨added, rfl, nodup, each⟩ := ih (Lists.nodup_snoc distinct fresh) rest
      split at known
      next => cases known
      refine ⟨index :: added, by simp, nodup, ?_⟩
      exact .cons (findSourceStep_eq_some known) each

/-- The dependencies of a step are found in a list of ids. -/
def Resolves (ids : List CString) (pair : StepSource × Step) (step : Step) : Prop :=
  ∃ dependencies, step = { pair.2 with dependencies } ∧ dependencies.Nodup ∧
    List.Forall₂ (fun name index => ids[index]? = some name) pair.1.dependsOn dependencies

variable {steps : List Step}

theorem resolveDependencies_eq_ok {edges : Nat} {pairs : List (StepSource × Step)}
    (done : resolveDependencies ids edges pairs = .ok steps) :
    List.Forall₂ (Resolves ids) pairs steps := by
  induction pairs generalizing edges steps with
  | nil =>
      cases done
      exact .nil
  | cons pair pairs ih =>
      obtain ⟨source, step⟩ := pair
      simp only [resolveDependencies, bind_eq_ok, require_eq_ok,
        pure_eq_ok] at done
      obtain ⟨_, few, dependencies, resolved, others, rest, rfl⟩ := done
      obtain ⟨added, rfl, nodup, each⟩ := resolveEdges_eq_ok List.nodup_nil resolved
      exact .cons ⟨_, rfl, nodup, each⟩ (ih rest)

theorem validateAcyclic_eq_ok (done : validateAcyclic steps = .ok ()) (index : Nat) :
    ¬Relation.TransGen (DependsOn steps) index index := by
  simp only [validateAcyclic, bind_eq_ok, orFail_eq_ok,
    require_eq_ok] at done
  obtain ⟨⟨visited, rest⟩, ended, all⟩ := done
  exact Logic.Kahn.acyclic ended all index

/-! ## Summaries -/

theorem foldl_distinct {texts known : List CString} (distinct : known.Nodup) :
    let after := texts.foldl (fun known text => if text ∈ known then known else known ++ [text]) known
    after.Nodup ∧ ∀ text, text ∈ after ↔ text ∈ known ∨ text ∈ texts := by
  induction texts generalizing known with
  | nil => simp [distinct]
  | cons first texts ih =>
      rw [List.foldl_cons]
      by_cases listed : first ∈ known
      · rw [if_pos listed]
        refine ⟨(ih distinct).1, ?_⟩
        intro text
        rw [(ih distinct).2 text, List.mem_cons]
        constructor
        · rintro (old | new)
          · exact .inl old
          · exact .inr (.inr new)
        · rintro (old | rfl | new)
          · exact .inl old
          · exact .inl listed
          · exact .inr new
      · rw [if_neg listed]
        have extended := ih (Lists.nodup_snoc distinct listed)
        refine ⟨extended.1, ?_⟩
        intro text
        rw [extended.2 text, List.mem_append, List.mem_singleton, List.mem_cons, or_assoc]

theorem distinctTexts_nodup (texts : List CString) : (distinctTexts texts).Nodup :=
  (foldl_distinct List.nodup_nil).1

theorem mem_distinctTexts {texts : List CString} {text : CString} :
    text ∈ distinctTexts texts ↔ text ∈ texts := by
  rw [distinctTexts, (foldl_distinct List.nodup_nil).2]
  simp

theorem mem_capabilityUnion {capability : CString} :
    capability ∈ capabilityUnion steps ↔ ∃ step ∈ steps, capability ∈ step.capabilities := by
  rw [capabilityUnion, mem_sortStrings, mem_distinctTexts, List.mem_flatMap]

/-! ## Effects -/

theorem or_and_eq_zero {left right mask : UInt64} :
    (left ||| right) &&& mask = 0 ↔ left &&& mask = 0 ∧ right &&& mask = 0 := by
  have spread : (left ||| right) &&& mask = (left &&& mask) ||| (right &&& mask) :=
    UInt64.toBitVec_inj.mp BitVec.and_or_distrib_right
  rw [spread, UInt64.or_eq_zero_iff]

theorem and_not_of_and_eq_zero {flags mask : UInt64} (apart : flags &&& mask = 0) :
    flags &&& ~~~mask = flags := by
  have spread : flags &&& (mask ||| ~~~mask) = (flags &&& mask) ||| (flags &&& ~~~mask) :=
    UInt64.toBitVec_inj.mp BitVec.and_or_distrib_left
  rw [UInt64.or_not_self, UInt64.and_neg_one, apart, UInt64.zero_or] at spread
  exact spread.symm

theorem summarizeEffects_covers {known : EffectFlags} {allPure : Bool} {effects : List EffectFlags}
    (valid : ∀ flags ∈ effects, flags.Valid) (nothing : allPure = true → known = 0) :
    let summary := summarizeEffects known allPure effects
    summary = .unknown ∨ known &&& ~~~summary = 0 ∧ ∀ flags ∈ effects, Covers summary flags := by
  induction effects generalizing known allPure with
  | nil =>
      rw [summarizeEffects]
      split
      next pure =>
        right
        simp [nothing pure]
      split
      next => exact .inl rfl
      right
      simp
  | cons flags effects ih =>
      rw [List.forall_mem_cons] at valid
      rw [summarizeEffects]
      split
      next => exact .inl rfl
      next certain =>
        split
        next pure =>
          apply (ih valid.2 nothing).imp_right
          rintro ⟨kept, covered⟩
          exact ⟨kept, List.forall_mem_cons.mpr ⟨.inr (.inl pure), covered⟩⟩
        next impure =>
          apply (ih valid.2 (fun absurd => Bool.noConfusion absurd)).imp_right
          rintro ⟨kept, covered⟩
          rw [or_and_eq_zero] at kept
          refine ⟨kept.1, List.forall_mem_cons.mpr ⟨.inr (.inr ?_), covered⟩⟩
          have apart : flags &&& .pure = 0 := by
            rcases valid.1.2 with zero | exclusive
            · rw [zero]
              rfl
            · by_contra some
              exact impure (exclusive.2 some)
          rw [and_not_of_and_eq_zero apart] at kept ⊢
          exact kept.2

theorem effectSummary_covers (valid : ∀ step ∈ steps, step.effects.Valid) {step : Step}
    (member : step ∈ steps) : Covers (effectSummary steps) step.effects := by
  have some : ¬steps.isEmpty := by
    rw [List.isEmpty_iff]
    exact List.ne_nil_of_mem member
  have each : ∀ flags ∈ steps.map Step.effects, flags.Valid := by
    intro flags listed
    obtain ⟨other, here, rfl⟩ := List.mem_map.mp listed
    exact valid other here
  rw [effectSummary, if_neg some]
  rcases summarizeEffects_covers each (fun _ => rfl) with unknown | ⟨-, covered⟩
  · exact .inl unknown
  · exact covered step.effects (List.mem_map_of_mem member)

/-! ## The compiler -/

variable {source : Source} {plan : ExecutableDag}

theorem compileDag_eq_ok (compiled : compileDag numberText double config registry source = .ok plan) :
    let ids := source.steps.map StepSource.stepId
    validCompilation config source ∧ checkIds [] ids = .ok () ∧ ∃ admitted steps approvedTools,
      source.steps.mapM (admitStep numberText double config registry) = .ok admitted ∧
      resolveDependencies ids 0 (source.steps.zip admitted) = .ok steps ∧
      validateAcyclic steps = .ok () ∧ buildProjection registry steps = .ok approvedTools ∧
      (computeHash numberText (assemble source steps approvedTools)).hash ≠ 0 ∧
      plan = { assemble source steps approvedTools with
        planHash := (computeHash numberText (assemble source steps approvedTools)).hash } := by
  simp only [compileDag, bind_eq_ok, require_eq_ok, pure_eq_ok] at compiled
  obtain ⟨_, valid, _, ids, admitted, admits, steps, resolves, _, acyclic, approvedTools,
    projected, _, hashed, rfl⟩ := compiled
  exact ⟨valid, ids, admitted, steps, approvedTools, admits, resolves, acyclic, projected, hashed,
    rfl⟩

theorem admitted_steps {sources : List StepSource} {admitted : List Step}
    (admits : sources.mapM (admitStep numberText double config registry) = .ok admitted)
    (resolves : resolveDependencies ids 0 (sources.zip admitted) = .ok steps) :
    List.Forall₂ (fun source step =>
      (∃ entry, StepSound numberText (.c double) config registry entry source step) ∧
        step.dependencies.Nodup ∧
        List.Forall₂ (fun name index => ids[index]? = some name) source.dependsOn
          step.dependencies) sources steps := by
  apply (Lists.forall₂_zip (Outcome.mapM_eq_ok.mp admits)
    (resolveDependencies_eq_ok resolves)).imp
  rintro source step ⟨before, admission, dependencies, rfl, distinct, each⟩
  obtain ⟨entry, sound⟩ := admitStep_sound admission
  obtain ⟨stepId, resolved, toolName, arguments, fits, retryLimit, retry, effects, capabilities,
    allowed⟩ := sound
  exact ⟨⟨entry, stepId, resolved, toolName, arguments, fits, retryLimit, retry, effects,
    capabilities, allowed⟩, distinct, each⟩

theorem compileDag_sound (compiled : compileDag numberText double config registry source = .ok plan) :
    Sound numberText (.c double) config registry source plan := by
  obtain ⟨-, checked, admitted, steps, approvedTools, admits, resolves, acyclic, -, -, rfl⟩ :=
    compileDag_eq_ok compiled
  have each := admitted_steps admits resolves
  have ids : steps.map Step.stepId = source.steps.map StepSource.stepId := by
    symm
    rw [← List.forall₂_eq_eq_eq, List.forall₂_map_left_iff, List.forall₂_map_right_iff]
    apply each.imp
    rintro source step ⟨⟨entry, sound⟩, -⟩
    exact sound.stepId.symm
  constructor
  case steps => exact each.imp fun _ _ => And.left
  case unique =>
    rw [assemble, ids]
    simpa using ((checkIds_eq_ok List.nodup_nil).mp checked).2
  case dependencies =>
    apply each.imp
    rintro source step ⟨-, distinct, named⟩
    refine ⟨distinct, named.imp ?_⟩
    intro name index found
    rw [← ids, List.getElem?_map] at found
    exact found
  case acyclic => exact validateAcyclic_eq_ok acyclic
  case sorted => exact sortStrings_sorted _
  case distinct => exact sortStrings_nodup.mpr (distinctTexts_nodup _)
  case union => exact fun capability => mem_capabilityUnion
  case effects =>
    intro step member
    apply effectSummary_covers _ member
    intro other listed
    obtain ⟨origin, -, ⟨entry, sound⟩, -⟩ := Lists.forall₂_right each listed
    rw [sound.effects]
    exact EffectFlags.normalize_valid entry.valid.effects

theorem Sound.fits {reading : Reading}
    (sound : Sound numberText reading config registry source plan) {step : StepSource}
    (member : step ∈ source.steps) (given : step.arguments = some arguments) {entry : Entry}
    (resolved : registry.find step.toolName = some entry) :
    ArgumentsFit numberText reading config entry.registration.definition arguments.value := by
  obtain ⟨admitted, other, stepSound⟩ := Lists.forall₂_left sound.steps member
  have sameArguments := stepSound.arguments
  have sameEntry := stepSound.resolved
  rw [given, Option.some.injEq] at sameArguments
  rw [resolved, Option.some.injEq] at sameEntry
  rw [sameArguments, sameEntry]
  exact stepSound.fits

theorem ArgumentsFit.satisfies {reading : Reading} {arguments schema : Json}
    (fits : ArgumentsFit numberText reading config definition arguments)
    (parsed : parseParameters definition = some schema) : Satisfies reading arguments schema := by
  obtain ⟨other, same, satisfies⟩ := fits.schema
  rw [parsed, Option.some.injEq] at same
  rw [same]
  exact satisfies

end

/-- It makes no difference to the limits and the schemas of a source whether strings are read up
to their first NUL and numbers as their doubles. -/
def ReadsAlike (numberText : Int → Nat → List UInt8) (double : Int → Nat → ToolSchema.Double)
    (config : Config) (registry : Registry) (source : Source) : Prop :=
  ∀ step ∈ source.steps, ∀ arguments entry schema, step.arguments = some arguments →
    registry.find step.toolName = some entry →
    parseParameters entry.registration.definition = some schema →
    (textBytes numberText cString arguments.value ≤ config.maxArgumentBytes ↔
      textBytes numberText id arguments.value ≤ config.maxArgumentBytes) ∧
    (Satisfies (.c double) arguments.value schema ↔ Satisfies .literal arguments.value schema)

def integerText (mantissa : Int) (_ : Nat) : List UInt8 := utf8 (toString mantissa)

def smallConfig : Config where
  allowedCapabilities := []
  denyUnlistedCapabilities := false
  maxSourceBytes := 1
  maxArgumentBytes := 2
  maxArgumentNodes := 2
  maxArgumentDepth := 1

def anyTool : Registration where
  name := ⟨"tool", rfl⟩
  definition := ⟨none, some (.object []), false⟩
  policy := ⟨.sequential, .none⟩
  requiredCapabilities := []
  effects := 0

theorem anyTool_valid : anyTool.Valid := by decide

def textArguments (text : String) : Document where
  value := .object [("k", .string text)]
  keyed := ⟨List.nodup_singleton _, trivial, trivial⟩
  plainKeys := ⟨rfl, trivial, trivial⟩

def anyRegistry : Registry where
  entries := [⟨anyTool, anyTool_valid, none⟩]
  distinct := List.nodup_singleton _

def singleStep : CString := ⟨"s", rfl⟩

def textSource (text : String) : Source where
  steps := [⟨singleStep, anyTool.name, some (textArguments text), [], 0, 0⟩]
  replanBudget := 0
  template := none

end TurboAgent.AgentCompiler
