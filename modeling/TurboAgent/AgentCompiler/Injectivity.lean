import TurboAgent.AgentCompiler.Admission
import TurboAgent.AgentCompiler.Encoding
import TurboAgent.AgentCompiler.Linear

/-!
# What the hashed bytes tell about a plan

Two admitted plans that feed the same bytes to the hash agree when their arguments have the same
shape and their steps begin at the same places.  The end of a step is not marked: its metadata is
a JSON value, and the next step begins where it ends.
-/

namespace TurboAgent.AgentCompiler

open Logic
open ToolExecutor (ExecutionPolicy ExecutionMode Idempotency)

/-! ## Agreement -/

def dependencyIds (steps : List Step) (step : Step) : List CString :=
  step.dependencies.filterMap fun index => (steps[index]?).map Step.stepId

/-- Two steps agree, the keys of their arguments in any order. -/
structure StepsAgree (lefts rights : List Step) (left right : Step) : Prop where
  stepId : left.stepId = right.stepId
  toolName : left.toolName = right.toolName
  policy : left.policy = right.policy
  effects : left.effects = right.effects
  retryLimit : left.retryLimit = right.retryLimit
  flags : left.flags = right.flags
  dependencies : dependencyIds lefts left = dependencyIds rights right
  arguments : sortKeys left.arguments.value = sortKeys right.arguments.value

def DagsAgree (left right : ExecutableDag) : Prop :=
  List.Forall₂ (StepsAgree left.steps right.steps) left.steps right.steps

/-- Two plans of one call agree, the keys of their arguments in any order. -/
structure PlansAgree (left right : ExecutablePlan) : Prop where
  stepId : left.stepId = right.stepId
  toolName : left.toolName = right.toolName
  policy : left.policy = right.policy
  arguments : sortKeys left.arguments.value = sortKeys right.arguments.value

section

variable (numberText : Int → Nat → List UInt8)

def AdmittedDag (plan : ExecutableDag) : Prop :=
  ∃ double config registry source, compileDag numberText double config registry source = .ok plan

/-- A plan of one call that the compiler made. -/
def AdmittedPlan (plan : ExecutablePlan) : Prop :=
  ∃ double config registry source, compilePlan numberText double config registry source = .ok plan

def SameArgumentShape (left right : Document) : Prop :=
  SameShape numberText (sortKeys left.value) (sortKeys right.value)

def stepEnd (steps : List Step) (accumulator : Accumulator) (step : Step) : Accumulator :=
  hashMetadata numberText (hashAttributes steps (hashCall numberText accumulator step) step)
    step.executionMetadata

def positions (steps : List Step) : Accumulator → List Step → List Nat
  | _, [] => []
  | accumulator, step :: rest =>
      accumulator.fed.length :: positions steps (stepEnd numberText steps accumulator step) rest

/-- Where the steps of a plan begin in the hashed bytes. -/
def stepPositions (plan : ExecutableDag) : List Nat :=
  positions numberText plan.steps (hashHeader plan) plan.steps

/-! ## The bytes of a step -/

def callBytes (step : Step) : List UInt8 :=
  stringBytes step.stepId.1 ++
    (stringBytes step.toolName.1 ++ jsonBytes numberText step.arguments.value)

end

def modeCode (mode : ExecutionMode) : UInt32 := .ofNat mode.code.toNat

def idempotencyCode (idempotency : Idempotency) : UInt32 := .ofNat idempotency.code.toNat

/-- The bytes of a step after its arguments and before its metadata. -/
def attributeBytes (steps : List Step) (step : Step) : List UInt8 :=
  little 4 (modeCode step.policy.mode).toNat ++
    (little 4 (idempotencyCode step.policy.idempotency).toNat ++
    (little 8 step.effects.toNat ++ (little 4 step.retryLimit.toNat ++ (little 4 step.flags.toNat ++
    (little 8 (UInt64.ofNat step.dependencies.length).toNat ++
    ((dependencyIds steps step).flatMap (fun id => stringBytes id.1) ++
    (little 8 (UInt64.ofNat step.capabilities.length).toNat ++
    step.capabilities.flatMap fun capability => stringBytes capability.1)))))))

def blockBytes (numberText : Int → Nat → List UInt8) (steps : List Step) (step : Step) :
    List UInt8 :=
  callBytes numberText step ++ (attributeBytes steps step ++ stringBytes "execution_metadata")

structure Countable (steps : List Step) (step : Step) : Prop where
  known : (dependencyIds steps step).length = step.dependencies.length
  dependencies : step.dependencies.length < 18446744073709551616
  capabilities : step.capabilities.length < 18446744073709551616

section

variable {numberText : Int → Nat → List UInt8}

theorem modeCode_injective : Function.Injective modeCode := by
  intro left right same
  cases left <;> cases right <;> first | rfl | exact absurd same (by decide)

theorem idempotencyCode_injective : Function.Injective idempotencyCode := by
  intro left right same
  cases left <;> cases right <;> first | rfl | exact absurd same (by decide)

theorem policy_eq {left right : ExecutionPolicy} (modes : modeCode left.mode = modeCode right.mode)
    (idempotencies : idempotencyCode left.idempotency = idempotencyCode right.idempotency) :
    left = right := by
  cases left
  cases right
  rw [ExecutionPolicy.mk.injEq]
  exact ⟨modeCode_injective modes, idempotencyCode_injective idempotencies⟩

theorem count_inj {left right : Nat} (leftBound : left < 18446744073709551616)
    (rightBound : right < 18446744073709551616)
    (same : UInt64.ofNat left = UInt64.ofNat right) : left = right := by
  have values := congrArg UInt64.toNat same
  rwa [UInt64.toNat_ofNat_of_lt' leftBound, UInt64.toNat_ofNat_of_lt' rightBound] at values

variable {left right : Step} {rest rest' : List UInt8}

theorem callBytes_append (literals : Literals numberText)
    (shape : SameArgumentShape numberText left.arguments right.arguments)
    (same : callBytes numberText left ++ rest = callBytes numberText right ++ rest') :
    left.stepId = right.stepId ∧ left.toolName = right.toolName ∧
      sortKeys left.arguments.value = sortKeys right.arguments.value ∧ rest = rest' := by
  simp only [callBytes, List.append_assoc] at same
  obtain ⟨ids, same⟩ := stringBytes_framed same
  obtain ⟨names, same⟩ := stringBytes_framed same
  obtain ⟨arguments, rests⟩ := orderedBytes_append literals _ _ shape
    (sortKeys_plainKeys _ left.arguments.plainKeys) (sortKeys_plainKeys _ right.arguments.plainKeys)
    same
  exact ⟨ids, names, arguments, rests⟩

variable {lefts rights : List Step}

theorem attributeBytes_append (countable : Countable lefts left)
    (countable' : Countable rights right)
    (same : attributeBytes lefts left ++ rest = attributeBytes rights right ++ rest') :
    left.policy = right.policy ∧ left.effects = right.effects ∧
      left.retryLimit = right.retryLimit ∧ left.flags = right.flags ∧
      dependencyIds lefts left = dependencyIds rights right ∧ rest = rest' := by
  simp only [attributeBytes, List.append_assoc] at same
  obtain ⟨modes, same⟩ := u32_framed same
  obtain ⟨idempotencies, same⟩ := u32_framed same
  obtain ⟨effects, same⟩ := u64_framed same
  obtain ⟨retryLimits, same⟩ := u32_framed same
  obtain ⟨flags, same⟩ := u32_framed same
  obtain ⟨counts, same⟩ := u64_framed same
  have known := count_inj countable.dependencies countable'.dependencies counts
  rw [← countable.known, ← countable'.known] at known
  obtain ⟨ids, same⟩ := stringBytes_framed.flatMap known same
  obtain ⟨counts, same⟩ := u64_framed same
  have listed := count_inj countable.capabilities countable'.capabilities counts
  obtain ⟨-, rests⟩ := stringBytes_framed.flatMap listed same
  exact ⟨policy_eq modes idempotencies, effects, retryLimits, flags, ids, rests⟩

theorem foldl_cstring_fed (texts : List CString) (accumulator : Accumulator) :
    (texts.foldl (fun accumulator text => accumulator.cstring text.1) accumulator).fed =
      accumulator.fed ++ texts.flatMap fun text => stringBytes text.1 := by
  induction texts generalizing accumulator with
  | nil => simp
  | cons text texts ih => rw [List.foldl_cons, ih, cstring_fed, List.flatMap_cons, List.append_assoc]

theorem hashDependencies_fed (steps : List Step) (step : Step) (accumulator : Accumulator) :
    (hashDependencies steps accumulator step.dependencies).fed =
      accumulator.fed ++ (dependencyIds steps step).flatMap fun id => stringBytes id.1 := by
  rw [hashDependencies, dependencyIds]
  induction step.dependencies generalizing accumulator with
  | nil => simp
  | cons index indices ih =>
      rw [List.foldl_cons, ih]
      cases found : steps[index]? with
      | none => simp [found]
      | some other => simp [found]

theorem hashAttributes_fed (steps : List Step) (accumulator : Accumulator) (step : Step) :
    (hashAttributes steps accumulator step).fed = accumulator.fed ++ attributeBytes steps step := by
  rw [hashAttributes, foldl_cstring_fed, u64_fed, hashDependencies_fed]
  simp only [u64_fed, u32_fed, attributeBytes, modeCode, idempotencyCode, List.append_assoc]

variable {accumulator : Accumulator} {step : Step}

theorem hashCall_fed (live : (hashCall numberText accumulator step).hash ≠ 0) :
    (hashCall numberText accumulator step).fed = accumulator.fed ++ callBytes numberText step := by
  have fed := (hashJson_feeds _ step.arguments.value).nonzero live
  rw [hashCall, fed, callBytes]
  simp

/-! ## The loop -/

variable {steps : List Step}

theorem hashSteps_live {rest : List Step}
    (live : (hashSteps numberText steps accumulator (step :: rest)).hash ≠ 0) :
    (hashCall numberText accumulator step).hash ≠ 0 ∧
      hashSteps numberText steps accumulator (step :: rest) =
        hashSteps numberText steps (stepEnd numberText steps accumulator step) rest := by
  simp only [hashSteps] at live ⊢
  split at live
  next zero => exact absurd zero live
  next nonzero => exact ⟨nonzero, by rw [if_neg nonzero, stepEnd]⟩

theorem stepEnd_fed (literals : Literals numberText) (steps : List Step)
    (live : (hashCall numberText accumulator step).hash ≠ 0) :
    ∃ metadata, 0 ∉ metadata ∧ (stepEnd numberText steps accumulator step).fed =
      accumulator.fed ++ (blockBytes numberText steps step ++ metadata) := by
  obtain ⟨metadata, clean, fed⟩ := hashMetadata_fed literals
    (hashAttributes steps (hashCall numberText accumulator step) step) step.executionMetadata
  refine ⟨metadata, clean, ?_⟩
  rw [stepEnd, fed, hashAttributes_fed, hashCall_fed live]
  simp only [blockBytes, List.append_assoc]

theorem hashSteps_extends (literals : Literals numberText) {rest : List Step}
    (live : (hashSteps numberText steps accumulator rest).hash ≠ 0) :
    ∃ tail, (hashSteps numberText steps accumulator rest).fed = accumulator.fed ++ tail := by
  induction rest generalizing accumulator with
  | nil => exact ⟨[], (List.append_nil _).symm⟩
  | cons step rest ih =>
      obtain ⟨called, same⟩ := hashSteps_live live
      rw [same] at live ⊢
      obtain ⟨tail, whole⟩ := ih live
      obtain ⟨metadata, -, fed⟩ := stepEnd_fed literals steps called
      rw [whole, fed, List.append_assoc]
      exact ⟨_, rfl⟩

theorem blockBytes_append (literals : Literals numberText) (countable : Countable lefts left)
    (countable' : Countable rights right)
    (shape : SameArgumentShape numberText left.arguments right.arguments)
    (same : blockBytes numberText lefts left ++ rest = blockBytes numberText rights right ++ rest') :
    StepsAgree lefts rights left right ∧ rest = rest' := by
  simp only [blockBytes, List.append_assoc] at same
  obtain ⟨ids, names, arguments, same⟩ := callBytes_append literals shape same
  obtain ⟨policies, effects, retryLimits, flags, dependencies, same⟩ :=
    attributeBytes_append countable countable' same
  exact ⟨⟨ids, names, policies, effects, retryLimits, flags, dependencies, arguments⟩,
    List.append_cancel_left same⟩

theorem callBytes_noZero (literals : Literals numberText) (step : Step) :
    0 ∉ callBytes numberText step :=
  List.not_mem_append (stringBytes_noZero _)
    (List.not_mem_append (stringBytes_noZero _) (orderedBytes_noZero literals _))

theorem modeCode_zero (mode : ExecutionMode) :
    ∃ front back, 0 ∉ front ∧ little 4 (modeCode mode).toNat = front ++ 0 :: back := by
  cases mode with
  | sequential => exact ⟨[], [0, 0, 0], by decide, by decide⟩
  | parallelSafe => exact ⟨[1], [0, 0], by decide, by decide⟩
  | exclusive => exact ⟨[2], [0, 0], by decide, by decide⟩

/-- In front of steps that agree there is equally much: the first zero byte belongs to the
execution mode. -/
theorem metadata_read (literals : Literals numberText) {metadata metadata' : List UInt8}
    (clean : 0 ∉ metadata) (clean' : 0 ∉ metadata') (agree : StepsAgree lefts rights left right)
    (same : metadata ++ (callBytes numberText left ++ (attributeBytes lefts left ++ rest)) =
      metadata' ++ (callBytes numberText right ++ (attributeBytes rights right ++ rest'))) :
    metadata = metadata' := by
  have calls : callBytes numberText left = callBytes numberText right := by
    rw [callBytes, callBytes, agree.stepId, agree.toolName, jsonBytes, jsonBytes, agree.arguments]
  obtain ⟨front, back, noZero, mode⟩ := modeCode_zero right.policy.mode
  have zero : ∀ steps step rest, step.policy.mode = right.policy.mode →
      ∃ more, attributeBytes steps step ++ rest = front ++ 0 :: more := by
    intro steps step rest sameMode
    rw [attributeBytes, sameMode, mode]
    simp only [List.append_assoc, List.cons_append]
    exact ⟨_, rfl⟩
  obtain ⟨more, attributes⟩ := zero lefts left rest (by rw [agree.policy])
  obtain ⟨more', attributes'⟩ := zero rights right rest' rfl
  rw [calls, attributes, attributes'] at same
  have marked : (metadata ++ (callBytes numberText right ++ front)) ++ 0 :: more =
      (metadata' ++ (callBytes numberText right ++ front)) ++ 0 :: more' := by
    simpa only [List.append_assoc] using same
  have call := List.not_mem_append (callBytes_noZero literals right) noZero
  obtain ⟨fronts, -⟩ := Framed.split_at_mark (List.not_mem_append clean call)
    (List.not_mem_append clean' call) marked
  exact List.append_cancel_right fronts

theorem hashSteps_tail (literals : Literals numberText) {rest : List Step}
    (live : (hashSteps numberText steps accumulator (step :: rest)).hash ≠ 0) :
    ∃ tail, (hashSteps numberText steps accumulator (step :: rest)).fed = accumulator.fed ++
      (callBytes numberText step ++ (attributeBytes steps step ++ tail)) := by
  obtain ⟨called, same⟩ := hashSteps_live live
  rw [same] at live ⊢
  obtain ⟨tail, whole⟩ := hashSteps_extends literals live
  obtain ⟨metadata, -, fed⟩ := stepEnd_fed literals steps called
  rw [whole, fed]
  simp only [blockBytes, List.append_assoc]
  exact ⟨_, rfl⟩

/-- With the same bytes fed, the steps of two plans agree exactly when their arguments have the
same shape and they begin at the same places. -/
theorem hashSteps_agree_iff (literals : Literals numberText) {ls rs : List Step}
    {before before' : Accumulator} (start : before.fed = before'.fed)
    (live : (hashSteps numberText lefts before ls).hash ≠ 0)
    (live' : (hashSteps numberText rights before' rs).hash ≠ 0)
    (same : (hashSteps numberText lefts before ls).fed =
      (hashSteps numberText rights before' rs).fed) (countable : ∀ step ∈ ls, Countable lefts step)
    (countable' : ∀ step ∈ rs, Countable rights step) (lengths : ls.length = rs.length) :
    List.Forall₂ (StepsAgree lefts rights) ls rs ↔
      List.Forall₂ (fun left right => SameArgumentShape numberText left.arguments right.arguments)
        ls rs ∧
      positions numberText lefts before ls = positions numberText rights before' rs := by
  induction ls generalizing rs before before' with
  | nil =>
      cases List.eq_nil_of_length_eq_zero lengths.symm
      simp [positions]
  | cons left ls ih =>
      cases rs with
      | nil => cases lengths
      | cons right rs =>
          rw [List.forall_mem_cons] at countable countable'
          obtain ⟨called, onwards⟩ := hashSteps_live live
          obtain ⟨called', onwards'⟩ := hashSteps_live live'
          rw [onwards] at live same
          rw [onwards'] at live' same
          obtain ⟨metadata, clean, fed⟩ := stepEnd_fed literals lefts called
          obtain ⟨metadata', clean', fed'⟩ := stepEnd_fed literals rights called'
          obtain ⟨tail, whole⟩ := hashSteps_extends literals live
          obtain ⟨tail', whole'⟩ := hashSteps_extends literals live'
          have ends := whole.symm.trans (same.trans whole')
          have blocks : blockBytes numberText lefts left ++ (metadata ++ tail) =
              blockBytes numberText rights right ++ (metadata' ++ tail') := by
            rw [fed, fed', start] at ends
            simp only [List.append_assoc] at ends
            exact List.append_cancel_left ends
          have others := fun startNext => ih startNext live live' same countable.2 countable'.2
            (Nat.succ.inj lengths)
          rw [List.forall₂_cons, List.forall₂_cons, positions, positions, start, List.cons.injEq]
          constructor
          · rintro ⟨agree, rest⟩
            have shape : SameArgumentShape numberText left.arguments right.arguments := by
              rw [SameArgumentShape, agree.arguments]
              exact sameShape_refl _
            obtain ⟨-, behind⟩ := blockBytes_append literals countable.1 countable'.1 shape blocks
            cases rest with
            | nil =>
                refine ⟨⟨shape, .nil⟩, rfl, ?_⟩
                rw [positions, positions]
            | cons next later =>
                obtain ⟨more, continues⟩ := hashSteps_tail literals live
                obtain ⟨more', continues'⟩ := hashSteps_tail literals live'
                have tails := List.append_cancel_left (whole.symm.trans continues)
                have tails' := List.append_cancel_left (whole'.symm.trans continues')
                have metadataSame : metadata = metadata' := by
                  rw [tails, tails'] at behind
                  exact metadata_read literals clean clean' next behind
                have startNext : (stepEnd numberText lefts before left).fed =
                    (stepEnd numberText rights before' right).fed := by
                  rw [behind] at blocks
                  rw [fed, fed', start, metadataSame, List.append_cancel_right blocks]
                obtain ⟨shapes, places⟩ := (others startNext).mp (.cons next later)
                exact ⟨⟨shape, shapes⟩, rfl, places⟩
          · rintro ⟨⟨shape, shapes⟩, -, places⟩
            obtain ⟨agree, -⟩ := blockBytes_append literals countable.1 countable'.1 shape blocks
            refine ⟨agree, ?_⟩
            cases shapes with
            | nil => exact .nil
            | cons next later =>
                rw [positions, positions, List.cons.injEq] at places
                obtain ⟨startNext, -⟩ := List.append_inj ends places.1
                apply (others startNext).mpr
                rw [positions, positions, List.cons.injEq]
                exact ⟨.cons next later, places⟩

/-! ## Whole plans -/

theorem hashHeader_length (left right : ExecutableDag) :
    (hashHeader left).fed.length = (hashHeader right).fed.length := by
  simp only [hashHeader, cstring_fed, u32_fed, u64_fed, List.length_append, length_little]

theorem hashHeader_steps {left right : ExecutableDag}
    (leftBound : left.steps.length < 18446744073709551616)
    (rightBound : right.steps.length < 18446744073709551616)
    (same : (hashHeader left).fed = (hashHeader right).fed) :
    left.steps.length = right.steps.length := by
  simp only [hashHeader, u64_fed] at same
  obtain ⟨-, counts⟩ := List.append_inj' same (by rw [length_little, length_little])
  apply count_inj leftBound rightBound
  apply UInt64.toNat_inj.mp
  exact little_inj (UInt64.toNat_lt _) (UInt64.toNat_lt _) counts

theorem dependencyIds_eq {names : List CString}
    (known : List.Forall₂ (fun name index => (steps[index]?).map Step.stepId = some name) names
      step.dependencies) : dependencyIds steps step = names := by
  rw [dependencyIds]
  generalize step.dependencies = indices at known
  induction known with
  | nil => rfl
  | cons here _ ih => simp only [List.filterMap_cons, here, ih]

theorem countable_of_sound {reading : ToolSchema.Reading} {config : Config} {registry : Registry}
    {source : Source} {plan : ExecutableDag}
    (sound : Sound numberText reading config registry source plan)
    (small : plan.steps.length ≤ maxSteps) (member : step ∈ plan.steps) :
    Countable plan.steps step := by
  obtain ⟨origin, -, distinct, known⟩ := Lists.forall₂_right sound.dependencies member
  obtain ⟨origin', -, entry, stepSound⟩ := Lists.forall₂_right sound.steps member
  constructor
  · rw [dependencyIds_eq known, known.length_eq]
  · have within : step.dependencies ⊆ List.range plan.steps.length := by
      intro index listed
      obtain ⟨name, -, found⟩ := Lists.forall₂_right known listed
      rw [List.mem_range]
      by_contra beyond
      rw [List.getElem?_eq_none (Nat.le_of_not_lt beyond)] at found
      cases found
    have bound := (List.subperm_of_subset distinct within).length_le
    rw [List.length_range] at bound
    rw [maxSteps] at small
    omega
  · rw [stepSound.capabilities, sortStrings, List.length_insertionSort, effectiveCapabilities]
    split
    next => decide
    next => exact entry.valid.counted

theorem AdmittedDag.hashed {plan : ExecutableDag} (admitted : AdmittedDag numberText plan) :
    (computeHash numberText plan).hash ≠ 0 ∧ plan.steps.length ≤ maxSteps ∧
      ∀ step ∈ plan.steps, Countable plan.steps step := by
  obtain ⟨double, config, registry, source, compiled⟩ := admitted
  have sound := compileDag_sound compiled
  obtain ⟨valid, -, _, _, _, -, -, -, -, live, same⟩ := compileDag_eq_ok compiled
  have small : plan.steps.length ≤ maxSteps := by
    rw [← sound.steps.length_eq]
    exact valid.2.2.2.2
  refine ⟨?_, small, fun step member => countable_of_sound sound small member⟩
  rw [same]
  exact live

/-- Admitted plans that feed the same bytes agree exactly when their arguments have the same shape
and their steps begin at the same places. -/
theorem dagsAgree_iff (literals : Literals numberText) {left right : ExecutableDag}
    (admitted : AdmittedDag numberText left) (admitted' : AdmittedDag numberText right)
    (same : (computeHash numberText left).fed = (computeHash numberText right).fed) :
    DagsAgree left right ↔
      List.Forall₂ (fun left right => SameArgumentShape numberText left.arguments right.arguments)
        left.steps right.steps ∧
      stepPositions numberText left = stepPositions numberText right := by
  obtain ⟨live, small, countable⟩ := admitted.hashed
  obtain ⟨live', small', countable'⟩ := admitted'.hashed
  obtain ⟨tail, whole⟩ := hashSteps_extends literals live
  obtain ⟨tail', whole'⟩ := hashSteps_extends literals live'
  obtain ⟨headers, -⟩ := List.append_inj (whole.symm.trans (same.trans whole'))
    (hashHeader_length left right)
  rw [maxSteps] at small small'
  have lengths := hashHeader_steps (by omega) (by omega) headers
  exact hashSteps_agree_iff literals headers live live' same countable countable' lengths

/-! ## Plans of one call -/

/-- The bytes of a plan of one call in front of its id. -/
def templateBytes (plan : ExecutablePlan) : List UInt8 :=
  stringBytes "TurboAgent.ExecutablePlan.v1" ++ (stringBytes plan.descriptor.name.1 ++
    (little 4 plan.descriptor.version.toNat ++ stringBytes plan.descriptor.inputContract.1))

theorem executablePlanHash_fed {plan : ExecutablePlan}
    (literals : Literals numberText) (live : (executablePlanHash numberText plan).hash ≠ 0) :
    ∃ rest, (executablePlanHash numberText plan).fed = templateBytes plan ++
      (stringBytes plan.stepId.1 ++ (stringBytes plan.toolName.1 ++
        (jsonBytes numberText plan.arguments.value ++
          (little 4 (modeCode plan.policy.mode).toNat ++
            (little 4 (idempotencyCode plan.policy.idempotency).toNat ++ rest))))) := by
  simp only [executablePlanHash] at live ⊢
  split at live
  next zero => exact absurd zero live
  next nonzero =>
    rw [if_neg nonzero]
    have called := (hashJson_feeds _ plan.arguments.value).nonzero nonzero
    obtain ⟨metadata, -, fed⟩ := hashMetadata_fed literals _ plan.executionMetadata
    rw [fed, foldl_cstring_fed, u32_fed, u32_fed, called]
    simp only [templateBytes, modeCode, idempotencyCode, cstring_fed, u32_fed, List.append_assoc,
      Accumulator.start, List.nil_append]
    exact ⟨_, rfl⟩

theorem AdmittedPlan.hashed {plan : ExecutablePlan} (admitted : AdmittedPlan numberText plan) :
    (executablePlanHash numberText plan).hash ≠ 0 := by
  obtain ⟨double, config, registry, source, compiled⟩ := admitted
  simp only [compilePlan, Outcome.bind_eq_ok, Outcome.require_eq_ok, Outcome.pure_eq_ok] at compiled
  obtain ⟨_, -, _, -, _, -, _, -, _, -, _, -, _, -, _, -, _, -, _, -, _, -, _, live, rfl⟩ := compiled
  exact live

/-- Admitted plans of one call that feed the same bytes agree exactly when their arguments have
the same shape. -/
theorem plansAgree_iff (literals : Literals numberText) {left right : ExecutablePlan}
    (admitted : AdmittedPlan numberText left) (admitted' : AdmittedPlan numberText right)
    (same : (executablePlanHash numberText left).fed = (executablePlanHash numberText right).fed) :
    PlansAgree left right ↔ SameArgumentShape numberText left.arguments right.arguments := by
  constructor
  · intro agree
    rw [SameArgumentShape, agree.arguments]
    exact sameShape_refl _
  · intro shape
    obtain ⟨rest, bytes⟩ := executablePlanHash_fed literals admitted.hashed
    obtain ⟨rest', bytes'⟩ := executablePlanHash_fed literals admitted'.hashed
    rw [bytes, bytes'] at same
    simp only [templateBytes, List.append_assoc] at same
    obtain ⟨-, same⟩ := stringBytes_framed (List.append_cancel_left same)
    obtain ⟨-, same⟩ := u32_framed same
    obtain ⟨-, same⟩ := stringBytes_framed same
    obtain ⟨ids, same⟩ := stringBytes_framed same
    obtain ⟨names, same⟩ := stringBytes_framed same
    obtain ⟨arguments, same⟩ := orderedBytes_append literals _ _ shape
      (sortKeys_plainKeys _ left.arguments.plainKeys)
      (sortKeys_plainKeys _ right.arguments.plainKeys) same
    obtain ⟨modes, same⟩ := u32_framed same
    obtain ⟨idempotencies, -⟩ := u32_framed same
    exact ⟨ids, names, policy_eq modes idempotencies, arguments⟩

end

def literalText (mantissa : Int) (exponent : Nat) : List UInt8 :=
  ((if mantissa < 0 then [45] else []) ++ decimal mantissa.natAbs) ++ 101 :: 45 :: decimal exponent

theorem sign_bytes {mantissa : Int} {byte : UInt8}
    (member : byte ∈ (if mantissa < 0 then [45] else []) ++ decimal mantissa.natAbs) :
    45 ≤ byte.toNat ∧ byte.toNat ≤ 57 := by
  rcases List.mem_append.mp member with sign | digit
  · split at sign
    next =>
      rw [List.mem_singleton.mp sign]
      decide
    next => cases sign
  · have bounds := decimal_digits digit
    omega

theorem mantissa_injective {left right : Int}
    (same : (if left < 0 then [45] else []) ++ decimal left.natAbs =
      (if right < 0 then [45] else []) ++ decimal right.natAbs) : left = right := by
  have noSign : ∀ value rest, decimal value ≠ 45 :: rest := by
    intro value rest begins
    have bounds := decimal_digits (begins ▸ List.mem_cons_self)
    revert bounds
    decide
  split at same
  next leftSign =>
    split at same
    next rightSign =>
      have sizes := decimal_injective (List.append_cancel_left same)
      omega
    next => exact absurd same.symm (noSign _ _)
  next leftSign =>
    split at same
    next => exact absurd same (noSign _ _)
    next rightSign =>
      have sizes := decimal_injective same
      omega

theorem literalText_literals : Literals literalText where
  injective := by
    intro mantissa mantissa' exponent exponent' same
    have clean : ∀ mantissa : Int,
        101 ∉ (if mantissa < 0 then [45] else []) ++ decimal mantissa.natAbs := by
      intro mantissa member
      have bounds := sign_bytes member
      revert bounds
      decide
    obtain ⟨fronts, backs⟩ := Framed.split_at_mark (clean mantissa) (clean mantissa') same
    exact ⟨mantissa_injective fronts, decimal_injective (List.cons.inj backs).2⟩
  noZero := by
    intro mantissa exponent member
    rcases List.mem_append.mp member with front | back
    · have bounds := sign_bytes front
      revert bounds
      decide
    · simp only [List.mem_cons] at back
      rcases back with mark | sign | digit
      · revert mark
        decide
      · revert sign
        decide
      · have bounds := decimal_digits digit
        revert bounds
        decide

theorem emptyArray_keys : ["a", "null"].Nodup := by decide

def emptyArray : Document where
  value := .object [("a", .array []), ("null", .null)]
  keyed := ⟨emptyArray_keys, trivial, trivial, trivial⟩
  plainKeys := ⟨rfl, trivial, rfl, trivial, trivial⟩

def twoNulls : Document where
  value := .object [("a", .array [.null, .null])]
  keyed := ⟨List.nodup_singleton _, ⟨trivial, trivial, trivial⟩, trivial⟩
  plainKeys := ⟨rfl, ⟨trivial, trivial, trivial⟩, trivial⟩

def roomyConfig : Config where
  allowedCapabilities := []
  denyUnlistedCapabilities := false
  maxSourceBytes := 64
  maxArgumentBytes := 64
  maxArgumentNodes := 64
  maxArgumentDepth := 64

def callSource (arguments : Document) : Source where
  steps := [⟨singleStep, anyTool.name, some arguments, [], 0, 0⟩]
  replanBudget := 0
  template := none

def compileCall (arguments : Document) : Compiled ExecutableDag :=
  compileDag literalText ToolSchema.exactDouble roomyConfig anyRegistry (callSource arguments)

theorem DagsAgree.arguments {left right : ExecutableDag} (agree : DagsAgree left right) :
    left.steps.map (fun step => sortKeys step.arguments.value) =
      right.steps.map fun step => sortKeys step.arguments.value := by
  rw [← List.forall₂_eq_eq_eq, List.forall₂_map_left_iff, List.forall₂_map_right_iff]
  exact agree.imp fun _ _ steps => steps.arguments

end TurboAgent.AgentCompiler
