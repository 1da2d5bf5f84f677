import TurboAgent.Router.Run

/-!
# The choice of an endpoint

One pass over the endpoints keeps the first one of least cost among those that are offered, and
notes whether a busy one could have served the request.  The cost is computed in `uint64_t`.
-/

namespace TurboAgent.Router

/-! ## Costs -/

/-- The arithmetic of `router_estimated_cost`. -/
def costMicros (inputTokens inputPrice outputTokens outputPrice : UInt64) : UInt64 :=
  (inputTokens * inputPrice + 999999) / 1000000 + (outputTokens * outputPrice + 999999) / 1000000

def chargedTurns (maxModelTurns : Nat) : Nat :=
  if maxModelTurns = 0 then 1 else maxModelTurns

/-- The cost of a task at an endpoint as `router_submit` computes it. -/
def taskCost (config : EndpointConfig) (request : Request) (maxModelTurns : Nat) : UInt64 :=
  costMicros (.ofNat request.inputTokens) (.ofNat config.inputPriceMicros)
    (.ofNat request.outputTokens) (.ofNat config.outputPriceMicros) *
      .ofNat (chargedTurns maxModelTurns)

theorem roundedCost_toNat {tokens price : UInt64} (tokensBound : tokens.toNat ≤ 1000000)
    (priceBound : price.toNat ≤ 1000000000) :
    ((tokens * price + 999999) / 1000000).toNat = (tokens.toNat * price.toNat + 999999) / 1000000 ∧
      ((tokens * price + 999999) / 1000000).toNat ≤ 1000000000 := by
  have product : tokens.toNat * price.toNat ≤ 1000000 * 1000000000 :=
    Nat.mul_le_mul tokensBound priceBound
  have added : (999999 : UInt64).toNat = 999999 := rfl
  have unit : (1000000 : UInt64).toNat = 1000000 := rfl
  have exact : ((tokens * price + 999999) / 1000000).toNat =
      (tokens.toNat * price.toNat + 999999) / 1000000 := by
    rw [UInt64.toNat_div, UInt64.toNat_add, UInt64.toNat_mul, added, unit,
      Nat.mod_eq_of_lt (a := tokens.toNat * price.toNat) (by omega), Nat.mod_eq_of_lt (by omega)]
  exact ⟨exact, by omega⟩

theorem costMicros_toNat {inputTokens inputPrice outputTokens outputPrice : UInt64}
    (input : inputTokens.toNat ≤ 1000000) (priceIn : inputPrice.toNat ≤ 1000000000)
    (output : outputTokens.toNat ≤ 1000000) (priceOut : outputPrice.toNat ≤ 1000000000) :
    (costMicros inputTokens inputPrice outputTokens outputPrice).toNat =
      (inputTokens.toNat * inputPrice.toNat + 999999) / 1000000 +
        (outputTokens.toNat * outputPrice.toNat + 999999) / 1000000 ∧
    (costMicros inputTokens inputPrice outputTokens outputPrice).toNat ≤ 2000000000 := by
  obtain ⟨inputExact, inputBound⟩ := roundedCost_toNat input priceIn
  obtain ⟨outputExact, outputBound⟩ := roundedCost_toNat output priceOut
  rw [costMicros, UInt64.toNat_add, Nat.mod_eq_of_lt (by omega), ← inputExact, ← outputExact]
  exact ⟨rfl, by omega⟩

theorem EndpointConfig.prices_le {config : EndpointConfig} {agent : Nat}
    (valid : config.valid agent = true) :
    config.inputPriceMicros ≤ 1000000000 ∧ config.outputPriceMicros ≤ 1000000000 := by
  simp only [EndpointConfig.valid, Bool.and_eq_true, decide_eq_true_eq] at valid
  exact ⟨valid.1.2, valid.2⟩

structure Request.Bounds (request : Request) : Prop where
  difficulty : request.difficulty ≤ 100
  capabilities : request.requiredCapabilities ≠ 0 ∧ request.requiredCapabilities ≤ 7
  inputTokens : request.inputTokens ≠ 0 ∧ request.inputTokens ≤ 1000000
  outputTokens : request.outputTokens ≠ 0 ∧ request.outputTokens ≤ 1000000
  budget : request.budgetMicros ≤ maxExactInteger
  timeout : request.timeoutMs ≠ 0 ∧ request.timeoutMs ≤ 86400000
  heartbeat : request.heartbeatTimeoutMs ≠ 0 ∧ request.heartbeatTimeoutMs ≤ request.timeoutMs
  threadId : idValid request.threadId 64 = true
  parentRunId : request.parentRunId ≠ ""

theorem Request.bounds_of_valid {request : Request} (valid : request.valid = true) :
    request.Bounds := by
  simp only [Request.valid, Bool.and_eq_true, decide_eq_true_eq, ne_eq] at valid
  obtain ⟨⟨⟨⟨⟨⟨⟨⟨⟨⟨⟨⟨⟨difficulty, someInput⟩, input⟩, someCapability⟩, capabilities⟩, someOutput⟩,
    output⟩, budget⟩, someTime⟩, time⟩, someHeartbeat⟩, heartbeat⟩, threadId⟩, parentRunId⟩ := valid
  exact ⟨difficulty, ⟨someCapability, capabilities⟩, ⟨someInput, input⟩, ⟨someOutput, output⟩,
    budget, ⟨someTime, time⟩, ⟨someHeartbeat, heartbeat⟩, threadId, parentRunId⟩

theorem chargedTurns_le {maxModelTurns : Nat} (turns : maxModelTurns ≤ maxModelTurnsLimit) :
    chargedTurns maxModelTurns ≤ 16 := by
  rw [chargedTurns]
  split
  next => decide
  next => exact turns

theorem taskCost_toNat {config : EndpointConfig} {request : Request} {maxModelTurns agent : Nat}
    (isConfig : config.valid agent = true) (isRequest : request.valid = true)
    (turns : maxModelTurns ≤ maxModelTurnsLimit) :
    (taskCost config request maxModelTurns).toNat =
      State.estimatedCost config request * chargedTurns maxModelTurns := by
  obtain ⟨priceIn, priceOut⟩ := EndpointConfig.prices_le isConfig
  have bounds := Request.bounds_of_valid isRequest
  have charged := chargedTurns_le turns
  have small : ∀ {number : Nat}, number ≤ 1000000000 → (UInt64.ofNat number).toNat = number :=
    fun bounded => UInt64.toNat_ofNat_of_lt' (by
      show _ < 18446744073709551616
      omega)
  have input := small (Nat.le_trans bounds.inputTokens.2 (by decide))
  have output := small (Nat.le_trans bounds.outputTokens.2 (by decide))
  obtain ⟨exact, bounded⟩ := @costMicros_toNat (.ofNat request.inputTokens)
    (.ofNat config.inputPriceMicros) (.ofNat request.outputTokens) (.ofNat config.outputPriceMicros)
    (input.le.trans bounds.inputTokens.2) ((small priceIn).le.trans priceIn)
    (output.le.trans bounds.outputTokens.2) ((small priceOut).le.trans priceOut)
  have product := Nat.mul_le_mul bounded charged
  rw [taskCost, UInt64.toNat_mul, small (charged.trans (by decide)), Nat.mod_eq_of_lt (by omega),
    exact, input, output, small priceIn, small priceOut]
  rfl

/-! ## The pass over the endpoints -/

namespace State

/-- The endpoint can serve the request within its budget, whatever its registry. -/
def serves (request : Request) (maxModelTurns : Nat) (config : EndpointConfig) : Bool :=
  config.roles &&& request.role.bit ≠ 0 && request.difficulty ≤ config.maxDifficulty &&
  (config.capabilities &&& request.requiredCapabilities) = request.requiredCapabilities &&
  request.inputTokens ≤ config.maxInputTokens && request.outputTokens ≤ config.maxOutputTokens &&
  estimatedCost config request * chargedTurns maxModelTurns ≤ request.budgetMicros

variable (state : State) (request : Request) (maxModelTurns : Nat) (world : SubmitWorld)
  (parent : Authority)

/-- An idle endpoint that can serve the request and whose authority the parent has. -/
def offer (candidate : Endpoint × Nat) : Option Selection :=
  if state.qualified request maxModelTurns candidate.1.config && !candidate.1.busy then
    ((world.childAuthority candidate.2).filter fun child =>
      child.capabilityMask &&& parent.capabilityMask = child.capabilityMask).map fun child =>
        ⟨candidate.2, child, estimatedCost candidate.1.config request * chargedTurns maxModelTurns⟩
  else none

/-- The endpoints that are offered, in the order of the configuration. -/
def offers : List Selection :=
  state.endpoints.zipIdx.filterMap (state.offer request maxModelTurns world parent)

def occupied : Bool :=
  state.endpoints.any fun endpoint =>
    state.qualified request maxModelTurns endpoint.config && endpoint.busy

variable {state request maxModelTurns world parent}

theorem qualified_eq (config : EndpointConfig) : state.qualified request maxModelTurns config =
    (serves request maxModelTurns config &&
      (maxModelTurns = 0 || config.registry = state.authorityRegistry)) := by
  rw [qualified, serves, chargedTurns]
  simp only [Bool.and_assoc]
  congr 5
  exact Bool.and_comm _ _

theorem argAux_none (selection : Selection) :
    List.argAux (fun other best : Selection => other.cost < best.cost) none selection =
      some selection := rfl

theorem argAux_some (best selection : Selection) :
    List.argAux (fun other best : Selection => other.cost < best.cost) (some best) selection =
      if selection.cost < best.cost then some selection else some best := rfl

theorem consider_eq (chosen : Option Selection × Bool) (candidate : Endpoint × Nat) :
    state.consider request maxModelTurns world parent chosen candidate =
      (((state.offer request maxModelTurns world parent candidate).elim chosen.1
        fun selection => List.argAux (fun other best => other.cost < best.cost) chosen.1 selection),
        chosen.2 || state.qualified request maxModelTurns candidate.1.config &&
          candidate.1.busy) := by
  obtain ⟨best, busy⟩ := chosen
  have folded : (if maxModelTurns = 0 then 1 else maxModelTurns) = chargedTurns maxModelTurns := rfl
  rw [consider, offer, folded]
  generalize estimatedCost candidate.1.config request * chargedTurns maxModelTurns = cost
  cases state.qualified request maxModelTurns candidate.1.config with
  | false => simp
  | true =>
      cases candidate.1.busy with
      | true => simp
      | false =>
          cases world.childAuthority candidate.2 with
          | none => simp
          | some child =>
              by_cases contained :
                  child.capabilityMask &&& parent.capabilityMask = child.capabilityMask
              · have kept : Option.filter (fun child : Authority => decide
                    (child.capabilityMask &&& parent.capabilityMask = child.capabilityMask))
                      (some child) = some child := if_pos (decide_eq_true contained)
                simp only [Bool.not_true, Bool.not_false, Bool.and_self, Bool.false_eq_true,
                  if_true, if_false, kept, Option.map_some, Option.elim_some, ne_eq, contained,
                  not_true_eq_false, Bool.and_false, Bool.or_false]
                cases best with
                | none => rw [argAux_none, Option.all_none, if_pos rfl]
                | some best =>
                    rw [argAux_some, Option.all_some]
                    by_cases cheaper : cost < best.cost
                    · rw [if_pos (decide_eq_true cheaper), if_pos cheaper]
                    · rw [if_neg (by simpa using cheaper), if_neg cheaper]
              · have refused : Option.filter (fun child : Authority => decide
                    (child.capabilityMask &&& parent.capabilityMask = child.capabilityMask))
                      (some child) = none := if_neg (by simpa using contained)
                simp only [refused]
                simp [contained]

theorem select_eq : state.select request maxModelTurns world parent =
    ((state.offers request maxModelTurns world parent).argmin Selection.cost,
      state.occupied request maxModelTurns) := by
  have loop : ∀ (candidates : List (Endpoint × Nat)) (best : Option Selection) (busy : Bool),
      candidates.foldl (state.consider request maxModelTurns world parent) (best, busy) =
        ((candidates.filterMap (state.offer request maxModelTurns world parent)).foldl
          (List.argAux fun other best => other.cost < best.cost) best,
          busy || candidates.any fun candidate =>
            state.qualified request maxModelTurns candidate.1.config && candidate.1.busy) := by
    intro candidates
    induction candidates with
    | nil => simp
    | cons candidate candidates ih =>
        intro best busy
        rw [List.foldl_cons, consider_eq, ih, List.filterMap_cons, List.any_cons, Bool.or_assoc]
        cases state.offer request maxModelTurns world parent candidate <;> rfl
  rw [select, loop, Bool.false_or, offers, List.argmin, occupied]
  have unindexed : state.endpoints.zipIdx.any (fun candidate =>
      state.qualified request maxModelTurns candidate.1.config && candidate.1.busy) =
        state.endpoints.any fun endpoint =>
          state.qualified request maxModelTurns endpoint.config && endpoint.busy := by
    conv_rhs => rw [← List.zipIdx_map_fst 0 state.endpoints, List.any_map]
    rfl
  rw [unindexed]

/-! ## What is chosen -/

/-- An endpoint that may be chosen for a request at a cost. -/
structure Offered (state : State) (request : Request) (maxModelTurns : Nat) (world : SubmitWorld)
    (parent : Authority) (selection : Selection) (endpoint : Endpoint) : Prop where
  there : state.endpoints[selection.index]? = some endpoint
  serves : serves request maxModelTurns endpoint.config = true
  registry : maxModelTurns ≠ 0 → endpoint.config.registry = state.authorityRegistry
  idle : endpoint.busy = false
  authority : world.childAuthority selection.index = some selection.authority
  contained : selection.authority.capabilityMask &&& parent.capabilityMask =
    selection.authority.capabilityMask
  cost : selection.cost = estimatedCost endpoint.config request * chargedTurns maxModelTurns

theorem qualified_iff (config : EndpointConfig) :
    state.qualified request maxModelTurns config = true ↔
      serves request maxModelTurns config = true ∧
        (maxModelTurns ≠ 0 → config.registry = state.authorityRegistry) := by
  rw [qualified_eq, Bool.and_eq_true, Bool.or_eq_true, decide_eq_true_eq, decide_eq_true_eq]
  exact and_congr_right fun _ => or_iff_not_imp_left

variable {selection : Selection}

theorem offer_index {candidate : Endpoint × Nat}
    (offered : state.offer request maxModelTurns world parent candidate = some selection) :
    selection.index = candidate.2 := by
  rw [offer] at offered
  split at offered
  next =>
    obtain ⟨child, -, rfl⟩ := Option.map_eq_some_iff.mp offered
    rfl
  next => cases offered

theorem offer_iff {candidate : Endpoint × Nat}
    (there : state.endpoints[candidate.2]? = some candidate.1) :
    state.offer request maxModelTurns world parent candidate = some selection ↔
      candidate.2 = selection.index ∧
        Offered state request maxModelTurns world parent selection candidate.1 := by
  rw [offer]
  constructor
  · intro offered
    split at offered
    next qualified =>
      obtain ⟨child, known, rfl⟩ := Option.map_eq_some_iff.mp offered
      obtain ⟨known, contained⟩ := Option.filter_eq_some_iff.mp known
      rw [Bool.and_eq_true, qualified_iff] at qualified
      obtain ⟨⟨serves, registry⟩, idle⟩ := qualified
      exact ⟨rfl, there, serves, registry, by simpa using idle, known, of_decide_eq_true contained,
        rfl⟩
    next => cases offered
  · rintro ⟨same, offered⟩
    have qualified : (state.qualified request maxModelTurns candidate.1.config &&
        !candidate.1.busy) = true := by
      rw [Bool.and_eq_true, qualified_iff]
      exact ⟨⟨offered.serves, offered.registry⟩, by rw [offered.idle]; rfl⟩
    rw [if_pos qualified, Option.map_eq_some_iff]
    refine ⟨selection.authority, Option.filter_eq_some_iff.mpr ⟨?_, ?_⟩, ?_⟩
    · rw [same]
      exact offered.authority
    · exact decide_eq_true offered.contained
    · rw [same, ← offered.cost]

theorem mem_offers :
    selection ∈ state.offers request maxModelTurns world parent ↔
      ∃ endpoint, Offered state request maxModelTurns world parent selection endpoint := by
  rw [offers, List.mem_filterMap]
  constructor
  · rintro ⟨candidate, member, offered⟩
    have there := List.mk_mem_zipIdx_iff_getElem?.mp member
    exact ⟨candidate.1, ((offer_iff there).mp offered).2⟩
  · rintro ⟨endpoint, offered⟩
    exact ⟨(endpoint, selection.index), List.mk_mem_zipIdx_iff_getElem?.mpr offered.there,
      (offer_iff offered.there).mpr ⟨rfl, offered⟩⟩

/-- The first endpoint of least cost among those that may be chosen. -/
structure Optimal (state : State) (request : Request) (maxModelTurns : Nat) (world : SubmitWorld)
    (parent : Authority) (selection : Selection) : Prop where
  offered : ∃ endpoint, Offered state request maxModelTurns world parent selection endpoint
  least : ∀ other endpoint, Offered state request maxModelTurns world parent other endpoint →
    selection.cost ≤ other.cost
  first : ∀ other endpoint, Offered state request maxModelTurns world parent other endpoint →
    other.cost = selection.cost → selection.index ≤ other.index

theorem offers_ordered : (state.offers request maxModelTurns world parent).Pairwise
    fun left right => left.index < right.index := by
  have candidates : state.endpoints.zipIdx.Pairwise fun left right => left.2 < right.2 := by
    rw [← List.pairwise_map, List.zipIdx_map_snd]
    exact List.pairwise_lt_range'
  refine candidates.filterMap _ fun left right before selection offered other others => ?_
  rw [offer_index offered, offer_index others]
  exact before

variable {busy : Bool}

theorem select_optimal
    (selected : state.select request maxModelTurns world parent = (some selection, busy)) :
    state.Optimal request maxModelTurns world parent selection := by
  rw [select_eq] at selected
  obtain ⟨member, least, first⟩ := List.argmin_eq_some_iff.mp (congrArg Prod.fst selected)
  refine ⟨mem_offers.mp member, ?_, ?_⟩
  · exact fun other endpoint offered => least other (mem_offers.mpr ⟨endpoint, offered⟩)
  · intro other endpoint offered same
    have isOther := mem_offers.mpr ⟨endpoint, offered⟩
    have ahead := first other isOther same.le
    rcases Nat.lt_or_eq_of_le ahead with before | together
    · have ordered : (state.offers request maxModelTurns world parent).Pairwise
          fun left right => left.index < right.index := offers_ordered
      have indices := List.pairwise_iff_getElem.mp ordered _ _ (List.idxOf_lt_length_of_mem member)
        (List.idxOf_lt_length_of_mem isOther) before
      rw [List.getElem_idxOf, List.getElem_idxOf] at indices
      exact indices.le
    · rw [(List.idxOf_inj member).mp together]

theorem select_none :
    state.select request maxModelTurns world parent = (none, busy) ↔
      (∀ selection endpoint,
        ¬Offered state request maxModelTurns world parent selection endpoint) ∧
      state.occupied request maxModelTurns = busy := by
  rw [select_eq, Prod.mk.injEq, List.argmin_eq_none]
  refine and_congr_left fun _ => ⟨?_, ?_⟩
  · intro empty selection endpoint offered
    have member := mem_offers.mpr ⟨endpoint, offered⟩
    rw [empty] at member
    exact List.not_mem_nil member
  · intro refused
    rw [List.eq_nil_iff_forall_not_mem]
    intro selection member
    obtain ⟨endpoint, offered⟩ := mem_offers.mp member
    exact refused selection endpoint offered

theorem occupied_iff : state.occupied request maxModelTurns = true ↔
    ∃ endpoint ∈ state.endpoints, endpoint.busy = true ∧
      serves request maxModelTurns endpoint.config = true ∧
      (maxModelTurns ≠ 0 → endpoint.config.registry = state.authorityRegistry) := by
  rw [occupied, List.any_eq_true]
  refine exists_congr fun endpoint => and_congr_right fun _ => ?_
  rw [Bool.and_eq_true, qualified_iff]
  exact and_comm

/-! ## Submissions -/

/-- A request that passes the checks of its fields. -/
structure Requested (state : State) (request : Request) (maxModelTurns : Nat)
    (admission : Option (Nat × String)) : Prop where
  host : state.hostRefused admission = false
  valid : request.valid = true
  turns : maxModelTurns ≠ 0 → 2 ≤ maxModelTurns ∧ maxModelTurns ≤ maxModelTurnsLimit ∧
    request.role = .execute ∧ request.requiredCapabilities &&& toolProposals ≠ 0

def LaneClosed (state : State) (maxModelTurns : Nat) : Prop :=
  state.toolTaskLimit = 1 ∧ state.toolTaskCount ≠ 0 ∨
    maxModelTurns ≠ 0 ∧ (state.toolTaskLimit ≤ state.toolTaskCount ∨
      state.toolTaskLimit = 1 ∧ state.anyBusy = true)

variable {admission : Option (Nat × String)}

theorem checkAdmission_busy (requested : state.Requested request maxModelTurns admission) :
    state.checkAdmission request maxModelTurns world = .error .ebusy ↔
      state.LaneClosed maxModelTurns := by
  have admitted : ¬(maxModelTurns ≠ 0 ∧ (maxModelTurns < 2 ∨ maxModelTurnsLimit < maxModelTurns ∨
      request.role ≠ .execute ∨ request.requiredCapabilities &&& toolProposals = 0)) := by
    rintro ⟨loop, few | many | plan | silent⟩
    · exact absurd (requested.turns loop).1 (Nat.not_le.mpr few)
    · exact absurd (requested.turns loop).2.1 (Nat.not_le.mpr many)
    · exact plan (requested.turns loop).2.2.1
    · exact (requested.turns loop).2.2.2 silent
  rw [checkAdmission, requested.valid, if_neg (by simp), if_neg admitted, LaneClosed]
  split
  next single => exact iff_of_true rfl (.inl single)
  next notSingle =>
    split
    next full => exact iff_of_true rfl (.inr ⟨full.1, .inl full.2⟩)
    next notFull =>
      split
      next alone => exact iff_of_true rfl (.inr ⟨alone.1, .inr alone.2⟩)
      next notAlone =>
        refine iff_of_false ?_ ?_
        · split
          next => simp
          next =>
            split
            next => simp
            next => split <;> simp
        · rintro (single | ⟨loop, full | alone⟩)
          · exact notSingle single
          · exact notFull ⟨loop, full⟩
          · exact notAlone ⟨loop, alone⟩

theorem submit_unselected (host : state.hostRefused admission = false)
    (admitted : state.checkAdmission request maxModelTurns world = .ok parent)
    (selected : state.select request maxModelTurns world parent = (none, busy)) :
    state.submit request maxModelTurns admission world =
      (if busy then .ebusy else .enoent, state) := by
  simp only [submit, host, Bool.false_eq_true, if_false, admitted, selected]

theorem submit_selected (host : state.hostRefused admission = false)
    (admitted : state.checkAdmission request maxModelTurns world = .ok parent)
    (selected : state.select request maxModelTurns world parent = (some selection, busy)) :
    state.submit request maxModelTurns admission world =
      if uint64Max - world.nowMs < request.timeoutMs then (.erange, state)
      else if world.built ≠ .ok then (world.built, state)
      else state.start (buildTask state.nextHandle request maxModelTurns
        (admission.map (·.2)) world parent selection) world.started := by
  simp only [submit, host, Bool.false_eq_true, if_false, admitted, selected]

theorem submit_refused {status : Status} (host : state.hostRefused admission = false)
    (refused : state.checkAdmission request maxModelTurns world = .error status) :
    state.submit request maxModelTurns admission world = (status, state) := by
  simp only [submit, host, Bool.false_eq_true, if_false, refused]

theorem start_status (task : Task) (started : Status) : (state.start task started).1 = started := by
  by_cases done : started = .ok
  · rw [done, start_ok]
  · simp only [State.start, ne_eq, done, not_false_eq_true, if_true]

theorem submit_optimal (host : state.hostRefused admission = false)
    (done : (state.submit request maxModelTurns admission world).1 = .ok) :
    ∃ parent selection, state.checkAdmission request maxModelTurns world = .ok parent ∧
      state.Optimal request maxModelTurns world parent selection ∧
      (state.submit request maxModelTurns admission world).2.tasks =
        buildTask state.nextHandle request maxModelTurns (admission.map (·.2)) world parent
          selection :: state.tasks := by
  cases admitted : state.checkAdmission request maxModelTurns world with
  | error status =>
      rw [submit_refused host admitted] at done
      dsimp only at done
      rw [done] at admitted
      exact absurd admitted (checkAdmission_ne_ok request maxModelTurns world)
  | ok parent =>
      rcases selected : state.select request maxModelTurns world parent with ⟨_ | selection, busy⟩
      · rw [submit_unselected host admitted selected] at done
        cases busy <;> cases done
      · refine ⟨parent, selection, rfl, select_optimal selected, ?_⟩
        rw [submit_selected host admitted selected] at done ⊢
        split at done
        next => cases done
        next inTime =>
          split at done
          next failed => exact absurd done failed
          next built =>
            rw [start_status] at done
            rw [if_neg inTime, if_neg built, done, start_ok]

/-- When a submission of a well-formed request finds no endpoint that is idle. -/
theorem submit_busy (requested : state.Requested request maxModelTurns admission) :
    (state.submit request maxModelTurns admission world).1 = .ebusy ↔
      state.LaneClosed maxModelTurns ∨
      ∃ parent, state.checkAdmission request maxModelTurns world = .ok parent ∧
        ((∀ selection endpoint,
            ¬Offered state request maxModelTurns world parent selection endpoint) ∧
          (∃ endpoint ∈ state.endpoints, endpoint.busy = true ∧
            serves request maxModelTurns endpoint.config = true ∧
            (maxModelTurns ≠ 0 → endpoint.config.registry = state.authorityRegistry)) ∨
        (∃ selection endpoint,
            Offered state request maxModelTurns world parent selection endpoint) ∧
          request.timeoutMs ≤ uint64Max - world.nowMs ∧
          (world.built = .ebusy ∨ world.built = .ok ∧ world.started = .ebusy)) := by
  cases admitted : state.checkAdmission request maxModelTurns world with
  | error status =>
      rw [submit_refused requested.host admitted, ← checkAdmission_busy requested, admitted]
      simp
  | ok parent =>
      have opened : ¬state.LaneClosed maxModelTurns := by
        rw [← checkAdmission_busy requested, admitted]
        simp
      rcases selected : state.select request maxModelTurns world parent with ⟨_ | selection, busy⟩
      · obtain ⟨refused, isBusy⟩ := select_none.mp selected
        rw [submit_unselected requested.host admitted selected, ← isBusy, ← occupied_iff]
        constructor
        · intro done
          refine .inr ⟨parent, rfl, .inl ⟨refused, ?_⟩⟩
          by_contra idle
          rw [if_neg idle] at done
          cases done
        · rintro (closed | ⟨other, same, ⟨-, isOccupied⟩ | ⟨⟨selection, endpoint, offered⟩, -⟩⟩)
          · exact absurd closed opened
          · rw [if_pos isOccupied]
          · cases same
            exact absurd offered (refused selection endpoint)
      · obtain ⟨endpoint, offered⟩ := (select_optimal selected).offered
        rw [submit_selected requested.host admitted selected]
        constructor
        · intro done
          refine .inr ⟨parent, rfl, .inr ⟨⟨selection, endpoint, offered⟩, ?_⟩⟩
          split at done
          next => cases done
          next inTime =>
            refine ⟨Nat.le_of_not_lt inTime, ?_⟩
            split at done
            next => exact .inl done
            next built =>
              rw [start_status] at done
              exact .inr ⟨not_not.mp built, done⟩
        · rintro (closed | ⟨other, same, ⟨refused, -⟩ | ⟨-, inTime, passed⟩⟩)
          · exact absurd closed opened
          · cases same
            exact absurd offered (refused selection endpoint)
          · rw [if_neg (Nat.not_lt.mpr inTime)]
            rcases passed with failed | ⟨built, started⟩
            · rw [failed, if_pos (by simp)]
            · rw [built, if_neg (by simp), start_status, started]

end State

end TurboAgent.Router
