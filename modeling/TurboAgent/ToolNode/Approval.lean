import TurboAgent.ToolNode.Model

/-!
# Approvals of a batch

Every request for an approval replaces the current review, and a run of the tool node
dispatches the batch only when each call that needs an approval matches the current
review.  Calls of a batch have different ids, so the node gets past at most one such
call: with two of them it asks for the approvals in turn, for ever.
-/

namespace TurboAgent.ToolNode

variable {text : JsonText} {agent : Agent}

/-! ## Calls that need an approval -/

/-- The node passes the call through the hooks. -/
def Call.examined (call : Call) : Bool :=
  call.policyReason.isNone && !call.replayed

def actionDecision (text : JsonText) (registry : String → Option Policy.ActionDefinition)
    (policy : Option Policy.AgentPolicy) (call : Call) : Option Policy.Decision :=
  match registry call.toolName, text.parse call.arguments with
  | some definition, some args => some (Policy.checkAction policy (some definition) (some args)).1
  | _, _ => none

def Guardrail.demands (text : JsonText) (call : Call) : Guardrail → Bool
  | .actionPolicy registry policy =>
      actionDecision text registry policy call == some .requireApproval
  | .custom _ => false

def needsApproval (text : JsonText) (agent : Agent) (call : Call) : Bool :=
  call.examined && agent.guardrails.any (·.demands text call)

/-- A guardrail that lets the call pass, at least with an approval. -/
def Guardrail.Admits (text : JsonText) (call : Call) : Guardrail → Prop
  | .actionPolicy registry policy =>
      actionDecision text registry policy call = some .allow ∨
      actionDecision text registry policy call = some .requireApproval
  | .custom check =>
      ∀ state, check state call.callId call.toolName call.arguments = .ok ()

/-- The hooks leave the arguments of the call alone, and the action policies allow it or
require an approval. -/
structure Admissible (text : JsonText) (agent : Agent) (call : Call) : Prop where
  unchanged : ∀ middleware ∈ agent.middlewares, ∀ state,
    middleware state call.callId call.toolName call.arguments = some call.arguments
  admitted : ∀ guardrail ∈ agent.guardrails, guardrail.Admits text call

/-- The approved review names exactly the call, its tool and its arguments. -/
def Names (text : JsonText) (review : Review) (call : Call) : Prop :=
  review.approved = true ∧ ∃ note value, review.note = some note ∧
    text.parse note = some value ∧
    value.field "kind" = some (.string "tool_approval") ∧
    value.field "call_id" = some (.string call.callId) ∧
    value.field "tool_name" = some (.string call.toolName) ∧
    value.field "arguments" = some (.string call.arguments)

def Granted (text : JsonText) (review : Review) (call : Call) : Prop :=
  reviewMatches text review call.callId call.toolName call.arguments = true

instance (text : JsonText) (review : Review) (call : Call) :
    Decidable (Granted text review call) :=
  inferInstanceAs (Decidable (_ = true))

variable {call : Call}

theorem Granted.names {review : Review} (granted : Granted text review call) :
    Names text review call := by
  unfold Granted reviewMatches at granted
  split at granted
  next => cases granted
  next approved =>
    split at granted
    next => cases granted
    next note found =>
      split at granted
      next => cases granted
      split at granted
      next => cases granted
      next value parsed =>
        simp only [approvalFieldMatches, Bool.and_eq_true, beq_iff_eq] at granted
        obtain ⟨⟨⟨⟨_, kind⟩, callId⟩, toolName⟩, arguments⟩ := granted
        exact ⟨by simpa using approved, note, value, found, parsed, kind, callId, toolName,
          arguments⟩

theorem Granted.callId_eq {review : Review} {left right : Call}
    (leftGranted : Granted text review left) (rightGranted : Granted text review right) :
    left.callId = right.callId := by
  obtain ⟨_, note, value, found, parsed, _, leftId, _⟩ := leftGranted.names
  obtain ⟨_, note', value', found', parsed', _, rightId, _⟩ := rightGranted.names
  cases found.symm.trans found'
  cases parsed.symm.trans parsed'
  have same := leftId.symm.trans rightId
  simpa using same

/-- Serialization and parsing of the request for a call. -/
def RoundTrips (text : JsonText) (call : Call) : Prop :=
  (text.serialize (approvalNote call.callId call.toolName call.arguments)).val ≠ "" ∧
  text.parse (text.serialize (approvalNote call.callId call.toolName call.arguments)).val =
    some (approvalNote call.callId call.toolName call.arguments)

theorem granted_of_request (roundTrips : RoundTrips text call) (state : State) :
    Granted text (state.requestReview (text.serialize
      (approvalNote call.callId call.toolName call.arguments))).setReviewApproved.review call := by
  obtain ⟨nonempty, parsed⟩ := roundTrips
  simp only [Granted, reviewMatches, State.requestReview, State.setReviewApproved,
    Option.getD_some, parsed, if_neg nonempty, Bool.not_true, Bool.false_eq_true, if_false]
  simp [approvalNote, approvalFieldMatches, Json.isObject, Json.field, Json.findField]

/-! ## One call -/

theorem middlewares_unchanged (state : State)
    {middlewares : List (State → String → String → String → Option String)}
    (unchanged : ∀ middleware ∈ middlewares, ∀ state,
      middleware state call.callId call.toolName call.arguments = some call.arguments) :
    invokeBeforeToolMiddlewares state call.callId call.toolName call.arguments middlewares =
      some call.arguments := by
  induction middlewares with
  | nil => rfl
  | cons middleware middlewares ih =>
      rw [invokeBeforeToolMiddlewares, unchanged middleware List.mem_cons_self state]
      exact ih fun other member => unchanged other (List.mem_cons_of_mem _ member)

theorem beforeTool_eq {guardrail : Guardrail} (state : State) (admits : guardrail.Admits text call) :
    guardrail.beforeTool text state call.callId call.toolName call.arguments =
      if guardrail.demands text call = true ∧ ¬ Granted text state.review call then
        .error (some "approval_required")
      else .ok () := by
  cases guardrail with
  | custom check =>
      simp only [Guardrail.beforeTool, Guardrail.demands]
      rw [admits state]
      simp
  | actionPolicy registry policy =>
      simp only [Guardrail.Admits] at admits
      rcases found : registry call.toolName with _ | definition
      · simp [actionDecision, found] at admits
      · rcases parsed : text.parse call.arguments with _ | args
        · simp [actionDecision, found, parsed] at admits
        · rcases decided : Policy.checkAction policy (some definition) (some args) with
            ⟨decision, reason⟩
          have same : actionDecision text registry policy call = some decision := by
            simp [actionDecision, found, parsed, decided]
          have demanded : (Guardrail.actionPolicy registry policy).demands text call =
              (decision == .requireApproval) := by
            simp [Guardrail.demands, same]
          rw [same] at admits
          simp only [Guardrail.beforeTool, actionPolicyBeforeTool, found, parsed, decided, demanded]
          rcases admits with allowed | required
          · cases Option.some.inj allowed
            simp
          · cases Option.some.inj required
            by_cases granted : reviewMatches text state.review call.callId call.toolName
                call.arguments = true
            · simp [Granted, granted]
            · simp [Granted, granted]

theorem guardrails_eq (state : State) {guardrails : List Guardrail}
    (admitted : ∀ guardrail ∈ guardrails, guardrail.Admits text call) :
    invokeBeforeToolGuardrails text state call.callId call.toolName call.arguments guardrails =
      if guardrails.any (·.demands text call) = true ∧ ¬ Granted text state.review call then
        .error (some "approval_required")
      else .ok () := by
  induction guardrails with
  | nil => simp [invokeBeforeToolGuardrails]
  | cons guardrail guardrails ih =>
      have rest := ih fun other member => admitted other (List.mem_cons_of_mem _ member)
      rw [invokeBeforeToolGuardrails, beforeTool_eq state (admitted guardrail List.mem_cons_self),
        rest, List.any_cons]
      by_cases granted : Granted text state.review call
      · simp [granted]
      · by_cases demands : guardrail.demands text call = true
        · simp [granted, demands]
        · simp [granted, demands]

/-- A call of a dispatched batch and the pending call it comes from. -/
def SameCall (dispatched call : Call) : Prop :=
  dispatched.callId = call.callId ∧ dispatched.toolName = call.toolName ∧
  dispatched.arguments = call.arguments

variable {state : State}

/-- An admissible call without an outstanding approval passes; the review stays. -/
theorem examine_passed (admissible : call.examined = true → Admissible text agent call)
    (granted : needsApproval text agent call = true → Granted text state.review call) :
    ∃ state' call', examine text agent state call = .passed state' call' ∧
      state'.review = state.review ∧ SameCall call' call := by
  unfold examine
  split
  next reason _ => exact ⟨_, _, rfl, rfl, rfl, rfl, rfl⟩
  next absent =>
    split
    next => exact ⟨_, _, rfl, rfl, rfl, rfl, rfl⟩
    next fresh =>
      have open_ : call.examined = true := by simp [Call.examined, absent, fresh]
      have hooks := admissible open_
      rw [middlewares_unchanged state hooks.unchanged]
      dsimp only
      rw [guardrails_eq state hooks.admitted]
      have settled : ¬ (agent.guardrails.any (·.demands text call) = true ∧
          ¬ Granted text state.review call) := by
        rintro ⟨demanded, missing⟩
        apply missing
        apply granted
        simp only [needsApproval, open_, demanded, Bool.and_self]
      rw [if_neg settled]
      exact ⟨_, _, rfl, rfl, rfl, rfl, rfl⟩

/-- An admissible call without its approval suspends the node with a request for it. -/
theorem examine_suspended (admissible : call.examined = true → Admissible text agent call)
    (needs : needsApproval text agent call = true) (missing : ¬ Granted text state.review call) :
    examine text agent state call = .suspended (state.requestReview
      (text.serialize (approvalNote call.callId call.toolName call.arguments))) := by
  simp only [needsApproval, Bool.and_eq_true] at needs
  obtain ⟨open_, demanded⟩ := needs
  have hooks := admissible open_
  simp only [Call.examined, Bool.and_eq_true, Option.isNone_iff_eq_none,
    Bool.not_eq_true'] at open_
  simp only [examine, open_.1, open_.2, Bool.false_eq_true, if_false]
  rw [middlewares_unchanged state hooks.unchanged]
  dsimp only
  rw [guardrails_eq state hooks.admitted, if_pos ⟨demanded, missing⟩]
  rfl

/-! ## The batch -/

variable {calls : List Call}

theorem examineAll_ready
    (admissible : ∀ call ∈ calls, call.examined = true → Admissible text agent call)
    (granted : ∀ call ∈ calls, needsApproval text agent call = true →
      Granted text state.review call) :
    ∃ state' calls', examineAll text agent state calls = .ready state' calls' ∧
      state'.review = state.review ∧ List.Forall₂ SameCall calls' calls := by
  induction calls generalizing state with
  | nil => exact ⟨state, [], rfl, rfl, .nil⟩
  | cons call calls ih =>
      obtain ⟨middle, call', passed, sameReview, sameCall⟩ :=
        examine_passed (admissible call List.mem_cons_self) (granted call List.mem_cons_self)
      have rest : ∀ other ∈ calls, needsApproval text agent other = true →
          Granted text middle.review other := by
        intro other member needs
        rw [sameReview]
        exact granted other (List.mem_cons_of_mem _ member) needs
      obtain ⟨last, calls', ready, sameReview', sameCalls⟩ :=
        ih (fun other member => admissible other (List.mem_cons_of_mem _ member)) rest
      refine ⟨last, call' :: calls', ?_, sameReview'.trans sameReview, .cons sameCall sameCalls⟩
      simp only [examineAll, passed, ready]

theorem examineAll_suspended
    (admissible : ∀ call ∈ calls, call.examined = true → Admissible text agent call)
    (missing : ∃ call ∈ calls, needsApproval text agent call = true ∧
      ¬ Granted text state.review call) :
    ∃ (state' : State) (call : Call), call ∈ calls ∧ needsApproval text agent call = true ∧
      examineAll text agent state calls = .suspended (state'.requestReview
        (text.serialize (approvalNote call.callId call.toolName call.arguments))) ∧
      state'.pendingToolCalls = state.pendingToolCalls ∧
      state'.eventCount = state.eventCount := by
  induction calls generalizing state with
  | nil =>
      obtain ⟨call, member, _⟩ := missing
      cases member
  | cons call calls ih =>
      by_cases outstanding : needsApproval text agent call = true ∧
          ¬ Granted text state.review call
      · refine ⟨state, call, List.mem_cons_self, outstanding.1, ?_, rfl, rfl⟩
        rw [examineAll, examine_suspended (admissible call List.mem_cons_self) outstanding.1
          outstanding.2]
      · have settled : needsApproval text agent call = true → Granted text state.review call := by
          intro needs
          by_contra absent
          exact outstanding ⟨needs, absent⟩
        obtain ⟨middle, call', passed, sameReview, _⟩ :=
          examine_passed (admissible call List.mem_cons_self) settled
        have kept : middle.pendingToolCalls = state.pendingToolCalls ∧
            middle.eventCount = state.eventCount := by
          unfold examine at passed
          split at passed
          next => cases passed; exact ⟨rfl, rfl⟩
          split at passed
          next => cases passed; exact ⟨rfl, rfl⟩
          split at passed
          next => cases passed
          dsimp only at passed
          split at passed
          next =>
            split at passed
            next => cases passed
            next => cases passed; exact ⟨rfl, rfl⟩
          next => cases passed; exact ⟨rfl, rfl⟩
        have later : ∃ other ∈ calls, needsApproval text agent other = true ∧
            ¬ Granted text middle.review other := by
          obtain ⟨other, member, needs, absent⟩ := missing
          rcases List.mem_cons.mp member with same | inside
          · subst same
            exact absurd (settled needs) absent
          · rw [sameReview]
            exact ⟨other, inside, needs, absent⟩
        obtain ⟨last, other, member, needs, suspended, samePending, sameCount⟩ :=
          ih (fun other member => admissible other (List.mem_cons_of_mem _ member)) later
        refine ⟨last, other, List.mem_cons_of_mem _ member, needs, ?_,
          samePending.trans kept.1, sameCount.trans kept.2⟩
        simp only [examineAll, passed, suspended]

/-! ## Runs of the node -/

theorem applyToolPolicy_callId (call : Call) :
    (applyToolPolicy agent call).callId = call.callId := by
  unfold applyToolPolicy
  split <;> rfl

theorem preflightOne_callId {previous : List Call} {record : Json}
    (accepted : preflightOne agent previous record = some call) :
    ∀ other ∈ previous, other.callId ≠ call.callId := by
  unfold preflightOne at accepted
  split at accepted
  next => cases accepted
  next callId name arguments _ =>
    split at accepted
    next => cases accepted
    split at accepted
    next => cases accepted
    next fresh =>
      have distinct : ∀ other ∈ previous, other.callId ≠ callId := by
        simpa using fresh
      split at accepted
      next =>
        cases accepted
        exact distinct
      next => cases accepted
      next =>
        split at accepted
        next => cases accepted
        rw [← Option.some.inj accepted, applyToolPolicy_callId]
        exact distinct

variable {records : List Json}

theorem preflight_nodup {previous : List Call}
    (accepted : preflight agent previous records = some calls)
    (distinct : (previous.map Call.callId).Nodup) : (calls.map Call.callId).Nodup := by
  induction records generalizing previous with
  | nil =>
      cases accepted
      exact distinct
  | cons record records ih =>
      rw [preflight] at accepted
      split at accepted
      next => cases accepted
      next call found =>
        apply ih accepted
        rw [List.map_append]
        refine List.nodup_append.mpr ⟨distinct, by simp, ?_⟩
        intro left leftMember right rightMember
        obtain ⟨other, member, rfl⟩ := List.mem_map.mp leftMember
        rw [List.mem_singleton.mp rightMember]
        exact preflightOne_callId found other member

/-- A pending batch that passes the checks before its calls are examined. -/
structure Waits (text : JsonText) (agent : Agent) (records : List Json) (calls : List Call)
    (state : State) : Prop where
  pending : state.pendingToolCalls = some records
  nonempty : records ≠ []
  events : state.eventCount ≠ 0
  accepted : preflight agent [] records = some calls
  configured : agent.configured = true
  admissible : ∀ call ∈ calls, call.examined = true → Admissible text agent call

/-- A run of the node in which every call has the approval it needs dispatches the
batch under the current review. -/
theorem Waits.dispatched (waits : Waits text agent records calls state)
    (granted : ∀ call ∈ calls, needsApproval text agent call = true →
      Granted text state.review call) :
    ∃ dispatched last parent,
      toolNode text agent state = .dispatched dispatched state.review last parent ∧
      List.Forall₂ SameCall dispatched calls := by
  obtain ⟨last, dispatched, ready, sameReview, sameCalls⟩ :=
    examineAll_ready waits.admissible granted
  simp only [toolNode, toolNodeRun, waits.pending, if_neg waits.nonempty, if_neg waits.events,
    waits.accepted, waits.configured, Bool.not_true, Bool.false_eq_true, if_false, ready,
    consumeApproval, ← sameReview]
  split
  next => exact ⟨_, _, _, rfl, sameCalls⟩
  next => exact ⟨_, _, _, rfl, sameCalls⟩

theorem Waits.suspended (waits : Waits text agent records calls state)
    (missing : ∃ call ∈ calls, needsApproval text agent call = true ∧
      ¬ Granted text state.review call) :
    ∃ (state' : State) (call : Call), call ∈ calls ∧ needsApproval text agent call = true ∧
      toolNode text agent state = .suspended (state'.requestReview
        (text.serialize (approvalNote call.callId call.toolName call.arguments))) ∧
      Waits text agent records calls state' := by
  obtain ⟨state', call, member, needs, suspended, samePending, sameCount⟩ :=
    examineAll_suspended waits.admissible missing
  refine ⟨state', call, member, needs, ?_, { waits with
    pending := samePending.trans waits.pending
    events := sameCount ▸ waits.events }⟩
  simp only [toolNode, toolNodeRun, waits.pending, if_neg waits.nonempty, if_neg waits.events,
    waits.accepted, waits.configured, Bool.not_true, Bool.false_eq_true, if_false, suspended]

def approvalCalls (text : JsonText) (agent : Agent) (calls : List Call) : List Call :=
  calls.filter (needsApproval text agent)

theorem length_le_one_of_granted (review : Review) (distinct : (calls.map Call.callId).Nodup)
    (granted : ∀ call ∈ calls, Granted text review call) : calls.length ≤ 1 := by
  match calls with
  | [] => simp
  | [_] => simp
  | first :: second :: rest =>
      have same := (granted first (by simp)).callId_eq (granted second (by simp))
      simp [same] at distinct

theorem eq_of_length_le_one (single : calls.length ≤ 1) {left right : Call}
    (leftMember : left ∈ calls) (rightMember : right ∈ calls) : left = right := by
  match calls with
  | [] => cases leftMember
  | [call] => rw [List.mem_singleton.mp leftMember, List.mem_singleton.mp rightMember]
  | _ :: _ :: _ => simp at single

/-- With two calls that need an approval the node never dispatches the batch. -/
theorem Waits.never (waits : Waits text agent records calls state)
    (several : 1 < (approvalCalls text agent calls).length) (approvals : Nat) :
    proceed text agent approvals state = none := by
  have distinct := preflight_nodup waits.accepted (by simp)
  have missing : ∀ review : Review, ∃ call ∈ calls, needsApproval text agent call = true ∧
      ¬ Granted text review call := by
    intro review
    by_contra none
    push Not at none
    have granted : ∀ call ∈ approvalCalls text agent calls, Granted text review call := by
      intro call member
      obtain ⟨inside, needs⟩ := List.mem_filter.mp member
      exact none call inside needs
    have bounded := length_le_one_of_granted review
      (distinct.sublist ((List.filter_sublist).map _)) granted
    exact absurd several (Nat.not_lt.mpr bounded)
  induction approvals generalizing state with
  | zero =>
      obtain ⟨_, _, _, _, suspended, _⟩ := waits.suspended (missing state.review)
      simp only [proceed, suspended]
  | succ approvals ih =>
      obtain ⟨state', call, _, _, suspended, waits'⟩ := waits.suspended (missing state.review)
      simp only [proceed, suspended]
      exact ih { waits' with }

/-- The batch is dispatched with at most one approval for each call that needs one, and
each such call is dispatched under an approved review that names it. -/
def Proceeds (text : JsonText) (agent : Agent) (calls : List Call) (state : State) : Prop :=
  ∃ dispatched review,
    proceed text agent (approvalCalls text agent calls).length state = some (dispatched, review) ∧
    List.Forall₂ SameCall dispatched calls ∧
    ∀ call ∈ calls, needsApproval text agent call = true → Names text review call

theorem Waits.proceeds (waits : Waits text agent records calls state)
    (granted : ∀ call ∈ calls, needsApproval text agent call = true →
      Granted text state.review call) (approvals : Nat) :
    ∃ dispatched review, proceed text agent approvals state = some (dispatched, review) ∧
      List.Forall₂ SameCall dispatched calls ∧
      ∀ call ∈ calls, needsApproval text agent call = true → Names text review call := by
  obtain ⟨dispatched, _, _, ran, sameCalls⟩ := waits.dispatched granted
  refine ⟨dispatched, state.review, ?_, sameCalls, fun call member needs =>
    (granted call member needs).names⟩
  cases approvals with
  | zero => simp only [proceed, ran]
  | succ approvals => simp only [proceed, ran]

def renderNote : Json → String
  | .object fields =>
      "\x7b" ++ ",".intercalate (fields.map fun entry =>
        match entry.2 with
        | .string value => "\"" ++ entry.1 ++ "\":\"" ++ value ++ "\""
        | _ => "") ++ "\x7d"
  | _ => ""

/-- The JSON text functions on the requests for three calls. -/
def sampleText : JsonText where
  serialize value :=
    if plain : noNul (renderNote value) = true then ⟨renderNote value, plain⟩ else ⟨"", noNul_empty⟩
  parse text :=
    if text = "\x7b\x7d" then some (.object [])
    else [approvalNote "a" "fetch" "\x7b\x7d", approvalNote "b" "fetch" "\x7b\x7d",
      approvalNote "b" "list" "\x7b\x7d"].find? fun note => renderNote note == text

/-- An agent whose action policy asks for an approval of each call of the tool `fetch`. -/
def sampleAgent : Agent where
  configured := true
  resolveName name := .ok name
  executionPolicyStatus _ := .ok
  checkTool _ := (.allow, none)
  middlewares := []
  guardrails := [.actionPolicy (fun tool => some ⟨.observe, tool == "fetch"⟩) none]

def sampleRecord (callId : String) : Json :=
  .object [("call_id", .string callId), ("name", .string "fetch"),
    ("arguments", .string "\x7b\x7d")]

def sampleCall (callId : String) : Call :=
  ⟨callId, "fetch", "\x7b\x7d", .ok, none, false, none, false⟩

/-- A state with the given calls pending and no review. -/
def sampleState (callIds : List String) : State :=
  ⟨1, some (callIds.map sampleRecord), ⟨false, false, none⟩, none, none⟩

theorem sampleCall_admissible (callId : String) :
    Admissible sampleText sampleAgent (sampleCall callId) where
  unchanged := by
    intro middleware member
    cases member
  admitted := by
    intro guardrail member
    rw [List.mem_singleton.mp member]
    have required : actionDecision sampleText (fun tool => some ⟨.observe, tool == "fetch"⟩) none
        (sampleCall "a") = some .requireApproval := by decide +kernel
    exact .inr required

/-- A call of a tool that needs no approval. -/
def listCall : Call := ⟨"b", "list", "\x7b\x7d", .ok, none, false, none, false⟩

/-- The two calls, pending. -/
def mixedState : State :=
  { sampleState [] with pendingToolCalls := some [sampleRecord "a", .object
    [("call_id", .string "b"), ("name", .string "list"), ("arguments", .string "\x7b\x7d")]] }

theorem listCall_admissible : Admissible sampleText sampleAgent listCall where
  unchanged := by
    intro middleware member
    cases member
  admitted := List.forall_mem_singleton.mpr (.inl (by decide +kernel))

end TurboAgent.ToolNode
