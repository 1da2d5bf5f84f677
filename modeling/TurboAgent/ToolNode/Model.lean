import TurboAgent.Policy.Model
import TurboAgent.Runtime.Status

/-!
# The tool node

The tool node of a workflow takes the pending batch of tool calls of the model, passes
every call through the hooks of the agent and hands the whole batch to the tool
executor.  A call that needs an approval stops the node: the node puts a request into
the review record of the state and is run again when the graph is resumed.

The state has one current review.  The note of a request is the text of a JSON object
that names the call; serialization and parsing are parameters.  Memory is not
exhausted.
-/

namespace TurboAgent.ToolNode

/-- `json_serialize` and `json_parse`. -/
structure JsonText where
  serialize : Json → CString
  parse : String → Option Json

/-- The current entry of `review_versions`; a note with a NUL inside reads as absent. -/
structure Review where
  (required approved : Bool)
  note : Option String
  deriving DecidableEq

/-- The state of a run, as far as the node reads or writes it before the dispatch. -/
structure State where
  eventCount : Nat
  pendingToolCalls : Option (List Json)
  review : Review
  (modelError guardrailRejection : Option (String × String))

namespace State

/-- `turbo_agent_state_request_review`. -/
def requestReview (state : State) (note : CString) : State :=
  { state with review := ⟨true, false, some note.val⟩ }

/-- `turbo_agent_state_set_review_approved` with an approval. -/
def setReviewApproved (state : State) : State :=
  { state with review := ⟨false, true, some (state.review.note.getD "")⟩ }

/-- `turbo_agent_state_clear_review`. -/
def clearReview (state : State) : State :=
  { state with review := ⟨false, false, some ""⟩ }

/-- `turbo_agent_state_set_model_error`. -/
def setModelError (state : State) (kind message : String) : State :=
  { state with modelError := some (kind, message) }

/-- `turbo_agent_state_set_guardrail_rejection`. -/
def setGuardrailRejection (state : State) (kind reason : String) : State :=
  { state with guardrailRejection := some (kind, reason) }

end State

/-- The note of `turbo_agent_tool_approval_note_create`. -/
def approvalNote (callId toolName arguments : String) : Json :=
  .object [("kind", .string "tool_approval"), ("call_id", .string callId),
    ("tool_name", .string toolName), ("arguments", .string arguments)]

/-- `turbo_agent_approval_field_matches`. -/
def approvalFieldMatches (note : Json) (key expected : String) : Bool :=
  note.field key == some (.string expected)

/-- `turbo_agent_tool_approval_review_matches`. -/
def reviewMatches (text : JsonText) (review : Review) (callId toolName arguments : String) : Bool :=
  if !review.approved then false
  else
    match review.note with
    | none => false
    | some note =>
        if note = "" then false
        else
          match text.parse note with
          | none => false
          | some value =>
              value.isObject && approvalFieldMatches value "kind" "tool_approval" &&
              approvalFieldMatches value "call_id" callId &&
              approvalFieldMatches value "tool_name" toolName &&
              approvalFieldMatches value "arguments" arguments

/-! ## Hooks -/

/-- The `before_tool` hooks of guardrails: the action policy, or any other check.  An
error carries the reason of the rejection. -/
inductive Guardrail where
  | actionPolicy (registry : String → Option Policy.ActionDefinition)
      (policy : Option Policy.AgentPolicy)
  | custom (check : State → String → String → String → Except (Option String) Unit)

/-- The agent of a tool node: its registry, its tool policy and its hooks.  A middleware
returns the arguments it leaves, or fails. -/
structure Agent where
  configured : Bool
  resolveName : String → Except ToolStatus String
  executionPolicyStatus : String → ToolStatus
  checkTool : String → Policy.Decision × Option String
  middlewares : List (State → String → String → String → Option String)
  guardrails : List Guardrail

/-- `turbo_agent_action_policy_before_tool`. -/
def actionPolicyBeforeTool (text : JsonText) (registry : String → Option Policy.ActionDefinition)
    (policy : Option Policy.AgentPolicy) (state : State)
    (callId toolName arguments : String) : Except (Option String) Unit :=
  match registry toolName with
  | none => .error (some "action_not_found")
  | some definition =>
      match text.parse arguments with
      | none => .error (some "invalid_tool_arguments")
      | some args =>
          match Policy.checkAction policy (some definition) (some args) with
          | (.allow, _) => .ok ()
          | (.requireApproval, _) =>
              if reviewMatches text state.review callId toolName arguments then .ok ()
              else .error (some "approval_required")
          | (.deny, reason) => .error (some ((reason.filter (· ≠ "")).getD "policy_denied"))

/-- One `before_tool` hook of a guardrail. -/
def Guardrail.beforeTool (text : JsonText) (state : State)
    (callId toolName arguments : String) : Guardrail → Except (Option String) Unit
  | .actionPolicy registry policy =>
      actionPolicyBeforeTool text registry policy state callId toolName arguments
  | .custom check => check state callId toolName arguments

/-- `turbo_agent_invoke_before_tool_guardrails`. -/
def invokeBeforeToolGuardrails (text : JsonText) (state : State)
    (callId toolName arguments : String) : List Guardrail → Except (Option String) Unit
  | [] => .ok ()
  | guardrail :: guardrails =>
      match guardrail.beforeTool text state callId toolName arguments with
      | .error reason => .error reason
      | .ok () => invokeBeforeToolGuardrails text state callId toolName arguments guardrails

/-- `turbo_agent_invoke_before_tool_middlewares`. -/
def invokeBeforeToolMiddlewares (state : State) (callId toolName : String) :
    String → List (State → String → String → String → Option String) → Option String
  | arguments, [] => some arguments
  | arguments, middleware :: middlewares =>
      match middleware state callId toolName arguments with
      | none => none
      | some arguments => invokeBeforeToolMiddlewares state callId toolName arguments middlewares

/-! ## The node -/

/-- `turbo_agent_tool_execution_t` before the dispatch.  `rejection` is the reason that
the output of a rejected call is formatted from. -/
structure Call where
  (callId toolName arguments : String)
  status : ToolStatus
  policyReason : Option String
  replayed : Bool
  rejection : Option String
  approvalGranted : Bool
  deriving DecidableEq

/-- `turbo_agent_tool_call_record_fields`. -/
def recordFields (record : Json) : Option (String × String × String) :=
  if !record.isObject then none
  else
    match record.getString "call_id", record.getString "name", record.getString "arguments" with
    | some callId, some name, some arguments => some (callId, name, arguments)
    | _, _, _ => none

def applyToolPolicy (agent : Agent) (call : Call) : Call :=
  match agent.checkTool call.toolName with
  | (.allow, _) => call
  | (_, reason) => { call with status := .error, policyReason := reason, replayed := true }

/-- One round of `turbo_agent_tool_calls_preflight`; `none` is a malformed record. -/
def preflightOne (agent : Agent) (previous : List Call) (record : Json) : Option Call :=
  match recordFields record with
  | none => none
  | some (callId, name, arguments) =>
      if callId = "" ∨ name = "" then none
      else if previous.any fun call => call.callId = callId then none
      else
        match agent.resolveName name with
        | .error .notFound => some
            ⟨callId, name, arguments, .notFound, none, true, none, false⟩
        | .error _ => none
        | .ok canonical =>
            if agent.executionPolicyStatus canonical ≠ .ok then none
            else some (applyToolPolicy agent
              ⟨callId, canonical, arguments, .ok, none, false, none, false⟩)

/-- `turbo_agent_tool_calls_preflight`. -/
def preflight (agent : Agent) : List Call → List Json → Option (List Call)
  | calls, [] => some calls
  | calls, record :: records =>
      match preflightOne agent calls record with
      | none => none
      | some call => preflight agent (calls ++ [call]) records

/-- What becomes of one call in the examination of the batch. -/
inductive Examined where
  | failed (state : State)
  | suspended (state : State)
  | passed (state : State) (call : Call)

/-- One round of the loop over the calls in `turbo_agent_tool_node_run`. -/
def examine (text : JsonText) (agent : Agent) (state : State) (call : Call) : Examined :=
  match call.policyReason with
  | some reason =>
      .passed (state.setGuardrailRejection "tool_policy" reason)
        { call with rejection := some reason }
  | none =>
      if call.replayed then .passed state call
      else
        match invokeBeforeToolMiddlewares state call.callId call.toolName call.arguments
            agent.middlewares with
        | none => .failed (state.setModelError "middleware" "before_tool middleware failed")
        | some arguments =>
            let call := { call with arguments }
            match invokeBeforeToolGuardrails text state call.callId call.toolName arguments
                agent.guardrails with
            | .error reason =>
                if reason = some "approval_required" then
                  .suspended (state.requestReview
                    (text.serialize (approvalNote call.callId call.toolName arguments)))
                else
                  .passed
                    (state.setGuardrailRejection "before_tool"
                      (reason.getD "before_tool guardrail rejected tool dispatch"))
                    { call with
                      status := .error,
                      replayed := true,
                      rejection := some (reason.getD "tool_guardrail_rejected") }
            | .ok () =>
                .passed state
                  { call with
                    approvalGranted :=
                      reviewMatches text state.review call.callId call.toolName arguments }

/-- What becomes of the batch before its dispatch. -/
inductive Batch where
  | failed (state : State)
  | suspended (state : State)
  | ready (state : State) (calls : List Call)

/-- The loop over the calls in `turbo_agent_tool_node_run`. -/
def examineAll (text : JsonText) (agent : Agent) : State → List Call → Batch
  | state, [] => .ready state []
  | state, call :: calls =>
      match examine text agent state call with
      | .failed state => .failed state
      | .suspended state => .suspended state
      | .passed state call =>
          match examineAll text agent state calls with
          | .failed state => .failed state
          | .suspended state => .suspended state
          | .ready state calls => .ready state (call :: calls)

/-- End of a run of the node.  A dispatch records the calls handed to the executor and
the review that was current until then. -/
inductive Result where
  | failed (state : State)
  | suspended (state : State)
  | dispatched (calls : List Call) (review : Review) (state : State) (parent : Option State)

/-- The part of `turbo_agent_tool_node_run` that consumes an approval. -/
def consumeApproval (text : JsonText) (parent : Option State) (state : State)
    (calls : List Call) : Result :=
  if !calls.any (·.approvalGranted) then .dispatched calls state.review state parent
  else
    match parent with
    | none => .dispatched calls state.review state.clearReview none
    | some parent =>
        if calls.any fun call => call.approvalGranted &&
            reviewMatches text parent.review call.callId call.toolName call.arguments then
          .dispatched calls state.review state.clearReview (some parent.clearReview)
        else .failed (state.setModelError "review" "parent tool approval unavailable")

/-- `turbo_agent_tool_node_run` up to the entry of the tool executor. -/
def toolNodeRun (text : JsonText) (agent : Agent) (parent : Option State) (state : State) :
    Result :=
  match state.pendingToolCalls with
  | none => .failed (state.setModelError "tool" "no pending tool calls")
  | some records =>
      if records = [] then .failed (state.setModelError "tool" "empty pending tool call batch")
      else if state.eventCount = 0 then .failed state
      else
        match preflight agent [] records with
        | none => .failed (state.setModelError "tool" "malformed pending tool call record")
        | some calls =>
            if !agent.configured then
              .failed (state.setModelError "tool" "tool registry is not configured")
            else
              match examineAll text agent state calls with
              | .failed state => .failed state
              | .suspended state => .suspended state
              | .ready state calls => consumeApproval text parent state calls

/-- `turbo_agent_tool_node`. -/
def toolNode (text : JsonText) (agent : Agent) (state : State) : Result :=
  toolNodeRun text agent none state

/-- Runs of the node under a reviewer who approves every request, with at most the given
number of approvals: the dispatch, if there is one. -/
def proceed (text : JsonText) (agent : Agent) : Nat → State → Option (List Call × Review)
  | 0, state =>
      match toolNode text agent state with
      | .dispatched calls review _ _ => some (calls, review)
      | _ => none
  | approvals + 1, state =>
      match toolNode text agent state with
      | .dispatched calls review _ _ => some (calls, review)
      | .suspended state => proceed text agent approvals state.setReviewApproved
      | .failed _ => none

end TurboAgent.ToolNode
