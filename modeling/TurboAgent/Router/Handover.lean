import TurboAgent.Router.Model

/-!
# What a group hands over

A group gives its results away, or builds the input of an aggregation from the outputs of its
members.  Both check the members first, and the results move one by one after that.
-/

namespace TurboAgent.Router

/-- `TURBO_AGENT_ROUTER_GROUP_MAX_TEXT_BYTES`. -/
def groupMaxTextBytes : Nat := 65536

/-- `TURBO_AGENT_ROUTER_GROUP_MAX_INPUT_BYTES`. -/
def groupMaxInputBytes : Nat := 1048576

/-- `turbo_agent_router_group_result_t`. -/
structure MemberResult where
  summary : Option Summary
  state : Option RunState
  deriving DecidableEq

/-- `turbo_agent_execution_peek_result_internal`. -/
def Execution.peekResult (execution : Execution) : Except Status MemberResult :=
  if !execution.finished then .error .ebusy
  else if execution.resultTaken then .error .ealready
  else .ok ⟨execution.summary, execution.state⟩

/-- `turbo_agent_execution_take_result`, and the mark that the router sets after it. -/
def Task.giveResult (task : Task) : Task :=
  { task with
    taken := true
    execution := { task.execution with summary := none, state := none, resultTaken := true } }

namespace State

def group? (state : State) (groupHandle : Nat) : Option Group :=
  state.groups.find? fun group => group.handle = groupHandle

/-- `group_delivery_preflight` on one member. -/
def deliverable (authorityCurrent : Nat → Bool) (task : Task) : Status :=
  if task.unresponsive then .ecanceled
  else if !authorityCurrent task.handle then .eperm
  else if task.taken then .ealready
  else .ok

/-- The loop of `group_delivery_preflight`. -/
def deliverables (authorityCurrent : Nat → Bool) : List Task → Status
  | [] => .ok
  | task :: tasks =>
      match deliverable authorityCurrent task with
      | .ok => deliverables authorityCurrent tasks
      | status => status

def membersOf (state : State) (group : Group) : List Task :=
  group.members.filterMap state.task?

/-- `group_delivery_preflight`. -/
def preflight (state : State) (group : Group) (authorityCurrent : Nat → Bool) : Status :=
  if group.resultsTaken then .ealready
  else if !state.groupTerminal group then .ebusy
  else deliverables authorityCurrent (state.membersOf group)

/-! ## Results -/

structure Taken where
  status : Status
  results : List MemberResult
  state : State

/-- One round of `group_take_results`, after rounds that succeeded. -/
def takeMember (groupHandle : Nat) (before : Taken) (handle : Nat) : Taken :=
  if before.status ≠ .ok then before
  else
    match before.state.task? handle with
    | none => { before with status := .einval }
    | some task =>
        match task.execution.peekResult with
        | .error status => { before with status }
        | .ok result => {
            status := .ok
            results := before.results ++ [result]
            state := (before.state.updateTask handle Task.giveResult).updateGroup groupHandle
              fun group => { group with resultsTaken := true } }

/-- `group_take_results`; a host runtime and the id of its record come together, and `recorded`
is the result of the record. -/
def takeResults (state : State) (groupHandle capacity : Nat) (host : Option (Nat × String))
    (authorityCurrent : Nat → Bool) (recorded : Status) : Taken :=
  match state.group? groupHandle with
  | none => ⟨.einval, [], state⟩
  | some group =>
      if capacity < group.members.length ∨ state.hostRefused host then ⟨.einval, [], state⟩
      else
        match state.preflight group authorityCurrent with
        | .ok =>
            if host.isSome ∧ recorded ≠ .ok then ⟨recorded, [], state⟩
            else group.members.foldl (takeMember groupHandle) ⟨.ok, [], state⟩
        | status => ⟨status, [], state⟩

/-! ## The aggregation input -/

/-- What `group_build_input` learns from outside: the authorities at the check of all members
and at the turn of each one, allocations, the length of a text and the result of the record. -/
structure BuildWorld where
  (authorityCurrent authorityNow allocated : Nat → Bool)
  packed : Bool
  size : Json → Nat
  recorded : Status

def endpointId (state : State) (task : Task) : String :=
  (state.endpoints[task.endpoint]?.map fun endpoint => endpoint.config.id).getD ""

/-- The entry of a member in the aggregation input. -/
def memberEntry (state : State) (task : Task) (summary : Summary) (outputText : String) : Json :=
  .object [("task_id", .string task.taskId), ("endpoint", .string (state.endpointId task)),
    ("thread_id", .string task.threadId), ("run_id", .string summary.runId),
    ("checkpoint_id", summary.checkpointId.elim .null .string),
    ("parent_agent_run_id", .string summary.parentAgentRunId),
    ("output_text", .string outputText)]

/-- The checks of `group_build_input` on the result of a member. -/
def memberInput (state : State) (task : Task) (allocated : Bool) : Except Status Json :=
  match task.execution.peekResult with
  | .error status => .error status
  | .ok result =>
      match result.summary, result.state.bind RunState.outputText with
      | some summary, some outputText =>
          if outputText = "" ∨ !noNul outputText ∨ summary.runId = "" ∨
              128 < summary.runId.length ∨ summary.parentAgentRunId ≠ task.parentRunId then
            .error .eproto
          else if groupMaxTextBytes < outputText.length then .error .enobufs
          else if !allocated then .error .enomem
          else .ok (state.memberEntry task summary outputText)
      | _, _ => .error .eproto

/-- The loop of `group_build_input`: a member that failed halts the group, another error does
not. -/
def buildMembers (state : State) (world : BuildWorld) :
    List Task → Except (Status × Bool) (List Json)
  | [] => .ok []
  | task :: tasks =>
      match memberFailure task (world.authorityNow task.handle) with
      | .ok =>
          match state.memberInput task (world.allocated task.handle) with
          | .error status => .error (status, false)
          | .ok entry => (state.buildMembers world tasks).map (entry :: ·)
      | status => .error (status, true)

/-- The aggregation input of a group: the text of the input state is this document. -/
def bundle (group : Group) (hostTask : String) (entries : List Json) : Json :=
  .object [("schema_version", .int 1), ("group_id", .string group.id),
    ("host_task", .string hostTask), ("worker_results", .array entries)]

/-- `group_build_input`. -/
def buildInput (state : State) (groupHandle : Nat) (hostTask : String)
    (host : Option (Nat × String)) (world : BuildWorld) : Status × Option Json × State :=
  match state.group? groupHandle with
  | none => (.einval, none, state)
  | some group =>
      if hostTask = "" ∨ state.hostRefused host then (.einval, none, state)
      else if group.inputBuilt ∨ group.resultsTaken then (.ealready, none, state)
      else
        match state.preflight group world.authorityCurrent with
        | .ok =>
            if group.failureCode ≠ .ok then (group.failureCode, none, state)
            else if groupMaxTextBytes < hostTask.length then (.enobufs, none, state)
            else
              match state.buildMembers world (state.membersOf group) with
              | .error (status, true) =>
                  (status, none, state.updateGroup groupHandle fun group =>
                    { group with failureCode := group.halt status })
              | .error (status, false) => (status, none, state)
              | .ok entries =>
                  let input := bundle group hostTask entries
                  if groupMaxInputBytes < world.size input then (.enobufs, none, state)
                  else if !world.packed then (.enomem, none, state)
                  else if host.isSome ∧ world.recorded ≠ .ok then (world.recorded, none, state)
                  else (.ok, some input, state.updateGroup groupHandle fun group =>
                    { group with inputBuilt := true })
        | status => (status, none, state)

end State

end TurboAgent.Router
