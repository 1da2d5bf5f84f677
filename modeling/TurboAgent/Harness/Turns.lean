import Mathlib

/-!
# Turns of a conversation

A conversation has one turn at a time.  The turn is watched by whoever asks for it: a refresh
takes the result of its execution and notifies the client.  Its own connection starts it,
interrupts it and answers its requests for approval, one call at a time, and may be closed.

Every step below is one critical section of the mutex of the conversation, of an execution or of
the events, and what a call holds between two of its sections is kept beside the turn.  The flag
`refreshing` tells that a refresh is in progress.  Calls that are refused because they name another
turn or come from another connection change nothing and are left out.  Allocations succeed.
-/

namespace TurboAgent.Harness.Turns

/-- What is read of the summary of an execution. -/
structure Summary where
  (status pendingAction : Option String)
  deriving DecidableEq

/-- A summary and whether there is a final state. -/
abbrev Result := Option Summary × Bool

/-- An execution runs, or has ended with a result that is taken once. -/
inductive Execution where
  | running
  | ended (result : Option Result)
  deriving DecidableEq

/-- Where `turbo_agent_harness_turn_refresh` stands. -/
inductive Refresh where
  | idle
  | begun
  | unready
  | ready (result : Option Result)
  | completing (status : String)
  | completed (status : String)
  | approving
  | approved (requestId : String)
  | unsent
  deriving DecidableEq

/-- How a request for approval is resolved without a resumption. -/
inductive Decision where
  | cancelled
  | deny
  deriving DecidableEq

def Decision.status : Decision → String
  | .cancelled => "interrupted"
  | .deny => "declined"

def Decision.summaryStatus : Decision → String
  | .cancelled => "cancelled"
  | .deny => "declined"

/-- Where the call of the turn's own connection stands. -/
inductive Call where
  | idle
  | starting
  | started
  | interrupting
  | resolving (decision : Decision)
  | resolved (decision : Decision) (sent : Bool)
  | approving
  | approved
  | unapproved
  | resuming (execution : Option Execution)
  | failing
  | failed (sent : Bool)
  deriving DecidableEq

/-- `turbo_agent_harness_turn_t`, with the calls in progress and what has become of its
connection. -/
structure Turn where
  approvalRequestId : Option String
  execution : Option Execution
  summary : Option Summary
  (state starting finalized awaitingApproval interruptRequested : Bool)
  refresh : Refresh
  call : Call
  (closed closing : Bool)
  deriving DecidableEq

/-- What clients see: a new turn, the notification `turn/completed`, and the status in an answer to
`turn/get` or `thread/get`. -/
inductive Observation where
  | started
  | completed (status : String)
  | reported (status : String)
  deriving DecidableEq

/-! ## Status -/

def finalStatus (interruptRequested : Bool) (summary : Option Summary) : String :=
  let status := summary.bind Summary.status
  if interruptRequested then "interrupted"
  else if status = some "completed" then "completed"
  else if status = some "cancelled" then "interrupted"
  else if status = some "timed_out" then "failed"
  else if status = some "declined" then "declined"
  else "failed"

/-- `turbo_agent_harness_turn_status_text`. -/
def turnStatusText (turn : Turn) : String :=
  if turn.finalized then finalStatus turn.interruptRequested turn.summary
  else if turn.awaitingApproval then "approvalPending"
  else if turn.starting then "inProgress"
  else match turn.execution with
    | none | some .running => "inProgress"
    | some (.ended _) => "completing"

/-! ## Refresh -/

/-- The notification is queued: a closed connection takes none. -/
def Turn.sends (turn : Turn) (works : Bool) : Bool := works && !turn.closed

/-- The first section of `turbo_agent_harness_turn_refresh`. -/
def Turn.beginRefresh (turn : Turn) : Turn :=
  if turn.starting || turn.refresh != .idle || turn.finalized || turn.awaitingApproval ||
      turn.execution.isNone then turn
  else { turn with
    refresh := if turn.summary.isSome && turn.state then .ready none else .begun }

/-- The section that stores a new result and decides what is sent. -/
def Turn.decide (turn : Turn) (result : Option Result) : Turn :=
  let summary := match result with
    | some (summary, _) => summary
    | none => turn.summary
  let state := match result with
    | some (_, state) => state
    | none => turn.state
  let status := summary.bind Summary.status
  let pendingAction := summary.bind Summary.pendingAction
  let refresh :=
    if status = some "interrupted" ∧ pendingAction = some "review" ∧
        turn.interruptRequested = false then Refresh.approving
    else .completing
      (if turn.interruptRequested = true ∨ status = some "cancelled" then "interrupted"
      else status.getD "failed")
  { turn with summary, state, refresh }

/-- The next section of a refresh.  A request for approval has a new id. -/
def Turn.advanceRefresh (turn : Turn) (works : Bool) (requestId : String) :
    Turn × List Observation :=
  match turn.refresh with
  | .idle => (turn, [])
  | .begun => match turn.execution with
      | some (.ended (some result)) =>
          ({ turn with execution := some (.ended none), refresh := .ready (some result) }, [])
      | _ => ({ turn with refresh := .unready }, [])
  | .unready => ({ turn with refresh := .idle }, [])
  | .ready result => (turn.decide result, [])
  | .completing status =>
      if turn.sends works then ({ turn with refresh := .completed status }, [.completed status])
      else ({ turn with refresh := .unsent }, [])
  | .completed _ => ({ turn with finalized := true, refresh := .idle }, [])
  | .approving =>
      if turn.sends works then ({ turn with refresh := .approved requestId }, [])
      else ({ turn with refresh := .unsent }, [])
  | .approved requestId =>
      ({ turn with
        approvalRequestId := some requestId
        awaitingApproval := true
        refresh := .idle }, [])
  | .unsent => ({ turn with refresh := .idle }, [])

/-! ## Calls of the connection -/

/-- `json_object_set_string` on the status of the summary, if there is one. -/
def Turn.setSummaryStatus (turn : Turn) (status : String) : Turn :=
  { turn with summary := turn.summary.map fun summary => { summary with status := some status } }

def Turn.fresh (closed : Bool) : Turn where
  approvalRequestId := none
  execution := none
  summary := none
  state := false
  starting := true
  finalized := false
  awaitingApproval := false
  interruptRequested := false
  refresh := .idle
  call := .starting
  closed
  closing := false

/-- `turbo_agent_harness_dispatch_turn_start`, until the conversation has the new turn. -/
def startTurn (turn : Option Turn) (closed : Bool) : Option Turn × List Observation :=
  match turn with
  | some turn =>
      if !turn.finalized || turn.starting || turn.refresh != .idle then (some turn, [])
      else (some (.fresh closed), [.started])
  | none => (some (.fresh closed), [.started])

/-- The first section of `turbo_agent_harness_dispatch_turn_interrupt`. -/
def Turn.interrupt (turn : Turn) : Turn :=
  if turn.call ≠ .idle then turn
  else if turn.finalized then turn
  else if turn.refresh != .idle || turn.starting then turn
  else if turn.awaitingApproval then
    if turn.approvalRequestId.isNone then turn
    else { turn with starting := true, call := .resolving .cancelled }
  else if turn.execution.isNone then turn
  else { turn with interruptRequested := true, call := .interrupting }

/-- The first section of `turbo_agent_harness_dispatch_approval`. -/
def Turn.respond (turn : Turn) (requestId : String) (approves : Bool) : Turn :=
  if turn.call ≠ .idle then turn
  else if !turn.awaitingApproval || turn.starting ||
      turn.approvalRequestId != some requestId then turn
  else { turn with
    starting := true
    call := if approves then .approving else .resolving .deny }

/-- The last section of a call that resolves a request. -/
def Turn.resolve (turn : Turn) (decision : Decision) : Turn :=
  let resolved := { turn with
    awaitingApproval := false
    interruptRequested := turn.interruptRequested || decision == Decision.cancelled
    finalized := true }
  resolved.setSummaryStatus decision.summaryStatus

/-- The section after a resumption that works. -/
def Turn.resumed (turn : Turn) : Turn :=
  { turn with
    execution := some .running
    summary := none
    state := false
    approvalRequestId := none
    awaitingApproval := false
    starting := false
    call := .idle }

/-- The section after a resumption that fails. -/
def Turn.unresumed (turn : Turn) (execution : Option Execution) : Turn :=
  let failed := { turn with
    execution
    awaitingApproval := false
    approvalRequestId := none
    call := .failing }
  failed.setSummaryStatus "failed"

def Turn.advance (turn : Turn) (works : Bool) : Turn × List Observation :=
  match turn.call with
  | .idle => (turn, [])
  | .starting =>
      if works then ({ turn with execution := some .running, call := .started }, [])
      else ({ turn with starting := true, call := .failing }, [])
  | .started => ({ turn with starting := false, call := .idle }, [])
  | .interrupting =>
      ({ turn with
        interruptRequested := turn.interruptRequested && (works || turn.finalized)
        call := .idle }, [])
  | .resolving decision =>
      if turn.sends works then
        ({ turn with call := .resolved decision true }, [.completed decision.status])
      else ({ turn with call := .resolved decision false }, [])
  | .resolved decision sent =>
      let turn := if sent then turn.resolve decision else turn
      ({ turn with starting := false, call := .idle }, [])
  | .approving =>
      if turn.sends works then ({ turn with call := .approved }, [])
      else ({ turn with call := .unapproved }, [])
  | .unapproved => ({ turn with starting := false, call := .idle }, [])
  | .approved => ({ turn with execution := none, call := .resuming turn.execution }, [])
  | .resuming execution =>
      if works then (turn.resumed, []) else (turn.unresumed execution, [])
  | .failing =>
      if turn.sends works then ({ turn with call := .failed true }, [.completed "failed"])
      else ({ turn with call := .failed false }, [])
  | .failed _ => ({ turn with starting := false, finalized := true, call := .idle }, [])

/-! ## Closing the connection -/

/-- The first section of `turbo_agent_harness_connection_close` for a turn. -/
def Turn.close (turn : Turn) : Turn :=
  if !turn.closed || turn.finalized then turn
  else if turn.execution.isSome then { turn with interruptRequested := true, closing := true }
  else { turn with interruptRequested := true, awaitingApproval := false, finalized := true }

/-- The section of `turbo_agent_harness_connection_close` after the execution has ended. -/
def Turn.closeEnded (turn : Turn) : Turn :=
  if !turn.closing then turn
  else { turn with
    awaitingApproval := false, starting := false, finalized := true, closing := false }

/-! ## Runs -/

/-- A step of someone.  The connection that starts a turn may have been closed since its call
began. -/
inductive Action where
  | start (closed : Bool)
  | finish (result : Result)
  | beginRefresh
  | advanceRefresh (works : Bool) (requestId : String)
  | interrupt
  | respond (requestId : String) (approves : Bool)
  | advance (works : Bool)
  | closeConnection
  | close
  | closeEnded
  | report
  deriving DecidableEq

def Turn.finish (turn : Turn) (result : Result) : Turn :=
  if turn.execution = some .running then
    { turn with execution := some (.ended (some result)) }
  else turn

def Turn.step (turn : Turn) : Action → Turn × List Observation
  | .start _ => (turn, [])
  | .finish result => (turn.finish result, [])
  | .beginRefresh => (turn.beginRefresh, [])
  | .advanceRefresh works requestId => turn.advanceRefresh works requestId
  | .interrupt => (turn.interrupt, [])
  | .respond requestId approves => (turn.respond requestId approves, [])
  | .advance works => turn.advance works
  | .closeConnection => ({ turn with closed := true }, [])
  | .close => (turn.close, [])
  | .closeEnded => (turn.closeEnded, [])
  | .report => (turn, [.reported (turnStatusText turn)])

def step (action : Action) (turn : Option Turn) : Option Turn × List Observation :=
  match action, turn with
  | .start closed, turn => startTurn turn closed
  | _, none => (none, [])
  | action, some turn => ((turn.step action).map some id)

/-- The runs whose steps all meet a condition on the turn before them. -/
inductive Run (allowed : Action → Turn → Prop) : Option Turn → List Observation → Prop where
  | nil : Run allowed none []
  | step {turn : Option Turn} {observations : List Observation} (action : Action)
      (before : Run allowed turn observations)
      (meets : ∀ current, turn = some current → allowed action current) :
      Run allowed (step action turn).1 (observations ++ (step action turn).2)

end TurboAgent.Harness.Turns
