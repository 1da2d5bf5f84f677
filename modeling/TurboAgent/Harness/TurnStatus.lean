import TurboAgent.Harness.Turns

/-!
# The status of a completed turn

A refresh notifies the status of the summary as it stands, and answers about the turn translate
it; between a notification and the end of its call the turn is not finalized.  So notifications
and answers agree on the runs in which the notified status is one that is not translated, and in
which nothing disturbs the turn before it is finalized.
-/

namespace TurboAgent.Harness.Turns

/-- Answers after a notification have its status, until there is a new turn. -/
def Agree (observations : List Observation) : Prop :=
  ∀ before status middle answer after,
    observations = before ++ .completed status :: (middle ++ .reported answer :: after) →
      .started ∉ middle → answer = status

/-! ## Undisturbed runs -/

def Refresh.pending : Refresh → Option String
  | .completed status => some status
  | _ => none

def Call.pending : Call → Option String
  | .resolved decision true => some decision.status
  | .failed true => some "failed"
  | _ => none

/-- The notified status of a turn that is yet to be finalized. -/
def Turn.pending (turn : Turn) : Option String := turn.refresh.pending.or turn.call.pending

def Turn.summaryStatus (turn : Turn) : Option String := turn.summary.bind Summary.status

/-- A refresh sends `interrupted` only while the interruption is requested or when the execution
was cancelled, and else a status that answers do not translate.  Until a notified turn is
finalized, nobody asks for it, its connection is closed only if it was interrupted, and no
interruption is withdrawn but that of a cancelled execution. -/
def undisturbed (action : Action) (turn : Turn) : Prop :=
  match action with
  | .advanceRefresh works _ => turn.sends works = true → ∀ status,
      turn.refresh = .completing status →
        if status = "interrupted" then
          turn.interruptRequested = true ∨ turn.summaryStatus = some "cancelled"
        else turn.summaryStatus ∈ [none, some "completed", some "declined", some "failed"]
  | .report => turn.pending.isSome = true → turn.finalized = true
  | .close => ∀ status, turn.pending = some status →
      turn.finalized = true ∨ status = "interrupted"
  | .advance false => turn.call = .interrupting → turn.pending.isSome = true →
      turn.finalized = true ∨ turn.summaryStatus = some "cancelled"
  | _ => True

/-! ## Invariants -/

/-- The call holds the flag `starting`. -/
def Call.holds : Call → Bool
  | .idle | .interrupting => false
  | _ => true

/-- Nobody has asked for an interruption but by closing the connection. -/
def Turn.Unasked (turn : Turn) : Prop := turn.interruptRequested = false ∨ turn.closed = true

def Turn.CallKnows (turn : Turn) : Call → Prop
  | .idle | .interrupting => True
  | .starting | .started => turn.awaitingApproval = false ∧ turn.summary = none
  | .resolving _ | .resolved .. | .approving | .approved | .unapproved | .resuming _ =>
      turn.summary.isSome = true
  | .failing | .failed _ =>
      turn.awaitingApproval = false ∧ turn.summaryStatus ∈ [none, some "failed"]

structure Held (turn : Turn) : Prop where
  starting : turn.starting = true ∨ turn.finalized = true
  refresh : turn.refresh = .idle
  unasked : turn.Unasked
  knows : turn.CallKnows turn.call

def Turn.RefreshKnows (turn : Turn) : Refresh → Prop
  | .approving | .approved _ => turn.Unasked ∧ turn.summary.isSome = true
  | .completing status => status ≠ "interrupted" → turn.Unasked ∧
      turn.summaryStatus.getD "failed" = status
  | _ => True

structure Quiet (turn : Turn) : Prop where
  call : turn.call.holds = false
  refresh : turn.refresh = .idle
  awaiting : turn.awaitingApproval = false

/-- What the calls in progress know of the turn. -/
structure Sound (turn : Turn) : Prop where
  held : turn.call.holds = true → Held turn
  refreshing : turn.refresh ≠ .idle →
    turn.awaitingApproval = false ∧ turn.RefreshKnows turn.refresh
  awaiting : turn.awaitingApproval = true → turn.Unasked ∧ turn.summary.isSome = true
  closing : turn.closing = true → turn.closed = true
  early : turn.finalized = true → turn.closed = true ∨ Quiet turn

section Steps

variable {turn : Turn}

theorem Sound.free (sound : Sound turn) (busy : turn.refresh ≠ .idle) :
    turn.call.holds = false := by
  rw [Bool.eq_false_iff]
  exact fun holds => busy (sound.held holds).refresh

/-- While a call holds the turn, only closing its connection finalizes it. -/
theorem Sound.shut (sound : Sound turn) (holds : turn.call.holds = true)
    (finalized : turn.finalized = true) : turn.closed = true :=
  (sound.early finalized).resolve_right fun quiet =>
    absurd (holds.symm.trans quiet.call) (by decide)

theorem Sound.refreshed (sound : Sound turn) (free : turn.call.holds = false)
    (unawaited : turn.awaitingApproval = false)
    (early : turn.finalized = true → turn.closed = true) {refresh : Refresh}
    (knows : turn.RefreshKnows refresh) : Sound { turn with refresh } where
  held := fun holds => absurd (holds.symm.trans free) (by decide)
  refreshing := fun _ => ⟨unawaited, knows⟩
  awaiting := sound.awaiting
  closing := sound.closing
  early := fun finalized => .inl (early finalized)

theorem Sound.executed (sound : Sound turn) (execution : Option Execution) :
    Sound { turn with execution } :=
  { sound with
    held := fun holds => { sound.held holds with }
    early := fun finalized => (sound.early finalized).imp_right fun quiet => { quiet with } }

theorem Sound.kept (sound : Sound turn) : Sound { turn with starting := true } :=
  { sound with
    held := fun holds => { sound.held holds with starting := .inl rfl }
    early := fun finalized => (sound.early finalized).imp_right fun quiet => { quiet with } }

theorem Sound.beginRefresh (sound : Sound turn) : Sound turn.beginRefresh := by
  unfold Turn.beginRefresh
  by_cases refused : (turn.starting || turn.refresh != .idle || turn.finalized ||
      turn.awaitingApproval || turn.execution.isNone) = true
  · rw [if_pos refused]
    exact sound
  · rw [if_neg refused]
    simp only [Bool.or_eq_true, not_or, Bool.not_eq_true] at refused
    obtain ⟨⟨⟨⟨free, -⟩, open_⟩, unawaited⟩, -⟩ := refused
    have unheld : turn.call.holds = false := by
      rw [Bool.eq_false_iff]
      intro holds
      rcases (sound.held holds).starting with starting | finalized
      · exact absurd (starting.symm.trans free) (by decide)
      · exact absurd (finalized.symm.trans open_) (by decide)
    refine sound.refreshed unheld unawaited ?_ ?_
    · exact fun finalized => absurd (finalized.symm.trans open_) (by decide)
    · split <;> trivial

theorem Sound.decide (sound : Sound turn) (busy : turn.refresh ≠ .idle)
    (result : Option Result) : Sound (turn.decide result) := by
  have free := sound.free busy
  refine { held := ?_, refreshing := ?_, awaiting := ?_, closing := ?_, early := ?_ }
  · exact fun holds => absurd (holds.symm.trans free) (by decide)
  · refine fun _ => ⟨(sound.refreshing busy).1, ?_⟩
    dsimp only [Turn.decide]
    split_ifs with asks interrupted
    · obtain ⟨status, -, unasked⟩ := asks
      obtain ⟨summary, isSummary, -⟩ := Option.bind_eq_some_iff.mp status
      exact ⟨.inl unasked, Option.isSome_iff_exists.mpr ⟨summary, isSummary⟩⟩
    · exact fun other => absurd rfl other
    · obtain ⟨unasked, -⟩ := not_or.mp interrupted
      exact fun _ => ⟨.inl (Bool.eq_false_iff.mpr unasked), rfl⟩
  · exact fun awaiting => absurd (awaiting.symm.trans (sound.refreshing busy).1) (by decide)
  · exact sound.closing
  · exact fun finalized => (sound.early finalized).imp_right fun quiet => absurd quiet.refresh busy

theorem Sound.advanceRefresh (sound : Sound turn) (works : Bool) (requestId : String) :
    Sound (turn.advanceRefresh works requestId).1 := by
  unfold Turn.advanceRefresh
  by_cases busy : turn.refresh = .idle
  · rw [busy]
    exact sound
  have free := sound.free busy
  obtain ⟨unawaited, knows⟩ := sound.refreshing busy
  have early : turn.finalized = true → turn.closed = true := fun finalized =>
    (sound.early finalized).resolve_right fun quiet => busy quiet.refresh
  cases phase : turn.refresh with
  | idle => exact absurd phase busy
  | begun =>
      dsimp only
      split
      · exact (sound.executed (some (.ended none))).refreshed free unawaited early trivial
      · exact sound.refreshed free unawaited early trivial
  | unready => exact sound.refreshed free unawaited early trivial
  | ready result => exact sound.decide busy result
  | completing status =>
      dsimp only
      split_ifs
      · exact sound.refreshed free unawaited early trivial
      · exact sound.refreshed free unawaited early trivial
  | completed status =>
      refine { sound with held := ?_, refreshing := ?_, early := ?_ }
      · exact fun holds => absurd (holds.symm.trans free) (by decide)
      · exact fun busy => absurd rfl busy
      · exact fun _ => .inr ⟨free, rfl, unawaited⟩
  | approving =>
      rw [phase] at knows
      dsimp only
      split_ifs
      · exact sound.refreshed free unawaited early knows
      · exact sound.refreshed free unawaited early trivial
  | approved id =>
      rw [phase] at knows
      refine { sound with held := ?_, refreshing := ?_, awaiting := ?_, early := ?_ }
      · exact fun holds => absurd (holds.symm.trans free) (by decide)
      · exact fun busy => absurd rfl busy
      · exact fun _ => knows
      · exact fun finalized => .inl (early finalized)
  | unsent => exact sound.refreshed free unawaited early trivial

theorem Sound.called (sound : Sound turn) (holds : turn.call.holds = true) {call : Call}
    (knows : turn.CallKnows call) :
    Sound { turn with call } where
  held := fun _ => { sound.held holds with knows }
  refreshing := sound.refreshing
  awaiting := sound.awaiting
  closing := sound.closing
  early := fun finalized => .inl (sound.shut holds finalized)

theorem Sound.released (sound : Sound turn) (holds : turn.call.holds = true) :
    Sound { turn with starting := false, call := .idle } where
  held := fun other => absurd other Bool.false_ne_true
  refreshing := sound.refreshing
  awaiting := sound.awaiting
  closing := sound.closing
  early := fun finalized => .inl (sound.shut holds finalized)

theorem Turn.Unasked.and (unasked : turn.Unasked) (other : Bool) :
    { turn with interruptRequested := turn.interruptRequested && other }.Unasked :=
  unasked.imp_left fun unasked => by rw [unasked, Bool.false_and]

theorem Turn.RefreshKnows.of {next : Turn} {refresh : Refresh}
    (knows : turn.RefreshKnows refresh) (unasked : turn.Unasked → next.Unasked)
    (summary : next.summary = turn.summary) : next.RefreshKnows refresh := by
  cases refresh with
  | completing status =>
      intro other
      rw [Turn.summaryStatus, summary]
      exact (knows other).imp_left unasked
  | approving | approved =>
      rw [Turn.RefreshKnows, summary]
      exact knows.imp_left unasked
  | _ => trivial

theorem Turn.CallKnows.of {next : Turn} {call : Call} (knows : turn.CallKnows call)
    (unawaited : next.awaitingApproval = false) (summary : next.summary = turn.summary) :
    next.CallKnows call := by
  cases call with
  | idle | interrupting => trivial
  | starting | started | failing | failed =>
      refine ⟨unawaited, ?_⟩
      simp only [Turn.summaryStatus, summary]
      exact knows.2
  | _ =>
      rw [Turn.CallKnows, summary]
      exact knows

theorem Sound.interrupted (sound : Sound turn) (keeps : Bool) :
    Sound { turn with
      interruptRequested := turn.interruptRequested && keeps
      call := .idle } where
  held := fun other => absurd other Bool.false_ne_true
  refreshing := by
    intro busy
    obtain ⟨unawaited, knows⟩ := sound.refreshing busy
    exact ⟨unawaited, knows.of (fun unasked => unasked.and keeps) rfl⟩
  awaiting := fun awaiting => (sound.awaiting awaiting).imp_left fun unasked => unasked.and keeps
  closing := sound.closing
  early := fun finalized => (sound.early finalized).imp_right fun quiet =>
    ⟨rfl, quiet.refresh, quiet.awaiting⟩

theorem Sound.of_quiet (quiet : Quiet turn)
    (closing : turn.closing = true → turn.closed = true) : Sound turn where
  held := fun holds => absurd (holds.symm.trans quiet.call) (by decide)
  refreshing := fun busy => absurd quiet.refresh busy
  awaiting := fun awaiting => absurd (awaiting.symm.trans quiet.awaiting) (by decide)
  closing
  early := fun _ => .inr quiet

/-- What the call in progress knows, once its phase is known. -/
theorem Sound.knows (sound : Sound turn) {call : Call} (phase : turn.call = call)
    (holds : call.holds = true) : turn.call.holds = true ∧ turn.CallKnows call := by
  subst phase
  exact ⟨holds, (sound.held holds).knows⟩

theorem Sound.advance (sound : Sound turn) (works : Bool) : Sound (turn.advance works).1 := by
  unfold Turn.advance
  cases phase : turn.call with
  | idle => exact sound
  | starting =>
      obtain ⟨holds, unawaited, none⟩ := sound.knows phase rfl
      dsimp only
      split_ifs
      · exact (sound.executed (some .running)).called holds ⟨unawaited, none⟩
      · refine sound.kept.called holds ⟨unawaited, ?_⟩
        rw [Turn.summaryStatus, none]
        exact List.mem_cons_self
  | started => exact sound.released (sound.knows phase rfl).1
  | interrupting =>
      exact sound.interrupted _
  | resolving | approving | failing =>
      obtain ⟨holds, knows⟩ := sound.knows phase rfl
      dsimp only
      split_ifs
      · exact sound.called holds knows
      · exact sound.called holds knows
  | resolved decision sent =>
      obtain ⟨holds, -⟩ := sound.knows phase rfl
      cases sent with
      | false => exact sound.released holds
      | true => exact .of_quiet ⟨rfl, (sound.held holds).refresh, rfl⟩ sound.closing
  | approved =>
      obtain ⟨holds, knows⟩ := sound.knows phase rfl
      exact (sound.executed none).called holds knows
  | unapproved => exact sound.released (sound.knows phase rfl).1
  | resuming execution =>
      obtain ⟨holds, -⟩ := sound.knows phase rfl
      have held := sound.held holds
      dsimp only
      split_ifs
      · exact .of_quiet ⟨rfl, held.refresh, rfl⟩ sound.closing
      · refine { sound with held := ?_, refreshing := ?_, awaiting := ?_, early := ?_ }
        · refine fun _ => { held with knows := ⟨rfl, ?_⟩ }
          cases isSummary : turn.summary with
          | none => simp [Turn.summaryStatus, Turn.unresumed, Turn.setSummaryStatus, isSummary]
          | some summary =>
              simp [Turn.summaryStatus, Turn.unresumed, Turn.setSummaryStatus, isSummary]
        · exact fun busy => absurd held.refresh busy
        · exact fun awaiting => absurd awaiting Bool.false_ne_true
        · exact fun finalized => .inl (sound.shut holds finalized)
  | failed sent =>
      obtain ⟨holds, knows⟩ := sound.knows phase rfl
      exact .of_quiet ⟨rfl, (sound.held holds).refresh, knows.1⟩ sound.closing

theorem Sound.answered (sound : Sound turn) (awaiting : turn.awaitingApproval = true) {call : Call}
    (knows : turn.summary.isSome = true → turn.CallKnows call) :
    Sound { turn with starting := true, call } := by
  have idle : turn.refresh = .idle := by
    by_contra busy
    exact absurd (awaiting.symm.trans (sound.refreshing busy).1) (by decide)
  obtain ⟨unasked, some⟩ := sound.awaiting awaiting
  refine { sound with held := ?_, early := ?_ }
  · exact fun _ => ⟨.inl rfl, idle, unasked, knows some⟩
  · exact fun finalized => (sound.early finalized).imp_right fun quiet =>
      absurd (awaiting.symm.trans quiet.awaiting) (by decide)

theorem Sound.interrupt (sound : Sound turn) : Sound turn.interrupt := by
  unfold Turn.interrupt
  split_ifs with busy finalized held awaiting unknown none
  · exact sound
  · exact sound
  · exact sound
  · exact sound
  · exact sound.answered awaiting id
  · exact sound
  · rw [Bool.or_eq_true, not_or, bne_iff_ne, not_not] at held
    refine { sound with
      held := ?_, refreshing := ?_, awaiting := ?_, early := ?_ }
    · exact fun other => absurd other Bool.false_ne_true
    · exact fun busy => absurd held.1 busy
    · exact fun other => absurd other awaiting
    · exact fun other => absurd other finalized

theorem Sound.respond (sound : Sound turn) (requestId : String) (approves : Bool) :
    Sound (turn.respond requestId approves) := by
  unfold Turn.respond
  by_cases busy : turn.call ≠ .idle
  · rw [if_pos busy]
    exact sound
  rw [if_neg busy]
  by_cases refused : (!turn.awaitingApproval || turn.starting ||
      turn.approvalRequestId != some requestId) = true
  · rw [if_pos refused]
    exact sound
  rw [if_neg refused]
  simp only [Bool.or_eq_true, not_or, Bool.not_eq_true', Bool.not_eq_false] at refused
  refine sound.answered refused.1.1 fun some => ?_
  cases approves with
  | true => exact some
  | false => exact some

theorem Sound.closed (sound : Sound turn) (closed : turn.closed = true)
    (starting interruptRequested closing : Bool) :
    Sound { turn with
      awaitingApproval := false
      starting
      interruptRequested
      finalized := true
      closing := closing } where
  held := fun holds =>
    { sound.held holds with
      starting := .inr rfl
      unasked := .inr closed
      knows := (sound.held holds).knows.of rfl rfl }
  refreshing := fun busy => ⟨rfl, (sound.refreshing busy).2.of (fun _ => .inr closed) rfl⟩
  awaiting := fun awaiting => absurd awaiting Bool.false_ne_true
  closing := fun _ => closed
  early := fun _ => .inl closed

theorem Sound.connectionClosed (sound : Sound turn) : Sound { turn with closed := true } where
  held := fun holds => { sound.held holds with unasked := .inr rfl }
  refreshing := fun busy =>
    (sound.refreshing busy).imp_right fun knows => knows.of (fun _ => .inr rfl) rfl
  awaiting := fun awaiting => ⟨.inr rfl, (sound.awaiting awaiting).2⟩
  closing := fun _ => rfl
  early := fun _ => .inl rfl

theorem Sound.close (sound : Sound turn) : Sound turn.close := by
  unfold Turn.close
  split_ifs with refused running
  · exact sound
  · rw [Bool.or_eq_true, not_or, Bool.not_eq_true', Bool.not_eq_false] at refused
    obtain ⟨closed, finalized⟩ := refused
    refine { sound with
      held := ?_, refreshing := ?_, awaiting := ?_, closing := ?_, early := ?_ }
    · exact fun holds => { sound.held holds with unasked := .inr closed }
    · intro busy
      obtain ⟨unawaited, knows⟩ := sound.refreshing busy
      exact ⟨unawaited, knows.of (fun _ => .inr closed) rfl⟩
    · exact fun awaiting => ⟨.inr closed, (sound.awaiting awaiting).2⟩
    · exact fun _ => closed
    · exact fun other => absurd other finalized
  · rw [Bool.or_eq_true, not_or, Bool.not_eq_true', Bool.not_eq_false] at refused
    exact sound.closed refused.1 turn.starting true turn.closing

theorem Sound.closeEnded (sound : Sound turn) : Sound turn.closeEnded := by
  unfold Turn.closeEnded
  split_ifs with refused
  · exact sound
  · rw [Bool.not_eq_true', Bool.not_eq_false] at refused
    exact sound.closed (sound.closing refused) false turn.interruptRequested false

theorem Sound.step (sound : Sound turn) (action : Action) : Sound (turn.step action).1 := by
  cases action with
  | start => exact sound
  | finish result =>
      dsimp only [Turn.step, Turn.finish]
      split_ifs
      · exact sound.executed _
      · exact sound
  | beginRefresh => exact sound.beginRefresh
  | advanceRefresh works requestId => exact sound.advanceRefresh works requestId
  | interrupt => exact sound.interrupt
  | respond requestId approves => exact sound.respond requestId approves
  | advance works => exact sound.advance works
  | closeConnection => exact sound.connectionClosed
  | close => exact sound.close
  | closeEnded => exact sound.closeEnded
  | report => exact sound

end Steps

/-! ## Notified turns -/

inductive Told (turn : Turn) (status : String) : Prop where
  | refreshed (refresh : turn.refresh = .completed status)
      (same : finalStatus turn.interruptRequested turn.summary = status)
  | cancelled (call : turn.call = .resolved .cancelled true) (same : status = "interrupted")
      (asked : turn.finalized = true ∨ turn.closing = true → turn.interruptRequested = true)
  | denied (call : turn.call = .resolved .deny true) (same : status = "declined")
      (unasked : turn.interruptRequested = false) (open_ : turn.finalized = false)
      (unclosed : turn.closing = false)
  | failed (call : turn.call = .failed true) (same : status = "failed")
      (unasked : turn.interruptRequested = false) (open_ : turn.finalized = false)
      (unclosed : turn.closing = false)
  | settled (finalized : turn.finalized = true)
      (same : finalStatus turn.interruptRequested turn.summary = status) (quiet : Quiet turn)

section Told

variable {turn : Turn} {status : String}

theorem holds_of_pending {call : Call} (pending : call.pending ≠ none) : call.holds = true := by
  cases call with
  | idle | interrupting => exact absurd rfl pending
  | _ => rfl

theorem Told.beginRefresh (told : Told turn status) (sound : Sound turn) :
    turn.beginRefresh = turn := by
  have busy : turn.starting = true ∨ turn.refresh ≠ .idle ∨ turn.finalized = true := by
    have called (pending : turn.call.pending ≠ none) :
        turn.starting = true ∨ turn.refresh ≠ .idle ∨ turn.finalized = true :=
      (sound.held (holds_of_pending pending)).starting.imp_right .inr
    cases told with
    | refreshed refresh => exact .inr (.inl (by rw [refresh]; simp))
    | cancelled call | denied call | failed call => exact called (by rw [call]; simp [Call.pending])
    | settled finalized => exact .inr (.inr finalized)
  refine if_pos ?_
  simp only [Bool.or_eq_true, bne_iff_ne]
  tauto

theorem Told.interrupt (told : Told turn status) : turn.interrupt = turn := by
  unfold Turn.interrupt
  cases told with
  | refreshed refresh =>
      have busy : (turn.refresh != .idle || turn.starting) = true := by rw [refresh]; rfl
      rw [if_pos busy, ite_self, ite_self]
  | cancelled call | denied call | failed call => exact if_pos (by rw [call]; simp)
  | settled finalized => rw [if_pos finalized, ite_self]

theorem Told.respond (told : Told turn status) (sound : Sound turn) (requestId : String)
    (approves : Bool) : turn.respond requestId approves = turn := by
  have refused (unawaited : turn.awaitingApproval = false) : (!turn.awaitingApproval ||
      turn.starting || turn.approvalRequestId != some requestId) = true := by
    rw [unawaited]
    rfl
  unfold Turn.respond
  cases told with
  | refreshed refresh =>
      have busy : turn.refresh ≠ .idle := by rw [refresh]; simp
      rw [if_pos (refused (sound.refreshing busy).1), ite_self]
  | cancelled call | denied call | failed call => exact if_pos (by rw [call]; simp)
  | settled _ _ quiet => rw [if_pos (refused quiet.awaiting), ite_self]

theorem Told.framed (told : Told turn status) (execution : Option Execution) (closed : Bool) :
    Told { turn with execution, closed } status := by
  cases told with
  | refreshed refresh same => exact .refreshed refresh same
  | cancelled call same asked => exact .cancelled call same asked
  | denied call same unasked open_ unclosed => exact .denied call same unasked open_ unclosed
  | failed call same unasked open_ unclosed => exact .failed call same unasked open_ unclosed
  | settled finalized same quiet => exact .settled finalized same { quiet with }

theorem Told.advanceRefresh (told : Told turn status) (sound : Sound turn) (works : Bool)
    (requestId : String) : (turn.advanceRefresh works requestId).2 = [] ∧
      Told (turn.advanceRefresh works requestId).1 status := by
  have unchanged (idle : turn.refresh = .idle) :
      (turn.advanceRefresh works requestId).2 = [] ∧
        Told (turn.advanceRefresh works requestId).1 status := by
    rw [Turn.advanceRefresh, idle]
    exact ⟨rfl, told⟩
  have held (pending : turn.call.pending ≠ none) : turn.refresh = .idle :=
    (sound.held (holds_of_pending pending)).refresh
  cases told with
  | refreshed refresh same =>
      have busy : turn.refresh ≠ .idle := by rw [refresh]; simp
      rw [Turn.advanceRefresh, refresh]
      exact ⟨rfl, .settled rfl same ⟨sound.free busy, rfl, (sound.refreshing busy).1⟩⟩
  | cancelled call | denied call | failed call =>
      exact unchanged (held (by rw [call]; simp [Call.pending]))
  | settled _ _ quiet => exact unchanged quiet.refresh

theorem finalStatus_and {interruptRequested keeps : Bool} {summary : Option Summary}
    (cancelled : keeps = false → summary.bind Summary.status = some "cancelled") :
    finalStatus (interruptRequested && keeps) summary = finalStatus interruptRequested summary := by
  cases keeps with
  | true => rw [Bool.and_true]
  | false =>
      have status := cancelled rfl
      cases interruptRequested with
      | true => simp [finalStatus, status]
      | false => rfl

theorem finalStatus_failed {summary : Option Summary}
    (status : summary.bind Summary.status ∈ [none, some "failed"]) :
    finalStatus false summary = "failed" := by
  rw [List.mem_cons, List.mem_singleton] at status
  rcases status with status | status <;> simp [finalStatus, status]

theorem Told.advance (told : Told turn status) (sound : Sound turn) (works : Bool)
    (meets : undisturbed (.advance works) turn) :
    (turn.advance works).2 = [] ∧ Told (turn.advance works).1 status := by
  unfold Turn.advance
  cases told with
  | refreshed refresh same =>
      have busy : turn.refresh ≠ .idle := by rw [refresh]; simp
      have free := sound.free busy
      cases phase : turn.call with
      | idle => exact ⟨rfl, .refreshed refresh same⟩
      | interrupting =>
          refine ⟨rfl, .refreshed refresh ?_⟩
          refine (finalStatus_and fun gone => ?_).trans same
          obtain ⟨rfl, open_⟩ := Bool.or_eq_false_iff.mp gone
          have pending : turn.pending.isSome = true := by rw [Turn.pending, refresh]; rfl
          refine (meets phase pending).resolve_left fun finalized => ?_
          exact absurd (finalized.symm.trans open_) (by decide)
      | _ => rw [phase] at free; cases free
  | cancelled call same asked =>
      have idle := (sound.held (holds_of_pending (by rw [call]; simp [Call.pending]))).refresh
      rw [call, same]
      refine ⟨rfl, .settled rfl ?_ ⟨rfl, idle, rfl⟩⟩
      exact if_pos (Bool.or_true _)
  | denied call same unasked =>
      have held := sound.held (holds_of_pending (by rw [call]; simp [Call.pending]))
      have knows := held.knows
      rw [call] at knows
      obtain ⟨summary, isSummary⟩ := Option.isSome_iff_exists.mp knows
      rw [call, same]
      refine ⟨rfl, .settled rfl ?_ ⟨rfl, held.refresh, rfl⟩⟩
      simp [Turn.resolve, Turn.setSummaryStatus, unasked, isSummary, finalStatus,
        Decision.summaryStatus]
  | failed call same unasked =>
      have held := sound.held (holds_of_pending (by rw [call]; simp [Call.pending]))
      have knows := held.knows
      rw [call] at knows
      rw [call, same]
      refine ⟨rfl, .settled rfl ?_ ⟨rfl, held.refresh, knows.1⟩⟩
      dsimp only
      rw [unasked]
      exact finalStatus_failed knows.2
  | settled finalized same quiet =>
      have free := quiet.call
      cases phase : turn.call with
      | idle => exact ⟨rfl, .settled finalized same quiet⟩
      | interrupting =>
          refine ⟨rfl, .settled finalized ?_ ⟨rfl, quiet.refresh, quiet.awaiting⟩⟩
          dsimp only
          rw [finalized, Bool.or_true, Bool.and_true]
          exact same
      | _ => rw [phase] at free; cases free

theorem Told.close (told : Told turn status) (sound : Sound turn)
    (meets : undisturbed .close turn) : Told turn.close status := by
  have apart (pending : turn.pending = some status) (open_ : turn.finalized = false) :
      status = "interrupted" :=
    (meets status pending).resolve_left fun finalized =>
      absurd (finalized.symm.trans open_) (by decide)
  by_cases refused : (!turn.closed || turn.finalized) = true
  · rw [Turn.close, if_pos refused]
    exact told
  rw [Turn.close, if_neg refused]
  rw [Bool.or_eq_true, not_or, Bool.not_eq_true] at refused
  have open_ : turn.finalized = false := Bool.eq_false_iff.mpr refused.2
  cases told with
  | refreshed refresh same =>
      obtain rfl := apart (by rw [Turn.pending, refresh]; rfl) open_
      split_ifs
      · exact .refreshed refresh rfl
      · exact .refreshed refresh rfl
  | cancelled call same asked =>
      split_ifs
      · exact .cancelled call same fun _ => rfl
      · exact .cancelled call same fun _ => rfl
  | denied call same | failed call same =>
      have idle := (sound.held (holds_of_pending (by rw [call]; simp [Call.pending]))).refresh
      have pending : turn.pending = some status := by
        rw [Turn.pending, idle, call, same]
        rfl
      exact absurd (same.symm.trans (apart pending open_)) (by decide)
  | settled finalized => exact absurd finalized refused.2

theorem Told.closeEnded (told : Told turn status) : Told turn.closeEnded status := by
  by_cases refused : (!turn.closing) = true
  · rw [Turn.closeEnded, if_pos refused]
    exact told
  rw [Turn.closeEnded, if_neg refused]
  rw [Bool.not_eq_true', Bool.not_eq_false] at refused
  cases told with
  | refreshed refresh same => exact .refreshed refresh same
  | cancelled call same asked => exact .cancelled call same fun _ => asked (.inr refused)
  | denied _ _ _ _ unclosed | failed _ _ _ _ unclosed =>
      exact absurd (refused.symm.trans unclosed) (by decide)
  | settled finalized same quiet => exact .settled rfl same ⟨quiet.call, quiet.refresh, rfl⟩

theorem Told.report (told : Told turn status) (sound : Sound turn)
    (meets : undisturbed .report turn) : turnStatusText turn = status := by
  have finalized : turn.finalized = true := by
    cases told with
    | refreshed refresh => exact meets (by rw [Turn.pending, refresh]; rfl)
    | cancelled call | denied call | failed call =>
        have idle := (sound.held (holds_of_pending (by rw [call]; simp [Call.pending]))).refresh
        exact meets (by rw [Turn.pending, idle, call]; rfl)
    | settled finalized => exact finalized
  rw [turnStatusText, if_pos finalized]
  cases told with
  | refreshed _ same => exact same
  | cancelled _ same asked => rw [asked (.inl finalized), same]; rfl
  | denied _ _ _ open_ | failed _ _ _ open_ =>
      exact absurd (finalized.symm.trans open_) (by decide)
  | settled _ same => exact same

theorem Told.step (told : Told turn status) (sound : Sound turn) {action : Action}
    (meets : undisturbed action turn) : Told (turn.step action).1 status ∧
      ((turn.step action).2 = [] ∨ (turn.step action).2 = [.reported status]) := by
  cases action with
  | start => exact ⟨told, .inl rfl⟩
  | finish result =>
      refine ⟨?_, .inl rfl⟩
      dsimp only [Turn.step, Turn.finish]
      split_ifs
      · exact told.framed _ turn.closed
      · exact told
  | beginRefresh =>
      dsimp only [Turn.step]
      rw [told.beginRefresh sound]
      exact ⟨told, .inl rfl⟩
  | advanceRefresh works requestId =>
      obtain ⟨silent, next⟩ := told.advanceRefresh sound works requestId
      exact ⟨next, .inl silent⟩
  | interrupt =>
      dsimp only [Turn.step]
      rw [told.interrupt]
      exact ⟨told, .inl rfl⟩
  | respond requestId approves =>
      dsimp only [Turn.step]
      rw [told.respond sound]
      exact ⟨told, .inl rfl⟩
  | advance works =>
      obtain ⟨silent, next⟩ := told.advance sound works meets
      exact ⟨next, .inl silent⟩
  | closeConnection => exact ⟨told.framed turn.execution true, .inl rfl⟩
  | close => exact ⟨told.close sound meets, .inl rfl⟩
  | closeEnded => exact ⟨told.closeEnded, .inl rfl⟩
  | report => exact ⟨told, .inr (by rw [← told.report sound meets]; rfl)⟩

end Told

/-! ## Notifications -/

/-- What a step makes of a turn that nobody was notified of. -/
inductive Tells (next : Turn) : List Observation → Prop where
  | nothing (pending : next.pending = none) : Tells next []
  | answer (answer : String) (pending : next.pending = none) : Tells next [.reported answer]
  | status (status : String) (told : Told next status) : Tells next [.completed status]

section Tells

variable {turn : Turn}

theorem finalStatus_completing {interruptRequested : Bool} {summary : Option Summary}
    {status : String} (meets : if status = "interrupted" then
        interruptRequested = true ∨ summary.bind Summary.status = some "cancelled"
      else summary.bind Summary.status ∈ [none, some "completed", some "declined", some "failed"])
    (knows : status ≠ "interrupted" → interruptRequested = false ∧
      (summary.bind Summary.status).getD "failed" = status) :
    finalStatus interruptRequested summary = status := by
  split_ifs at meets with interrupted
  · rw [interrupted]
    rcases meets with requested | cancelled
    · exact if_pos requested
    · simp [finalStatus, cancelled]
  · obtain ⟨unasked, same⟩ := knows interrupted
    rw [← same, unasked]
    simp only [List.mem_cons, List.not_mem_nil, or_false] at meets
    rcases meets with known | known | known | known <;> simp [finalStatus, known]

theorem open_of_sends {works : Bool} (sends : turn.sends works = true) : turn.closed = false := by
  rw [Turn.sends, Bool.and_eq_true, Bool.not_eq_true'] at sends
  exact sends.2

theorem Turn.Unasked.requested (unasked : turn.Unasked) (open_ : turn.closed = false) :
    turn.interruptRequested = false :=
  unasked.resolve_right fun closed => absurd (closed.symm.trans open_) (by decide)

theorem Tells.advanceRefresh (sound : Sound turn) (silent : turn.pending = none) (works : Bool)
    (requestId : String) (meets : undisturbed (.advanceRefresh works requestId) turn) :
    Tells (turn.advanceRefresh works requestId).1 (turn.advanceRefresh works requestId).2 := by
  obtain ⟨-, uncalled⟩ := Option.or_eq_none_iff.mp silent
  unfold Turn.advanceRefresh
  cases phase : turn.refresh with
  | idle => exact .nothing silent
  | begun =>
      dsimp only
      split <;> exact .nothing uncalled
  | ready result =>
      refine .nothing ?_
      dsimp only [Turn.decide]
      split_ifs <;> exact uncalled
  | completing status =>
      dsimp only
      split_ifs with sends
      · refine .status status (.refreshed rfl (finalStatus_completing (meets sends status phase) ?_))
        have busy : turn.refresh ≠ .idle := by rw [phase]; simp
        have knows := (sound.refreshing busy).2
        rw [phase] at knows
        exact fun other => (knows other).imp_left (·.requested (open_of_sends sends))
      · exact .nothing uncalled
  | approving =>
      dsimp only
      split_ifs <;> exact .nothing uncalled
  | completed status | approved requestId | unready | unsent => exact .nothing uncalled

theorem Tells.advance (sound : Sound turn) (silent : turn.pending = none) (works : Bool) :
    Tells (turn.advance works).1 (turn.advance works).2 := by
  obtain ⟨unrefreshed, uncalled⟩ := Option.or_eq_none_iff.mp silent
  have quiet {next : Turn} (refresh : next.refresh = turn.refresh)
      (call : next.call.pending = none) : next.pending = none := by
    rw [Turn.pending, refresh, unrefreshed, call]
    rfl
  have fresh (holds : turn.call.holds = true) (open_ : turn.closed = false) :
      turn.interruptRequested = false ∧ turn.finalized = false ∧ turn.closing = false := by
    have shut := Bool.eq_false_iff.mp open_
    exact ⟨(sound.held holds).unasked.requested open_,
      Bool.eq_false_iff.mpr fun finalized => shut (sound.shut holds finalized),
      Bool.eq_false_iff.mpr fun closing => shut (sound.closing closing)⟩
  unfold Turn.advance
  cases phase : turn.call with
  | idle => exact .nothing silent
  | starting | approving | resuming =>
      dsimp only
      split_ifs <;> exact .nothing (quiet rfl rfl)
  | resolving decision =>
      dsimp only
      split_ifs with sends
      · obtain ⟨unasked, unfinalized, unclosed⟩ := fresh (by rw [phase]; rfl) (open_of_sends sends)
        cases decision with
        | cancelled =>
            refine .status _ (.cancelled rfl rfl fun early => ?_)
            rcases early with finalized | closing
            · exact absurd (finalized.symm.trans unfinalized) (by decide)
            · exact absurd (closing.symm.trans unclosed) (by decide)
        | deny => exact .status _ (.denied rfl rfl unasked unfinalized unclosed)
      · exact .nothing (quiet rfl rfl)
  | resolved decision sent =>
      cases sent with
      | false => exact .nothing (quiet rfl rfl)
      | true => rw [phase] at uncalled; cases uncalled
  | failing =>
      dsimp only
      split_ifs with sends
      · obtain ⟨unasked, unfinalized, unclosed⟩ := fresh (by rw [phase]; rfl) (open_of_sends sends)
        exact .status _ (.failed rfl rfl unasked unfinalized unclosed)
      · exact .nothing (quiet rfl rfl)
  | started | interrupting | approved | unapproved | failed => exact .nothing (quiet rfl rfl)

theorem Tells.step (sound : Sound turn) (silent : turn.pending = none) {action : Action}
    (meets : undisturbed action turn) :
    Tells (turn.step action).1 (turn.step action).2 := by
  obtain ⟨unrefreshed, uncalled⟩ := Option.or_eq_none_iff.mp silent
  cases action with
  | start => exact .nothing silent
  | finish result =>
      dsimp only [Turn.step, Turn.finish]
      split_ifs <;> exact .nothing silent
  | beginRefresh =>
      dsimp only [Turn.step, Turn.beginRefresh]
      split_ifs
      · exact .nothing silent
      · exact .nothing uncalled
      · exact .nothing uncalled
  | advanceRefresh works requestId => exact Tells.advanceRefresh sound silent works requestId meets
  | interrupt =>
      refine .nothing (Option.or_eq_none_iff.mpr ⟨?_, ?_⟩)
      · dsimp only [Turn.step, Turn.interrupt]
        split_ifs <;> exact unrefreshed
      · dsimp only [Turn.step, Turn.interrupt]
        split_ifs
        · exact uncalled
        · exact uncalled
        · exact uncalled
        · exact uncalled
        · rfl
        · exact uncalled
        · rfl
  | respond requestId approves =>
      refine .nothing (Option.or_eq_none_iff.mpr ⟨?_, ?_⟩)
      · dsimp only [Turn.step, Turn.respond]
        split_ifs <;> exact unrefreshed
      · dsimp only [Turn.step, Turn.respond]
        split_ifs
        · exact uncalled
        · exact uncalled
        · rfl
        · rfl
  | advance works => exact Tells.advance sound silent works
  | closeConnection => exact .nothing silent
  | close =>
      dsimp only [Turn.step, Turn.close]
      split_ifs <;> exact .nothing silent
  | closeEnded =>
      dsimp only [Turn.step, Turn.closeEnded]
      split_ifs <;> exact .nothing silent
  | report => exact .answer _ silent

end Tells

/-! ## Runs -/

/-- The statuses that were notified since the last new turn. -/
def heard (observations : List Observation) : List String :=
  observations.foldl (fun heard observation => match observation with
    | .started => []
    | .completed status => heard ++ [status]
    | .reported _ => heard) []

theorem heard_append (observations : List Observation) (observation : Observation) :
    heard (observations ++ [observation]) = match observation with
      | .started => []
      | .completed status => heard observations ++ [status]
      | .reported _ => heard observations := by
  rw [heard, List.foldl_append]
  rfl

theorem mem_heard {before middle : List Observation} {status : String}
    (same : .started ∉ middle) : status ∈ heard (before ++ .completed status :: middle) := by
  induction middle using List.reverseRecOn with
  | nil =>
      rw [heard_append]
      exact List.mem_append_right _ (List.mem_singleton.mpr rfl)
  | append_singleton middle observation ih =>
      obtain ⟨others, last⟩ := not_or.mp (mt List.mem_append.mpr same)
      rw [← List.cons_append, ← List.append_assoc, heard_append]
      cases observation with
      | started => exact absurd (List.mem_singleton.mpr rfl) last
      | completed other => exact List.mem_append_left _ (ih others)
      | reported answer => exact ih others

def Answers (observations : List Observation) : Prop :=
  ∀ before answer after, observations = before ++ .reported answer :: after →
    ∀ status ∈ heard before, answer = status

variable {observations : List Observation}

theorem Answers.agree (answers : Answers observations) : Agree observations := by
  intro before status middle answer after split same
  refine answers (before ++ .completed status :: middle) answer after ?_ status (mem_heard same)
  rw [split, List.append_assoc, List.cons_append]

theorem Answers.append (answers : Answers observations) {observation : Observation}
    (last : ∀ answer, observation = .reported answer →
      ∀ status ∈ heard observations, answer = status) :
    Answers (observations ++ [observation]) := by
  intro before answer after split
  rcases List.eq_nil_or_concat after with rfl | ⟨after, other, rfl⟩
  · obtain ⟨rfl, same⟩ := List.append_inj' split rfl
    exact last answer (List.cons.inj same).1
  · rw [List.concat_eq_append, ← List.cons_append, ← List.append_assoc] at split
    exact answers before answer after (List.append_inj' split rfl).1

inductive Heard (turn : Turn) : List String → Prop where
  | nothing (pending : turn.pending = none) : Heard turn []
  | once {status : String} (told : Told turn status) : Heard turn [status]

/-- What holds of a conversation after what was heard of its turn. -/
def Follows (statuses : List String) : Option Turn → Prop
  | none => statuses = []
  | some turn => Sound turn ∧ Heard turn statuses

theorem Heard.step {turn : Turn} {statuses : List String} (hears : Heard turn statuses)
    (sound : Sound turn) {action : Action} (meets : undisturbed action turn) :
    ((turn.step action).2 = [] ∧ Heard (turn.step action).1 statuses) ∨
    (∃ answer, (turn.step action).2 = [.reported answer] ∧
      Heard (turn.step action).1 statuses ∧ ∀ status ∈ statuses, answer = status) ∨
    ∃ status, (turn.step action).2 = [.completed status] ∧
      Heard (turn.step action).1 (statuses ++ [status]) := by
  cases hears with
  | nothing pending =>
      have tells := Tells.step sound pending meets
      generalize (turn.step action).1 = next, (turn.step action).2 = new at tells
      cases tells with
      | nothing pending => exact .inl ⟨rfl, .nothing pending⟩
      | answer answer pending => exact .inr (.inl ⟨answer, rfl, .nothing pending, by simp⟩)
      | status status told => exact .inr (.inr ⟨status, rfl, .once told⟩)
  | once told =>
      obtain ⟨next, silent | answers⟩ := told.step sound meets
      · exact .inl ⟨silent, .once next⟩
      · refine .inr (.inl ⟨_, answers, .once next, fun status member => ?_⟩)
        exact (List.mem_singleton.mp member).symm

theorem sound_fresh (closed : Bool) : Sound (.fresh closed) where
  held := fun _ => ⟨.inl rfl, rfl, .inl rfl, rfl, rfl⟩
  refreshing := fun busy => absurd rfl busy
  awaiting := fun other => absurd other Bool.false_ne_true
  closing := fun other => absurd other Bool.false_ne_true
  early := fun other => absurd other Bool.false_ne_true

section Runs

variable {turn : Option Turn} {observations : List Observation}

/-- What is known of a conversation after a run. -/
def Known (turn : Option Turn) (observations : List Observation) : Prop :=
  Answers observations ∧ Follows (heard observations) turn

theorem Known.started (known : Known turn observations) (closed : Bool) :
    Known (some (.fresh closed)) (observations ++ [.started]) := by
  refine ⟨known.1.append (fun answer other => by cases other), ?_⟩
  rw [heard_append]
  exact ⟨sound_fresh closed, .nothing rfl⟩

theorem Known.turnStep {turn : Turn} (known : Known (some turn) observations) {action : Action}
    (meets : undisturbed action turn) :
    Known (some (turn.step action).1) (observations ++ (turn.step action).2) := by
  obtain ⟨answers, sound, hears⟩ := known
  have next := sound.step action
  rcases hears.step sound meets with ⟨silent, hears⟩ | ⟨answer, new, hears, same⟩ |
    ⟨status, new, hears⟩
  · rw [silent, List.append_nil]
    exact ⟨answers, next, hears⟩
  · rw [new]
    refine ⟨answers.append fun other isOther => ?_, ?_⟩
    · obtain rfl := Observation.reported.inj isOther
      exact same
    · rw [heard_append]
      exact ⟨next, hears⟩
  · rw [new]
    refine ⟨answers.append (fun other isOther => by cases isOther), ?_⟩
    rw [heard_append]
    exact ⟨next, hears⟩

theorem Known.step (known : Known turn observations) {action : Action}
    (meets : ∀ current, turn = some current → undisturbed action current) :
    Known (step action turn).1 (observations ++ (step action turn).2) := by
  cases turn with
  | none =>
      cases action with
      | start closed => exact known.started closed
      | _ =>
          rw [Turns.step, List.append_nil]
          · exact known
          · exact fun _ other => by cases other
  | some turn =>
      cases action with
      | start closed =>
          dsimp only [Turns.step, startTurn]
          split_ifs
          · rw [List.append_nil]
            exact known
          · exact known.started closed
      | _ => exact known.turnStep (meets turn rfl)

theorem Known.of_run (run : Run undisturbed turn observations) : Known turn observations := by
  induction run with
  | nil => exact ⟨fun before answer after split => by simp at split, rfl⟩
  | step action before meets ih => exact ih.step meets

end Runs

/-- In an undisturbed run notifications and answers agree. -/
theorem agree_of_undisturbed {turn : Option Turn} {observations : List Observation}
    (run : Run undisturbed turn observations) : Agree observations :=
  (Known.of_run run).1.agree

def perform (actions : List Action) (before : Option Turn × List Observation) :
    Option Turn × List Observation :=
  actions.foldl (fun before action =>
    ((step action before.1).1, before.2 ++ (step action before.1).2)) before

/-- Steps meet a condition, each on the turn before it. -/
def Meets (allowed : Action → Turn → Prop) : List Action → Option Turn → Prop
  | [], _ => True
  | action :: actions, turn => (∀ current, turn = some current → allowed action current) ∧
      Meets allowed actions (step action turn).1

theorem Run.perform {allowed : Action → Turn → Prop} {turn : Option Turn}
    (run : Run allowed turn observations) {actions : List Action}
    (meets : Meets allowed actions turn) :
    Run allowed (perform actions (turn, observations)).1
      (perform actions (turn, observations)).2 := by
  induction actions generalizing turn observations with
  | nil => exact run
  | cons action actions ih => exact ih (run.step action meets.1) meets.2

/-- The steps of a turn whose execution ends with a status. -/
def turnActions (status : String) : List Action :=
  [.start false, .advance true, .advance true, .finish (some ⟨some status, none⟩, true),
    .beginRefresh, .advanceRefresh true "", .advanceRefresh true "", .advanceRefresh true "",
    .advanceRefresh true "", .report]

theorem agree_of_undisturbed_sample :
    Agree [.started, .completed "completed", .reported "completed"] := by
  have meets : Meets undisturbed (turnActions "completed") none := by
    refine ⟨?_, ?_, ?_, ?_, ?_, ?_, ?_, ?_, ?_, ?_, trivial⟩
    · rintro _ ⟨⟩
    · exact fun _ _ => trivial
    · exact fun _ _ => trivial
    · exact fun _ _ => trivial
    · exact fun _ _ => trivial
    · rintro _ ⟨⟩ - _ ⟨⟩
    · rintro _ ⟨⟩ - _ ⟨⟩
    · rintro _ ⟨⟩ - _ ⟨⟩
      decide
    · rintro _ ⟨⟩ - _ ⟨⟩
    · rintro _ ⟨⟩
      exact fun _ => rfl
  exact agree_of_undisturbed (Run.nil.perform meets)

/-- A turn that has timed out is completed with `timed_out` and reported as `failed`. -/
theorem timed_out_disagrees : ∃ turn observations,
    Run (fun _ _ => True) turn observations ∧ ¬Agree observations := by
  have meets : Meets (fun _ _ => True) (turnActions "timed_out") none := by
    refine ⟨?_, ?_, ?_, ?_, ?_, ?_, ?_, ?_, ?_, ?_, trivial⟩ <;> exact fun _ _ => trivial
  refine ⟨_, _, Run.nil.perform meets, fun agree => ?_⟩
  exact absurd (agree [.started] "timed_out" [] "failed" [] rfl List.not_mem_nil) (by decide)

end TurboAgent.Harness.Turns
