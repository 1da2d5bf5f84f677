import TurboAgent.Resilience.Model

/-!
# The discipline of retries

The transport is called no more often than the policy allows, only an attempt that may be
repeated is repeated, and no wait is scheduled to end after the time of the execution.  A wait
can be longer than the longest delay: the jitter is added after the delay has been bounded.
-/

namespace TurboAgent.Resilience

open Logic

/-! ## The delay -/

section

variable {policy : RetryPolicy} {attempt : Nat} {retryAfterMs : UInt32}

theorem steadyDelay_le (policy : RetryPolicy) (attempt : Nat) (retryAfterMs : UInt32) :
    steadyDelay policy attempt retryAfterMs ≤ policy.maxDelayMs.toNat := by
  simp only [steadyDelay]
  split
  next honored =>
    simp only [Bool.and_eq_true, decide_eq_true_eq] at honored
    exact honored.2
  next => exact Nat.min_le_right _ _

/-- The offset is at most the delay, for the jitter is at most a hundred percent of it. -/
theorem jitterSpan_le {delay : Nat} {percent : UInt32} (small : delay < 2 ^ 32)
    (part : percent.toNat ≤ 100) : jitterSpan delay percent ≤ delay := by
  have product : delay * percent.toNat ≤ delay * 100 := Nat.mul_le_mul_left delay part
  rw [jitterSpan, Nat.mod_eq_of_lt (by omega)]
  exact Nat.div_le_of_le_mul (by omega)

theorem jitterWidth_eq {span : Nat} (small : span < 2 ^ 32) : jitterWidth span = span * 2 + 1 :=
  if_neg (by omega)

theorem jittered_eq {delay : Nat} {percent : UInt32} (attempt : Nat) (small : delay < 2 ^ 32)
    (part : percent.toNat ≤ 100) : jittered delay attempt percent =
      delay + jitterSeed attempt % (jitterSpan delay percent * 2 + 1) - jitterSpan delay percent := by
  have within := jitterSpan_le small part
  unfold jittered
  split
  next none =>
    subst none
    have still : jitterSpan delay 0 = 0 := by simp [jitterSpan]
    rw [still, Nat.mod_one]
    rfl
  have width := jitterWidth_eq (within.trans_lt small)
  have moved : jitterOffset attempt (jitterSpan delay percent) =
      ((jitterSeed attempt % (jitterSpan delay percent * 2 + 1) : Nat) : Int) -
        jitterSpan delay percent := by
    rw [jitterOffset, width, if_neg (Nat.succ_ne_zero _)]
  simp only [moved]
  rw [if_neg (by omega)]
  omega

/-- The jitter of an attempt does not take its delay over the bound of the policy. -/
def Spares (policy : RetryPolicy) (attempt : Nat) (retryAfterMs : UInt32) : Prop :=
  let delay := steadyDelay policy attempt retryAfterMs
  let span := jitterSpan delay policy.jitterPercent
  policy.maxDelayMs.toNat = 2 ^ 32 - 1 ∨
    jitterSeed attempt % (span * 2 + 1) ≤ span + (policy.maxDelayMs.toNat - delay)

/-- A valid policy allows an attempt and has a jitter of at most a hundred percent. -/
theorem valid_attempts (valid : policy.valid = true) :
    1 ≤ policy.maxAttempts.toNat ∧ policy.jitterPercent.toNat ≤ 100 := by
  simp only [RetryPolicy.valid, Bool.and_eq_true, decide_eq_true_eq] at valid
  exact ⟨UInt32.lt_iff_toNat_lt.mp valid.1.1.1.1.1.1.2, UInt32.le_iff_toNat_le.mp valid.2⟩

theorem retryDelay_le_iff (part : policy.jitterPercent.toNat ≤ 100) :
    retryDelay policy attempt retryAfterMs ≤ policy.maxDelayMs.toNat ↔
      Spares policy attempt retryAfterMs := by
  have steady := steadyDelay_le policy attempt retryAfterMs
  have bound : policy.maxDelayMs.toNat < 2 ^ 32 := policy.maxDelayMs.toNat_lt
  have within := jitterSpan_le (steady.trans_lt bound) part
  rw [retryDelay, jittered_eq attempt (steady.trans_lt bound) part, Spares]
  omega

end

/-! ## What an execution has done -/

def invocations (log : List Event) : List (Int × TransportResponse) :=
  log.filterMap fun
    | .invoked _ code response => some (code, response)
    | .scheduled .. => none

structure Wait where
  attempt : Nat
  retryAfterMs : UInt32
  delayMs : Nat
  finished : UInt64
  deriving DecidableEq

def waits (log : List Event) : List Wait :=
  log.filterMap fun
    | .invoked .. => none
    | .scheduled attempt retryAfterMs delayMs finished =>
        some ⟨attempt, retryAfterMs, delayMs, finished⟩

def Repeatable (call : Int × TransportResponse) : Prop :=
  call.2.retryable = true ∧ succeeded call.1 call.2 = false

/-- What the policy asks of an execution that began at a time. -/
structure Disciplined (policy : RetryPolicy) (start : UInt64) (log : List Event) : Prop where
  attempts : (invocations log).length ≤ policy.maxAttempts.toNat
  repeated : ∀ call ∈ (invocations log).dropLast, Repeatable call
  inTime : ∀ wait ∈ waits log,
    wait.finished.toNat + wait.delayMs ≤ start.toNat + policy.maxElapsedMs.toNat

section

variable (log : List Event) (attempt : Nat) (code : Int) (response : TransportResponse)
  (retryAfterMs : UInt32) (delayMs : Nat) (finished : UInt64)

@[simp] theorem invocations_nil : invocations [] = [] := rfl

@[simp] theorem waits_nil : waits [] = [] := rfl

@[simp] theorem invocations_invoked : invocations (log ++ [.invoked attempt code response]) =
    invocations log ++ [(code, response)] :=
  List.filterMap_append

@[simp] theorem waits_invoked : waits (log ++ [.invoked attempt code response]) = waits log :=
  List.filterMap_append.trans (List.append_nil _)

@[simp] theorem invocations_scheduled :
    invocations (log ++ [.scheduled attempt retryAfterMs delayMs finished]) = invocations log :=
  List.filterMap_append.trans (List.append_nil _)

@[simp] theorem waits_scheduled :
    waits (log ++ [.scheduled attempt retryAfterMs delayMs finished]) =
      waits log ++ [⟨attempt, retryAfterMs, delayMs, finished⟩] :=
  List.filterMap_append

end

structure Environment.Clocked (environment : Environment) : Prop where
  first : environment.executionStart ≤ environment.started 1
  during : ∀ attempt, environment.started attempt ≤ environment.finished attempt
  between : ∀ attempt, environment.finished attempt ≤ environment.started (attempt + 1)

section

variable {policy : RetryPolicy} {environment : Environment}

theorem Environment.Clocked.start_le (clocked : environment.Clocked) {attempt : Nat}
    (counted : 1 ≤ attempt) : environment.executionStart ≤ environment.finished attempt := by
  induction attempt, counted using Nat.le_induction with
  | base => exact UInt64.le_trans clocked.first (clocked.during 1)
  | succ attempt _ ih =>
      exact UInt64.le_trans ih
        (UInt64.le_trans (clocked.between attempt) (clocked.during (attempt + 1)))

theorem inTime_of_tooLate {start finished : UInt64} {delayMs : Nat} (later : start ≤ finished)
    (fits : tooLate policy start finished delayMs = false) :
    finished.toNat + delayMs ≤ start.toNat + policy.maxElapsedMs.toNat := by
  rw [tooLate, Bool.or_eq_false_iff, decide_eq_false_iff_not, decide_eq_false_iff_not] at fits
  obtain ⟨early, short⟩ := fits
  rw [UInt64.not_lt] at early
  have passed := UInt64.toNat_sub_of_le finished start later
  have left := UInt64.toNat_sub_of_le policy.maxElapsedMs.toUInt64 (finished - start) early
  have ordered := UInt64.le_iff_toNat_le.mp later
  have limit := UInt64.le_iff_toNat_le.mp early
  rw [UInt32.toNat_toUInt64] at left limit
  omega

/-! ## The loop -/

/-- What holds before an attempt: each one so far may be repeated, and waited as the policy says. -/
structure Underway (policy : RetryPolicy) (environment : Environment) (attempt : Nat)
    (log : List Event) : Prop where
  counted : 1 ≤ attempt
  allowed : attempt ≤ policy.maxAttempts.toNat
  attempts : (invocations log).length + 1 = attempt
  repeated : ∀ call ∈ invocations log, Repeatable call
  inTime : ∀ wait ∈ waits log,
    wait.finished.toNat + wait.delayMs ≤
      environment.executionStart.toNat + policy.maxElapsedMs.toNat
  delays : ∀ wait ∈ waits log, wait.delayMs = retryDelay policy wait.attempt wait.retryAfterMs

/-- What holds of an execution that has ended. -/
structure Done (policy : RetryPolicy) (environment : Environment) (log : List Event) : Prop
    extends Disciplined policy environment.executionStart log where
  delays : ∀ wait ∈ waits log, wait.delayMs = retryDelay policy wait.attempt wait.retryAfterMs

variable {attempt : Nat} {log : List Event}

theorem Underway.done (under : Underway policy environment attempt log) :
    Done policy environment log where
  attempts := (Nat.le_of_lt (Nat.lt_of_succ_le under.attempts.le)).trans under.allowed
  repeated := fun call member => under.repeated call (List.dropLast_subset _ member)
  inTime := under.inTime
  delays := under.delays

theorem Underway.done_invoked (under : Underway policy environment attempt log) (code : Int)
    (response : TransportResponse) :
    Done policy environment (log ++ [.invoked attempt code response]) where
  attempts := by
    rw [invocations_invoked, List.length_append]
    exact under.attempts.le.trans under.allowed
  repeated := by
    rw [invocations_invoked, List.dropLast_concat]
    exact under.repeated
  inTime := by
    rw [waits_invoked]
    exact under.inTime
  delays := by
    rw [waits_invoked]
    exact under.delays

/-- What a round makes of an execution: it is done, or before the next attempt. -/
def Goes (policy : RetryPolicy) (environment : Environment) (attempt : Nat) :
    Progress ⊕ Result → Prop
  | .inl next => next.attempt = attempt + 1 ∧ Underway policy environment next.attempt next.log
  | .inr result => Done policy environment result.log

theorem Underway.reschedule (clocked : environment.Clocked) {progress : Progress}
    {code : Int} {response : TransportResponse}
    (under : Underway policy environment progress.attempt progress.log)
    (again : Repeatable (code, response)) (more : progress.attempt ≠ policy.maxAttempts.toNat) :
    Goes policy environment progress.attempt (reschedule policy environment progress response
      (progress.log ++ [.invoked progress.attempt code response])) := by
  have done := under.done_invoked code response
  unfold Resilience.reschedule
  simp only
  split
  next => exact done
  next fits =>
    have inTime := inTime_of_tooLate (clocked.start_le under.counted) (Bool.eq_false_iff.mpr fits)
    split
    next => exact done
    have waited : ∀ wait ∈ waits (progress.log ++ [.invoked progress.attempt code response] ++
        [.scheduled progress.attempt response.retryAfterMs
          (retryDelay policy progress.attempt response.retryAfterMs)
          (environment.finished progress.attempt)]),
        wait.finished.toNat + wait.delayMs ≤
            environment.executionStart.toNat + policy.maxElapsedMs.toNat ∧
          wait.delayMs = retryDelay policy wait.attempt wait.retryAfterMs := by
      intro wait member
      rw [waits_scheduled, waits_invoked, List.mem_append, List.mem_singleton] at member
      rcases member with earlier | rfl
      · exact ⟨under.inTime wait earlier, under.delays wait earlier⟩
      · exact ⟨inTime, rfl⟩
    split
    next =>
      refine ⟨⟨?_, ?_, fun wait member => (waited wait member).1⟩,
        fun wait member => (waited wait member).2⟩
      · rw [invocations_scheduled]
        exact done.attempts
      · rw [invocations_scheduled]
        exact done.repeated
    next =>
      refine ⟨rfl, Nat.le_add_left 1 _, Nat.lt_of_le_of_ne under.allowed more, ?_, ?_,
        fun wait member => (waited wait member).1, fun wait member => (waited wait member).2⟩
      · rw [invocations_scheduled, invocations_invoked, List.length_append]
        exact congrArg (· + 1) under.attempts
      · intro call member
        rw [invocations_scheduled, invocations_invoked, List.mem_append,
          List.mem_singleton] at member
        rcases member with earlier | rfl
        · exact under.repeated call earlier
        · exact again

theorem Underway.round (clocked : environment.Clocked) {progress : Progress}
    (under : Underway policy environment progress.attempt progress.log) :
    Goes policy environment progress.attempt (round policy environment progress) := by
  have done := under.done_invoked (environment.transport progress.attempt).1
    (environment.transport progress.attempt).2
  unfold Resilience.round
  simp only
  rw [if_neg (Nat.not_lt.mpr under.allowed)]
  split
  next => exact under.done
  unfold conclude
  simp only
  split
  next => exact done
  split
  next => split <;> exact done
  next unsuccessful =>
    split
    next => exact done
    next repeats =>
      rw [not_or, Bool.not_eq_false] at repeats
      exact under.reschedule clocked ⟨repeats.1, Bool.eq_false_iff.mpr unsuccessful⟩ repeats.2

theorem plainTransport_done (valid : 1 ≤ policy.maxAttempts.toNat) (records : Bool)
    (state : Option Json) :
    Done policy environment (plainTransport environment records state).log := by
  have log : (plainTransport environment records state).log =
      [.invoked 1 (environment.transport 1).1 (environment.transport 1).2] := by
    unfold plainTransport
    simp only
    split
    next => split <;> rfl
    next => rfl
  have under : Underway policy environment 1 [] :=
    ⟨Nat.le_refl 1, valid, rfl, by simp, by simp, by simp⟩
  rw [log]
  exact under.done_invoked _ _

theorem resilientTransport_done (valid : 1 ≤ policy.maxAttempts.toNat)
    (clocked : environment.Clocked) (transport : Transport) (state : Option Json) :
    ∃ result, resilientTransport transport policy environment state = some result ∧
      Done policy environment result.log := by
  cases transport with
  | http => exact ⟨_, rfl, plainTransport_done valid true state⟩
  | plain => exact ⟨_, rfl, plainTransport_done valid false state⟩
  | v2 =>
      let inv : Progress → Prop := fun progress =>
        Underway policy environment progress.attempt progress.log
      have start : inv ⟨1, state, []⟩ := ⟨Nat.le_refl 1, valid, rfl, by simp, by simp, by simp⟩
      have goOn : ∀ progress next, inv progress →
          round policy environment progress = .inl next →
          inv next ∧ next.attempt = progress.attempt + 1 := by
        intro progress next under goes
        have kept := under.round clocked
        rw [goes] at kept
        exact ⟨kept.2, kept.1⟩
      obtain ⟨result, ends⟩ := Loop.rounds_of_growing goOn
        (fun progress under => Nat.le_succ_of_le under.allowed) start
      refine ⟨result, ends, Loop.Ends.invariant ⟨_, ends⟩ inv (fun result =>
        Done policy environment result.log) start (fun progress next _ under goes =>
          (goOn progress next under goes).1) ?_⟩
      intro progress result _ under finishes
      have kept := under.round clocked
      rw [finishes] at kept
      exact kept

/-- The discipline of retries: for every valid policy, transport and clock, and a wait keeps to
the longest delay exactly when its jitter does. -/
theorem resilientTransport_disciplined (transport : Transport) (policy : RetryPolicy)
    (environment : Environment) (state : Option Json) (valid : policy.valid = true)
    (clocked : environment.Clocked) :
    ∃ result, resilientTransport transport policy environment state = some result ∧
      Disciplined policy environment.executionStart result.log ∧
      ((∀ wait ∈ waits result.log, wait.delayMs ≤ policy.maxDelayMs.toNat) ↔
        ∀ wait ∈ waits result.log, Spares policy wait.attempt wait.retryAfterMs) := by
  obtain ⟨some_attempt, part⟩ := valid_attempts valid
  obtain ⟨result, ends, done⟩ := resilientTransport_done some_attempt clocked transport state
  refine ⟨result, ends, done.toDisciplined, forall₂_congr fun wait member => ?_⟩
  rw [done.delays wait member]
  exact retryDelay_le_iff part

end

def busy : TransportResponse :=
  ⟨responseSize, transportAbiVersion, -1, 503, 0, true, none, none⟩

/-- Two attempts, two seconds between them, and a jitter of a hundred percent. -/
def jitteryPolicy : RetryPolicy :=
  { retryPolicyInit with
    maxAttempts := 2
    baseDelayMs := 2000
    maxDelayMs := 2000
    jitterPercent := 100 }

/-- A clock that stands still and a provider that is always busy. -/
def busyEnvironment : Environment where
  executionStart := 0
  started := fun _ => 0
  finished := fun _ => 0
  cancelToken := false
  check := fun _ _ => 0
  signaled := fun _ => false
  transport := fun _ => (0, busy)

theorem busyEnvironment_clocked : busyEnvironment.Clocked :=
  ⟨UInt64.le_refl 0, fun _ => UInt64.le_refl 0, fun _ => UInt64.le_refl 0⟩

theorem resilientTransport_disciplined_sample :
    ∃ result, resilientTransport .v2 jitteryPolicy busyEnvironment none = some result ∧
      Disciplined jitteryPolicy 0 result.log ∧
      ((∀ wait ∈ waits result.log, wait.delayMs ≤ 2000) ↔
        ∀ wait ∈ waits result.log, Spares jitteryPolicy wait.attempt wait.retryAfterMs) :=
  resilientTransport_disciplined .v2 jitteryPolicy busyEnvironment none (by decide)
    busyEnvironment_clocked

/-- The wait after the first attempt is longer than the longest delay. -/
theorem wait_exceeds : jitteryPolicy.valid = true ∧ busyEnvironment.Clocked ∧
    ∃ result, resilientTransport .v2 jitteryPolicy busyEnvironment none = some result ∧
      ¬∀ wait ∈ waits result.log, wait.delayMs ≤ jitteryPolicy.maxDelayMs.toNat := by
  exact ⟨by decide, busyEnvironment_clocked, _, rfl, by decide⟩

end TurboAgent.Resilience
