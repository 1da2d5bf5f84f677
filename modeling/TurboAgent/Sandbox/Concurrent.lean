import TurboAgent.Sandbox.Boundary

/-!
# Concurrent calls of sandboxed tools

The calls of one runtime share the instance of its engine, and the host functions find the state of
the call that they serve through a pointer of the runtime.  A gate lets in one call at a time.  The
calls take their steps in any order, and yet each is served as if it were alone.

A waiting call may make its next round at any time.  When it does is left out: the condition
variable of the gate, whose signal wakes one call, and the sleep of a call without a context, which
only that signal ends.
-/

namespace TurboAgent.Sandbox

/-- Where a call is: at the gate, behind it, with the guest running, with its state taken back, or
over. -/
inductive Phase where
  | waiting
  | entered
  | running
  | left
  | over
  deriving DecidableEq

/-- The call holds the gate. -/
def Phase.inside : Phase → Bool
  | .entered | .running | .left => true
  | .waiting | .over => false

/-- One call of `turbo_tool_runtime_wasm_call`, with what its guest has called so far. -/
structure Frame where
  phase : Phase
  io : Io
  answered : List Answered

/-- `active` of the gate, `active_io` of the runtime as the call whose state it points to, and the
calls. -/
structure Shared where
  active : Bool
  activeIo : Option Nat
  frames : Nat → Frame

/-- A step of a call: a round in `turbo_wasm_invoke_gate_acquire` with the answer of
`gate_context_status`, setting `active_io`, a host call of the guest, clearing `active_io`, or
`turbo_wasm_invoke_gate_release`. -/
inductive Step where
  | acquire (call : Nat) (status : ToolStatus)
  | attach (call : Nat)
  | host (call : Nat) (hostCall : HostCall)
  | detach (call : Nat)
  | release (call : Nat)

namespace Shared

variable (span : MemorySpan) (shared : Shared)

/-- A call goes on to a phase. -/
def move (call : Nat) (phase : Phase) : Nat → Frame :=
  Function.update shared.frames call { shared.frames call with phase }

/-- A host call of one guest is served with the state of the call that `active_io` points to. -/
def serve (call : Nat) (hostCall : HostCall) : Nat → Frame :=
  match shared.activeIo with
  | none =>
      let io := (shared.frames call).io
      Function.update shared.frames call { shared.frames call with
        answered := (shared.frames call).answered ++
          [⟨hostCall, io, ⟨.error .invalidArgument, hostCall.memory, io⟩⟩] }
  | some owner =>
      let io := (shared.frames owner).io
      let returned := hostCall.answer span io
      let frames := Function.update shared.frames owner
        { shared.frames owner with io := returned.io }
      Function.update frames call { frames call with
        answered := (frames call).answered ++ [⟨hostCall, io, returned⟩] }

/-- One step.  A step that is not the next one of its call does nothing. -/
def perform : Step → Shared
  | .acquire call status =>
      if (shared.frames call).phase ≠ .waiting then shared
      else if status ≠ .ok then { shared with frames := shared.move call .over }
      else if shared.active then shared
      else { shared with active := true, frames := shared.move call .entered }
  | .attach call =>
      if (shared.frames call).phase = .entered then
        { shared with activeIo := some call, frames := shared.move call .running }
      else shared
  | .host call hostCall =>
      if (shared.frames call).phase = .running then
        { shared with frames := shared.serve span call hostCall }
      else shared
  | .detach call =>
      if (shared.frames call).phase = .running then
        { shared with activeIo := none, frames := shared.move call .left }
      else shared
  | .release call =>
      if (shared.frames call).phase = .left then
        { shared with active := false, frames := shared.move call .over }
      else shared

/-- Calls that have not begun. -/
def start (opened : Nat → Io) : Shared :=
  ⟨false, none, fun call => ⟨.waiting, opened call, []⟩⟩

def run (opened : Nat → Io) (steps : List Step) : Shared :=
  steps.foldl (perform span) (start opened)

/-- The gate is closed while a call is inside, there is at most one, `active_io` points to the call
whose guest runs, and each call was served as if it were alone. -/
structure Sound (opened : Nat → Io) (shared : Shared) : Prop where
  alone : ∀ {call other}, (shared.frames call).phase.inside = true →
    (shared.frames other).phase.inside = true → call = other
  closed : shared.active = true ↔ ∃ call, (shared.frames call).phase.inside = true
  pointer : ∀ {call}, (shared.frames call).phase = .running → shared.activeIo = some call
  served : ∀ call, ((shared.frames call).answered, (shared.frames call).io) =
    answerAll span ((shared.frames call).answered.map Answered.call) (opened call)

variable {span shared} {opened : Nat → Io}

theorem sound_start : (start opened).Sound span opened where
  alone := by
    intro call other inside
    cases inside
  closed := by simp [start, Phase.inside]
  pointer := by
    intro call running
    cases running
  served := fun _ => rfl

theorem move_eq (call other : Nat) (phase : Phase) : shared.move call phase other =
    ⟨if other = call then phase else (shared.frames other).phase, (shared.frames other).io,
      (shared.frames other).answered⟩ := by
  unfold move
  by_cases same : other = call
  · subst same
    simp
  · simp [same]

theorem move_phase (call other : Nat) (phase : Phase) :
    (shared.move call phase other).phase =
      if other = call then phase else (shared.frames other).phase := by
  rw [move_eq]

@[simp] theorem move_answered (call other : Nat) (phase : Phase) :
    (shared.move call phase other).answered = (shared.frames other).answered := by
  rw [move_eq]

@[simp] theorem move_io (call other : Nat) (phase : Phase) :
    (shared.move call phase other).io = (shared.frames other).io := by
  rw [move_eq]

variable {call : Nat}

/-- A call that stays inside, or outside, of the gate. -/
theorem Sound.move (sound : shared.Sound span opened) {phase : Phase} {activeIo : Option Nat}
    (stays : phase.inside = (shared.frames call).phase.inside)
    (pointer : ∀ other, (shared.move call phase other).phase = .running → activeIo = some other) :
    Sound span opened { shared with activeIo, frames := shared.move call phase } := by
  have inside : ∀ other, (shared.move call phase other).phase.inside =
      (shared.frames other).phase.inside := by
    intro other
    rw [move_phase]
    split_ifs with same
    · rw [same, stays]
    · rfl
  refine ⟨?_, ?_, fun running => pointer _ running, ?_⟩
  · intro first second
    simp only [inside]
    exact sound.alone
  · simp only [inside]
    exact sound.closed
  · simp only [move_answered, move_io]
    exact sound.served

theorem Sound.enter (sound : shared.Sound span opened) (free : shared.active = false) :
    Sound span opened { shared with active := true, frames := shared.move call .entered } := by
  have nobody : ∀ other, (shared.frames other).phase.inside = false := by
    intro other
    rw [← Bool.not_eq_true]
    intro inside
    rw [sound.closed.mpr ⟨other, inside⟩] at free
    cases free
  have only : ∀ other, (shared.move call .entered other).phase.inside = true → other = call := by
    intro other inside
    by_contra apart
    rw [move_phase, if_neg apart, nobody] at inside
    cases inside
  refine ⟨?_, ?_, ?_, ?_⟩
  · intro first second isFirst isSecond
    rw [only first isFirst, only second isSecond]
  · exact ⟨fun _ => ⟨call, by rw [move_phase, if_pos rfl]; rfl⟩, fun _ => rfl⟩
  · intro other running
    have isCall := only other (by rw [running]; rfl)
    rw [move_phase, if_pos isCall] at running
    cases running
  · simp only [move_answered, move_io]
    exact sound.served

theorem Sound.leave (sound : shared.Sound span opened) (left : (shared.frames call).phase = .left) :
    Sound span opened { shared with active := false, frames := shared.move call .over } := by
  have nobody : ∀ other, (shared.move call .over other).phase.inside = false := by
    intro other
    rw [move_phase]
    split_ifs with same
    · rfl
    · rw [← Bool.not_eq_true]
      exact fun inside => same (sound.alone inside (by rw [left]; rfl))
  refine ⟨?_, ?_, ?_, ?_⟩
  · intro first second isFirst
    rw [nobody] at isFirst
    cases isFirst
  · simp [nobody]
  · intro other running
    have outside := nobody other
    rw [running] at outside
    cases outside
  · simp only [move_answered, move_io]
    exact sound.served

theorem answerAll_concat (calls : List HostCall) (last : HostCall) (io : Io) :
    answerAll span (calls ++ [last]) io =
      ((answerAll span calls io).1 ++
        [⟨last, (answerAll span calls io).2, last.answer span (answerAll span calls io).2⟩],
        (last.answer span (answerAll span calls io).2).io) := by
  induction calls generalizing io with
  | nil => rfl
  | cons call calls ih => rw [List.cons_append, answerAll, ih, answerAll, List.cons_append]

/-- The guest of a call that runs is served with the state of its own call. -/
theorem Sound.host (sound : shared.Sound span opened) (hostCall : HostCall)
    (running : (shared.frames call).phase = .running) :
    Sound span opened { shared with frames := shared.serve span call hostCall } := by
  have served : shared.serve span call hostCall = Function.update shared.frames call
      ⟨(shared.frames call).phase, (hostCall.answer span (shared.frames call).io).io,
        (shared.frames call).answered ++ [⟨hostCall, (shared.frames call).io,
          hostCall.answer span (shared.frames call).io⟩]⟩ := by
    unfold serve
    rw [sound.pointer running]
    simp
  have phases : ∀ other, (shared.serve span call hostCall other).phase =
      (shared.frames other).phase := by
    intro other
    rw [served, Function.update_apply]
    split_ifs with same
    · rw [same]
    · rfl
  refine ⟨?_, ?_, ?_, ?_⟩
  · intro first second
    simp only [phases]
    exact sound.alone
  · simp only [phases]
    exact sound.closed
  · intro other
    simp only [phases]
    exact sound.pointer
  · intro other
    rw [served]
    by_cases same : other = call
    · subst same
      obtain ⟨answered, io⟩ := Prod.ext_iff.mp (sound.served other)
      dsimp only at answered io
      simp only [Function.update_self, List.map_append, List.map_cons, List.map_nil,
        answerAll_concat, ← answered, ← io]
    · simp only [Function.update_of_ne same]
      exact sound.served other

/-- While a guest runs, no other call is inside. -/
theorem Sound.moved_running (sound : shared.Sound span opened) {other : Nat} {phase : Phase}
    (inside : (shared.frames call).phase.inside = true)
    (running : (shared.move call phase other).phase = .running) : other = call := by
  by_contra apart
  rw [move_phase, if_neg apart] at running
  exact apart (sound.alone (by rw [running]; rfl) inside)

theorem Sound.perform (sound : shared.Sound span opened) (step : Step) :
    (shared.perform span step).Sound span opened := by
  cases step with
  | acquire call status =>
      unfold Shared.perform
      dsimp only
      split_ifs with waiting fine closed
      · exact sound
      · refine sound.move (by rw [not_not.mp waiting]; rfl) fun other running => ?_
        rw [move_phase] at running
        split_ifs at running
        exact sound.pointer running
      · exact sound
      · exact sound.enter (Bool.not_eq_true _ ▸ closed)
  | attach call =>
      unfold Shared.perform
      dsimp only
      split_ifs with entered
      · refine sound.move (by rw [entered]; rfl) fun other running => ?_
        rw [sound.moved_running (by rw [entered]; rfl) running]
      · exact sound
  | host call hostCall =>
      unfold Shared.perform
      dsimp only
      split_ifs with running
      · exact sound.host hostCall running
      · exact sound
  | detach call =>
      unfold Shared.perform
      dsimp only
      split_ifs with running
      · refine sound.move (by rw [running]; rfl) fun other stillRunning => ?_
        have isCall := sound.moved_running (by rw [running]; rfl) stillRunning
        rw [move_phase, if_pos isCall] at stillRunning
        cases stillRunning
      · exact sound
  | release call =>
      unfold Shared.perform
      dsimp only
      split_ifs with left
      · exact sound.leave left
      · exact sound

theorem sound_run (opened : Nat → Io) (steps : List Step) :
    (run span opened steps).Sound span opened := by
  suffices each : ∀ (steps : List Step) (shared : Shared), shared.Sound span opened →
      (steps.foldl (Shared.perform span) shared).Sound span opened from
    each steps _ sound_start
  intro steps
  induction steps with
  | nil => exact fun _ sound => sound
  | cons step steps ih => exact fun shared sound => ih _ (sound.perform step)

end Shared

/-- In every order of the steps of any calls, at most one call is behind the gate, and what each
call answers its guest and the state that it has are those of the same host calls made alone.  A
call at the gate whose context lets it go on is let in at its next round unless another call is
inside, and one that is cancelled or late is never let in. -/
theorem concurrent_isolated (span : MemorySpan) (opened : Nat → Io) (steps : List Step) :
    (∀ call other, ((Shared.run span opened steps).frames call).phase.inside = true →
      ((Shared.run span opened steps).frames other).phase.inside = true → call = other) ∧
    (∀ call, (((Shared.run span opened steps).frames call).answered,
        ((Shared.run span opened steps).frames call).io) =
      answerAll span (((Shared.run span opened steps).frames call).answered.map Answered.call)
        (opened call)) ∧
    ∀ call status, ((Shared.run span opened steps).frames call).phase = .waiting →
      (((Shared.run span opened (steps ++ [.acquire call status])).frames call).phase = .entered ↔
        status = .ok ∧ ∀ other,
          ((Shared.run span opened steps).frames other).phase.inside = false) := by
  have sound : (Shared.run span opened steps).Sound span opened := Shared.sound_run opened steps
  refine ⟨fun _ _ => sound.alone, sound.served, fun call status waiting => ?_⟩
  have last : Shared.run span opened (steps ++ [.acquire call status]) =
      (Shared.run span opened steps).perform span (.acquire call status) := by
    rw [Shared.run, List.foldl_append]
    rfl
  rw [last, Shared.perform, if_neg (not_not.mpr waiting)]
  by_cases fine : status = .ok
  swap
  · rw [if_pos fine, Shared.move_phase, if_pos rfl]
    simp [fine]
  rw [if_neg (not_not.mpr fine)]
  cases free : (Shared.run span opened steps).active with
  | true =>
      obtain ⟨other, inside⟩ := sound.closed.mp free
      rw [if_pos rfl, waiting]
      constructor
      · intro entered
        cases entered
      · intro nobody
        rw [nobody.2 other] at inside
        cases inside
  | false =>
      rw [if_neg Bool.false_ne_true, Shared.move_phase, if_pos rfl]
      refine ⟨fun _ => ⟨fine, fun other => ?_⟩, fun _ => rfl⟩
      rw [← Bool.not_eq_true]
      intro inside
      rw [sound.closed.mpr ⟨other, inside⟩] at free
      cases free

/-- Two calls, the second of which has to wait for the first. -/
def twoCalls : List Step :=
  [.acquire 0 .ok, .acquire 1 .ok, .attach 0, .acquire 1 .ok,
    .host 0 ⟨.toolOutputWrite, [.i32 0, .i32 1], [97]⟩, .detach 0, .release 0]

theorem concurrent_isolated_two :
    ((Shared.run wholeMemory (fun _ => .opened [] 8 fun _ => 7)
      (twoCalls ++ [.acquire 1 .ok])).frames 1).phase = .entered :=
  ((concurrent_isolated wholeMemory (fun _ => .opened [] 8 fun _ => 7) twoCalls).2.2 1 .ok
    (by decide)).mpr ⟨rfl, fun other => by
      rcases other with _ | _ | other <;> rfl⟩

end TurboAgent.Sandbox
