import TurboAgent.Logic.Program

/-!
# Rely-guarantee reasoning for interleaved programs

A contract fixes what every agent may do to the shared state (its guarantee) and
what it must tolerate from the others (its rely).  A program is safe for an agent
in a state when each of its calls, made after any interference the rely allows,
keeps the guarantee and leads to a state where the rest is safe.

Safety is a property of one program at a time.  `Contract.steps_safe` composes it:
if all programs of a configuration are safe, they stay safe in every interleaving,
and every step of the run is in some agent's guarantee.

Proofs about programs use triples with stable assertions, so that interference is
discharged once per assertion and not once per call.
-/

namespace TurboAgent.Logic

open Relation

variable {I : Interface} {Agent Result α β : Type}

/-- The interference discipline of a machine.  `start` is what a call owes the
program it spawns; `post` is what a finished agent leaves behind. -/
structure Contract (M : Machine I Agent Result) where
  (rely guarantee : Agent → M.State → M.State → Prop)
  compatible : ∀ {agent other : Agent} {state state' : M.State}, agent ≠ other →
    guarantee agent state state' → rely other state state'
  start : Agent → Program I Result → M.State → Prop
  post : Agent → Result → M.State → Prop

namespace Contract

variable {M : Machine I Agent Result} (C : Contract M)

/-- An assertion that no interference invalidates. -/
def Stable (agent : Agent) (P : M.State → Prop) : Prop :=
  ∀ state state', C.rely agent state state' → P state → P state'

/-- Safety of a program for one agent: every call keeps the guarantee and every
final value satisfies `Q`, whatever the others do in between. -/
def Safe (agent : Agent) (Q : α → M.State → Prop) :
    Program I α → M.State → Prop
  | .done value, state =>
      ∀ state', ReflTransGen (C.rely agent) state state' → Q value state'
  | .call op next, state =>
      ∀ state', ReflTransGen (C.rely agent) state state' →
        ∀ answer state'', M.perform agent op state' answer state'' →
          C.guarantee agent state' state'' ∧
          (∀ child program, M.spawn agent op answer = some (child, program) →
            C.start child program state'') ∧
          Safe agent Q (next answer) state''

/-- A Hoare triple: from every state of `P` the program is safe and ends in `Q`. -/
def Triple (agent : Agent) (P : M.State → Prop) (program : Program I α)
    (Q : α → M.State → Prop) : Prop :=
  ∀ state, P state → C.Safe agent Q program state

variable {C} {agent : Agent} {P P' : M.State → Prop} {Q Q' : α → M.State → Prop}
variable {state state' : M.State}

theorem Stable.interference (stable : C.Stable agent P)
    (steps : ReflTransGen (C.rely agent) state state') (holds : P state) : P state' := by
  induction steps with
  | refl => exact holds
  | tail _ step ih => exact stable _ _ step ih

theorem Stable.and (left : C.Stable agent P) (right : C.Stable agent P') :
    C.Stable agent fun state => P state ∧ P' state :=
  fun state state' step holds =>
    ⟨left state state' step holds.1, right state state' step holds.2⟩

theorem Stable.imp {p : Prop} (stable : C.Stable agent P) :
    C.Stable agent fun state => p → P state :=
  fun state state' step holds assumed => stable state state' step (holds assumed)

variable {program : Program I α}

/-- Safety survives interference. -/
theorem Safe.interference (safe : C.Safe agent Q program state)
    (steps : ReflTransGen (C.rely agent) state state') : C.Safe agent Q program state' := by
  cases program with
  | done value =>
      intro final more
      exact safe final (steps.trans more)
  | call op next =>
      intro middle more
      exact safe middle (steps.trans more)

theorem Safe.mono (safe : C.Safe agent Q program state)
    (weaker : ∀ value state, Q value state → Q' value state) : C.Safe agent Q' program state := by
  induction program generalizing state with
  | done value =>
      intro final steps
      exact weaker value final (safe final steps)
  | call op next ih =>
      intro middle steps answer last performed
      obtain ⟨kept, started, rest⟩ := safe middle steps answer last performed
      exact ⟨kept, started, ih answer rest⟩

/-- Safety of a composition from safety of its parts. -/
theorem Safe.bind {rest : α → Program I β} {R : β → M.State → Prop}
    (safe : C.Safe agent (fun value state => C.Safe agent R (rest value) state) program state) :
    C.Safe agent R (program >>= rest) state := by
  induction program generalizing state with
  | done value => exact safe state .refl
  | call op next ih =>
      intro middle steps answer last performed
      obtain ⟨kept, started, tail⟩ := safe middle steps answer last performed
      exact ⟨kept, started, ih answer tail⟩

theorem Triple.done {value : α} (stable : C.Stable agent P)
    (holds : ∀ state, P state → Q value state) :
    C.Triple agent P (.done value) Q :=
  fun _ pre _ steps => holds _ (stable.interference steps pre)

/-- The rule for one call.  The assertion before the call is stable; the call
keeps the guarantee and establishes the assertion of its answer. -/
theorem Triple.call {op : I.Op} {next : I.Answer op → Program I α}
    (stable : C.Stable agent P) (post : I.Answer op → M.State → Prop)
    (effect : ∀ state answer state', P state →
      M.perform agent op state answer state' →
        C.guarantee agent state state' ∧ post answer state')
    (started : ∀ state answer state', P state →
      M.perform agent op state answer state' →
        ∀ child program, M.spawn agent op answer = some (child, program) →
          C.start child program state')
    (rest : ∀ answer, C.Triple agent (post answer) (next answer) Q) :
    C.Triple agent P (.call op next) Q := by
  intro state pre middle steps answer last performed
  have here := stable.interference steps pre
  obtain ⟨kept, established⟩ := effect middle answer last here performed
  exact ⟨kept, started middle answer last here performed,
    rest answer last established⟩

theorem Triple.bind {rest : α → Program I β} {middle : α → M.State → Prop} {R : β → M.State → Prop}
    (head : C.Triple agent P program middle)
    (tail : ∀ value, C.Triple agent (middle value) (rest value) R) :
    C.Triple agent P (program >>= rest) R :=
  fun state pre =>
    Safe.bind ((head state pre).mono fun value state' reached =>
      tail value state' reached)

theorem Triple.weaken (triple : C.Triple agent P program Q) (pre : ∀ state, P' state → P state)
    (post : ∀ value state, Q value state → Q' value state) : C.Triple agent P' program Q' :=
  fun state holds => (triple state (pre state holds)).mono post

theorem Triple.strengthen (triple : C.Triple agent P program Q) (pre : ∀ state, P' state → P state) :
    C.Triple agent P' program Q :=
  triple.weaken pre fun _ _ holds => holds

section Interleaving

variable (C)

/-- Every live agent of a configuration runs a program that is safe there. -/
def AllSafe (config : M.Config) : Prop :=
  ∀ agent program, config.thread agent = some program →
    C.Safe agent (C.post agent) program config.state

/-- The change of state in one step of the system: none, or one in the guarantee
of the agent that moved. -/
def Change (state state' : M.State) : Prop :=
  state' = state ∨ ∃ agent, C.guarantee agent state state'

variable {C}

/-- A reflexive and transitive relation that contains every guarantee relates any
two states of a run. -/
theorem Change.relates {R : M.State → M.State → Prop} (refl : ∀ state, R state state)
    (trans : ∀ {first second third}, R first second → R second third → R first third)
    (kept : ∀ agent state state', C.guarantee agent state state' → R state state')
    (steps : ReflTransGen C.Change state state') : R state state' := by
  induction steps with
  | refl => exact refl _
  | tail _ change ih =>
      rcases change with rfl | ⟨agent, guaranteed⟩
      · exact ih
      · exact trans ih (kept agent _ _ guaranteed)

variable [DecidableEq Agent]

/-- One step of any agent keeps all agents safe. -/
theorem step_safe (spawned : ∀ agent program state, C.start agent program state →
      C.Safe agent (C.post agent) program state)
    {config config' : M.Config} (safe : C.AllSafe config) (step : M.Step config config') :
    C.AllSafe config' ∧ C.Change config.state config'.state := by
  cases step with
  | @act agent op next answer state live performed =>
      obtain ⟨kept, started, rest⟩ := safe agent _ live _ .refl _ _ performed
      refine ⟨?_, .inr ⟨agent, kept⟩⟩
      intro other program running
      rcases Machine.advance_cases running with
        ⟨rfl, rfl⟩ | child | ⟨distinct, before⟩
      · exact rest
      · exact spawned _ _ _ (started other program child)
      · exact (safe other program before).interference
          (.single (C.compatible distinct.symm kept))
  | crash agent =>
      refine ⟨?_, .inl rfl⟩
      intro other program running
      by_cases same : other = agent
      · subst same
        simp at running
      · simp only [Function.update_of_ne same] at running
        exact safe other program running

/-- Soundness: safety of the single programs is safety of every interleaving. -/
theorem steps_safe (spawned : ∀ agent program state, C.start agent program state →
      C.Safe agent (C.post agent) program state)
    {config config' : M.Config} (safe : C.AllSafe config) (steps : M.Steps config config') :
    C.AllSafe config' ∧ ReflTransGen C.Change config.state config'.state := by
  induction steps with
  | refl => exact ⟨safe, .refl⟩
  | tail _ step ih =>
      obtain ⟨kept, changed⟩ := step_safe spawned ih.1 step
      exact ⟨kept, ih.2.tail changed⟩

end Interleaving

end Contract

end TurboAgent.Logic
