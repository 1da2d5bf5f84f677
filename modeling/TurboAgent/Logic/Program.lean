import Mathlib

/-!
# Interacting programs and their interleavings

A program is a tree of calls to the operations of an interface.  Between two
calls a program computes on its own; every effect on shared state and every
answer of the environment is one call.  A call is therefore the unit of
atomicity: running several programs on one machine interleaves their calls.

The machine decides, for every agent, which answers a call may return and which
state it leaves.  An agent may stop for ever at any point.
-/

namespace TurboAgent.Logic

open Function (update update_of_ne update_self)

/-- Operations a program may call, each with its own type of answers. -/
structure Interface where
  Op : Type
  Answer : Op → Type

/-- A program over an interface: it stops with a value or calls an operation and
continues with the answer. -/
inductive Program (I : Interface) (α : Type) : Type where
  | done (value : α)
  | call (op : I.Op) (next : I.Answer op → Program I α)

namespace Program

variable {I : Interface} {α β γ : Type}

/-- Sequential composition. -/
def bind : Program I α → (α → Program I β) → Program I β
  | .done value, rest => rest value
  | .call op next, rest => .call op fun answer => (next answer).bind rest

instance : Monad (Program I) where
  pure := .done
  bind

/-- The program that calls one operation and returns its answer. -/
def perform (op : I.Op) : Program I (I.Answer op) :=
  .call op .done

@[simp] theorem pure_eq (value : α) : (pure value : Program I α) = .done value := rfl

@[simp] theorem done_bind (value : α) (rest : α → Program I β) :
    (Program.done value >>= rest) = rest value := rfl

@[simp] theorem call_bind (op : I.Op) (next : I.Answer op → Program I α) (rest : α → Program I β) :
    (Program.call op next >>= rest) =
      .call op fun answer => next answer >>= rest := rfl

@[simp] theorem perform_bind (op : I.Op) (rest : I.Answer op → Program I β) :
    (perform op >>= rest) = .call op rest := rfl

/-- Run a program against a handler that answers every call.  The handler sees
and updates the state; the result is the final value and state. -/
def eval {State : Type} (handler : (op : I.Op) → State → I.Answer op × State) :
    Program I α → State → α × State
  | .done value, state => (value, state)
  | .call op next, state =>
      let (answer, state') := handler op state
      (next answer).eval handler state'

end Program

/-- A shared machine.  `perform agent op state answer state'` holds when a call of
`op` by `agent` in `state` may return `answer` and leave `state'`.  A call may
also start a further agent, which runs the program that `spawn` gives it. -/
structure Machine (I : Interface) (Agent Result : Type) where
  State : Type
  perform : Agent → (op : I.Op) → State → I.Answer op → State → Prop
  spawn : Agent → (op : I.Op) → I.Answer op → Option (Agent × Program I Result)

namespace Machine

variable {I : Interface} {Agent Result α : Type}

/-- Complete run of one program by one agent, with no other agent in between. -/
inductive Outcome (M : Machine I Agent Result) (agent : Agent) :
    Program I α → M.State → α → M.State → Prop where
  | done (value : α) (state : M.State) :
      Outcome M agent (.done value) state value state
  | call {op : I.Op} {next : I.Answer op → Program I α} {answer : I.Answer op}
      {value : α} {first second last : M.State} :
      M.perform agent op first answer second →
      Outcome M agent (next answer) second value last →
      Outcome M agent (.call op next) first value last

variable {M : Machine I Agent Result} {agent : Agent}

/-- Evaluation with a handler whose answers the machine admits is a run. -/
theorem Outcome.of_eval (handler : (op : I.Op) → M.State → I.Answer op × M.State)
    (admitted : ∀ op state, M.perform agent op state (handler op state).1 (handler op state).2)
    (program : Program I α) (state : M.State) :
    M.Outcome agent program state (program.eval handler state).1
      (program.eval handler state).2 := by
  induction program generalizing state with
  | done value => exact .done value state
  | call op next ih => exact .call (admitted op state) (ih _ _)

/-- All agents of a machine together: the shared state and, for every live agent,
the program it still has to run. -/
structure Config (M : Machine I Agent Result) where
  state : M.State
  thread : Agent → Option (Program I Result)

variable [DecidableEq Agent]

/-- The threads after `agent` got `answer` from `op` and continues with `rest`. -/
def advance (M : Machine I Agent Result) (thread : Agent → Option (Program I Result))
    (agent : Agent) (op : I.Op) (answer : I.Answer op) (rest : Program I Result) :
    Agent → Option (Program I Result) :=
  match M.spawn agent op answer with
  | none => update thread agent (some rest)
  | some (child, program) =>
      update (update thread agent (some rest)) child (some program)

/-- One step of the whole system: a live agent makes its next call, or an agent
stops for ever. -/
inductive Step (M : Machine I Agent Result) : M.Config → M.Config → Prop where
  | act {config : M.Config} {agent : Agent} {op : I.Op}
      {next : I.Answer op → Program I Result} {answer : I.Answer op}
      {state : M.State} :
      config.thread agent = some (.call op next) →
      M.perform agent op config.state answer state →
      Step M config
        ⟨state, M.advance config.thread agent op answer (next answer)⟩
  | crash {config : M.Config} (agent : Agent) :
      Step M config ⟨config.state, update config.thread agent none⟩

/-- Any number of steps, in any order of the agents. -/
abbrev Steps (M : Machine I Agent Result) : M.Config → M.Config → Prop :=
  Relation.ReflTransGen M.Step

/-- Threads of a configuration after a step: the agent that moved, the agent it
started, or an agent that was there before. -/
theorem advance_cases {thread : Agent → Option (Program I Result)} {other : Agent} {op : I.Op}
    {answer : I.Answer op} {rest program : Program I Result}
    (live : M.advance thread agent op answer rest other = some program) :
    (other = agent ∧ program = rest) ∨
    M.spawn agent op answer = some (other, program) ∨
    (other ≠ agent ∧ thread other = some program) := by
  cases spawned : M.spawn agent op answer with
  | none =>
      simp only [advance, spawned] at live
      by_cases same : other = agent
      · subst same
        rw [update_self] at live
        exact .inl ⟨rfl, (Option.some.inj live).symm⟩
      · rw [update_of_ne same] at live
        exact .inr (.inr ⟨same, live⟩)
  | some started =>
      simp only [advance, spawned] at live
      by_cases isChild : other = started.1
      · subst isChild
        rw [update_self] at live
        rw [← Option.some.inj live]
        exact .inr (.inl rfl)
      · rw [update_of_ne isChild] at live
        by_cases same : other = agent
        · subst same
          rw [update_self] at live
          exact .inl ⟨rfl, (Option.some.inj live).symm⟩
        · rw [update_of_ne same] at live
          exact .inr (.inr ⟨same, live⟩)

/-- A complete run of one program is a run of the system, when no call of the agent
starts the agent again. -/
theorem Outcome.steps {program : Program I Result} {first last : M.State} {value : Result}
    (fresh : ∀ op answer child started,
      M.spawn agent op answer = some (child, started) → child ≠ agent)
    (run : M.Outcome agent program first value last) (thread : Agent → Option (Program I Result))
    (live : thread agent = some program) : ∃ threads, M.Steps ⟨first, thread⟩ ⟨last, threads⟩ := by
  induction run generalizing thread with
  | done value state => exact ⟨thread, .refl⟩
  | @call op next answer value first second last performed _ ih =>
      have running : M.advance thread agent op answer (next answer) agent =
          some (next answer) := by
        cases spawned : M.spawn agent op answer with
        | none => simp [advance, spawned]
        | some started =>
            have distinct := fresh op answer started.1 started.2 spawned
            simp only [advance, spawned]
            rw [update_of_ne distinct.symm, update_self]
      obtain ⟨threads, steps⟩ := ih _ running
      exact ⟨threads, .head (.act live performed) steps⟩

end Machine

end TurboAgent.Logic
