import TurboAgent.Logic.Program

/-!
# Weakest preconditions

What has to hold before a program so that something holds after it, for one agent that runs
alone.  A call may have any answer that the machine admits.
-/

namespace TurboAgent.Logic.Machine

variable {I : Interface} {Agent Result α β : Type} {M : Machine I Agent Result} {agent : Agent}

/-- Every run of the program from the state ends as the postcondition asks. -/
def wp (M : Machine I Agent Result) (agent : Agent) :
    Program I α → (α → M.State → Prop) → M.State → Prop
  | .done value, post, state => post value state
  | .call op next, post, state => ∀ answer after,
      M.perform agent op state answer after → wp M agent (next answer) post after

variable {post post' : α → M.State → Prop} {state : M.State}

@[simp] theorem wp_done {value : α} : M.wp agent (.done value) post state = post value state := rfl

theorem wp_call {op : I.Op} {next : I.Answer op → Program I α} :
    M.wp agent (.call op next) post state ↔ ∀ answer after,
      M.perform agent op state answer after → M.wp agent (next answer) post after :=
  Iff.rfl

theorem wp_perform {op : I.Op} {next : I.Answer op → Program I α} :
    M.wp agent (Program.perform op >>= next) post state ↔ ∀ answer after,
      M.perform agent op state answer after → M.wp agent (next answer) post after := by
  rw [Program.perform_bind]
  exact wp_call

variable {program : Program I α}

theorem wp_mono (holds : M.wp agent program post state)
    (weaker : ∀ value state, post value state → post' value state) :
    M.wp agent program post' state := by
  induction program generalizing state with
  | done value => exact weaker value state holds
  | call op next ih => exact fun answer after performed => ih answer (holds answer after performed)

/-- The rule of composition. -/
theorem wp_bind {rest : α → Program I β} {post : β → M.State → Prop}
    (holds : M.wp agent program (fun value state => M.wp agent (rest value) post state) state) :
    M.wp agent (program >>= rest) post state := by
  induction program generalizing state with
  | done value => exact holds
  | call op next ih => exact fun answer after performed => ih answer (holds answer after performed)

/-- Runs end as the postcondition asks. -/
theorem Outcome.of_wp {first last : M.State} {value : α}
    (run : M.Outcome agent program first value last) (holds : M.wp agent program post first) :
    post value last := by
  induction run with
  | done value state => exact holds
  | call performed _ ih => exact ih (holds _ _ performed)

end TurboAgent.Logic.Machine
