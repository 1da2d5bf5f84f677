import TurboAgent.SpeechOutput.Model

/-!
# The account of a generation

A generation plays until it is settled or told to stop.  While it plays, samples are delivered
one frame at a time, shown and taken; once it stops, none of this happens any more.  What can
be said about a generation holds of every list of notes that its account accepts.
-/

namespace TurboAgent.SpeechOutput

inductive Stage where
  | fresh
  | playing
  | stopping
  | stopped
  | settled
  deriving DecidableEq

/-- The account of a generation: the samples that were delivered and those that were taken. -/
structure Ledger where
  stage : Stage
  (delivered consumed : List Int16)

namespace Ledger

def fresh : Ledger := ⟨.fresh, [], []⟩

inductive Step (budget : Nat) : Ledger → Note → Ledger → Prop where
  | begun {text voice language : List UInt8} :
      Step budget fresh (.begun text voice language) ⟨.playing, [], []⟩
  | delivered {samples taken : List Int16} (some : samples ≠ [])
      (within : taken.length + samples.length ≤ budget) :
      Step budget ⟨.playing, taken, taken⟩ (.delivered samples)
        ⟨.playing, taken ++ samples, taken⟩
  | exposed {samples taken : List Int16} :
      Step budget ⟨.playing, taken ++ samples, taken⟩ (.exposed samples)
        ⟨.playing, taken ++ samples, taken⟩
  | consumed {samples taken rest : List Int16} :
      Step budget ⟨.playing, taken ++ (samples ++ rest), taken⟩ (.consumed samples)
        ⟨.playing, taken ++ (samples ++ rest), taken ++ samples⟩
  | settled {taken : List Int16} (some : taken ≠ []) :
      Step budget ⟨.playing, taken, taken⟩ (.finished .settled) ⟨.settled, taken, taken⟩
  | cancelSent {delivered taken : List Int16} :
      Step budget ⟨.playing, delivered, taken⟩ .cancelSent ⟨.stopping, delivered, taken⟩
  | failed {delivered taken : List Int16} :
      Step budget ⟨.playing, delivered, taken⟩ .faulted ⟨.stopping, delivered, taken⟩
  | faulted {delivered taken : List Int16} :
      Step budget ⟨.stopping, delivered, taken⟩ .faulted ⟨.stopping, delivered, taken⟩
  | canceled {stage : Stage} {delivered taken : List Int16}
      (stops : stage = .stopping ∨ stage = .stopped) :
      Step budget ⟨stage, delivered, taken⟩ .canceled ⟨stage, delivered, taken⟩
  | stopped {delivered taken : List Int16} {phase : Phase} (unsettled : phase ≠ .settled) :
      Step budget ⟨.stopping, delivered, taken⟩ (.finished phase) ⟨.stopped, delivered, taken⟩

inductive Accepts (budget : Nat) : Ledger → List Note → Ledger → Prop where
  | nil {ledger : Ledger} : Accepts budget ledger [] ledger
  | cons {ledger next last : Ledger} {note : Note} {notes : List Note}
      (step : Step budget ledger note next) (rest : Accepts budget next notes last) :
      Accepts budget ledger (note :: notes) last

end Ledger

/-! ## What notes say -/

def deliveredBy (notes : List Note) : List Int16 :=
  notes.flatMap fun | .delivered samples => samples | _ => []

def consumedBy (notes : List Note) : List Int16 :=
  notes.flatMap fun | .consumed samples => samples | _ => []

/-- Samples are shown or taken, or the generation is settled. -/
def Note.plays : Note → Bool
  | .exposed _ => true
  | .consumed _ => true
  | .finished .settled => true
  | _ => false

/-- `provider.begin` is called. -/
def Note.begins : Note → Bool
  | .begun _ _ _ => true
  | _ => false

namespace Ledger

variable {budget : Nat} {ledger last : Ledger} {notes before after : List Note} {note : Note}
  {next : Ledger}

theorem Accepts.single (step : Step budget ledger note next) : Accepts budget ledger [note] next :=
  .cons step .nil

theorem Accepts.append {later : List Note} (first : Accepts budget ledger notes next)
    (second : Accepts budget next later last) : Accepts budget ledger (notes ++ later) last := by
  induction first with
  | nil => exact second
  | cons step rest ih => exact .cons step (ih second)

theorem Accepts.split (accepts : Accepts budget ledger (before ++ note :: after) last) :
    ∃ middle next, Accepts budget ledger before middle ∧ Step budget middle note next ∧
      Accepts budget next after last := by
  induction before generalizing ledger with
  | nil =>
      cases accepts with
      | cons step rest => exact ⟨ledger, _, .nil, step, rest⟩
  | cons first before ih =>
      cases accepts with
      | cons step rest =>
          obtain ⟨middle, next, earlier, inner, later⟩ := ih rest
          exact ⟨middle, next, .cons step earlier, inner, later⟩

structure Sound (budget : Nat) (ledger : Ledger) : Prop where
  taken : ledger.consumed <+: ledger.delivered
  within : ledger.delivered.length ≤ budget

theorem sound_fresh : Sound budget fresh where
  taken := List.nil_prefix
  within := Nat.zero_le _

theorem Sound.step {next : Ledger} (sound : Sound budget ledger)
    (step : Step budget ledger note next) : Sound budget next := by
  cases step with
  | begun | exposed => exact ⟨sound.taken, sound.within⟩
  | delivered some within =>
      refine ⟨List.prefix_append _ _, ?_⟩
      rw [List.length_append]
      exact within
  | consumed =>
      refine ⟨?_, sound.within⟩
      rw [← List.append_assoc]
      exact List.prefix_append _ _
  | settled | cancelSent | failed | faulted | canceled | stopped =>
      exact ⟨sound.taken, sound.within⟩

theorem Step.collects (step : Step budget ledger note next) :
    next.delivered = ledger.delivered ++ deliveredBy [note] ∧
      next.consumed = ledger.consumed ++ consumedBy [note] := by
  cases step <;> simp [deliveredBy, consumedBy, fresh]

theorem Accepts.collects (accepts : Accepts budget ledger notes last) :
    last.delivered = ledger.delivered ++ deliveredBy notes ∧
      last.consumed = ledger.consumed ++ consumedBy notes := by
  induction accepts with
  | nil => exact ⟨(List.append_nil _).symm, (List.append_nil _).symm⟩
  | @cons ledger next last note notes step rest ih =>
      obtain ⟨delivered, consumed⟩ := step.collects
      have split : note :: notes = [note] ++ notes := rfl
      rw [ih.1, ih.2, delivered, consumed, split, deliveredBy, consumedBy, deliveredBy, consumedBy,
        deliveredBy, consumedBy, List.flatMap_append, List.flatMap_append, List.append_assoc,
        List.append_assoc]
      exact ⟨rfl, rfl⟩

theorem Accepts.sound (accepts : Accepts budget ledger notes last)
    (sound : Sound budget ledger) : Sound budget last := by
  induction accepts with
  | nil => exact sound
  | cons step rest ih => exact ih (sound.step step)

/-- The samples that are taken are, in order, the first ones that are delivered. -/
theorem Accepts.taken (accepts : Accepts budget fresh notes last) :
    consumedBy notes <+: deliveredBy notes ∧ (deliveredBy notes).length ≤ budget := by
  have sound := accepts.sound sound_fresh
  obtain ⟨delivered, consumed⟩ := accepts.collects
  rw [fresh, List.nil_append] at delivered consumed
  rw [← delivered, ← consumed]
  exact ⟨sound.taken, sound.within⟩

def Over (stage : Stage) : Prop :=
  stage = .stopping ∨ stage = .stopped ∨ stage = .settled

/-- A generation that stops or is over is not asked to stop, nothing is delivered in it and
nothing is shown, taken or settled. -/
theorem Step.ended (step : Step budget ledger note next) (ended : Over ledger.stage) :
    Over next.stage ∧ note ≠ .cancelSent ∧
      deliveredBy [note] = [] ∧ note.plays = false := by
  cases step with
  | begun | delivered | exposed | consumed | settled | cancelSent | failed =>
      exact absurd ended (by simp [Over, fresh])
  | faulted => exact ⟨ended, Note.noConfusion, rfl, rfl⟩
  | canceled stops => exact ⟨ended, Note.noConfusion, rfl, rfl⟩
  | @stopped _ _ phase unsettled =>
      refine ⟨.inr (.inl rfl), Note.noConfusion, rfl, ?_⟩
      cases phase <;> first | rfl | exact absurd rfl unsettled

theorem Accepts.ended (accepts : Accepts budget ledger notes last) (ended : Over ledger.stage) :
    .cancelSent ∉ notes ∧ deliveredBy notes = [] ∧ ∀ note ∈ notes, note.plays = false := by
  induction accepts with
  | nil => exact ⟨List.not_mem_nil, rfl, List.forall_mem_nil _⟩
  | @cons ledger next last note notes step rest ih =>
      obtain ⟨stillOver, notSent, nothing, silent⟩ := step.ended ended
      obtain ⟨unsent, none, quiet⟩ := ih stillOver
      refine ⟨?_, ?_, List.forall_mem_cons.mpr ⟨silent, quiet⟩⟩
      · rw [List.mem_cons, not_or]
        exact ⟨notSent.symm, unsent⟩
      · have split : note :: notes = [note] ++ notes := rfl
        rw [split, deliveredBy, List.flatMap_append]
        exact List.append_eq_nil_iff.mpr ⟨nothing, none⟩

theorem Accepts.stopped (accepts : Accepts budget ledger (before ++ note :: after) last)
    (stops : note = .canceled ∨ note = .faulted) : ∀ note ∈ after, note.plays = false := by
  obtain ⟨middle, next, -, step, rest⟩ := accepts.split
  have ended : Over next.stage := by
    rcases stops with rfl | rfl
    · cases step with
      | canceled stops => exact stops.imp id .inl
    · cases step <;> exact .inl rfl
  exact (rest.ended ended).2.2

/-- A generation is settled when all that was delivered is taken, and that is some sample. -/
theorem Accepts.settled
    (accepts : Accepts budget fresh (before ++ .finished .settled :: after) last) :
    consumedBy before = deliveredBy before ∧ deliveredBy before ≠ [] ∧
      deliveredBy after = [] := by
  obtain ⟨middle, next, earlier, step, rest⟩ := accepts.split
  obtain ⟨delivered, consumed⟩ := earlier.collects
  rw [fresh, List.nil_append] at delivered consumed
  cases step with
  | settled some =>
      rw [← delivered, ← consumed]
      exact ⟨rfl, some, (rest.ended (.inr (.inr rfl))).2.1⟩
  | stopped unsettled => exact absurd rfl unsettled

theorem Accepts.once (accepts : Accepts budget ledger notes last) :
    notes.count .cancelSent ≤ 1 := by
  induction accepts with
  | nil => exact Nat.zero_le _
  | @cons ledger next last note notes step rest ih =>
      by_cases sent : note = .cancelSent
      · subst sent
        have ended : Over next.stage := by
          cases step with
          | cancelSent => exact .inl rfl
        rw [List.count_cons_self, List.count_eq_zero.mpr (rest.ended ended).1]
      · rw [List.count_cons_of_ne sent]
        exact ih

theorem Step.started (step : Step budget ledger note next) : next.stage ≠ .fresh := by
  cases step with
  | canceled stops => rcases stops with rfl | rfl <;> exact Stage.noConfusion
  | begun | delivered | exposed | consumed | settled | cancelSent | failed | faulted | stopped =>
      exact Stage.noConfusion

theorem Accepts.started (accepts : Accepts budget ledger notes last)
    (started : ledger.stage ≠ .fresh) : ∀ note ∈ notes, note.begins = false := by
  induction accepts with
  | nil => exact List.forall_mem_nil _
  | cons step rest ih =>
      refine List.forall_mem_cons.mpr ⟨?_, ih step.started⟩
      cases step with
      | begun => exact absurd rfl started
      | delivered | exposed | consumed | settled | cancelSent | failed | faulted | canceled
      | stopped => rfl

theorem Accepts.begins (accepts : Accepts budget ledger notes last) :
    notes.countP Note.begins ≤ 1 := by
  cases accepts with
  | nil => exact Nat.zero_le _
  | cons step rest =>
      have none := List.countP_eq_zero.mpr fun note member =>
        Bool.eq_false_iff.mp (rest.started step.started note member)
      rw [List.countP_cons, none]
      split_ifs <;> omega

theorem Accepts.settles (accepts : Accepts budget ledger notes last)
    (before : ledger.stage ≠ .settled) (after : last.stage = .settled) :
    .finished .settled ∈ notes := by
  induction accepts with
  | nil => exact absurd after before
  | cons step rest ih =>
      cases step with
      | settled => exact List.mem_cons_self
      | canceled => exact List.mem_cons_of_mem _ (ih before after)
      | begun | delivered | exposed | consumed | cancelSent | failed | faulted | stopped =>
          exact List.mem_cons_of_mem _ (ih Stage.noConfusion after)

end Ledger

end TurboAgent.SpeechOutput
