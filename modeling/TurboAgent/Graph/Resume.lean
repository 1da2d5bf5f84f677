import TurboAgent.Graph.Model

/-!
# Interrupted runs

A run that is interrupted leaves a checkpoint with the rest of it: the next node, the steps and
the state.  Resuming from checkpoint to checkpoint until a run ends otherwise comes to the same
end as going on without the interrupt set.  Two things are not in a checkpoint.  A node that
asks to stop and also names a next node pauses the run whatever the interrupt set is, and a
resumed run does not know the last node of the run before it.
-/

namespace TurboAgent.Graph

open Logic
open Provider (JsonCodec)

section

variable (codec : JsonCodec) (graph : TurboGraph)

/-- From the outcome of a run to the final one: a run that was interrupted is resumed from the
last checkpoint that it emitted, past the interrupt before its first node. -/
inductive Resumed (options : Options) : Outcome → Outcome → Prop where
  | done {outcome : Outcome} (ended : outcome.result.status ≠ .interrupted) :
      Resumed options outcome outcome
  | resume {outcome next final : Outcome} {checkpoint : Checkpoint} {count : Nat}
      (interrupted : outcome.result.status = .interrupted)
      (emitted : outcome.checkpoint = some checkpoint)
      (ran : runCheckpointJsonValue codec graph { options with skipInitialInterrupt := true } count
        checkpoint = some next)
      (rest : Resumed options next final) : Resumed options outcome final

/-- A run and the runs that resume it come to a final outcome. -/
def Completes (options : Options) (state : Json) (final : Outcome) : Prop :=
  ∃ count first, runJsonValue codec graph options count state = some first ∧
    Resumed codec graph options first final

/-- Runs that are resumed past interrupts end as runs without them do: with the same status,
steps, next node and state.  The last node is also the same, unless the last run was resumed and
ended before it was through with a node. -/
structure SameEnd (resumed whole : Outcome) : Prop where
  status : resumed.result.status = whole.result.status
  steps : resumed.result.steps = whole.result.steps
  nextNode : resumed.result.nextNode = whole.result.nextNode
  state : resumed.state = whole.state
  lastNode : resumed.result.lastNode = whole.result.lastNode ∨
    resumed.result.lastNode = none ∧
      (resumed.result.status = .stepLimit ∨ resumed.result.status = .nodeNotFound)

/-! ## Runs put together -/

/-- Go on from the checkpoint of an interrupted run. -/
def settle : Walk ⊕ Ended → Walk ⊕ Ended
  | .inl walk => .inl walk
  | .inr ended =>
      if ended.result.status = .interrupted then
        match ended.emitted.head? with
        | some checkpoint =>
            .inl ⟨checkpoint.nextNode, none, checkpoint.steps, checkpoint.state, true, []⟩
        | none => .inr ended
      else .inr ended

/-- One round of a run and the runs that resume it. -/
def resumeRound (options : Options) (walk : Walk) : Walk ⊕ Ended :=
  settle (round codec graph options walk)

variable {codec graph} {options : Options}
variable {ended : Ended}

theorem settle_ended (other : ended.result.status ≠ .interrupted) :
    settle (.inr ended) = .inr ended := by
  rw [settle, if_neg other]

theorem settle_interrupted {checkpoint : Checkpoint}
    (interrupted : ended.result.status = .interrupted)
    (emitted : ended.emitted.head? = some checkpoint) :
    settle (.inr ended) =
      .inl ⟨checkpoint.nextNode, none, checkpoint.steps, checkpoint.state, true, []⟩ := by
  rw [settle, if_pos interrupted, emitted]

/-- The visit of a node, in a round that the step limit and the interrupt set let through. -/
def visit (codec : JsonCodec) (graph : TurboGraph) (options : Options) (walk : Walk) :
    Walk ⊕ Ended :=
  match findNode graph walk.currentNode with
  | none =>
      .inr ⟨⟨.nodeNotFound, walk.lastNode, some walk.currentNode, walk.steps⟩, walk.state,
        walk.emitted⟩
  | some (node, index) =>
      match callNode graph node walk.state walk.steps with
      | .error next =>
          .inr ⟨⟨.nodeNotFound, walk.lastNode, some next, walk.steps⟩, walk.state, walk.emitted⟩
      | .ok called => concludeRound codec graph options walk node index called

theorem round_eq (walk : Walk) :
    round codec graph options walk =
      if 0 < options.maxSteps ∧ options.maxSteps ≤ walk.steps then
        .inr ⟨⟨.stepLimit, walk.lastNode, some walk.currentNode, walk.steps⟩, walk.state,
          walk.emitted⟩
      else if !walk.skipInitialInterrupt && shouldInterruptBefore options walk.currentNode then
        .inr ⟨⟨.interrupted, walk.lastNode, some walk.currentNode, walk.steps⟩, walk.state,
          emitCheckpoint codec graph options walk.currentNode walk.steps walk.state walk.emitted⟩
      else visit codec graph options walk :=
  rfl

theorem head_emit (emits : options.checkpointCb = true) (nextNode : String) (steps : Nat)
    (state : Json) (emitted : List Checkpoint) :
    (emitCheckpoint codec graph options nextNode steps state emitted).head? =
      some ⟨nextNode, steps, state, some (topologyId graph codec)⟩ := by
  rw [emitCheckpoint, if_pos emits, List.head?_cons]

theorem settle_emit (emits : options.checkpointCb = true) (last next : Option String)
    (count : Nat) (final : Json) (nextNode : String) (steps : Nat) (state : Json)
    (emitted : List Checkpoint) :
    settle (.inr ⟨⟨.interrupted, last, next, count⟩, final,
      emitCheckpoint codec graph options nextNode steps state emitted⟩) =
        .inl ⟨nextNode, none, steps, state, true, []⟩ := by
  rw [settle, if_pos rfl, head_emit emits]

variable {walk : Walk}

theorem round_interrupted (emits : options.checkpointCb = true)
    (last : round codec graph options walk = .inr ended)
    (interrupted : ended.result.status = .interrupted) :
    ∃ checkpoint, ended.emitted.head? = some checkpoint ∧
      checkpointMatchesGraph codec graph checkpoint = true := by
  have own : ∀ nextNode steps state, checkpointMatchesGraph codec graph
      ⟨nextNode, steps, state, some (topologyId graph codec)⟩ = true := by
    intro nextNode steps state
    simp [checkpointMatchesGraph]
  rw [round_eq] at last
  split at last
  next => cases last; cases interrupted
  split at last
  next =>
    cases last
    exact ⟨_, head_emit emits _ _ _ _, own _ _ _⟩
  unfold visit at last
  split at last
  next => cases last; cases interrupted
  split at last
  next => cases last; cases interrupted
  unfold concludeRound at last
  dsimp only at last
  split at last
  next => cases last; cases interrupted
  split at last
  next =>
    split at last
    next => cases last; cases interrupted
    split at last
    next =>
      cases last
      exact ⟨_, head_emit emits _ _ _ _, own _ _ _⟩
    next => cases last; cases interrupted
  split at last
  next => cases last; cases interrupted
  next => cases last; cases interrupted
  next => cases last; cases interrupted
  next => cases last; cases interrupted
  split at last
  next =>
    cases last
    exact ⟨_, head_emit emits _ _ _ _, own _ _ _⟩
  next => cases last

theorem ends_interrupted (emits : options.checkpointCb = true)
    (ends : Loop.Ends (round codec graph options) walk ended)
    (interrupted : ended.result.status = .interrupted) :
    ∃ checkpoint, ended.emitted.head? = some checkpoint ∧
      checkpointMatchesGraph codec graph checkpoint = true :=
  Loop.Ends.induct (motive := fun _ => ∃ checkpoint, ended.emitted.head? = some checkpoint ∧
      checkpointMatchesGraph codec graph checkpoint = true)
    (fun _ last => round_interrupted emits last interrupted) (fun _ _ _ found => found) ends

variable {final : Outcome}

/-- A run that is resumed to its end is one run of the rounds put together. -/
theorem ends_of_resumed (emits : options.checkpointCb = true)
    (ends : Loop.Ends (round codec graph options) walk ended)
    (resumed : Resumed codec graph options ended.outcome final) :
    ∃ last, Loop.Ends (resumeRound codec graph options) walk last ∧ final = last.outcome := by
  generalize same : ended.outcome = outcome at resumed
  induction resumed generalizing walk ended with
  | done other =>
      subst same
      refine ⟨ended, ?_, rfl⟩
      refine Loop.Ends.induct
        (motive := fun walk => Loop.Ends (resumeRound codec graph options) walk ended) ?_ ?_ ends
      · intro walk last
        exact .done (by rw [resumeRound, last, settle_ended other])
      · intro walk next first rest
        exact .step (by rw [resumeRound, first, settle]) rest
  | @resume outcome next final checkpoint count interrupted emitted ran rest ih =>
      subst same
      rw [runCheckpointJsonValue] at ran
      split at ran
      next =>
        obtain ⟨after, within, rfl⟩ := Option.map_eq_some_iff.mp ran
        obtain ⟨last, onward, rfl⟩ := ih ⟨count, within⟩ rfl
        refine ⟨last, ?_, rfl⟩
        refine Loop.Ends.induct
          (motive := fun walk => Loop.Ends (resumeRound codec graph options) walk last) ?_ ?_ ends
        · intro walk interruptedLast
          refine .step ?_ onward
          rw [resumeRound, interruptedLast, settle_interrupted interrupted emitted]
          rfl
        · intro walk next first rest
          exact .step (by rw [resumeRound, first, settle]) rest
      next mismatch =>
        obtain ⟨own, head, fits⟩ := ends_interrupted emits ends interrupted
        exact absurd (Option.some.inj (head.symm.trans emitted) ▸ fits) mismatch

/-- One run of the rounds put together is a run that is resumed to its end. -/
theorem resumed_of_ends (emits : options.checkpointCb = true) {last : Ended}
    (ends : Loop.Ends (resumeRound codec graph options) walk last) :
    ∃ ended, Loop.Ends (round codec graph options) walk ended ∧
      Resumed codec graph options ended.outcome last.outcome := by
  refine Loop.Ends.induct (motive := fun walk => ∃ ended,
    Loop.Ends (round codec graph options) walk ended ∧
      Resumed codec graph options ended.outcome last.outcome) ?_ ?_ ends
  · intro walk final
    rw [resumeRound] at final
    cases first : round codec graph options walk with
    | inl next =>
        rw [first, settle] at final
        exact absurd final (by simp)
    | inr ended =>
        by_cases interrupted : ended.result.status = .interrupted
        · obtain ⟨checkpoint, head, _⟩ := round_interrupted emits first interrupted
          rw [first, settle_interrupted interrupted head] at final
          exact absurd final (by simp)
        · rw [first, settle_ended interrupted] at final
          cases final
          exact ⟨last, .done first, .done interrupted⟩
  · rintro walk next step ⟨ended, onward, resumed⟩
    rw [resumeRound] at step
    cases first : round codec graph options walk with
    | inl after =>
        rw [first, settle] at step
        cases step
        exact ⟨ended, .step first onward, resumed⟩
    | inr paused =>
        by_cases interrupted : paused.result.status = .interrupted
        · obtain ⟨checkpoint, head, fits⟩ := round_interrupted emits first interrupted
          rw [first, settle_interrupted interrupted head] at step
          cases step
          obtain ⟨count, within⟩ := onward
          have ran : runCheckpointJsonValue codec graph
              { options with skipInitialInterrupt := true } count checkpoint =
                some ended.outcome := by
            rw [runCheckpointJsonValue, if_pos fits]
            exact Option.map_eq_some_iff.mpr ⟨ended, within, rfl⟩
          exact ⟨paused, .done first, .resume interrupted head ran resumed⟩
        · rw [first, settle_ended interrupted] at step
          exact absurd step (by simp)

theorem completes_iff (emits : options.checkpointCb = true) {state : Json} {start : String}
    (starts : (options.startNode <|> graph.entryNode) = some start) :
    Completes codec graph options state final ↔
      ∃ last, Loop.Ends (resumeRound codec graph options) (startWalk options start 0 state) last ∧
        final = last.outcome := by
  unfold Completes runJsonValue
  rw [starts]
  dsimp only
  constructor
  · rintro ⟨count, first, ran, resumed⟩
    obtain ⟨ended, within, rfl⟩ := Option.map_eq_some_iff.mp ran
    exact ends_of_resumed emits ⟨count, within⟩ resumed
  · rintro ⟨last, ends, rfl⟩
    obtain ⟨ended, ⟨count, within⟩, resumed⟩ := resumed_of_ends emits ends
    exact ⟨count, ended.outcome, Option.map_eq_some_iff.mpr ⟨ended, within, rfl⟩, resumed⟩

theorem completes_without_start {state : Json}
    (none : (options.startNode <|> graph.entryNode) = none) :
    Completes codec graph options state final ↔
      final = refused .invalidArgument Option.none 0 := by
  unfold Completes runJsonValue
  rw [none]
  dsimp only
  constructor
  · rintro ⟨count, first, same, resumed⟩
    cases same
    cases resumed with
    | done => rfl
    | resume interrupted => cases interrupted
  · rintro rfl
    exact ⟨0, _, rfl, .done (by decide)⟩

end

/-! ## With and without an interrupt set -/

section

variable {codec : JsonCodec} {graph : TurboGraph}

/-- The variables of two loops with the same rest of the run. -/
structure Alike (resumed whole : Walk) : Prop where
  currentNode : resumed.currentNode = whole.currentNode
  steps : resumed.steps = whole.steps
  state : resumed.state = whole.state
  lastNode : resumed.lastNode = whole.lastNode ∨ resumed.lastNode = none

/-- Rounds that go on alike or come to the same end. -/
inductive Matched : Walk ⊕ Ended → Walk ⊕ Ended → Prop where
  | onward {resumed whole : Walk} (alike : Alike resumed whole) : Matched (.inl resumed) (.inl whole)
  | ended {resumed whole : Ended} (same : SameEnd resumed.outcome whole.outcome) :
      Matched (.inr resumed) (.inr whole)

theorem SameEnd.of_result {status : Status} {last last' next : Option String} {steps : Nat}
    {state : Json} {emitted emitted' : List Checkpoint}
    (lastNode : last = last' ∨ last = none ∧ (status = .stepLimit ∨ status = .nodeNotFound)) :
    SameEnd (Ended.outcome ⟨⟨status, last, next, steps⟩, state, emitted⟩)
      (Ended.outcome ⟨⟨status, last', next, steps⟩, state, emitted'⟩) :=
  ⟨rfl, rfl, rfl, rfl, lastNode⟩

def interruptOptions (maxSteps : Nat) (startNode : Option String) (skipInitialInterrupt : Bool)
    (interruptBeforeNodes : List String) : Options :=
  ⟨maxSteps, startNode, interruptBeforeNodes, skipInitialInterrupt, true⟩

variable {maxSteps : Nat} {startNode : Option String} {skip : Bool} {interrupts : List String}
  {resumed whole : Walk}

theorem concludeRound_matched (alike : Alike resumed whole) (node : Node) (index : Nat)
    (called : Called) :
    Matched
      (settle (concludeRound codec graph (interruptOptions maxSteps startNode skip interrupts)
        resumed node index called))
      (settle (concludeRound codec graph (interruptOptions maxSteps startNode skip [])
        whole node index called)) := by
  unfold concludeRound
  dsimp only
  rw [alike.steps]
  by_cases failed : called.status < 0
  · rw [if_pos failed, if_pos failed]
    exact .ended (.of_result (.inl rfl))
  rw [if_neg failed, if_neg failed]
  by_cases stops : called.stop = true ∨ 0 < called.status
  · rw [if_pos stops, if_pos stops]
    cases called.nextNode with
    | none => exact .ended (.of_result (.inl rfl))
    | some next =>
        dsimp only
        by_cases known : (findNode graph next).isSome = true
        · rw [if_pos known, if_pos known, settle_emit rfl, settle_emit rfl]
          exact .onward ⟨rfl, rfl, rfl, .inl rfl⟩
        · rw [if_neg known, if_neg known]
          exact .ended (.of_result (.inl rfl))
  rw [if_neg stops, if_neg stops]
  cases resolveNext graph node index whole.steps called with
  | missing next => exact .ended (.of_result (.inl rfl))
  | failed => exact .ended (.of_result (.inl rfl))
  | nowhere outgoing =>
      cases outgoing with
      | true => exact .ended (.of_result (.inl rfl))
      | false => exact .ended (.of_result (.inl rfl))
  | next next =>
      dsimp only
      have open_ : shouldInterruptBefore (interruptOptions maxSteps startNode skip []) next =
          false := rfl
      rw [open_, if_neg Bool.false_ne_true]
      split
      next =>
        rw [settle_emit rfl]
        exact .onward ⟨rfl, rfl, rfl, .inr rfl⟩
      next => exact .onward ⟨rfl, rfl, rfl, .inl rfl⟩

theorem visit_matched (alike : Alike resumed whole) :
    Matched
      (settle (visit codec graph (interruptOptions maxSteps startNode skip interrupts) resumed))
      (settle (visit codec graph (interruptOptions maxSteps startNode skip []) whole)) := by
  have lastNode : resumed.lastNode = whole.lastNode ∨ resumed.lastNode = none ∧
      (Status.nodeNotFound = .stepLimit ∨ Status.nodeNotFound = .nodeNotFound) :=
    alike.lastNode.imp_right fun none => ⟨none, .inr rfl⟩
  unfold visit
  rw [alike.currentNode, alike.state, alike.steps]
  cases findNode graph whole.currentNode with
  | none => exact .ended (.of_result lastNode)
  | some found =>
      dsimp only
      cases callNode graph found.1 whole.state whole.steps with
      | error next => exact .ended (.of_result lastNode)
      | ok called => exact concludeRound_matched alike found.1 found.2 called

/-- A round with the interrupt set matches one without it, or is interrupted before the node and
goes on past the interrupt. -/
theorem resumeRound_matched (alike : Alike resumed whole) :
    Matched
        (resumeRound codec graph (interruptOptions maxSteps startNode skip interrupts) resumed)
        (resumeRound codec graph (interruptOptions maxSteps startNode skip []) whole) ∨
      resumed.skipInitialInterrupt = false ∧ ∃ next : Walk,
        resumeRound codec graph (interruptOptions maxSteps startNode skip interrupts) resumed =
          .inl next ∧ next.skipInitialInterrupt = true ∧ Alike next whole := by
  have never : (!whole.skipInitialInterrupt &&
      shouldInterruptBefore (interruptOptions maxSteps startNode skip []) whole.currentNode) =
      false := Bool.and_false _
  unfold resumeRound
  rw [round_eq, round_eq, never, if_neg Bool.false_ne_true]
  have sameLimit : (interruptOptions maxSteps startNode skip interrupts).maxSteps =
      (interruptOptions maxSteps startNode skip []).maxSteps := rfl
  rw [sameLimit]
  by_cases limit : 0 < (interruptOptions maxSteps startNode skip []).maxSteps ∧
      (interruptOptions maxSteps startNode skip []).maxSteps ≤ whole.steps
  · left
    rw [alike.steps, alike.currentNode, alike.state, if_pos limit, if_pos limit]
    exact .ended (.of_result (alike.lastNode.imp_right fun none => ⟨none, .inl rfl⟩))
  · rw [alike.steps, if_neg limit, if_neg limit]
    split
    next interrupted =>
      right
      simp only [Bool.and_eq_true, Bool.not_eq_true'] at interrupted
      refine ⟨interrupted.1, _, settle_emit rfl .., rfl, ?_⟩
      exact ⟨alike.currentNode, rfl, alike.state, .inr rfl⟩
    next => exact .inl (visit_matched alike)

theorem whole_of_resumed {last : Ended} (ends : Loop.Ends (resumeRound codec graph
      (interruptOptions maxSteps startNode skip interrupts)) resumed last) :
    ∀ whole, Alike resumed whole → ∃ last',
      Loop.Ends (resumeRound codec graph (interruptOptions maxSteps startNode skip [])) whole last' ∧
        SameEnd last.outcome last'.outcome := by
  refine Loop.Ends.induct (motive := fun resumed => ∀ whole, Alike resumed whole → ∃ last',
    Loop.Ends (resumeRound codec graph (interruptOptions maxSteps startNode skip [])) whole last' ∧
      SameEnd last.outcome last'.outcome) ?_ ?_ ends
  · intro resumed final whole alike
    rcases resumeRound_matched alike with matched | ⟨_, next, onward, _⟩
    · rw [final] at matched
      generalize first : resumeRound codec graph _ whole = there at matched
      cases matched with
      | ended same => exact ⟨_, .done first, same⟩
    · exact absurd (final.symm.trans onward) (by simp)
  · intro resumed next step ih whole alike
    rcases resumeRound_matched alike with matched | ⟨_, past, onward, _, still⟩
    · rw [step] at matched
      generalize first : resumeRound codec graph _ whole = there at matched
      cases matched with
      | onward alike =>
          obtain ⟨last', rest, same⟩ := ih _ alike
          exact ⟨last', .step first rest, same⟩
    · cases step.symm.trans onward
      exact ih whole still

theorem resumed_of_whole {last : Ended} (ends : Loop.Ends (resumeRound codec graph
      (interruptOptions maxSteps startNode skip [])) whole last) :
    ∀ resumed, Alike resumed whole → ∃ last',
      Loop.Ends (resumeRound codec graph (interruptOptions maxSteps startNode skip interrupts))
        resumed last' ∧ SameEnd last'.outcome last.outcome := by
  have enough : ∀ {resumed whole : Walk}, Alike resumed whole →
      (∀ resumed, Alike resumed whole → Matched
        (resumeRound codec graph (interruptOptions maxSteps startNode skip interrupts) resumed)
        (resumeRound codec graph (interruptOptions maxSteps startNode skip []) whole) →
        ∃ last', Loop.Ends (resumeRound codec graph
          (interruptOptions maxSteps startNode skip interrupts)) resumed last' ∧
            SameEnd last'.outcome last.outcome) →
      ∃ last', Loop.Ends (resumeRound codec graph
        (interruptOptions maxSteps startNode skip interrupts)) resumed last' ∧
          SameEnd last'.outcome last.outcome := by
    intro resumed whole alike direct
    rcases resumeRound_matched alike with matched | ⟨_, past, onward, skips, still⟩
    · exact direct resumed alike matched
    · -- Past the interrupt before its node, the resumed run makes the round.
      rcases resumeRound_matched still with matched | ⟨again, _⟩
      · obtain ⟨last', rest, same⟩ := direct past still matched
        exact ⟨last', .step onward rest, same⟩
      · exact absurd (skips.symm.trans again) (by decide)
  refine Loop.Ends.induct (motive := fun whole => ∀ resumed, Alike resumed whole → ∃ last',
    Loop.Ends (resumeRound codec graph (interruptOptions maxSteps startNode skip interrupts))
      resumed last' ∧ SameEnd last'.outcome last.outcome) ?_ ?_ ends
  · intro whole final resumed alike
    refine enough alike fun resumed _ matched => ?_
    rw [final] at matched
    generalize first : resumeRound codec graph _ resumed = there at matched
    cases matched with
    | ended same => exact ⟨_, .done first, same⟩
  · intro whole next step ih resumed alike
    refine enough alike fun resumed _ matched => ?_
    rw [step] at matched
    generalize first : resumeRound codec graph _ resumed = there at matched
    cases matched with
    | onward alike =>
        obtain ⟨last', rest, same⟩ := ih _ alike
        exact ⟨last', .step first rest, same⟩

/-- Runs that are resumed past the interrupts of a set come to the end of the run without the
set, itself resumed where a node pauses it, and the other way round. -/
theorem completes_same (codec : JsonCodec) (graph : TurboGraph) (maxSteps : Nat)
    (startNode : Option String) (skip : Bool) (interrupts : List String) (state : Json) :
    (∀ final,
      Completes codec graph (interruptOptions maxSteps startNode skip interrupts) state final →
        ∃ whole, Completes codec graph (interruptOptions maxSteps startNode skip []) state whole ∧
          SameEnd final whole) ∧
      ∀ whole, Completes codec graph (interruptOptions maxSteps startNode skip []) state whole →
        ∃ final,
          Completes codec graph (interruptOptions maxSteps startNode skip interrupts) state final ∧
            SameEnd final whole := by
  cases starts : (startNode <|> graph.entryNode) with
  | none =>
      have refuses : ∀ set final,
          Completes codec graph (interruptOptions maxSteps startNode skip set) state final ↔
            final = refused .invalidArgument none 0 := fun _ _ => completes_without_start starts
      constructor
      · intro final completes
        exact ⟨final, (refuses _ _).mpr ((refuses _ _).mp completes), rfl, rfl, rfl, rfl, .inl rfl⟩
      · intro whole completes
        exact ⟨whole, (refuses _ _).mpr ((refuses _ _).mp completes), rfl, rfl, rfl, rfl, .inl rfl⟩
  | some start =>
      have ends : ∀ set final,
          Completes codec graph (interruptOptions maxSteps startNode skip set) state final ↔
            ∃ last, Loop.Ends (resumeRound codec graph (interruptOptions maxSteps startNode skip set))
              (startWalk (interruptOptions maxSteps startNode skip set) start 0 state) last ∧
                final = last.outcome := fun _ _ => completes_iff rfl starts
      have alike : Alike
          (startWalk (interruptOptions maxSteps startNode skip interrupts) start 0 state)
          (startWalk (interruptOptions maxSteps startNode skip []) start 0 state) :=
        ⟨rfl, rfl, rfl, .inl rfl⟩
      constructor
      · intro final completes
        obtain ⟨last, run, rfl⟩ := (ends _ _).mp completes
        obtain ⟨last', run', same⟩ := whole_of_resumed run _ alike
        exact ⟨_, (ends _ _).mpr ⟨last', run', rfl⟩, same⟩
      · intro whole completes
        obtain ⟨last, run, rfl⟩ := (ends _ _).mp completes
        obtain ⟨last', run', same⟩ := resumed_of_whole run _ alike
        exact ⟨_, (ends _ _).mpr ⟨last', run', rfl⟩, same⟩

end

/-- Two nodes with an edge; the first stops the run and names the second, or does nothing. -/
def sampleGraph (pauses : Bool) : TurboGraph where
  name := "sample"
  entryNode := some "first"
  nodes := [
    ⟨"first", "first", .jsonValue fun state _ _ =>
      ⟨0, state, pauses, if pauses then some "second" else none⟩⟩,
    ⟨"second", "second", .jsonValue fun state _ _ => ⟨0, state, false, none⟩⟩]
  edges := [⟨0, 1, "first->second", .always⟩]

/-- One run stays interrupted where a node pauses it, and the resumed ones go on to the end.  At
the step limit, one run knows its last node and a resumed one does not. -/
theorem one_run_differs :
    (∃ first final,
      runJsonValue (Provider.knownCodec []) (sampleGraph true) (interruptOptions 0 none false []) 1
          .null = some first ∧ first.result.status = .interrupted ∧
        Completes (Provider.knownCodec []) (sampleGraph true)
          (interruptOptions 0 none false ["second"]) .null final ∧ final.result.status = .ok) ∧
      ∃ whole final,
        runJsonValue (Provider.knownCodec []) (sampleGraph false)
            (interruptOptions 1 none false []) 2 .null = some whole ∧
          whole.result = ⟨.stepLimit, some "first", some "second", 1⟩ ∧
          Completes (Provider.knownCodec []) (sampleGraph false)
            (interruptOptions 1 none false ["second"]) .null final ∧
          final.result = ⟨.stepLimit, none, some "second", 1⟩ := by
  constructor
  · have ends : Loop.Ends
        (resumeRound (Provider.knownCodec []) (sampleGraph true)
          (interruptOptions 0 none false ["second"]))
        (startWalk (interruptOptions 0 none false ["second"]) "first" 0 .null)
        ⟨⟨.ok, some "second", none, 2⟩, .null, []⟩ := ⟨2, rfl⟩
    exact ⟨_, _, rfl, rfl, (completes_iff rfl rfl).mpr ⟨_, ends, rfl⟩, rfl⟩
  · have ends : Loop.Ends
        (resumeRound (Provider.knownCodec []) (sampleGraph false)
          (interruptOptions 1 none false ["second"]))
        (startWalk (interruptOptions 1 none false ["second"]) "first" 0 .null)
        ⟨⟨.stepLimit, none, some "second", 1⟩, .null, []⟩ := ⟨2, rfl⟩
    exact ⟨_, _, rfl, rfl, (completes_iff rfl rfl).mpr ⟨_, ends, rfl⟩, rfl⟩

end TurboAgent.Graph
