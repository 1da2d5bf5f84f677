import TurboAgent.Speech.Model

/-!
# Serialized speech input

The control calls of a speech input are made one after another, and offers come at any point
between their sections.  Then the provider gets the accepted frames of an utterance in
order, each once and all of them before it is asked to finish, and an utterance that was
canceled stays so.  A control call inside a provider callback breaks this.
-/

namespace TurboAgent.Speech

variable {Samples : Type}

/-! ## History -/

section Log

/-- The notes of an utterance that a function picks out. -/
def pick {α : Type} (choose : Note Samples → Option α) (utterance : Nat)
    (log : List (Nat × Note Samples)) : List α :=
  log.filterMap fun entry => if entry.1 = utterance then choose entry.2 else none

/-- The frames that were accepted for an utterance. -/
def acceptedOf (utterance : Nat) (log : List (Nat × Note Samples)) : List (Slot Samples) :=
  pick (fun | .accepted slot => some slot | _ => none) utterance log

/-- The frames that were passed to the provider for an utterance. -/
def deliveredOf (utterance : Nat) (log : List (Nat × Note Samples)) : List (Slot Samples) :=
  pick (fun | .delivered slot => some slot | _ => none) utterance log

def begunOf (log : List (Nat × Note Samples)) : List Nat :=
  log.filterMap fun | (utterance, .begun) => some utterance | _ => none

/-- The utterances whose transcript was taken, in order. -/
def takenOf (log : List (Nat × Note Samples)) : List Nat :=
  log.filterMap fun | (utterance, .taken) => some utterance | _ => none

variable {log : List (Nat × Note Samples)} {utterance other : Nat} {note : Note Samples} {α : Type}

theorem pick_snoc (choose : Note Samples → Option α) :
    pick choose utterance (log ++ [(other, note)]) =
      pick choose utterance log ++ if other = utterance then (choose note).toList else [] := by
  rw [pick, List.filterMap_append, pick]
  congr 1
  by_cases same : other = utterance
  · simp only [List.filterMap_cons, List.filterMap_nil, if_pos same]
    cases choose note <;> rfl
  · simp [same]

theorem pick_of_known {choose : Note Samples → Option α}
    (known : ∀ entry ∈ log, entry.1 ≠ utterance) : pick choose utterance log = [] := by
  rw [pick, List.filterMap_eq_nil_iff]
  intro entry member
  rw [if_neg (known entry member)]

theorem snoc_split {left before after : List α} {last mark : α}
    (split : left ++ [last] = before ++ mark :: after) :
    (left = before ∧ last = mark) ∨ ∃ rest, after = rest ++ [last] ∧
      left = before ++ mark :: rest := by
  induction after using List.reverseRecOn with
  | nil =>
      obtain ⟨same, lasts⟩ := List.append_inj' split rfl
      exact .inl ⟨same, List.head_eq_of_cons_eq lasts⟩
  | append_singleton rest final _ =>
      rw [← List.cons_append, ← List.append_assoc] at split
      obtain ⟨same, lasts⟩ := List.append_inj' split rfl
      exact .inr ⟨rest, by rw [List.head_eq_of_cons_eq lasts], same⟩

end Log

/-! ## The rules -/

/-- The frame of a stage that is about to be passed to the provider. -/
def pendingOf : Option (Stage Samples) → List (Slot Samples)
  | some (.popped _ slot _ _) => [slot]
  | _ => []

/-- The frames of the utterances, as the queue and the history have them. -/
structure Frames (config : Config) (input : Input Samples) (pending : List (Slot Samples))
    (log : List (Nat × Note Samples)) : Prop where
  ring : input.queue.Valid
  capacity : input.queue.cells.length = config.queueFrames
  known : ∀ entry ∈ log, entry.1 ≤ input.utteranceId
  delivered : ∀ utterance, utterance ≠ input.utteranceId →
    deliveredOf utterance log <+: acceptedOf utterance log
  current : deliveredOf input.utteranceId log ++ pending <+: acceptedOf input.utteranceId log
  times : ∀ utterance, (acceptedOf utterance log).Pairwise fun earlier later =>
    earlier.timestamp < later.timestamp
  last : ∀ slot ∈ acceptedOf input.utteranceId log,
    input.hasTimestamp = true ∧ slot.timestamp ≤ input.lastTimestamp
  count : (acceptedOf input.utteranceId log).length = input.accepted
  bounded : ∀ utterance, (acceptedOf utterance log).length ≤ config.maxFrames

structure Ends (input : Input Samples) (log : List (Nat × Note Samples)) : Prop where
  finished : ∀ before utterance after, log = before ++ (utterance, .finishing) :: after →
    deliveredOf utterance before = acceptedOf utterance log
  closed : (input.utteranceId, .finishing) ∈ log → input.phase ≠ .active ∧ input.phase ≠ .idle
  canceled : (input.utteranceId, .canceled) ∈ log → input.phase = .canceled
  begun : (begunOf log).Pairwise (· < ·)
  current : input.utteranceId ≠ 0 → (begunOf log).getLast? = some input.utteranceId
  named : input.phase ≠ .idle → input.utteranceId ≠ 0
  opened : ∀ utterance ∈ begunOf log, utterance ≤ input.utteranceId
  taken : (takenOf log).Nodup
  flagged : input.utteranceId ∈ takenOf log → input.finalTaken = true
  takenKnown : ∀ utterance ∈ takenOf log, utterance ≤ input.utteranceId
  takenCurrent : ∀ before utterance after, log = before ++ (utterance, .taken) :: after →
    (begunOf before).getLast? = some utterance

/-! ## Notes -/

section Notes

variable {log : List (Nat × Note Samples)} {utterance other : Nat} {slot : Slot Samples}
  {note : Note Samples}

theorem acceptedOf_snoc_accepted :
    acceptedOf utterance (log ++ [(other, .accepted slot)]) =
      acceptedOf utterance log ++ if other = utterance then [slot] else [] := by
  rw [acceptedOf, pick_snoc, acceptedOf]
  rfl

theorem deliveredOf_snoc_delivered :
    deliveredOf utterance (log ++ [(other, .delivered slot)]) =
      deliveredOf utterance log ++ if other = utterance then [slot] else [] := by
  rw [deliveredOf, pick_snoc, deliveredOf]
  rfl

theorem acceptedOf_snoc (others : ∀ slot, note ≠ .accepted slot) :
    acceptedOf utterance (log ++ [(other, note)]) = acceptedOf utterance log := by
  rw [acceptedOf, pick_snoc, acceptedOf]
  cases note with
  | accepted slot => exact absurd rfl (others slot)
  | _ => simp

theorem deliveredOf_snoc (others : ∀ slot, note ≠ .delivered slot) :
    deliveredOf utterance (log ++ [(other, note)]) = deliveredOf utterance log := by
  rw [deliveredOf, pick_snoc, deliveredOf]
  cases note with
  | delivered slot => exact absurd rfl (others slot)
  | _ => simp

theorem begunOf_snoc (others : note ≠ .begun) :
    begunOf (log ++ [(other, note)]) = begunOf log := by
  rw [begunOf, List.filterMap_append]
  cases note with
  | begun => exact absurd rfl others
  | _ => simp [begunOf]

theorem begunOf_snoc_begun : begunOf (log ++ [(other, (.begun : Note Samples))]) =
    begunOf log ++ [other] := by
  rw [begunOf, List.filterMap_append]
  rfl

theorem takenOf_snoc (others : note ≠ .taken) :
    takenOf (log ++ [(other, note)]) = takenOf log := by
  rw [takenOf, List.filterMap_append]
  cases note with
  | taken => exact absurd rfl others
  | _ => simp [takenOf]

theorem takenOf_snoc_taken : takenOf (log ++ [(other, (.taken : Note Samples))]) =
    takenOf log ++ [other] := by
  rw [takenOf, List.filterMap_append]
  rfl

theorem mem_snoc_other {mark : Note Samples}
    (member : (utterance, mark) ∈ log ++ [(other, note)]) (differs : mark ≠ note) :
    (utterance, mark) ∈ log := by
  rcases List.mem_append.mp member with old | new
  · exact old
  · cases List.mem_singleton.mp new
    exact absurd rfl differs

end Notes

/-! ## Moves -/

section Moves

variable {config : Config} {input input' : Input Samples} {log : List (Nat × Note Samples)}

theorem Ends.moved (ends : Ends input log) (id : input'.utteranceId = input.utteranceId)
    (flag : input'.finalTaken = input.finalTaken) (closed : (input.utteranceId, .finishing) ∈ log →
      input'.phase ≠ .active ∧ input'.phase ≠ .idle)
    (canceled : (input.utteranceId, .canceled) ∈ log → input'.phase = .canceled)
    (begun : input.utteranceId ≠ 0) : Ends input' log where
  finished := ends.finished
  closed := by
    rw [id]
    exact closed
  canceled := by
    rw [id]
    exact canceled
  begun := ends.begun
  current := by
    rw [id]
    exact ends.current
  named := by
    rw [id]
    exact fun _ => begun
  opened := by
    rw [id]
    exact ends.opened
  taken := ends.taken
  flagged := by
    rw [id, flag]
    exact ends.flagged
  takenKnown := by
    rw [id]
    exact ends.takenKnown
  takenCurrent := ends.takenCurrent

/-- A note about the current utterance that neither begins it nor takes its transcript. -/
theorem Ends.noted (ends : Ends input log) {note : Note Samples} (notBegun : note ≠ .begun)
    (notTaken : note ≠ .taken) (accepts : ∀ slot, note = .accepted slot → input.phase = .active)
    (finishes : note = .finishing →
      deliveredOf input.utteranceId log = acceptedOf input.utteranceId log ∧
        input.phase ≠ .active ∧ input.phase ≠ .idle)
    (cancels : note = .canceled → input.phase = .canceled) :
    Ends input (log ++ [(input.utteranceId, note)]) := by
  refine ⟨?_, ?_, ?_, ?_, ?_, ends.named, ?_, ?_, ?_, ?_, ?_⟩
  · intro before other after split
    have same : (other, .finishing) ∈ log → acceptedOf other
        (log ++ [(input.utteranceId, note)]) = acceptedOf other log := by
      intro member
      cases note with
      | accepted slot =>
          have differs : input.utteranceId ≠ other := by
            rintro rfl
            exact (ends.closed member).1 (accepts slot rfl)
          rw [acceptedOf_snoc_accepted, if_neg differs, List.append_nil]
      | _ => exact acceptedOf_snoc (by simp)
    rcases snoc_split split with ⟨rfl, last⟩ | ⟨rest, -, earlier⟩
    · cases last
      rw [(finishes rfl).1, acceptedOf_snoc (by simp)]
    · rw [ends.finished before other rest earlier, same (by simp [earlier])]
  · intro member
    by_cases finishing : note = .finishing
    · exact (finishes finishing).2
    · exact ends.closed (mem_snoc_other member (Ne.symm finishing))
  · intro member
    by_cases canceled : note = .canceled
    · exact cancels canceled
    · exact ends.canceled (mem_snoc_other member (Ne.symm canceled))
  · rw [begunOf_snoc notBegun]
    exact ends.begun
  · rw [begunOf_snoc notBegun]
    exact ends.current
  · rw [begunOf_snoc notBegun]
    exact ends.opened
  · rw [takenOf_snoc notTaken]
    exact ends.taken
  · rw [takenOf_snoc notTaken]
    exact ends.flagged
  · rw [takenOf_snoc notTaken]
    exact ends.takenKnown
  · intro before other after split
    rcases snoc_split split with ⟨-, last⟩ | ⟨rest, -, earlier⟩
    · exact absurd (congrArg Prod.snd last) notTaken
    · exact ends.takenCurrent before other rest earlier

theorem Frames.noted {pending : List (Slot Samples)} (frames : Frames config input pending log)
    {note : Note Samples} (notAccepted : ∀ slot, note ≠ .accepted slot)
    (notDelivered : ∀ slot, note ≠ .delivered slot) :
    Frames config input pending (log ++ [(input.utteranceId, note)]) := by
  have accepted : ∀ utterance, acceptedOf utterance (log ++ [(input.utteranceId, note)]) =
      acceptedOf utterance log := fun utterance => acceptedOf_snoc notAccepted
  have delivered : ∀ utterance, deliveredOf utterance (log ++ [(input.utteranceId, note)]) =
      deliveredOf utterance log := fun utterance => deliveredOf_snoc notDelivered
  refine ⟨frames.ring, frames.capacity, ?_, ?_, ?_, ?_, ?_, ?_, ?_⟩
  · exact List.forall_mem_append.mpr ⟨frames.known, List.forall_mem_singleton.mpr (Nat.le_refl _)⟩
  · intro utterance other
    rw [accepted, delivered]
    exact frames.delivered utterance other
  · rw [accepted, delivered]
    exact frames.current
  · intro utterance
    rw [accepted]
    exact frames.times utterance
  · rw [accepted]
    exact frames.last
  · rw [accepted]
    exact frames.count
  · intro utterance
    rw [accepted]
    exact frames.bounded utterance

theorem offerFrame_ok {utteranceId samples timestamp : Nat} {pcm : Samples}
    (offered : input.offerFrame config utteranceId (some pcm) samples timestamp = .ok input') :
    utteranceId = input.utteranceId ∧ input.phase = .active ∧
      (input.hasTimestamp = true → input.lastTimestamp < timestamp) ∧
      input.queue.count ≠ input.queue.cells.length ∧ input.accepted < config.maxFrames ∧
      input' = { input with
        queue := input.queue.push ⟨pcm, timestamp⟩
        accepted := input.accepted + 1
        hasTimestamp := true
        lastTimestamp := timestamp } := by
  rw [Input.offerFrame] at offered
  split at offered
  next => cases offered
  split at offered
  next => cases offered
  next known =>
    split at offered
    next => cases offered
    next active =>
      split at offered
      next => cases offered
      next later =>
        split at offered
        next => cases offered
        next room =>
          cases offered
          simp only [not_or, Nat.not_le] at room
          refine ⟨Classical.not_not.mp known, Classical.not_not.mp active, ?_, room.1, room.2, rfl⟩
          intro has
          exact Nat.lt_of_not_le fun le => later ⟨has, le⟩

end Moves

/-! ## Steps -/

variable [Inhabited Samples]

/-- What the phase is while a control call stands at a stage. -/
def StageOk (input : Input Samples) : Option (Stage Samples) → Prop
  | none => True
  | some .beginning => input.phase = .idle ∧ input.utteranceId ≠ 0
  | some (.pumping _ _) => input.phase.live = true
  | some (.popped utterance _ _ _) =>
      input.phase.live = true ∧ utterance = input.utteranceId
  | some (.accepting _ _) => input.phase.live = true
  | some (.drained utterance) =>
      input.phase = .draining ∧ utterance = input.utteranceId ∧ input.queue.contents = []
  | some .finishing => input.phase = .draining
  | some (.settling _) => input.phase = .draining
  | some .failing => (input.phase = .idle ∨ input.phase.live = true) ∧ input.utteranceId ≠ 0
  | some (.canceling none) => input.phase = .failed
  | some (.canceling (some utterance)) =>
      input.phase = .canceled ∧ utterance = input.utteranceId

/-- The rules of a speech input whose control calls are made one after another. -/
structure Disciplined (config : Config) (input : Input Samples) (stage : Option (Stage Samples))
    (log : List (Nat × Note Samples)) : Prop where
  frames : Frames config input (pendingOf stage) log
  whole : input.phase.live = true ∨ stage = some .beginning →
    acceptedOf input.utteranceId log =
      deliveredOf input.utteranceId log ++ pendingOf stage ++ input.queue.contents
  stage : StageOk input stage
  ends : Ends input log

section Steps

variable {config : Config} {input input' : Input Samples} {stage : Option (Stage Samples)}
variable {log : List (Nat × Note Samples)}

theorem Disciplined.offer (disciplined : Disciplined config input stage log)
    {utteranceId samples timestamp : Nat} {pcm : Samples}
    (offered : input.offerFrame config utteranceId (some pcm) samples timestamp = .ok input') :
    Disciplined config input' stage
      (log ++ [(utteranceId, .accepted ⟨pcm, timestamp⟩)]) := by
  obtain ⟨rfl, active, later, room, few, rfl⟩ := offerFrame_ok offered
  obtain ⟨frames, whole, stageOk, ends⟩ := disciplined
  have less : input.queue.count < input.queue.cells.length :=
    Nat.lt_of_le_of_ne frames.ring.count room
  have live : input.phase.live = true := by rw [active]; rfl
  have accepted : acceptedOf input.utteranceId
      (log ++ [(input.utteranceId, .accepted ⟨pcm, timestamp⟩)]) =
        acceptedOf input.utteranceId log ++ [⟨pcm, timestamp⟩] := by
    rw [acceptedOf_snoc_accepted, if_pos rfl]
  have others : ∀ utterance, utterance ≠ input.utteranceId → acceptedOf utterance
      (log ++ [(input.utteranceId, .accepted ⟨pcm, timestamp⟩)]) = acceptedOf utterance log := by
    intro utterance other
    rw [acceptedOf_snoc_accepted, if_neg (Ne.symm other), List.append_nil]
  have delivered : ∀ utterance, deliveredOf utterance
      (log ++ [(input.utteranceId, .accepted ⟨pcm, timestamp⟩)]) = deliveredOf utterance log :=
    fun utterance => deliveredOf_snoc (by simp)
  refine ⟨⟨frames.ring.push _ less, ?_, ?_, ?_, ?_, ?_, ?_, ?_, ?_⟩, ?_, ?_, ?_⟩
  · rw [Ring.cells_push]
    exact frames.capacity
  · exact List.forall_mem_append.mpr ⟨frames.known, List.forall_mem_singleton.mpr (Nat.le_refl _)⟩
  · intro utterance other
    rw [delivered, others utterance other]
    exact frames.delivered utterance other
  · rw [delivered, accepted]
    exact frames.current.trans (List.prefix_append _ _)
  · intro utterance
    by_cases current : utterance = input.utteranceId
    · rw [current, accepted, List.pairwise_append]
      refine ⟨frames.times _, List.pairwise_singleton _ _, ?_⟩
      intro earlier known next isNext
      obtain ⟨has, le⟩ := frames.last earlier known
      rw [List.mem_singleton.mp isNext]
      exact Nat.lt_of_le_of_lt le (later has)
    · rw [others utterance current]
      exact frames.times utterance
  · intro slot member
    rw [accepted] at member
    rcases List.mem_append.mp member with old | new
    · obtain ⟨has, le⟩ := frames.last slot old
      exact ⟨rfl, Nat.le_trans le (Nat.le_of_lt (later has))⟩
    · rw [List.mem_singleton.mp new]
      exact ⟨rfl, Nat.le_refl _⟩
  · rw [accepted, List.length_append, frames.count]
    rfl
  · intro utterance
    by_cases current : utterance = input.utteranceId
    · rw [current, accepted, List.length_append, frames.count]
      exact few
    · rw [others utterance current]
      exact frames.bounded utterance
  · intro _
    rw [accepted, delivered, Ring.contents_push frames.ring _ less, whole (.inl live),
      List.append_assoc]
  · cases stage with
    | none => exact trivial
    | some stage =>
        cases stage with
        | drained utterance =>
            obtain ⟨draining, -⟩ := stageOk
            rw [active] at draining
            cases draining
        | canceling utterance => cases utterance <;> exact stageOk
        | _ => exact stageOk
  · have kept : Ends { input with
        queue := input.queue.push ⟨pcm, timestamp⟩
        accepted := input.accepted + 1
        hasTimestamp := true
        lastTimestamp := timestamp } log := { ends with }
    have notBegun : (.accepted ⟨pcm, timestamp⟩ : Note Samples) ≠ .begun := by simp
    exact kept.noted notBegun (by simp) (fun _ _ => active) (by simp) (by simp)

/-- The rules while no frame is on its way to the provider and the phase moves. -/
theorem Disciplined.moved (disciplined : Disciplined config input stage log)
    {stage' : Option (Stage Samples)} (queue : input'.queue = input.queue)
    (id : input'.utteranceId = input.utteranceId) (accepted : input'.accepted = input.accepted)
    (has : input'.hasTimestamp = input.hasTimestamp)
    (last : input'.lastTimestamp = input.lastTimestamp)
    (pending : pendingOf stage' = pendingOf stage)
    (live : input'.phase.live = true ∨ stage' = some .beginning →
      input.phase.live = true ∨ stage = some .beginning)
    (stageOk : StageOk input' stage') (ends : Ends input' log) :
    Disciplined config input' stage' log := by
  obtain ⟨frames, whole, -, -⟩ := disciplined
  refine ⟨⟨?_, ?_, ?_, ?_, ?_, frames.times, ?_, ?_, frames.bounded⟩, ?_, stageOk, ends⟩
  · rw [queue]
    exact frames.ring
  · rw [queue]
    exact frames.capacity
  · rw [id]
    exact frames.known
  · rw [id]
    exact frames.delivered
  · rw [id, pending]
    exact frames.current
  · rw [id, has, last]
    exact frames.last
  · rw [id, accepted]
    exact frames.count
  · intro isLive
    rw [id, pending, queue]
    exact whole (live isLive)

theorem Disciplined.cleared (disciplined : Disciplined config input stage log)
    {stage' : Option (Stage Samples)} (queue : input'.queue = input.queue.clear)
    (id : input'.utteranceId = input.utteranceId) (accepted : input'.accepted = input.accepted)
    (has : input'.hasTimestamp = input.hasTimestamp)
    (last : input'.lastTimestamp = input.lastTimestamp) (pending : pendingOf stage' = [])
    (dead : input'.phase.live = false) (other : stage' ≠ some .beginning)
    (stageOk : StageOk input' stage')
    (ends : Ends input' log) : Disciplined config input' stage' log := by
  obtain ⟨frames, -, -, -⟩ := disciplined
  refine ⟨⟨?_, ?_, ?_, ?_, ?_, frames.times, ?_, ?_, frames.bounded⟩, ?_, stageOk, ends⟩
  · rw [queue]
    exact frames.ring.clear
  · rw [queue, Ring.cells_clear]
    exact frames.capacity
  · rw [id]
    exact frames.known
  · rw [id]
    exact frames.delivered
  · rw [id, pending, List.append_nil]
    exact (List.prefix_append _ _).trans frames.current
  · rw [id, has, last]
    exact frames.last
  · rw [id, accepted]
    exact frames.count
  · intro isLive
    rw [dead] at isLive
    rcases isLive with no | beginning
    · cases no
    · exact absurd beginning other

theorem Disciplined.begun (disciplined : Disciplined config input stage log)
    (live : input.phase.live = true) : input.utteranceId ≠ 0 := by
  apply disciplined.ends.named
  intro idle
  rw [idle] at live
  cases live

theorem Disciplined.not_canceled (disciplined : Disciplined config input stage log)
    (live : input.phase.live = true ∨ input.phase = .idle) :
    (input.utteranceId, .canceled) ∉ log := by
  intro member
  rw [disciplined.ends.canceled member] at live
  rcases live with live | idle
  · cases live
  · cases idle

theorem Disciplined.requestFinish (disciplined : Disciplined config input none log)
    (requested : input.requestFinish = .ok input') : Disciplined config input' none log := by
  rw [Input.requestFinish] at requested
  split at requested
  next => cases requested
  next active =>
    cases requested
    have isActive : input.phase = .active := Classical.not_not.mp active
    have live : input.phase.live = true := by rw [isActive]; rfl
    refine disciplined.moved rfl rfl rfl rfl rfl rfl (fun _ => .inl live) trivial ?_
    refine disciplined.ends.moved rfl rfl (fun _ => ⟨by simp, by simp⟩) ?_ (disciplined.begun live)
    exact fun member => absurd member (disciplined.not_canceled (.inl live))

theorem Disciplined.cancel (disciplined : Disciplined config input none log)
    (canceled : input.cancel = .ok input') :
    Disciplined config input' (some (.canceling (some input.utteranceId))) log := by
  rw [Input.cancel] at canceled
  split at canceled
  next => cases canceled
  next live =>
    cases canceled
    have isLive : input.phase.live = true := by simpa using live
    refine disciplined.cleared rfl rfl rfl rfl rfl rfl rfl (by simp) ⟨rfl, rfl⟩ ?_
    exact disciplined.ends.moved rfl rfl (fun _ => ⟨by simp, by simp⟩) (fun _ => rfl)
      (disciplined.begun isLive)

theorem Disciplined.fail (disciplined : Disciplined config input (some .failing) log) :
    Disciplined config input.fail (some (.canceling none)) log := by
  obtain ⟨phase, begun⟩ := disciplined.stage
  refine disciplined.cleared rfl rfl rfl rfl rfl rfl rfl (by simp) rfl ?_
  refine disciplined.ends.moved rfl rfl (fun _ => ⟨by simp [Input.fail], by simp [Input.fail]⟩) ?_
    begun
  intro member
  exact absurd member (disciplined.not_canceled phase.symm)

theorem Disciplined.failing (disciplined : Disciplined config input stage log)
    (pending : pendingOf stage = [])
    (phase : input.phase = .idle ∨ input.phase.live = true) (begun : input.utteranceId ≠ 0) :
    Disciplined config input (some .failing) log := by
  refine disciplined.moved rfl rfl rfl rfl rfl (by rw [pending]; rfl) ?_ ⟨phase, begun⟩
    disciplined.ends
  rintro (live | beginning)
  · exact .inl live
  · cases beginning

theorem Disciplined.activate (disciplined : Disciplined config input (some .beginning) log) :
    Disciplined config { input with phase := .active } none log := by
  obtain ⟨idle, begun⟩ := disciplined.stage
  refine disciplined.moved rfl rfl rfl rfl rfl rfl (fun _ => .inr rfl) trivial ?_
  refine disciplined.ends.moved rfl rfl ?_ ?_ begun
  · intro member
    exact absurd idle (disciplined.ends.closed member).2
  · intro member
    exact absurd member (disciplined.not_canceled (.inr idle))

theorem Disciplined.settle {kind : Kind}
    (disciplined : Disciplined config input (some (.settling kind)) log) :
    Disciplined config (input.settle kind) none log := by
  have draining : input.phase = .draining := disciplined.stage
  have live : input.phase.live = true := by rw [draining]; rfl
  have ended : (input.settle kind).phase.terminal = true := by
    rw [Input.settle]
    dsimp only
    split <;> rfl
  refine disciplined.moved rfl rfl rfl rfl rfl rfl (fun _ => .inl live) trivial ?_
  refine disciplined.ends.moved rfl rfl ?_ ?_ (disciplined.begun live)
  · intro _
    constructor
    · intro active
      rw [active] at ended
      cases ended
    · intro idle
      rw [idle] at ended
      cases ended
  · exact fun member => absurd member (disciplined.not_canceled (.inl live))

theorem Disciplined.pop (disciplined : Disciplined config input stage log)
    (pending : pendingOf stage = []) (live : input.phase.live = true)
    (filled : input.queue.count ≠ 0) (budget pumped : Nat) :
    Disciplined config { input with queue := input.queue.pop }
      (some (.popped input.utteranceId input.queue.first budget pumped)) log := by
  obtain ⟨frames, whole, -, ends⟩ := disciplined
  have all := whole (.inl live)
  rw [pending, List.append_nil,
    Ring.contents_pop frames.ring (Nat.pos_of_ne_zero filled)] at all
  have all' : acceptedOf input.utteranceId log = deliveredOf input.utteranceId log ++
      [input.queue.first] ++ input.queue.pop.contents := by
    rw [all, List.append_assoc, List.singleton_append]
  refine ⟨⟨frames.ring.pop, ?_, frames.known, frames.delivered, ?_, frames.times, frames.last,
    frames.count, frames.bounded⟩, fun _ => all', ⟨live, rfl⟩, { ends with }⟩
  · rw [Ring.cells_pop]
    exact frames.capacity
  · exact ⟨_, all'.symm⟩

theorem Disciplined.drain (disciplined : Disciplined config input stage log)
    (pending : pendingOf stage = []) (draining : input.phase = .draining)
    (empty : input.queue.count = 0) :
    Disciplined config input (some (.drained input.utteranceId)) log := by
  have none : input.queue.contents = [] := by
    rw [← List.length_eq_zero_iff, Ring.length_contents, empty]
  have live : input.phase.live = true := by rw [draining]; rfl
  refine disciplined.moved rfl rfl rfl rfl rfl (by rw [pending]; rfl) (fun _ => .inl live)
    ⟨draining, rfl, none⟩ disciplined.ends

variable {utterance : Nat}

theorem Disciplined.deliver {budget pumped : Nat} {slot : Slot Samples}
    (disciplined : Disciplined config input (some (.popped utterance slot budget pumped)) log) :
    Disciplined config input (some (.accepting budget pumped))
      (log ++ [(utterance, .delivered slot)]) := by
  obtain ⟨frames, whole, ⟨live, rfl⟩, ends⟩ := disciplined
  have accepted : ∀ utterance, acceptedOf utterance
      (log ++ [(input.utteranceId, .delivered slot)]) = acceptedOf utterance log :=
    fun utterance => acceptedOf_snoc (by simp)
  have delivered : deliveredOf input.utteranceId
      (log ++ [(input.utteranceId, .delivered slot)]) =
        deliveredOf input.utteranceId log ++ [slot] := by
    rw [deliveredOf_snoc_delivered, if_pos rfl]
  refine ⟨⟨frames.ring, frames.capacity, ?_, ?_, ?_, ?_, ?_, ?_, ?_⟩, ?_, live,
    ends.noted (by simp) (by simp) (by simp) (by simp) (by simp)⟩
  · exact List.forall_mem_append.mpr ⟨frames.known, List.forall_mem_singleton.mpr (Nat.le_refl _)⟩
  · intro utterance other
    rw [accepted, deliveredOf_snoc_delivered, if_neg (Ne.symm other), List.append_nil]
    exact frames.delivered utterance other
  · rw [accepted, delivered]
    simpa [pendingOf] using frames.current
  · intro utterance
    rw [accepted]
    exact frames.times utterance
  · rw [accepted]
    exact frames.last
  · rw [accepted]
    exact frames.count
  · intro utterance
    rw [accepted]
    exact frames.bounded utterance
  · intro _
    rw [accepted, delivered]
    simpa [pendingOf] using whole (.inl live)

theorem Disciplined.finish (disciplined : Disciplined config input (some (.drained utterance)) log) :
    Disciplined config input (some .finishing) (log ++ [(utterance, .finishing)]) := by
  obtain ⟨frames, whole, ⟨draining, rfl, empty⟩, ends⟩ := disciplined
  have live : input.phase.live = true := by rw [draining]; rfl
  have all := whole (.inl live)
  rw [empty] at all
  simp only [pendingOf, List.append_nil] at all
  have accepted : ∀ utterance, acceptedOf utterance
      (log ++ [(input.utteranceId, .finishing)]) = acceptedOf utterance log :=
    fun utterance => acceptedOf_snoc (by simp)
  have delivered : ∀ utterance, deliveredOf utterance
      (log ++ [(input.utteranceId, .finishing)]) = deliveredOf utterance log :=
    fun utterance => deliveredOf_snoc (by simp)
  refine ⟨frames.noted (by simp) (by simp), ?_, draining, ?_⟩
  · intro _
    rw [accepted, delivered, empty, all]
    simp [pendingOf]
  · refine ends.noted (by simp) (by simp) (by simp) (fun _ => ⟨all.symm, ?_⟩) (by simp)
    rw [draining]
    exact ⟨by simp, by simp⟩

theorem Disciplined.canceled
    (disciplined : Disciplined config input (some (.canceling (some utterance))) log) :
    Disciplined config input none (log ++ [(utterance, .canceled)]) := by
  obtain ⟨frames, -, ⟨canceled, rfl⟩, ends⟩ := disciplined
  refine ⟨frames.noted (by simp) (by simp), ?_, trivial, ?_⟩
  · rintro (live | beginning)
    · rw [canceled] at live
      cases live
    · cases beginning
  · exact ends.noted (by simp) (by simp) (by simp) (by simp) (fun _ => canceled)

theorem Disciplined.take {dstBytes : Nat} {taken : List UInt8 × Kind}
    (disciplined : Disciplined config input none log)
    (took : input.takeFinal dstBytes = .ok (input', taken)) :
    Disciplined config input' none (log ++ [(input.utteranceId, .taken)]) := by
  rw [Input.takeFinal] at took
  split at took
  next => cases took
  next ready =>
    split at took
    next => cases took
    cases took
    simp only [not_or, Bool.not_eq_true', Bool.not_eq_false, Bool.not_eq_true] at ready
    obtain ⟨frames, whole, -, ends⟩ := disciplined
    have begun : input.utteranceId ≠ 0 := by
      apply ends.named
      intro idle
      rw [idle] at ready
      cases ready.1
    have fresh : input.utteranceId ∉ takenOf log := by
      intro member
      rw [ends.flagged member] at ready
      cases ready.2
    have marked : Frames config input (pendingOf none) (log ++ [(input.utteranceId, .taken)]) :=
      frames.noted (by simp) (by simp)
    refine ⟨{ marked with }, ?_, trivial, ?_⟩
    · rw [acceptedOf_snoc (by simp), deliveredOf_snoc (by simp)]
      exact whole
    · refine ⟨?_, ?_, ?_, ?_, ?_, ends.named, ?_, ?_, ?_, ?_, ?_⟩
      · intro before other after split
        rcases snoc_split split with ⟨-, last⟩ | ⟨rest, -, earlier⟩
        · cases last
        · rw [acceptedOf_snoc (by simp)]
          exact ends.finished before other rest earlier
      · intro member
        exact ends.closed (mem_snoc_other member (by simp))
      · intro member
        exact ends.canceled (mem_snoc_other member (by simp))
      · rw [begunOf_snoc (by simp)]
        exact ends.begun
      · rw [begunOf_snoc (by simp)]
        exact ends.current
      · rw [begunOf_snoc (by simp)]
        exact ends.opened
      · rw [takenOf_snoc_taken, List.nodup_append]
        refine ⟨ends.taken, List.nodup_singleton _, ?_⟩
        intro other member next isNext same
        rw [same, List.mem_singleton.mp isNext] at member
        exact fresh member
      · exact fun _ => rfl
      · intro other member
        rw [takenOf_snoc_taken] at member
        rcases List.mem_append.mp member with old | new
        · exact ends.takenKnown other old
        · exact Nat.le_of_eq (List.mem_singleton.mp new)
      · intro before other after split
        rcases snoc_split split with ⟨rfl, last⟩ | ⟨rest, -, earlier⟩
        · cases last
          exact ends.current begun
        · exact ends.takenCurrent before other rest earlier

theorem Disciplined.beginOpen {utteranceId : Nat} (disciplined : Disciplined config input none log)
    (opened : input.beginOpen utteranceId = .ok input') :
    Disciplined config input' (some .beginning) (log ++ [(utteranceId, .begun)]) := by
  rw [Input.beginOpen] at opened
  split at opened
  next => cases opened
  next named =>
    split at opened
    next => cases opened
    split at opened
    next => cases opened
    next newer =>
      cases opened
      obtain ⟨frames, -, -, ends⟩ := disciplined
      have less : input.utteranceId < utteranceId := Nat.lt_of_not_le newer
      have others : ∀ entry ∈ log, entry.1 ≠ utteranceId := by
        intro entry member same
        have := frames.known entry member
        omega
      have accepted : ∀ other, acceptedOf other (log ++ [(utteranceId, .begun)]) =
          acceptedOf other log := fun other => acceptedOf_snoc (by simp)
      have delivered : ∀ other, deliveredOf other (log ++ [(utteranceId, .begun)]) =
          deliveredOf other log := fun other => deliveredOf_snoc (by simp)
      have noneAccepted : acceptedOf utteranceId log = [] := pick_of_known others
      have noneDelivered : deliveredOf utteranceId log = [] := pick_of_known others
      have absent : ∀ note, (utteranceId, note) ∉ log :=
        fun note member => others _ member rfl
      refine ⟨⟨frames.ring.clear, ?_, ?_, ?_, ?_, ?_, ?_, ?_, ?_⟩, ?_, ⟨rfl, named⟩, ?_⟩
      · rw [Ring.cells_clear]
        exact frames.capacity
      · exact List.forall_mem_append.mpr
          ⟨fun entry old => Nat.le_trans (frames.known entry old) (Nat.le_of_lt less),
            List.forall_mem_singleton.mpr (Nat.le_refl _)⟩
      · intro other _
        rw [accepted, delivered]
        by_cases current : other = input.utteranceId
        · rw [current]
          exact (List.prefix_append _ _).trans frames.current
        · exact frames.delivered other current
      · rw [accepted, delivered, noneAccepted, noneDelivered]
        exact List.prefix_refl _
      · intro other
        rw [accepted]
        exact frames.times other
      · rw [accepted, noneAccepted]
        simp
      · rw [accepted, noneAccepted]
        rfl
      · intro other
        rw [accepted]
        exact frames.bounded other
      · intro _
        rw [accepted, delivered, noneAccepted, noneDelivered]
        rfl
      · refine ⟨?_, ?_, ?_, ?_, ?_, fun busy => absurd rfl busy, ?_, ?_, ?_, ?_, ?_⟩
        · intro before other after split
          rw [accepted]
          rcases snoc_split split with ⟨-, last⟩ | ⟨rest, -, earlier⟩
          · cases last
          · exact ends.finished before other rest earlier
        · intro member
          exact absurd (mem_snoc_other member (by simp)) (absent _)
        · intro member
          exact absurd (mem_snoc_other member (by simp)) (absent _)
        · rw [begunOf_snoc_begun, List.pairwise_append]
          refine ⟨ends.begun, List.pairwise_singleton _ _, ?_⟩
          intro earlier known next isNext
          rw [List.mem_singleton.mp isNext]
          exact Nat.lt_of_le_of_lt (ends.opened earlier known) less
        · intro _
          rw [begunOf_snoc_begun, List.getLast?_concat]
        · intro other member
          rw [begunOf_snoc_begun] at member
          rcases List.mem_append.mp member with old | new
          · exact Nat.le_trans (ends.opened other old) (Nat.le_of_lt less)
          · exact Nat.le_of_eq (List.mem_singleton.mp new)
        · rw [takenOf_snoc (by simp)]
          exact ends.taken
        · rw [takenOf_snoc (by simp)]
          intro member
          have := ends.takenKnown _ member
          dsimp only at this
          omega
        · rw [takenOf_snoc (by simp)]
          intro other member
          exact Nat.le_trans (ends.takenKnown other member) (Nat.le_of_lt less)
        · intro before other after split
          rcases snoc_split split with ⟨-, last⟩ | ⟨rest, -, earlier⟩
          · cases last
          · exact ends.takenCurrent before other rest earlier

end Steps

/-! ## Runs -/

namespace World

variable {config : Config} {world : World Samples}

/-- At most one control call is under way, and the rules hold. -/
def Obeys (config : Config) (world : World Samples) : Prop :=
  ∃ stage : Option (Stage Samples), world.stages = stage.toList ∧
    Disciplined config world.input stage world.log

theorem create_obeys (positive : 1 ≤ config.queueFrames) :
    (create config : World Samples).Obeys config := by
  refine ⟨none, rfl, ⟨⟨?_, ?_, ?_, ?_, ?_, ?_, ?_, ?_, ?_⟩, ?_, trivial, ?_⟩⟩
  · have room : 0 < config.queueFrames := positive
    exact ⟨by simpa [create, Input.create, Ring.empty] using room, Nat.zero_le _⟩
  · simp [create, Input.create, Ring.empty]
  · simp [create]
  · exact fun _ _ => List.prefix_refl _
  · exact List.prefix_refl _
  · exact fun _ => List.Pairwise.nil
  · simp [create, acceptedOf, pick]
  · rfl
  · exact fun _ => Nat.zero_le _
  · exact fun _ => rfl
  · constructor <;> simp [create, Input.create, begunOf, takenOf]

theorem enter_obeys {input : Input Samples} {stage : Stage Samples} (free : world.stages = [])
    (disciplined : Disciplined config input (some stage) world.log) :
    (world.enter input stage).Obeys config := by
  refine ⟨some stage, ?_, disciplined⟩
  rw [enter, free]
  rfl

section Calls

variable {stage : Option (Stage Samples)} (free : world.stages = [])
include free

theorem pumpRound_obeys (disciplined : Disciplined config world.input stage world.log)
    (idle : Disciplined config world.input none world.log) (budget pumped : Nat)
    (pending : pendingOf stage = []) : (world.pumpRound budget pumped).Obeys config := by
  rw [pumpRound]
  split
  next => exact ⟨none, free, idle⟩
  next live =>
    have isLive : world.input.phase.live = true := by simpa using live
    split
    next filled => exact enter_obeys free (disciplined.pop pending isLive filled.1 budget pumped)
    split
    next drained => exact enter_obeys free (disciplined.drain pending drained.1 drained.2)
    next => exact ⟨none, free, idle⟩

theorem start_obeys (disciplined : Disciplined config world.input none world.log)
    (operation : Operation) : (world.start operation).Obeys config := by
  cases operation with
  | begin utteranceId =>
      rw [start]
      split
      next => exact ⟨none, free, disciplined⟩
      next input opened =>
        refine ⟨some .beginning, ?_, disciplined.beginOpen opened⟩
        rw [note, enter, free]
        rfl
  | requestFinish =>
      rw [start]
      split
      next => exact ⟨none, free, disciplined⟩
      next input requested => exact ⟨none, free, disciplined.requestFinish requested⟩
  | pump budget =>
      rw [start]
      split
      next => exact ⟨none, free, disciplined⟩
      next => exact pumpRound_obeys free disciplined disciplined budget 0 rfl
  | cancel =>
      rw [start]
      split
      next => exact ⟨none, free, disciplined⟩
      next input canceled => exact enter_obeys free (disciplined.cancel canceled)
  | takeFinal dstBytes =>
      rw [start]
      split
      next => exact ⟨none, free, disciplined⟩
      next input taken took =>
        have same : input.utteranceId = world.input.utteranceId := by
          rw [Input.takeFinal] at took
          split at took
          next => cases took
          split at took
          next => cases took
          cases took
          rfl
        refine ⟨none, free, ?_⟩
        rw [note, same]
        exact disciplined.take took

theorem acceptAnswer_obeys {budget pumped : Nat} (answer : Answer)
    (disciplined : Disciplined config world.input (some (.accepting budget pumped)) world.log) :
    (world.acceptAnswer config answer budget pumped).Obeys config := by
  have live : world.input.phase.live = true := disciplined.stage
  have failing : (world.enter world.input .failing).Obeys config :=
    enter_obeys free (disciplined.failing rfl (.inr live) (disciplined.begun live))
  have goOn : ∀ input : Input Samples, (∃ text revision, input =
      { world.input with interimText := text, revision }) →
      (if pumped + 1 = budget then { world with input }
        else world.enter input (.pumping budget (pumped + 1))).Obeys config := by
    rintro input ⟨text, revision, rfl⟩
    split
    next =>
      refine ⟨none, free, ?_⟩
      exact disciplined.moved rfl rfl rfl rfl rfl rfl (fun _ => .inl live) trivial
        { disciplined.ends with }
    next =>
      refine enter_obeys free ?_
      exact disciplined.moved rfl rfl rfl rfl rfl rfl (fun _ => .inl live) live
        { disciplined.ends with }
  rw [acceptAnswer]
  split
  next => exact failing
  split
  next =>
    split
    next => exact failing
    next text _ => exact goOn _ ⟨_, _, rfl⟩
  next =>
    split
    next => exact failing
    next => exact goOn _ ⟨_, _, rfl⟩

theorem finishAnswer_obeys (answer : Answer)
    (disciplined : Disciplined config world.input (some .finishing) world.log) :
    (world.finishAnswer config answer).Obeys config := by
  have draining : world.input.phase = .draining := disciplined.stage
  have live : world.input.phase.live = true := by rw [draining]; rfl
  have failing : (world.enter world.input .failing).Obeys config :=
    enter_obeys free (disciplined.failing rfl (.inr live) (disciplined.begun live))
  rw [finishAnswer]
  split
  next => exact failing
  split
  next => exact failing
  split
  next => exact failing
  split
  next => exact failing
  split
  next => exact failing
  refine enter_obeys free ?_
  exact disciplined.moved rfl rfl rfl rfl rfl rfl (fun _ => .inl live) draining
    { disciplined.ends with }

theorem proceed_obeys (answer : Answer) (current : Stage Samples)
    (disciplined : Disciplined config world.input (some current) world.log) :
    (world.proceed config answer current).Obeys config := by
  cases current with
  | beginning =>
      rw [proceed]
      split
      next => exact ⟨none, free, disciplined.activate⟩
      exact enter_obeys free
        (disciplined.failing rfl (.inl disciplined.stage.1) disciplined.stage.2)
  | pumping budget pumped =>
      have idle : Disciplined config world.input none world.log :=
        disciplined.moved rfl rfl rfl rfl rfl rfl (fun _ => .inl disciplined.stage) trivial
          disciplined.ends
      exact pumpRound_obeys free disciplined idle budget pumped rfl
  | popped utterance slot budget pumped =>
      refine ⟨some (.accepting budget pumped), ?_, disciplined.deliver⟩
      rw [proceed, note, enter, free]
      rfl
  | accepting budget pumped => exact acceptAnswer_obeys free answer disciplined
  | drained utterance =>
      refine ⟨some .finishing, ?_, disciplined.finish⟩
      rw [proceed, note, enter, free]
      rfl
  | finishing => exact finishAnswer_obeys free answer disciplined
  | settling kind => exact ⟨none, free, disciplined.settle⟩
  | failing => exact enter_obeys free disciplined.fail
  | canceling utterance =>
      cases utterance with
      | none =>
          have failed : world.input.phase = .failed := disciplined.stage
          have dead : ¬(world.input.phase.live = true ∨
              (none : Option (Stage Samples)) = some .beginning) := by simp [failed, Phase.live]
          exact ⟨none, free, disciplined.moved rfl rfl rfl rfl rfl rfl
            (fun live => absurd live dead) trivial disciplined.ends⟩
      | some utterance => exact ⟨none, free, disciplined.canceled⟩

end Calls

/-- What one step keeps, when no control call starts while one is under way. -/
theorem step_obeys (obeys : world.Obeys config) (action : Action Samples)
    (serial : ∀ operation, action = .start operation → world.stages = []) :
    (world.step config action).Obeys config := by
  obtain ⟨stage, stages, disciplined⟩ := obeys
  cases action with
  | offer utteranceId pcm samples timestamp =>
      unfold step
      dsimp only
      split
      next pcm input offered => exact ⟨stage, stages, disciplined.offer offered⟩
      next => exact ⟨stage, stages, disciplined⟩
  | start operation =>
      have free := serial operation rfl
      cases stage with
      | none => exact start_obeys free disciplined operation
      | some current =>
          rw [free] at stages
          cases stages
  | resume index answer =>
      rw [step]
      split
      next => exact ⟨stage, stages, disciplined⟩
      next current found =>
        cases stage with
        | none =>
            rw [stages] at found
            cases found
        | some only =>
            rw [stages] at found
            have first : index = 0 := by
              have := (List.getElem?_eq_some_iff.mp found).1
              simpa using this
            rw [first] at found ⊢
            cases found
            exact proceed_obeys (by simp [stages]) answer current disciplined

theorem run_obeys (actions : List (Action Samples)) :
    ∀ world : World Samples, world.Obeys config → world.Serial config actions →
      (world.run config actions).Obeys config := by
  induction actions with
  | nil => exact fun _ obeys _ => obeys
  | cons action actions ih =>
      intro world obeys serial
      exact ih _ (step_obeys obeys action serial.1) serial.2

/-- What holds of the utterances of a speech input. -/
structure Faithful (config : Config) (world : World Samples) : Prop where
  /-- The provider gets a prefix of the accepted frames. -/
  delivered : ∀ utterance,
    deliveredOf utterance world.log <+: acceptedOf utterance world.log
  /-- Timestamps grow, so no frame is accepted twice. -/
  times : ∀ utterance, (acceptedOf utterance world.log).Pairwise fun earlier later =>
    earlier.timestamp < later.timestamp
  frames : ∀ utterance, (acceptedOf utterance world.log).length ≤ config.maxFrames
  queue : world.input.queue.count ≤ config.queueFrames
  /-- The provider is asked to finish after all frames are passed to it. -/
  finished : ∀ before utterance after, world.log = before ++ (utterance, .finishing) :: after →
    deliveredOf utterance before = acceptedOf utterance world.log
  begun : (begunOf world.log).Pairwise (· < ·)
  /-- A transcript is taken once, while its utterance is the last one that was begun. -/
  taken : (takenOf world.log).Nodup
  takenCurrent : ∀ before utterance after, world.log = before ++ (utterance, .taken) :: after →
    (begunOf before).getLast? = some utterance
  /-- A canceled utterance stays canceled as long as it is the current one. -/
  canceled : (world.input.utteranceId, .canceled) ∈ world.log → world.input.phase = .canceled

theorem Obeys.faithful (obeys : world.Obeys config) : world.Faithful config := by
  obtain ⟨stage, -, frames, -, -, ends⟩ := obeys
  refine ⟨?_, frames.times, frames.bounded, ?_, ends.finished, ends.begun, ends.taken,
    ends.takenCurrent, ends.canceled⟩
  · intro utterance
    by_cases current : utterance = world.input.utteranceId
    · rw [current]
      exact (List.prefix_append _ _).trans frames.current
    · exact frames.delivered utterance current
  · rw [← frames.capacity]
    exact frames.ring.count

/-- Control calls that are made one after another are faithful to every utterance, whatever
the provider answers and whenever frames are offered. -/
theorem run_faithful (config : Config) (positive : 1 ≤ config.queueFrames)
    (actions : List (Action Samples)) (serial : (create config).Serial config actions) :
    ((create config).run config actions).Faithful config :=
  (run_obeys actions _ (create_obeys positive) serial).faithful

def sampleConfig : Config := ⟨2, 4, 8⟩

def silentAnswer : Answer := ⟨true, ⟨.none, none, 0⟩⟩

def finalAnswer : Answer := ⟨true, ⟨.final, some [97], 1⟩⟩

def sampleUtterance : List (Action Nat) :=
  [.start (.begin 1), .resume 0 silentAnswer, .offer 1 (some 7) samplesPerFrame 5,
    .start .requestFinish, .start (.pump 1), .resume 0 silentAnswer, .resume 0 silentAnswer,
    .start (.pump 1), .resume 0 silentAnswer, .resume 0 finalAnswer, .resume 0 silentAnswer,
    .start (.takeFinal 8)]

theorem run_sampleUtterance : 1 ≤ sampleConfig.queueFrames ∧
    (create sampleConfig).Serial sampleConfig sampleUtterance ∧
    ((create sampleConfig).run sampleConfig sampleUtterance).Faithful sampleConfig ∧
    takenOf ((create sampleConfig).run sampleConfig sampleUtterance).log = [1] := by
  have serial : (create sampleConfig).Serial sampleConfig sampleUtterance := by
    refine ⟨fun _ _ => rfl, by simp, by simp, fun _ _ => rfl, fun _ _ => rfl, by simp, by simp,
      fun _ _ => rfl, by simp, by simp, by simp, fun _ _ => rfl, trivial⟩
  exact ⟨by decide, serial, run_faithful sampleConfig (by decide) sampleUtterance serial,
    by decide⟩

/-- `cancel` returns while `provider.finish` runs, and its answer makes the utterance final. -/
theorem run_cancel_within_finish : ¬∀ (config : Config) (actions : List (Action Nat)),
    1 ≤ config.queueFrames → ((create config).run config actions).Faithful config := by
  intro always
  have faithful := always sampleConfig
    [.start (.begin 1), .resume 0 silentAnswer, .start .requestFinish, .start (.pump 1),
      .resume 0 silentAnswer, .start .cancel, .resume 1 silentAnswer, .resume 0 finalAnswer,
      .resume 0 silentAnswer] (by decide)
  exact absurd (faithful.canceled (by decide)) (by decide)

end World

end TurboAgent.Speech
