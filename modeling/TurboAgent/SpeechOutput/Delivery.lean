import TurboAgent.SpeechOutput.Ledger

/-!
# Delivery of samples

Every call of the host makes notes that the account of the current generation accepts, and a
new generation opens a new account.  So whatever the host and the provider do, the samples
that are taken are the delivered ones, in order and each once, and a generation that is
canceled or whose provider fails stays silent.
-/

namespace TurboAgent.SpeechOutput

variable {budget : Nat} {output : Output} {ledger : Ledger}

/-! ## Sizes -/

theorem toNat_sub {left right : UInt64} (below : right ≤ left) :
    (left - right).toNat = left.toNat - right.toNat :=
  UInt64.toNat_sub_of_le _ _ below

theorem toNat_add {left right limit : UInt64}
    (below : left.toNat + right.toNat ≤ limit.toNat) :
    (left + right).toNat = left.toNat + right.toNat := by
  rw [UInt64.toNat_add, Nat.mod_eq_of_lt]
  exact Nat.lt_of_le_of_lt below limit.toNat_lt

/-! ## The output follows the account -/

def stageOf : Phase → Stage
  | .idle => .fresh
  | .synthesizing | .stagingDraining => .playing
  | .cancelPending => .stopping
  | .settled => .settled
  | .canceled | .failed => .stopped

def Output.Cleared (output : Output) : Prop :=
  output.pendingSamples = 0 ∧ output.pendingOffset = 0

/-- The output and the account of its current generation. -/
structure Follows (budget : Nat) (output : Output) (ledger : Ledger) : Prop where
  stage : ledger.stage = stageOf output.phase
  budget : output.maxPcmSamples.toNat = budget
  total : output.totalPcmSamples ≤ output.maxPcmSamples
  pending : output.Cleared ∨ (output.pendingOffset < output.pendingSamples ∧
    output.pendingSamples.toNat ≤ samplesPerFrame ∧ output.playing = true)
  waiting : output.playing = true → ledger.delivered = ledger.consumed ++ output.staged ∧
    output.totalPcmSamples.toNat = ledger.delivered.length
  draining : output.phase = .stagingDraining → output.pendingSamples ≠ 0

/-- What a call does: its notes are accepted, and the changed output follows. -/
def Moves (budget : Nat) (ledger : Ledger) (output : Output) (reply : Reply) : Prop :=
  reply.1.generationId = output.generationId ∧
    ∃ next, ledger.Accepts budget reply.2.2 next ∧ Follows budget reply.1 next

theorem Follows.stay (follows : Follows budget output ledger) (status : Status) :
    Moves budget ledger output (output, status, []) :=
  ⟨rfl, ledger, .nil, follows⟩

theorem staged_cleared (cleared : output.Cleared) : output.staged = [] := by
  rw [Output.staged, cleared.1, cleared.2]
  exact List.take_zero

theorem Follows.offset_le (follows : Follows budget output ledger) :
    output.pendingOffset ≤ output.pendingSamples := by
  rcases follows.pending with cleared | ⟨less, -, -⟩
  · rw [cleared.1, cleared.2]
    exact UInt64.le_refl _
  · exact UInt64.le_of_lt less

theorem Follows.cleared (follows : Follows budget output ledger)
    (none : output.pendingSamples = 0) : output.Cleared := by
  have below := follows.offset_le
  rw [none] at below
  exact ⟨none, UInt64.le_zero_iff.mp below⟩

/-! ## Calls -/

theorem follows_silent {after : Output} {next : Ledger} (same : after.maxPcmSamples.toNat = budget)
    (total : after.totalPcmSamples ≤ after.maxPcmSamples) (stage : next.stage = stageOf after.phase)
    (silent : after.playing = false) (cleared : after.Cleared) : Follows budget after next where
  stage
  budget := same
  total
  pending := .inl cleared
  waiting := fun playing => absurd playing (by simp [silent])
  draining := by
    intro draining
    simp [Output.playing, draining] at silent

theorem clearPending_cleared : output.clearPending.Cleared :=
  ⟨rfl, rfl⟩

theorem stageOf_playing (playing : output.playing = true) : stageOf output.phase = .playing := by
  unfold Output.playing at playing
  cases phase : output.phase <;> simp [phase] at playing <;> rfl

theorem Follows.account (follows : Follows budget output ledger) {stage : Stage}
    (isStage : stageOf output.phase = stage) :
    ledger = ⟨stage, ledger.delivered, ledger.consumed⟩ := by
  have same := follows.stage.trans isStage
  cases ledger
  exact congrArg (Ledger.mk · _ _) same

theorem Follows.cancelFailed (follows : Follows budget output ledger)
    (pumped : output.phase = .synthesizing ∨ output.phase = .cancelPending) (status : Status) :
    Moves budget ledger output (output.cancelFailed status) := by
  rcases pumped with synthesizing | pending
  · have apart : output.clearPending.phase ≠ .cancelPending := by
      simp [Output.clearPending, synthesizing]
    rw [follows.account (congrArg stageOf synthesizing), Output.cancelFailed, if_pos apart]
    exact ⟨rfl, _, .cons .cancelSent (.single .faulted),
      follows_silent follows.budget follows.total rfl rfl ⟨rfl, rfl⟩⟩
  · have same : ¬output.clearPending.phase ≠ .cancelPending := not_not.mpr pending
    rw [follows.account (congrArg stageOf pending), Output.cancelFailed, if_neg same]
    refine ⟨rfl, _, .single .faulted, follows_silent follows.budget follows.total ?_ ?_
      ⟨rfl, rfl⟩⟩
    · exact (congrArg stageOf pending).symm
    · simp [Output.playing, Output.clearPending, pending]

theorem Follows.withFrame (follows : Follows budget output ledger)
    (none : output.pendingSamples = 0) (frame : Frame) :
    Follows budget { output with frame } ledger where
  stage := follows.stage
  budget := follows.budget
  total := follows.total
  pending := follows.pending
  waiting := by
    intro playing
    have cleared := follows.cleared none
    rw [@staged_cleared { output with frame } cleared, ← staged_cleared cleared]
    exact follows.waiting playing
  draining := follows.draining

theorem Follows.clearPending (follows : Follows budget output ledger)
    (none : output.pendingSamples = 0) (undrained : output.phase ≠ .stagingDraining) :
    Follows budget output.clearPending ledger where
  stage := follows.stage
  budget := follows.budget
  total := follows.total
  pending := .inl clearPending_cleared
  waiting := by
    intro playing
    rw [staged_cleared clearPending_cleared, ← staged_cleared (follows.cleared none)]
    exact follows.waiting playing
  draining := fun draining => absurd draining undrained

theorem Follows.settleCancel (follows : Follows budget output ledger)
    (none : output.pendingSamples = 0) (canceling : output.phase = .cancelPending)
    (answer : Output.Answer) : Moves budget ledger output (output.settleCancel answer) := by
  have undrained : output.phase ≠ .stagingDraining := by
    rw [canceling]
    exact Phase.noConfusion
  unfold Output.settleCancel
  by_cases late : answer.kind = .pcm ∨ answer.kind = .pcmFinal
  · rw [if_pos late]
    exact ⟨rfl, ledger, .nil, follows.clearPending none undrained⟩
  rw [if_neg late]
  by_cases done : answer.samples = 0 ∧ (answer.kind = .providerCanceled ∨
      answer.kind = .sourceDone ∨ answer.kind = .providerFailed)
  · rw [if_pos done, follows.account (congrArg stageOf canceling)]
    by_cases failed : output.failPending = true ∨ answer.kind = .providerFailed
    · rw [if_pos failed]
      exact ⟨rfl, _, .single (.stopped Phase.noConfusion),
        follows_silent follows.budget follows.total rfl rfl ⟨rfl, rfl⟩⟩
    · rw [if_neg failed]
      exact ⟨rfl, _, .single (.stopped Phase.noConfusion),
        follows_silent follows.budget follows.total rfl rfl ⟨rfl, rfl⟩⟩
  · rw [if_neg done]
    exact follows.cancelFailed (.inr canceling) _

theorem Follows.takeSamples (follows : Follows budget output ledger)
    (none : output.pendingSamples = 0) (synthesizing : output.phase = .synthesizing)
    {answer : Output.Answer} (fits : answer.samples.toNat ≤ samplesPerFrame)
    (carries : answer.kind = .pcm ∨ answer.kind = .pcmFinal) :
    Moves budget ledger output (output.takeSamples answer) := by
  unfold Output.takeSamples
  by_cases malformed : (answer.kind = .pcm ∧ answer.samples.toNat ≠ samplesPerFrame) ∨
      (answer.kind = .pcmFinal ∧ answer.samples = 0)
  · rw [if_pos malformed]
    exact follows.cancelFailed (.inl synthesizing) _
  rw [if_neg malformed]
  by_cases exceeded : output.maxPcmSamples - output.totalPcmSamples < answer.samples
  · rw [if_pos exceeded]
    exact follows.cancelFailed (.inl synthesizing) _
  rw [if_neg exceeded]
  have some : 0 < answer.samples.toNat := by
    apply Nat.pos_of_ne_zero
    intro zero
    rw [not_or] at malformed
    rcases carries with pcm | final
    · exact malformed.1 ⟨pcm, by rw [zero]; decide⟩
    · exact malformed.2 ⟨final, UInt64.toNat_inj.mp zero⟩
  have playing : output.playing = true := by simp [Output.playing, synthesizing]
  obtain ⟨waiting, total⟩ := follows.waiting playing
  rw [staged_cleared (follows.cleared none), List.append_nil] at waiting
  have account := follows.account (congrArg stageOf synthesizing)
  rw [waiting] at account total
  have room : output.totalPcmSamples.toNat + answer.samples.toNat ≤
      output.maxPcmSamples.toNat := by
    have bound := UInt64.le_iff_toNat_le.mp (UInt64.not_lt.mp exceeded)
    have below := UInt64.le_iff_toNat_le.mp follows.total
    rw [toNat_sub follows.total] at bound
    omega
  have length : (output.frame.toList.take answer.samples.toNat).length =
      answer.samples.toNat := by
    rw [List.length_take, Vector.length_toList]
    exact Nat.min_eq_left fits
  rw [account]
  refine ⟨rfl, _, .single (.delivered ?_ ?_), ?_⟩
  · exact List.ne_nil_of_length_pos (length.symm ▸ some)
  · rw [length, ← total, ← follows.budget]
    exact room
  refine ⟨?_, follows.budget, ?_, .inr ⟨?_, fits, ?_⟩, ?_, ?_⟩
  · dsimp only
    split_ifs
    · rfl
    · rw [synthesizing]
      rfl
  · rw [UInt64.le_iff_toNat_le, toNat_add room]
    exact room
  · exact UInt64.lt_iff_toNat_lt.mpr some
  · dsimp only [Output.playing]
    split_ifs
    · rfl
    · rw [synthesizing]
      rfl
  · intro _
    refine ⟨?_, ?_⟩
    · dsimp only [Output.staged]
      rw [UInt64.sub_zero]
      rfl
    · dsimp only
      rw [toNat_add room, List.length_append, length, total]
  · intro _
    exact fun zero => some.ne' (congrArg UInt64.toNat zero)

theorem Follows.endSource (follows : Follows budget output ledger)
    (none : output.pendingSamples = 0) (synthesizing : output.phase = .synthesizing)
    (answer : Output.Answer) : Moves budget ledger output (output.endSource answer) := by
  have playing : output.playing = true := by simp [Output.playing, synthesizing]
  obtain ⟨waiting, total⟩ := follows.waiting playing
  rw [staged_cleared (follows.cleared none), List.append_nil] at waiting
  have account := follows.account (congrArg stageOf synthesizing)
  rw [waiting] at account total
  have fails : Moves budget ledger output
      (output.finishGeneration .failed, .eprovider, [.faulted, .finished .failed]) := by
    rw [account]
    exact ⟨rfl, _, .cons .failed (.single (.stopped Phase.noConfusion)),
      follows_silent follows.budget follows.total rfl rfl ⟨rfl, rfl⟩⟩
  unfold Output.endSource
  by_cases carried : answer.samples ≠ 0
  · rw [if_pos carried]
    exact follows.cancelFailed (.inl synthesizing) _
  rw [if_neg carried]
  by_cases done : answer.kind = .sourceDone
  · rw [if_pos done]
    by_cases empty : output.totalPcmSamples = 0
    · rw [if_pos empty]
      exact fails
    · rw [if_neg empty, account]
      have some : ledger.consumed ≠ [] := by
        intro nothing
        rw [nothing] at total
        exact empty (UInt64.toNat_inj.mp total)
      exact ⟨rfl, _, .single (.settled some),
        follows_silent follows.budget follows.total rfl rfl ⟨rfl, rfl⟩⟩
  rw [if_neg done]
  by_cases failed : answer.kind = .providerFailed ∨ answer.kind = .providerCanceled
  · rw [if_pos failed]
    exact fails
  · rw [if_neg failed]
    exact follows.cancelFailed (.inl synthesizing) _

theorem Follows.pump (follows : Follows budget output ledger) (generationId : Nat)
    (answer : Output.Answer) : Moves budget ledger output (output.pump generationId answer) := by
  unfold Output.pump
  by_cases other : output.checkGeneration generationId ≠ .ok
  · rw [if_pos other]
    exact follows.stay _
  rw [if_neg other]
  by_cases idle : output.phase ≠ .synthesizing ∧ output.phase ≠ .cancelPending
  · rw [if_pos idle]
    exact follows.stay _
  rw [if_neg idle]
  by_cases none : output.pendingSamples = 0
  swap
  · rw [if_pos none]
    exact follows.stay _
  rw [if_neg (not_not.mpr none)]
  have polled := follows.withFrame none answer.frame
  have pumped : output.phase = .synthesizing ∨ output.phase = .cancelPending := by
    rwa [not_and_or, not_not, not_not] at idle
  have undrained : output.phase ≠ .stagingDraining := by
    rcases pumped with synthesizing | canceling
    · rw [synthesizing]
      exact Phase.noConfusion
    · rw [canceling]
      exact Phase.noConfusion
  dsimp only
  by_cases refused : (!answer.accepted) = true
  · rw [if_pos refused]
    exact polled.cancelFailed pumped _
  rw [if_neg refused]
  by_cases large : samplesPerFrame < answer.samples.toNat
  · rw [if_pos large]
    exact polled.cancelFailed pumped _
  rw [if_neg large]
  by_cases blocked : answer.kind = .wouldBlock ∧ answer.samples = 0
  · rw [if_pos blocked]
    exact ⟨rfl, ledger, .nil, polled.clearPending none undrained⟩
  rw [if_neg blocked]
  by_cases canceling : output.phase = .cancelPending
  · rw [if_pos canceling]
    exact polled.settleCancel none canceling answer
  rw [if_neg canceling]
  have synthesizing := pumped.resolve_right canceling
  by_cases carries : answer.kind = .pcm ∨ answer.kind = .pcmFinal
  · rw [if_pos carries]
    exact polled.takeSamples none synthesizing (Nat.not_lt.mp large) carries
  · rw [if_neg carries]
    exact polled.endSource none synthesizing answer

theorem Follows.peekPcm (follows : Follows budget output ledger) (generationId : Nat) :
    Moves budget ledger output (output.peekPcm generationId) := by
  unfold Output.peekPcm
  by_cases other : output.checkGeneration generationId ≠ .ok
  · rw [if_pos other]
    exact follows.stay _
  rw [if_neg other]
  by_cases playing : output.playing = true
  swap
  · rw [if_pos (by simpa using playing)]
    exact follows.stay _
  rw [if_neg (by simp [playing])]
  by_cases none : output.pendingSamples = 0
  · rw [if_pos none]
    exact follows.stay _
  rw [if_neg none]
  have account := follows.account (stageOf_playing playing)
  rw [(follows.waiting playing).1] at account
  refine ⟨rfl, ledger, ?_, follows⟩
  rw [account]
  exact .single .exposed

theorem staged_length (offset : output.pendingOffset ≤ output.pendingSamples)
    (fits : output.pendingSamples.toNat ≤ samplesPerFrame) :
    output.staged.length = output.pendingSamples.toNat - output.pendingOffset.toNat := by
  rw [Output.staged, List.length_take, List.length_drop, Vector.length_toList, toNat_sub offset]
  omega

theorem staged_split (offset : output.pendingOffset ≤ output.pendingSamples)
    {accepted : UInt64} (within : accepted ≤ output.pendingSamples - output.pendingOffset) :
    output.staged = output.staged.take accepted.toNat ++
      { output with pendingOffset := output.pendingOffset + accepted : Output }.staged := by
  have bound := UInt64.le_iff_toNat_le.mp within
  have below := UInt64.le_iff_toNat_le.mp offset
  rw [toNat_sub offset] at bound
  have fits : output.pendingOffset.toNat + accepted.toNat ≤ output.pendingSamples.toNat := by
    omega
  have moved : output.pendingOffset + accepted ≤ output.pendingSamples := by
    rw [UInt64.le_iff_toNat_le, toNat_add fits]
    exact fits
  have rest : { output with pendingOffset := output.pendingOffset + accepted : Output }.staged =
      output.staged.drop accepted.toNat := by
    rw [Output.staged, Output.staged, toNat_sub offset, toNat_sub moved, toNat_add fits,
      List.drop_take, List.drop_drop]
    congr 1
    omega
  rw [rest, List.take_append_drop]

theorem Follows.consumePcm (follows : Follows budget output ledger) (generationId : Nat)
    (acceptedSamples : UInt64) :
    Moves budget ledger output (output.consumePcm generationId acceptedSamples) := by
  unfold Output.consumePcm
  by_cases other : output.checkGeneration generationId ≠ .ok
  · rw [if_pos other]
    exact follows.stay _
  rw [if_neg other]
  by_cases playing : output.playing = true
  swap
  · rw [if_pos (by simpa using playing)]
    exact follows.stay _
  rw [if_neg (by simp [playing])]
  by_cases none : output.pendingSamples = 0
  · rw [if_pos none]
    exact follows.stay _
  rw [if_neg none]
  by_cases refused : acceptedSamples = 0 ∨
      output.pendingSamples - output.pendingOffset < acceptedSamples
  · rw [if_pos refused]
    exact follows.stay _
  rw [if_neg refused]
  rw [not_or, UInt64.not_lt] at refused
  obtain ⟨waiting, total⟩ := follows.waiting playing
  have account := follows.account (stageOf_playing playing)
  have split := staged_split follows.offset_le refused.2
  rw [waiting, split] at account
  have bounds := follows.pending.resolve_left fun cleared => none cleared.1
  have room : output.pendingOffset.toNat + acceptedSamples.toNat ≤
      output.pendingSamples.toNat := by
    have bound := UInt64.le_iff_toNat_le.mp refused.2
    have below := UInt64.le_iff_toNat_le.mp follows.offset_le
    rw [toNat_sub follows.offset_le] at bound
    omega
  have some : output.staged.take acceptedSamples.toNat ≠ [] := by
    have positive : 0 < acceptedSamples.toNat :=
      Nat.pos_of_ne_zero fun zero => refused.1 (UInt64.toNat_inj.mp zero)
    apply List.ne_nil_of_length_pos
    rw [List.length_take, staged_length follows.offset_le bounds.2.1]
    omega
  dsimp only
  by_cases taken : output.pendingOffset + acceptedSamples = output.pendingSamples
  · have rest : { output with
        pendingOffset := output.pendingOffset + acceptedSamples : Output }.staged = [] := by
      dsimp only [Output.staged]
      rw [taken, UInt64.sub_self]
      exact List.take_zero
    rw [rest, List.append_nil] at account split
    have step := @Ledger.Step.consumed budget (output.staged.take acceptedSamples.toNat)
      ledger.consumed []
    rw [List.append_nil] at step
    rw [if_pos taken]
    by_cases draining : output.phase = .stagingDraining
    · rw [if_pos draining, account]
      exact ⟨rfl, _, .cons step (.single (.settled (List.append_ne_nil_of_right_ne_nil _ some))),
        follows_silent follows.budget follows.total rfl rfl ⟨rfl, rfl⟩⟩
    · rw [if_neg draining, account]
      refine ⟨rfl, _, .single step, ⟨?_, follows.budget, follows.total, .inl ⟨rfl, rfl⟩, ?_,
        fun drained => absurd drained draining⟩⟩
      · exact (stageOf_playing playing).symm
      · intro _
        have clear := staged_cleared (@clearPending_cleared
          { output with pendingOffset := output.pendingOffset + acceptedSamples })
        rw [clear, List.append_nil]
        refine ⟨rfl, ?_⟩
        rw [waiting, split] at total
        exact total
  · rw [if_neg taken, account]
    refine ⟨rfl, _, .single .consumed, ⟨?_, follows.budget, follows.total,
      .inr ⟨?_, bounds.2.1, playing⟩, ?_, follows.draining⟩⟩
    · exact (stageOf_playing playing).symm
    · refine UInt64.lt_iff_toNat_lt.mpr (Nat.lt_of_le_of_ne ?_ ?_)
      · rw [toNat_add room]
        exact room
      · exact fun same => taken (UInt64.toNat_inj.mp same)
    · intro _
      refine ⟨(List.append_assoc _ _ _).symm, ?_⟩
      rw [waiting, split] at total
      exact total

theorem Follows.cancel (follows : Follows budget output ledger) (generationId : Nat) :
    Moves budget ledger output (output.cancel generationId) := by
  unfold Output.cancel
  by_cases other : output.checkGeneration generationId ≠ .ok
  · rw [if_pos other]
    exact follows.stay _
  rw [if_neg other]
  by_cases asked : output.phase = .cancelPending ∨ output.phase = .canceled
  · rw [if_pos asked]
    refine ⟨rfl, ledger, ?_, follows⟩
    rcases asked with pending | canceled
    · rw [follows.account (congrArg stageOf pending)]
      exact .single (.canceled (.inl rfl))
    · rw [follows.account (congrArg stageOf canceled)]
      exact .single (.canceled (.inr rfl))
  rw [if_neg asked]
  by_cases playing : output.playing = true
  swap
  · rw [if_pos (by simpa using playing)]
    exact follows.stay _
  rw [if_neg (by simp [playing]), follows.account (stageOf_playing playing)]
  exact ⟨rfl, _, .cons .cancelSent (.single (.canceled (.inl rfl))),
    follows_silent follows.budget follows.total rfl rfl ⟨rfl, rfl⟩⟩

/-- `turbo_agent_speech_output_begin` opens a new generation. -/
def Opens (budget : Nat) (output : Output) (reply : Reply) : Prop :=
  output.generationId < reply.1.generationId ∧
    ∃ text voice language later next, reply.2.2 = .begun text voice language :: later ∧
      (∀ note ∈ later, note = .faulted ∨ note = .finished .failed) ∧
      Ledger.fresh.Accepts budget reply.2.2 next ∧ Follows budget reply.1 next

theorem Follows.begin (follows : Follows budget output ledger) (generationId : Nat)
    (text voice language : Option (List UInt8)) (accepted : Bool) :
    Moves budget ledger output (output.begin generationId text voice language accepted) ∨
      Opens budget output (output.begin generationId text voice language accepted) := by
  cases text with
  | none => exact .inl (follows.stay _)
  | some text =>
  cases voice with
  | none => exact .inl (follows.stay _)
  | some voice =>
  cases language with
  | none => exact .inl (follows.stay _)
  | some language =>
      unfold Output.begin
      dsimp only
      by_cases invalid : generationId = 0 ∨ (!validVoice voice) = true ∨
          (!validLanguage language) = true
      · rw [if_pos invalid]
        exact .inl (follows.stay _)
      rw [if_neg invalid]
      by_cases busy : output.busy = true
      · rw [if_pos busy]
        exact .inl (follows.stay _)
      rw [if_neg busy]
      by_cases stale : generationId ≤ output.generationId
      · rw [if_pos stale]
        exact .inl (follows.stay _)
      rw [if_neg stale]
      by_cases large : text.length = 0 ∨ output.config.maxTextBytes < text.length
      · rw [if_pos large]
        exact .inl (follows.stay _)
      rw [if_neg large]
      by_cases refused : (!validPlainUtf8 text) = true
      · rw [if_pos refused]
        exact .inl (follows.stay _)
      rw [if_neg refused]
      refine .inr ?_
      cases accepted with
      | false =>
          refine ⟨Nat.not_le.mp stale, text, voice, language, [.faulted, .finished .failed], _,
            rfl, ?_, .cons .begun (.cons .failed (.single (.stopped Phase.noConfusion))),
            follows_silent follows.budget UInt64.zero_le rfl rfl ⟨rfl, rfl⟩⟩
          simp
      | true =>
          refine ⟨Nat.not_le.mp stale, text, voice, language, [], _, rfl, List.forall_mem_nil _,
            .single .begun, ⟨rfl, follows.budget, UInt64.zero_le, .inl ⟨rfl, rfl⟩, ?_,
            Phase.noConfusion⟩⟩
          intro _
          exact ⟨(staged_cleared ⟨rfl, rfl⟩).symm, rfl⟩

theorem Follows.call (follows : Follows budget output ledger) (call : Call) :
    Moves budget ledger output (output.call call) ∨ Opens budget output (output.call call) := by
  cases call with
  | begin generationId text voice language accepted =>
      exact follows.begin generationId text voice language accepted
  | pump generationId answer => exact .inl (follows.pump generationId answer)
  | peekPcm generationId => exact .inl (follows.peekPcm generationId)
  | consumePcm generationId acceptedSamples =>
      exact .inl (follows.consumePcm generationId acceptedSamples)
  | cancel generationId => exact .inl (follows.cancel generationId)

/-! ## Sequences of calls -/

def notesOf (generation : Nat) (log : Log) : List Note :=
  log.filterMap fun entry => if entry.1 = generation then some entry.2 else none

theorem notesOf_append (generation : Nat) (left right : Log) :
    notesOf generation (left ++ right) = notesOf generation left ++ notesOf generation right :=
  List.filterMap_append

theorem notesOf_same (generation : Nat) (notes : List Note) :
    notesOf generation (notes.map fun note => (generation, note)) = notes := by
  rw [notesOf, List.filterMap_map]
  simp

theorem notesOf_other {generation other : Nat} (apart : other ≠ generation) (notes : List Note) :
    notesOf generation (notes.map fun note => (other, note)) = [] := by
  rw [notesOf, List.filterMap_map]
  simp [apart]

theorem notesOf_new {generation current : Nat} {log : Log}
    (known : ∀ entry ∈ log, entry.1 ≤ current) (new : current < generation) :
    notesOf generation log = [] := by
  rw [notesOf, List.filterMap_eq_nil_iff]
  intro entry member
  exact if_neg (Nat.ne_of_lt (Nat.lt_of_le_of_lt (known entry member) new))

/-- Every generation has an account, and the output follows the current one. -/
structure Kept (budget : Nat) (session : Session) : Prop where
  known : ∀ entry ∈ session.log, entry.1 ≤ session.output.generationId
  accounts : ∀ generation, ∃ last,
    Ledger.fresh.Accepts budget (notesOf generation session.log) last
  current : ∃ ledger, Ledger.fresh.Accepts budget
    (notesOf session.output.generationId session.log) ledger ∧
    Follows budget session.output ledger

variable {session : Session}

theorem Kept.moved (kept : Kept budget session) {reply : Reply} {current : Ledger}
    (later : session.output.generationId ≤ reply.1.generationId)
    (accepts : Ledger.fresh.Accepts budget
      (notesOf reply.1.generationId session.log ++ reply.2.2) current)
    (follows : Follows budget reply.1 current) :
    Kept budget ⟨reply.1, session.log ++
      reply.2.2.map fun note => (reply.1.generationId, note)⟩ := by
  have currentNotes : notesOf reply.1.generationId (session.log ++
      reply.2.2.map fun note => (reply.1.generationId, note)) =
      notesOf reply.1.generationId session.log ++ reply.2.2 := by
    rw [notesOf_append, notesOf_same]
  refine ⟨?_, ?_, current, ?_, follows⟩
  · intro entry member
    rcases List.mem_append.mp member with old | new
    · exact Nat.le_trans (kept.known entry old) later
    · obtain ⟨note, -, rfl⟩ := List.mem_map.mp new
      exact Nat.le_refl _
  · intro generation
    by_cases same : reply.1.generationId = generation
    · subst same
      rw [currentNotes]
      exact ⟨current, accepts⟩
    · rw [notesOf_append, notesOf_other same, List.append_nil]
      exact kept.accounts generation
  · rw [currentNotes]
    exact accepts

theorem Kept.call (kept : Kept budget session) (call : Call) :
    Kept budget (session.call call) := by
  obtain ⟨ledger, accepted, follows⟩ := kept.current
  rcases follows.call call with ⟨same, next, accepts, follows⟩ |
    ⟨later, _, _, _, _, next, _, _, accepts, follows⟩
  · exact kept.moved (Nat.le_of_eq same.symm) (same ▸ accepted.append accepts) follows
  · refine kept.moved (Nat.le_of_lt later) ?_ follows
    rw [notesOf_new kept.known later]
    exact accepts

theorem Kept.run (kept : Kept budget session) (calls : List Call) :
    Kept budget (session.run calls) := by
  induction calls generalizing session with
  | nil => exact kept
  | cons call calls ih => exact ih (kept.call call)

theorem create_eq_ok {config : Config} {provider : Provider} {memory : Bool}
    (created : create config provider memory = .ok output) :
    output.maxPcmSamples.toNat = config.maxAudioMs * 24000 / 1000 ∧
      output.totalPcmSamples = 0 ∧ output.Cleared ∧ output.phase = .idle := by
  unfold create at created
  split_ifs at created with invalid unsupported incomplete exhausted
  rw [Except.ok.injEq] at created
  subst created
  have bound : config.maxAudioMs * 24000 / 1000 < UInt64.size := by
    have short : config.maxAudioMs ≤ 30000 := by
      by_contra long
      exact invalid (by omega)
    refine Nat.lt_of_le_of_lt (Nat.div_le_div_right (Nat.mul_le_mul_right _ short)) ?_
    decide
  exact ⟨UInt64.toNat_ofNat_of_lt' bound, rfl, ⟨rfl, rfl⟩, rfl⟩

theorem create_kept {config : Config} {provider : Provider} {memory : Bool}
    (created : create config provider memory = .ok output) :
    Kept (config.maxAudioMs * 24000 / 1000) ⟨output, []⟩ := by
  obtain ⟨budget, total, cleared, idle⟩ := create_eq_ok created
  refine ⟨List.forall_mem_nil _, fun _ => ⟨_, .nil⟩, Ledger.fresh, .nil, ?_⟩
  refine follows_silent budget ?_ (congrArg stageOf idle).symm ?_ cleared
  · rw [total]
    exact UInt64.zero_le
  · rw [Output.playing, idle]
    rfl

/-- What holds of a generation whose notes are these. -/
structure Exact (budget : Nat) (notes : List Note) : Prop where
  taken : consumedBy notes <+: deliveredBy notes
  within : (deliveredBy notes).length ≤ budget
  settled : ∀ before after, notes = before ++ .finished .settled :: after →
    consumedBy before = deliveredBy before ∧ deliveredBy before ≠ [] ∧ deliveredBy after = []
  stopped : ∀ before mark after, notes = before ++ mark :: after →
    mark = .canceled ∨ mark = .faulted → ∀ note ∈ after, note.plays = false
  once : notes.count .cancelSent ≤ 1
  fresh : notes.countP Note.begins ≤ 1

/-- In any sequence of calls every generation is exact, the sizes do not wrap, and the output
says that a generation is settled only when it is. -/
theorem delivery_exact {config : Config} {provider : Provider} {memory : Bool}
    (created : create config provider memory = .ok output) (calls : List Call) :
    (∀ generation, Exact (config.maxAudioMs * 24000 / 1000)
      (notesOf generation (Session.run ⟨output, []⟩ calls).log)) ∧
    (Session.run ⟨output, []⟩ calls).output.totalPcmSamples ≤
      (Session.run ⟨output, []⟩ calls).output.maxPcmSamples ∧
    (Session.run ⟨output, []⟩ calls).output.pendingOffset ≤
      (Session.run ⟨output, []⟩ calls).output.pendingSamples ∧
    ((Session.run ⟨output, []⟩ calls).output.phase = .settled →
      .finished .settled ∈ notesOf (Session.run ⟨output, []⟩ calls).output.generationId
        (Session.run ⟨output, []⟩ calls).log) := by
  have kept := (create_kept created).run calls
  obtain ⟨ledger, accepted, follows⟩ := kept.current
  refine ⟨fun generation => ?_, follows.total, follows.offset_le, fun settled => ?_⟩
  · obtain ⟨last, accepts⟩ := kept.accounts generation
    refine ⟨accepts.taken.1, accepts.taken.2, ?_, ?_, accepts.once, accepts.begins⟩
    · intro before after split
      rw [split] at accepts
      exact accepts.settled
    · intro before mark after split stops
      rw [split] at accepts
      exact accepts.stopped stops
  · refine accepted.settles Stage.noConfusion ?_
    rw [follows.stage, settled, stageOf]

def wholeProvider : Provider := ⟨providerSize, 1, true, true, true⟩

def defaultOutput : Output where
  config := configInit
  phase := .idle
  generationId := 0
  totalPcmSamples := 0
  maxPcmSamples := 720000
  pendingSamples := 0
  pendingOffset := 0
  failPending := false
  frame := Vector.replicate samplesPerFrame 0

theorem delivery_exact_sample : create configInit wholeProvider true = .ok defaultOutput ∧
    ∀ generation, Exact 720000 (notesOf generation (Session.run ⟨defaultOutput, []⟩ [
      .begin 1 (some [104, 105]) (some [97]) (some [101, 110]) true,
      .pump 1 ⟨true, Vector.replicate samplesPerFrame 7, 480, .pcm⟩, .consumePcm 1 200,
      .cancel 1, .peekPcm 1]).log) := by
  have created : create configInit wholeProvider true = .ok defaultOutput := rfl
  exact ⟨created, (delivery_exact created _).1⟩

end TurboAgent.SpeechOutput
