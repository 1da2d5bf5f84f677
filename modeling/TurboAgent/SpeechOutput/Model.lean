import TurboAgent.Speech.Model

/-!
# Speech output

A host gives one approved text after another to a speech provider, pumps the provider for
frames of samples and passes the samples on as its player accepts them.  Each text is a
generation with an id of its own.

A call is a function of the output, its arguments and the provider's answer.  It gives the
changed output, the status and a list of notes: what was asked of the provider, what samples
the host was shown and took, and how the generation ended.
-/

namespace TurboAgent.SpeechOutput

/-- `turbo_agent_tts_result_t`. -/
inductive Status where
  | ok
  | einval
  | enomem
  | ebusy
  | ecapacity
  | estate
  | eprovider
  | etext
  | estale
  | ebuffer
  | eagain
  | eunsupported
  deriving DecidableEq

/-- `turbo_agent_tts_state_t`. -/
inductive Phase where
  | idle
  | synthesizing
  | stagingDraining
  | cancelPending
  | settled
  | canceled
  | failed
  deriving DecidableEq

/-- `turbo_agent_tts_poll_kind_t`; a provider may also report another number. -/
inductive PollKind where
  | wouldBlock
  | pcm
  | pcmFinal
  | sourceDone
  | providerCanceled
  | providerFailed
  | other
  deriving DecidableEq

/-- `TURBO_AGENT_TTS_SAMPLES_PER_FRAME`. -/
def samplesPerFrame : Nat := 480

/-- `TURBO_AGENT_TTS_MAX_TEXT_BYTES`. -/
def maxTextBytes : Nat := 4096

/-- `TURBO_AGENT_TTS_MAX_VOICE_BYTES`. -/
def maxVoiceBytes : Nat := 63

/-! ## Text -/

/-- `valid_language`. -/
def validLanguage (language : List UInt8) : Bool :=
  language == [101, 110] || language == [106, 97] || language == [122, 104]

/-- A byte of a voice: a letter, a digit, `_`, `-` or `.`. -/
def voiceByte (byte : UInt8) : Bool :=
  (97 ≤ byte && byte ≤ 122) || (65 ≤ byte && byte ≤ 90) || (48 ≤ byte && byte ≤ 57) ||
    byte == 95 || byte == 45 || byte == 46

/-- `valid_voice`, of the bytes before the NUL. -/
def validVoice (voice : List UInt8) : Bool :=
  voice ≠ [] && voice.length ≤ maxVoiceBytes && voice.all voiceByte

/-- Lead byte of a sequence: its continuation bytes and the bits of its code point. -/
def leadByte (byte : Nat) : Option (Nat × Nat) :=
  if byte < 0xc2 ∨ 0xf4 < byte then none
  else if byte ≤ 0xdf then some (1, byte % 32)
  else if byte ≤ 0xef then some (2, byte % 16)
  else some (3, byte % 8)

/-- A code point is the shortest form of its length, no surrogate and no unsafe control. -/
def plainScalar (extra point : Nat) : Bool :=
  !((extra == 1 && point < 0x80) || (extra == 2 && point < 0x800) ||
    (extra == 3 && point < 0x10000) || 0x10ffff < point ||
    (0xd800 ≤ point && point ≤ 0xdfff) || point == 0x7f ||
    (0x80 ≤ point && point ≤ 0x9f) || point == 0x061c || point == 0xfeff ||
    (0x200e ≤ point && point ≤ 0x200f) || (0x2028 ≤ point && point ≤ 0x202e) ||
    (0x2066 ≤ point && point ≤ 0x2069))

/-- The loop of `valid_plain_utf8`.  Every round takes a byte, so the length is enough
rounds. -/
def plainBytes : (rounds : Nat) → List UInt8 → Bool
  | _, [] => true
  | 0, _ :: _ => false
  | rounds + 1, byte :: bytes =>
      if 0x20 ≤ byte.toNat ∧ byte.toNat < 0x7f then
        if byte = 60 ∨ byte = 62 then false else plainBytes rounds bytes
      else
        match leadByte byte.toNat with
        | none => false
        | some (extra, point) =>
            match Speech.continuation extra point bytes with
            | none => false
            | some (point, rest) => plainScalar extra point && plainBytes rounds rest

/-- `valid_plain_utf8`. -/
def validPlainUtf8 (input : List UInt8) : Bool :=
  if input = [] ∨ maxTextBytes < input.length then false else plainBytes input.length input

/-! ## Configuration -/

/-- `turbo_agent_tts_format_t`. -/
structure Format where
  (sampleRateHz channels bitsPerSample frameMs : Nat)
  deriving DecidableEq

/-- `turbo_agent_tts_config_t`. -/
structure Config where
  (structSize abiVersion : Nat)
  output : Format
  (maxTextBytes maxAudioMs : Nat)
  deriving DecidableEq

/-- `turbo_agent_tts_provider_v1_t`: which callbacks are there. -/
structure Provider where
  (structSize abiVersion : Nat)
  (begin pollPcm requestCancel : Bool)
  deriving DecidableEq

/-- `sizeof(turbo_agent_tts_config_t)`. -/
def configSize : Nat := 40

/-- `sizeof(turbo_agent_tts_provider_v1_t)`. -/
def providerSize : Nat := 48

def theFormat : Format := ⟨24000, 1, 16, 20⟩

/-- `turbo_agent_tts_config_init`. -/
def configInit : Config := ⟨configSize, 1, theFormat, 4096, 30000⟩

/-! ## State -/

abbrev Frame := Vector Int16 samplesPerFrame

/-- `turbo_agent_speech_output_t`; sizes are 64-bit.  The copies of the text, the voice and the
language are only passed to the provider. -/
structure Output where
  config : Config
  phase : Phase
  generationId : Nat
  (totalPcmSamples maxPcmSamples pendingSamples pendingOffset : UInt64)
  failPending : Bool
  frame : Frame
  deriving DecidableEq

inductive Note where
  /-- `provider.begin` is called. -/
  | begun (text voice language : List UInt8)
  /-- `provider.request_cancel` is called. -/
  | cancelSent
  /-- A poll is accepted with these samples. -/
  | delivered (samples : List Int16)
  /-- The host is shown these samples. -/
  | exposed (samples : List Int16)
  /-- The host takes these samples. -/
  | consumed (samples : List Int16)
  /-- The host cancels. -/
  | canceled
  /-- The provider fails or breaks its contract. -/
  | faulted
  /-- The generation is over. -/
  | finished (phase : Phase)
  deriving DecidableEq

abbrev Reply := Output × Status × List Note

/-- `turbo_agent_speech_output_create`; `memory` tells whether the allocation succeeds. -/
def create (config : Config) (provider : Provider) (memory : Bool) : Except Status Output :=
  if config.structSize ≠ configSize ∨ config.abiVersion ≠ 1 ∨ config.maxTextBytes < 1 ∨
      maxTextBytes < config.maxTextBytes ∨ config.maxAudioMs < 20 ∨
      30000 < config.maxAudioMs ∨ config.maxAudioMs % 20 ≠ 0 then .error .einval
  else if config.output ≠ theFormat then .error .eunsupported
  else if provider.structSize ≠ providerSize ∨ provider.abiVersion ≠ 1 ∨ !provider.begin ∨
      !provider.pollPcm ∨ !provider.requestCancel then .error .einval
  else if !memory then .error .enomem
  else .ok {
    config
    phase := .idle
    generationId := 0
    totalPcmSamples := 0
    maxPcmSamples := UInt64.ofNat (config.maxAudioMs * 24000 / 1000)
    pendingSamples := 0
    pendingOffset := 0
    failPending := false
    frame := Vector.replicate samplesPerFrame 0 }

namespace Output

def busy (output : Output) : Bool :=
  output.phase == .synthesizing || output.phase == .stagingDraining ||
    output.phase == .cancelPending

def playing (output : Output) : Bool :=
  output.phase == .synthesizing || output.phase == .stagingDraining

/-- `clear_pending`. -/
def clearPending (output : Output) : Output :=
  { output with
    frame := Vector.replicate samplesPerFrame 0, pendingSamples := 0, pendingOffset := 0 }

/-- `finish_generation`. -/
def finishGeneration (output : Output) (next : Phase) : Output :=
  { output.clearPending with failPending := false, phase := next }

/-- `check_generation`. -/
def checkGeneration (output : Output) (generationId : Nat) : Status :=
  if generationId = 0 then .einval
  else if generationId = output.generationId then .ok else .estale

/-- The samples that are staged and not yet taken: `pending_samples - pending_offset` of them,
from `pending_offset` on. -/
def staged (output : Output) : List Int16 :=
  (output.frame.toList.drop output.pendingOffset.toNat).take
    (output.pendingSamples - output.pendingOffset).toNat

/-! ## Calls -/

/-- `turbo_agent_speech_output_begin`; `accepted` tells whether `provider.begin` gives zero. -/
def begin (output : Output) (generationId : Nat) (text voice language : Option (List UInt8))
    (accepted : Bool) : Reply :=
  match text, voice, language with
  | some text, some voice, some language =>
      if generationId = 0 ∨ !validVoice voice ∨ !validLanguage language then
        (output, .einval, [])
      else if output.busy then (output, .ebusy, [])
      else if generationId ≤ output.generationId then (output, .estale, [])
      else if text.length = 0 ∨ output.config.maxTextBytes < text.length then
        (output, .ecapacity, [])
      else if !validPlainUtf8 text then (output, .etext, [])
      else
        let output := { output.clearPending with
          generationId, totalPcmSamples := 0, failPending := false }
        if accepted then
          ({ output with phase := .synthesizing }, .ok, [.begun text voice language])
        else
          (output.finishGeneration .failed, .eprovider,
            [.begun text voice language, .faulted, .finished .failed])
  | _, _, _ => (output, .einval, [])

/-- `cancel_failed`. -/
def cancelFailed (output : Output) (status : Status) : Reply :=
  let output := output.clearPending
  if output.phase ≠ .cancelPending then
    ({ output with phase := .cancelPending, failPending := true }, status,
      [.cancelSent, .faulted])
  else ({ output with failPending := true }, status, [.faulted])

/-- An answer of `provider.poll_pcm`: whether it is zero, the frame as the provider leaves it,
the number of samples and the kind. -/
structure Answer where
  accepted : Bool
  frame : Frame
  samples : UInt64
  kind : PollKind
  deriving DecidableEq

/-- The part of `turbo_agent_speech_output_pump` after the poll, while a cancellation is
pending. -/
def settleCancel (output : Output) (answer : Answer) : Reply :=
  if answer.kind = .pcm ∨ answer.kind = .pcmFinal then (output.clearPending, .eagain, [])
  else if answer.samples = 0 ∧ (answer.kind = .providerCanceled ∨ answer.kind = .sourceDone ∨
      answer.kind = .providerFailed) then
    let next := if output.failPending ∨ answer.kind = .providerFailed then Phase.failed
      else .canceled
    (output.finishGeneration next, .ok, [.finished next])
  else output.cancelFailed .eprovider

/-- The part of `turbo_agent_speech_output_pump` that takes samples. -/
def takeSamples (output : Output) (answer : Answer) : Reply :=
  if (answer.kind = .pcm ∧ answer.samples.toNat ≠ samplesPerFrame) ∨
      (answer.kind = .pcmFinal ∧ answer.samples = 0) then output.cancelFailed .eprovider
  else if output.maxPcmSamples - output.totalPcmSamples < answer.samples then
    output.cancelFailed .ecapacity
  else
    ({ output with
        totalPcmSamples := output.totalPcmSamples + answer.samples
        pendingSamples := answer.samples
        pendingOffset := 0
        phase := if answer.kind = .pcmFinal then .stagingDraining else output.phase }, .ok,
      [.delivered (output.frame.toList.take answer.samples.toNat)])

/-- The part of `turbo_agent_speech_output_pump` that ends the generation. -/
def endSource (output : Output) (answer : Answer) : Reply :=
  if answer.samples ≠ 0 then output.cancelFailed .eprovider
  else if answer.kind = .sourceDone then
    if output.totalPcmSamples = 0 then
      (output.finishGeneration .failed, .eprovider, [.faulted, .finished .failed])
    else (output.finishGeneration .settled, .ok, [.finished .settled])
  else if answer.kind = .providerFailed ∨ answer.kind = .providerCanceled then
    (output.finishGeneration .failed, .eprovider, [.faulted, .finished .failed])
  else output.cancelFailed .eprovider

/-- `turbo_agent_speech_output_pump`; the answer is that of the one poll. -/
def pump (output : Output) (generationId : Nat) (answer : Answer) : Reply :=
  if output.checkGeneration generationId ≠ .ok then
    (output, output.checkGeneration generationId, [])
  else if output.phase ≠ .synthesizing ∧ output.phase ≠ .cancelPending then
    (output, if output.phase = .stagingDraining then .ebusy else .estate, [])
  else if output.pendingSamples ≠ 0 then (output, .ebusy, [])
  else
    let output := { output with frame := answer.frame }
    if !answer.accepted then output.cancelFailed .eprovider
    else if samplesPerFrame < answer.samples.toNat then output.cancelFailed .eprovider
    else if answer.kind = .wouldBlock ∧ answer.samples = 0 then
      (output.clearPending, .eagain, [])
    else if output.phase = .cancelPending then output.settleCancel answer
    else if answer.kind = .pcm ∨ answer.kind = .pcmFinal then output.takeSamples answer
    else output.endSource answer

/-- `turbo_agent_speech_output_peek_pcm`. -/
def peekPcm (output : Output) (generationId : Nat) : Reply :=
  if output.checkGeneration generationId ≠ .ok then
    (output, output.checkGeneration generationId, [])
  else if !output.playing then (output, .estate, [])
  else if output.pendingSamples = 0 then (output, .eagain, [])
  else (output, .ok, [.exposed output.staged])

/-- `turbo_agent_speech_output_consume_pcm`. -/
def consumePcm (output : Output) (generationId : Nat) (acceptedSamples : UInt64) : Reply :=
  if output.checkGeneration generationId ≠ .ok then
    (output, output.checkGeneration generationId, [])
  else if !output.playing then (output, .estate, [])
  else if output.pendingSamples = 0 then (output, .eagain, [])
  else if acceptedSamples = 0 ∨ output.pendingSamples - output.pendingOffset < acceptedSamples then
    (output, .ebuffer, [])
  else
    let taken := Note.consumed (output.staged.take acceptedSamples.toNat)
    let moved := { output with pendingOffset := output.pendingOffset + acceptedSamples }
    if moved.pendingOffset = moved.pendingSamples then
      if output.phase = .stagingDraining then
        (moved.finishGeneration .settled, .ok, [taken, .finished .settled])
      else (moved.clearPending, .ok, [taken])
    else (moved, .ok, [taken])

/-- `turbo_agent_speech_output_cancel`. -/
def cancel (output : Output) (generationId : Nat) : Reply :=
  if output.checkGeneration generationId ≠ .ok then
    (output, output.checkGeneration generationId, [])
  else if output.phase = .cancelPending ∨ output.phase = .canceled then
    (output, .ok, [.canceled])
  else if !output.playing then (output, .estate, [])
  else ({ output.clearPending with phase := .cancelPending }, .ok, [.cancelSent, .canceled])

end Output

/-! ## Sequences of calls -/

/-- A call of the host, with the provider's answer. -/
inductive Call where
  | begin (generationId : Nat) (text voice language : Option (List UInt8)) (accepted : Bool)
  | pump (generationId : Nat) (answer : Output.Answer)
  | peekPcm (generationId : Nat)
  | consumePcm (generationId : Nat) (acceptedSamples : UInt64)
  | cancel (generationId : Nat)

def Output.call (output : Output) : Call → Reply
  | .begin generationId text voice language accepted =>
      output.begin generationId text voice language accepted
  | .pump generationId answer => output.pump generationId answer
  | .peekPcm generationId => output.peekPcm generationId
  | .consumePcm generationId acceptedSamples => output.consumePcm generationId acceptedSamples
  | .cancel generationId => output.cancel generationId

/-- The notes so far, each with its generation. -/
abbrev Log := List (Nat × Note)

structure Session where
  output : Output
  log : Log

/-- A call is made and its notes are kept, under the generation that it leaves current. -/
def Session.call (session : Session) (call : Call) : Session where
  output := (session.output.call call).1
  log := session.log ++ (session.output.call call).2.2.map fun note =>
    ((session.output.call call).1.generationId, note)

def Session.run (session : Session) (calls : List Call) : Session :=
  calls.foldl Session.call session

end TurboAgent.SpeechOutput
