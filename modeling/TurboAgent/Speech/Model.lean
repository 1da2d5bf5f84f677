import TurboAgent.Logic.Ring

/-!
# Speech input

A microphone callback offers frames of an utterance; a control thread begins, pumps,
finishes and cancels utterances and hands their frames to a speech provider.  One short lock
protects the queue and the state, and no provider code runs under it.

Every function below is one locked section or one stretch between two of them.  A control
call that is under way stands at a `Stage`; other calls may run before it goes on.
-/

namespace TurboAgent.Speech

/-- `turbo_agent_speech_status_t`. -/
inductive Status where
  | ok
  | einval
  | ebusy
  | ecapacity
  | estate
  | eprovider
  | etext
  | estale
  | ebuffer
  deriving DecidableEq

/-- `turbo_agent_speech_state_t`. -/
inductive Phase where
  | idle
  | active
  | draining
  | final
  | noSpeech
  | canceled
  | failed
  deriving DecidableEq

namespace Phase

def live (phase : Phase) : Bool :=
  phase == .active || phase == .draining

def terminal (phase : Phase) : Bool :=
  phase == .final || phase == .noSpeech

end Phase

/-- `turbo_agent_speech_transcript_kind_t`; a provider may also report another number. -/
inductive Kind where
  | none
  | interim
  | final
  | noSpeech
  | other
  deriving DecidableEq

/-- `turbo_agent_speech_transcript_t`. -/
structure Transcript where
  kind : Kind
  utf8 : Option (List UInt8)
  length : Nat
  deriving DecidableEq

/-- `TURBO_AGENT_SPEECH_SAMPLES_PER_FRAME`. -/
def samplesPerFrame : Nat := 320

/-! ## Text -/

/-- The continuation bytes of a sequence, and the code point that they make. -/
def continuation : (extra : Nat) → (point : Nat) → List UInt8 → Option (Nat × List UInt8)
  | 0, point, bytes => some (point, bytes)
  | _ + 1, _, [] => none
  | extra + 1, point, byte :: bytes =>
      if byte.toNat / 64 ≠ 2 then none
      else continuation extra (point * 64 + byte.toNat % 64) bytes

/-- Lead byte of a sequence: its continuation bytes and the bits of its code point. -/
def leadByte (byte : Nat) : Option (Nat × Nat) :=
  if 0xc2 ≤ byte ∧ byte ≤ 0xdf then some (1, byte % 32)
  else if 0xe0 ≤ byte ∧ byte ≤ 0xef then some (2, byte % 16)
  else if 0xf0 ≤ byte ∧ byte ≤ 0xf4 then some (3, byte % 8)
  else none

/-- A code point is the shortest form of its length, and no surrogate. -/
def scalar (extra point : Nat) : Bool :=
  !((extra == 1 && point < 0x80) || (extra == 2 && point < 0x800) ||
    (extra == 3 && point < 0x10000) || (0xd800 ≤ point && point ≤ 0xdfff) || 0x10ffff < point)

/-- The loop of `valid_utf8`.  Every round takes a byte, so the length is enough rounds. -/
def validBytes : (rounds : Nat) → List UInt8 → Bool
  | _, [] => true
  | 0, _ :: _ => false
  | rounds + 1, byte :: bytes =>
      if byte = 0 then false
      else if byte.toNat < 0x80 then validBytes rounds bytes
      else
        match leadByte byte.toNat with
        | none => false
        | some (extra, point) =>
            match continuation extra point bytes with
            | none => false
            | some (point, rest) => scalar extra point && validBytes rounds rest

/-- `valid_utf8`. -/
def validUtf8 (bytes : List UInt8) : Bool :=
  validBytes bytes.length bytes

/-- `copy_transcript`: the text that is copied. -/
def copyTranscript (maxText : Nat) (value : Transcript) : Option (List UInt8) :=
  match value.utf8 with
  | none => if value.length = 0 then some [] else none
  | some bytes =>
      let text := bytes.take value.length
      if maxText < value.length ∨ !validUtf8 text then none else some text

/-! ## State -/

/-- `speech_slot_t`. -/
structure Slot (Samples : Type) where
  samples : Samples
  timestamp : Nat
  deriving DecidableEq, Inhabited

/-- The limits of `turbo_agent_speech_config_t`. -/
structure Config where
  (queueFrames maxFrames maxText : Nat)
  deriving DecidableEq

/-- `turbo_agent_speech_input_t`. -/
structure Input (Samples : Type) where
  phase : Phase
  queue : Ring (Slot Samples)
  (accepted utteranceId lastTimestamp : Nat)
  hasTimestamp : Bool
  (interimText finalText : List UInt8)
  revision : Nat
  terminalKind : Kind
  finalTaken : Bool
  deriving DecidableEq

variable {Samples : Type} [Inhabited Samples]

namespace Input

/-- `turbo_agent_speech_create`. -/
def create (config : Config) : Input Samples where
  phase := .idle
  queue := .empty config.queueFrames
  accepted := 0
  utteranceId := 0
  lastTimestamp := 0
  hasTimestamp := false
  interimText := []
  finalText := []
  revision := 0
  terminalKind := .none
  finalTaken := false

/-- The first section of `turbo_agent_speech_begin`. -/
def beginOpen (input : Input Samples) (utteranceId : Nat) : Except Status (Input Samples) :=
  if utteranceId = 0 then .error .einval
  else if input.phase.live then .error .ebusy
  else if utteranceId ≤ input.utteranceId then .error .estale
  else .ok { input with
    queue := input.queue.clear
    accepted := 0
    utteranceId
    hasTimestamp := false
    interimText := []
    finalText := []
    revision := 0
    finalTaken := false
    terminalKind := .none
    phase := .idle }

/-- `turbo_agent_speech_offer_frame`, when the lock is free. -/
def offerFrame (config : Config) (input : Input Samples) (utteranceId : Nat)
    (pcm : Option Samples) (samples timestamp : Nat) : Except Status (Input Samples) :=
  match pcm with
  | none => .error .einval
  | some pcm =>
      if samples ≠ samplesPerFrame ∨ utteranceId = 0 then .error .einval
      else if utteranceId ≠ input.utteranceId then .error .estale
      else if input.phase ≠ .active then .error .estate
      else if input.hasTimestamp ∧ timestamp ≤ input.lastTimestamp then .error .einval
      else if input.queue.count = input.queue.cells.length ∨ config.maxFrames ≤ input.accepted then
        .error .ecapacity
      else .ok { input with
        queue := input.queue.push ⟨pcm, timestamp⟩
        accepted := input.accepted + 1
        hasTimestamp := true
        lastTimestamp := timestamp }

/-- `turbo_agent_speech_request_finish`. -/
def requestFinish (input : Input Samples) : Except Status (Input Samples) :=
  if input.phase ≠ .active then .error .estate else .ok { input with phase := .draining }

/-- The section of `fail_provider`. -/
def fail (input : Input Samples) : Input Samples :=
  { input with
    phase := .failed
    queue := input.queue.clear
    interimText := []
    finalText := [] }

/-- The section of `turbo_agent_speech_cancel`. -/
def cancel (input : Input Samples) : Except Status (Input Samples) :=
  if !input.phase.live then .error .estate
  else .ok { input with
    phase := .canceled
    queue := input.queue.clear
    interimText := []
    finalText := [] }

/-- The last section of `turbo_agent_speech_pump`. -/
def settle (input : Input Samples) (kind : Kind) : Input Samples :=
  { input with
    terminalKind := kind
    phase := if kind = .final then .final else .noSpeech
    interimText := [] }

/-- `turbo_agent_speech_take_final`. -/
def takeFinal (input : Input Samples) (dstBytes : Nat) :
    Except Status (Input Samples × List UInt8 × Kind) :=
  if !input.phase.terminal ∨ input.finalTaken then .error .estate
  else if dstBytes ≤ input.finalText.length then .error .ebuffer
  else .ok ({ input with finalTaken := true }, input.finalText, input.terminalKind)

end Input

/-! ## Calls under way -/

/-- Where a control call stands.  The utterance of a popped frame and of an end is noted for
the history; no code reads it. -/
inductive Stage (Samples : Type) where
  /-- `provider.begin` runs. -/
  | beginning
  /-- `pump` is about to lock. -/
  | pumping (budget pumped : Nat)
  /-- A frame is popped, and `provider.accept_frame` is about to be called. -/
  | popped (utterance : Nat) (slot : Slot Samples) (budget pumped : Nat)
  /-- `provider.accept_frame` runs. -/
  | accepting (budget pumped : Nat)
  /-- The utterance is drained, and `provider.finish` is about to be called. -/
  | drained (utterance : Nat)
  /-- `provider.finish` runs. -/
  | finishing
  /-- The transcript is copied, and `pump` is about to lock. -/
  | settling (kind : Kind)
  /-- `fail_provider` is about to lock. -/
  | failing
  /-- `provider.cancel` runs, for `cancel` or for `fail_provider`. -/
  | canceling (utterance : Option Nat)
  deriving DecidableEq

inductive Operation where
  | begin (utteranceId : Nat)
  | requestFinish
  | pump (budget : Nat)
  | cancel
  | takeFinal (dstBytes : Nat)
  deriving DecidableEq

structure Answer where
  succeeded : Bool
  transcript : Transcript
  deriving DecidableEq

inductive Note (Samples : Type) where
  | begun
  | accepted (slot : Slot Samples)
  | delivered (slot : Slot Samples)
  | finishing
  | canceled
  | taken
  deriving DecidableEq

/-- A speech input with the control calls under way and the history of its utterances. -/
structure World (Samples : Type) where
  input : Input Samples
  stages : List (Stage Samples)
  log : List (Nat × Note Samples)
  deriving DecidableEq

namespace World

def create (config : Config) : World Samples :=
  ⟨.create config, [], []⟩

def enter (world : World Samples) (input : Input Samples) (stage : Stage Samples) :
    World Samples :=
  { world with input, stages := world.stages ++ [stage] }

def note (world : World Samples) (utterance : Nat) (note : Note Samples) : World Samples :=
  { world with log := world.log ++ [(utterance, note)] }

/-- The locked section of a round of `turbo_agent_speech_pump`. -/
def pumpRound (world : World Samples) (budget pumped : Nat) : World Samples :=
  let input := world.input
  if !input.phase.live then world
  else if input.queue.count ≠ 0 ∧ pumped < budget then
    world.enter { input with queue := input.queue.pop }
      (.popped input.utteranceId input.queue.first budget pumped)
  else if input.phase = .draining ∧ input.queue.count = 0 then
    world.enter input (.drained input.utteranceId)
  else world

def start (world : World Samples) : Operation → World Samples
  | .begin utteranceId =>
      match world.input.beginOpen utteranceId with
      | .error _ => world
      | .ok input => (world.enter input .beginning).note utteranceId .begun
  | .requestFinish =>
      match world.input.requestFinish with
      | .error _ => world
      | .ok input => { world with input }
  | .pump budget => if budget = 0 then world else world.pumpRound budget 0
  | .cancel =>
      match world.input.cancel with
      | .error _ => world
      | .ok input => world.enter input (.canceling (some world.input.utteranceId))
  | .takeFinal dstBytes =>
      match world.input.takeFinal dstBytes with
      | .error _ => world
      | .ok (input, _) => { world with input }.note input.utteranceId .taken

/-- What `turbo_agent_speech_pump` does with the answer of `provider.accept_frame`. -/
def acceptAnswer (config : Config) (world : World Samples) (answer : Answer)
    (budget pumped : Nat) : World Samples :=
  let value := answer.transcript
  let goOn (input : Input Samples) : World Samples :=
    if pumped + 1 = budget then { world with input }
    else world.enter input (.pumping budget (pumped + 1))
  if !answer.succeeded then world.enter world.input .failing
  else if value.kind = .interim then
    match copyTranscript config.maxText value with
    | none => world.enter world.input .failing
    | some text => goOn { world.input with
        interimText := text, revision := world.input.revision + 1 }
  else if value.kind ≠ .none ∨ value.utf8 ≠ none ∨ value.length ≠ 0 then
    world.enter world.input .failing
  else goOn world.input

/-- What `turbo_agent_speech_pump` does with the answer of `provider.finish`. -/
def finishAnswer (config : Config) (world : World Samples) (answer : Answer) : World Samples :=
  let value := answer.transcript
  if !answer.succeeded then world.enter world.input .failing
  else if value.kind ≠ .final ∧ value.kind ≠ .noSpeech then world.enter world.input .failing
  else if value.kind = .noSpeech ∧ (value.utf8 ≠ none ∨ value.length ≠ 0) then
    world.enter world.input .failing
  else if value.kind = .final ∧ value.length = 0 then world.enter world.input .failing
  else
    match copyTranscript config.maxText value with
    | none => world.enter world.input .failing
    | some text => world.enter { world.input with finalText := text } (.settling value.kind)

/-- A call goes on from a stage, with the answer of the provider where one runs. -/
def proceed (config : Config) (world : World Samples) (answer : Answer) :
    Stage Samples → World Samples
  | .beginning =>
      if answer.succeeded then { world with input := { world.input with phase := .active } }
      else world.enter world.input .failing
  | .pumping budget pumped => world.pumpRound budget pumped
  | .popped utterance slot budget pumped =>
      (world.enter world.input (.accepting budget pumped)).note utterance (.delivered slot)
  | .accepting budget pumped => world.acceptAnswer config answer budget pumped
  | .drained utterance => (world.enter world.input .finishing).note utterance .finishing
  | .finishing => world.finishAnswer config answer
  | .settling kind => { world with input := world.input.settle kind }
  | .failing => world.enter world.input.fail (.canceling none)
  | .canceling none => world
  | .canceling (some utterance) => world.note utterance .canceled

/-- The steps of a speech input: an offer that finds the lock free, the start of a control
call, and a call under way that goes on. -/
inductive Action (Samples : Type) where
  | offer (utteranceId : Nat) (pcm : Option Samples) (samples timestamp : Nat)
  | start (operation : Operation)
  | resume (index : Nat) (answer : Answer)
  deriving DecidableEq

def step (config : Config) (world : World Samples) : Action Samples → World Samples
  | .offer utteranceId pcm samples timestamp =>
      match pcm, world.input.offerFrame config utteranceId pcm samples timestamp with
      | some pcm, .ok input =>
          { world with input }.note utteranceId (.accepted ⟨pcm, timestamp⟩)
      | _, _ => world
  | .start operation => world.start operation
  | .resume index answer =>
      match world.stages[index]? with
      | none => world
      | some stage =>
          { world with stages := world.stages.eraseIdx index }.proceed config answer stage

def run (config : Config) (world : World Samples) (actions : List (Action Samples)) :
    World Samples :=
  actions.foldl (step config) world

/-- Control calls are made one after another: none starts while one is under way. -/
def Serial (config : Config) : World Samples → List (Action Samples) → Prop
  | _, [] => True
  | world, action :: actions =>
      (∀ operation, action = .start operation → world.stages = []) ∧
        Serial config (world.step config action) actions

end World

end TurboAgent.Speech
