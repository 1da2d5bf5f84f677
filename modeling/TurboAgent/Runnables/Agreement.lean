import TurboAgent.Logic.Lists
import TurboAgent.Runnables.Model

/-!
# Modes agree

Runnables are put together from leaves with pipes and wraps.  When the leaves are streamed and
run in batches as they are invoked, so is every runnable.
-/

namespace TurboAgent.Runnables

variable {runnable first second inner : Runnable} {config : WrapConfig}

def Returned.Full (returned : Returned) : Prop :=
  returned.status = 0 → returned.output.isSome = true

/-- Streaming gives the status and the output of the invocation; a failure leaves an output
parameter that was cleared as the invocation does. -/
def StreamAgrees (runnable : Runnable) : Prop := ∀ sink input out,
  (stream runnable sink input out).1.status = (invoke runnable input).status ∧
    ((invoke runnable input).status = 0 ∨ out = none →
      (stream runnable sink input out).1.output = (invoke runnable input).output)

/-- A batch succeeds exactly if every element does, with the outputs in order. -/
def BatchAgrees (runnable : Runnable) : Prop := ∀ elements out,
  ((batch runnable (some (.array elements)) out).status = 0 ↔
    ∀ element ∈ elements, (invoke runnable (some element)).status = 0) ∧
  ((batch runnable (some (.array elements)) out).status = 0 → ∃ outputs,
    (batch runnable (some (.array elements)) out).output = some (.array outputs) ∧
      List.Forall₂ (fun element output => invoke runnable (some element) = ⟨0, some output⟩)
        elements outputs)

/-! ## Values -/

def Returned.value (returned : Returned) : Option Json :=
  if returned.status = 0 then returned.output else none

variable {returned : Returned}

theorem value_failed (failed : returned.status ≠ 0) : returned.value = none := if_neg failed

theorem value_failure (returned : Returned) : (failure returned).value = none := by
  unfold failure
  split_ifs with failed
  · exact value_failed failed
  · rfl

theorem full_failure (returned : Returned) : (failure returned).Full := by
  intro success
  simp only [failure] at success
  split_ifs at success with failed
  · exact absurd success failed

theorem value_eq_some {output : Json} :
    returned.value = some output ↔ returned = ⟨0, some output⟩ := by
  obtain ⟨status, written⟩ := returned
  unfold Returned.value
  by_cases success : status = 0
  · simp [success]
  · simp [success]

theorem Returned.Full.isSome (full : returned.Full) :
    returned.value.isSome = true ↔ returned.status = 0 := by
  unfold Returned.value
  constructor
  · intro given
    by_contra failed
    rw [if_neg failed] at given
    cases given
  · intro success
    rw [if_pos success]
    exact full success

theorem batchLoop_value (call : Callback) (inputs outputs : List Json) :
    (batchLoop call inputs outputs).Full ∧
      (batchLoop call inputs outputs).value =
        (inputs.mapM fun input => (call (some input)).value).map
          fun more => .array (outputs ++ more) := by
  induction inputs generalizing outputs with
  | nil => exact ⟨fun _ => rfl, by simp [batchLoop, Returned.value]⟩
  | cons input inputs ih =>
      have fails : ∀ returned, call (some input) = returned → returned.value = none →
          (failure returned).Full ∧ (failure returned).value =
            ((input :: inputs).mapM fun input => (call (some input)).value).map
              fun more => .array (outputs ++ more) := by
        rintro returned rfl none
        refine ⟨full_failure _, ?_⟩
        rw [value_failure, List.mapM_cons, none]
        rfl
      rw [batchLoop]
      split_ifs with failed
      · exact fails _ rfl (value_failed failed)
      · have success := not_not.mp failed
        cases written : (call (some input)).output with
        | none => exact fails _ rfl ((if_pos success).trans written)
        | some output =>
            obtain ⟨full, value⟩ := ih (outputs ++ [output])
            refine ⟨full, ?_⟩
            have here : (call (some input)).value = some output :=
              (if_pos success).trans written
            rw [value, List.mapM_cons, here]
            cases inputs.mapM fun input => (call (some input)).value with
            | none => rfl
            | some more => simp

/-- A batch gives the outputs of its elements. -/
def BatchValue (runnable : Runnable) : Prop := ∀ elements out,
  (batch runnable (some (.array elements)) out).Full ∧
    (batch runnable (some (.array elements)) out).value =
      (elements.mapM fun element => (invoke runnable (some element)).value).map .array

theorem batchAgrees_iff (full : ∀ input, (invoke runnable input).Full) :
    BatchAgrees runnable ↔ BatchValue runnable := by
  have each : ∀ elements outputs : List Json,
      (elements.mapM fun element => (invoke runnable (some element)).value) = some outputs ↔
        List.Forall₂ (fun element output => invoke runnable (some element) = ⟨0, some output⟩)
          elements outputs := by
    intro elements outputs
    rw [Lists.mapM_eq_some]
    simp only [value_eq_some]
  have all : ∀ elements : List Json,
      (elements.mapM fun element => (invoke runnable (some element)).value).isSome = true ↔
        ∀ element ∈ elements, (invoke runnable (some element)).status = 0 := by
    intro elements
    rw [Lists.mapM_isSome]
    simp only [(full _).isSome]
  constructor
  · intro agrees elements out
    obtain ⟨succeeds, outputs⟩ := agrees elements out
    refine ⟨fun success => ?_, ?_⟩
    · obtain ⟨outputs, written, -⟩ := outputs success
      rw [written]
      rfl
    · by_cases success : (batch runnable (some (.array elements)) out).status = 0
      · obtain ⟨outputs, written, same⟩ := outputs success
        rw [(each _ _).mpr same, Returned.value, if_pos success, written]
        rfl
      · have none : (elements.mapM fun element =>
            (invoke runnable (some element)).value) = none := by
          rw [← Option.not_isSome_iff_eq_none, all]
          exact fun every => success (succeeds.mpr every)
        rw [none, value_failed success]
        rfl
  · intro value elements out
    obtain ⟨isFull, same⟩ := value elements out
    have succeeds : (batch runnable (some (.array elements)) out).status = 0 ↔
        ∀ element ∈ elements, (invoke runnable (some element)).status = 0 := by
      rw [← all, ← isFull.isSome, same, Option.isSome_map]
    refine ⟨succeeds, fun success => ?_⟩
    obtain ⟨outputs, mapped⟩ := Option.isSome_iff_exists.mp ((all _).mpr (succeeds.mp success))
    rw [mapped] at same
    refine ⟨outputs, ?_, (each _ _).mp mapped⟩
    rw [value_eq_some.mp same]

/-! ## Runnables that agree -/

/-- A runnable is streamed and run in batches as it is invoked, and success has an output. -/
structure Agrees (runnable : Runnable) : Prop where
  full : ∀ input, (invoke runnable input).Full
  streams : StreamAgrees runnable
  batches : BatchValue runnable

theorem StreamAgrees.cleared (streams : StreamAgrees runnable) (sink : Bool)
    (input : Option Json) : (stream runnable sink input none).1 = invoke runnable input := by
  obtain ⟨status, output⟩ := streams sink input none
  cases isStreamed : (stream runnable sink input none).1
  cases isInvoked : invoke runnable input
  rw [isStreamed, isInvoked] at status output
  exact congrArg₂ _ status (output (.inr rfl))

theorem streamAgrees_fallback (fallback : runnable.invokeJsonValueStream = none) :
    StreamAgrees runnable := by
  intro sink input out
  rw [stream, fallback]
  exact ⟨rfl, fun _ => rfl⟩

theorem batch_array {callback : Callback} (own : runnable.batchJsonValue = some callback)
    (elements : List Json) (out : Option Json) :
    batch runnable (some (.array elements)) out = callback (some (.array elements)) := by
  rw [batch, if_neg (Option.some_ne_none _), own]

theorem batchValue_fallback (fallback : runnable.batchJsonValue = none) :
    BatchValue runnable := by
  intro elements out
  rw [batch, if_neg (Option.some_ne_none _), fallback]
  exact batchLoop_value (invoke runnable) elements []

/-! ## Pipes -/

theorem full_pipe (full : ∀ input, (invoke second input).Full) (input : Option Json) :
    (invoke (pipe first second) input).Full := by
  show (pipeInvoke first second input).Full
  unfold pipeInvoke
  dsimp only
  split_ifs with failed
  · exact fun success => absurd success failed
  · exact full _

theorem streamAgrees_pipe (streams : StreamAgrees first) (later : StreamAgrees second) :
    StreamAgrees (pipe first second) := by
  intro sink input out
  have middle := streams.cleared sink input
  show (pipeStream first second sink input out).1.status =
      (pipeInvoke first second input).status ∧ ((pipeInvoke first second input).status = 0 ∨
        out = none → (pipeStream first second sink input out).1.output =
          (pipeInvoke first second input).output)
  unfold pipeStream pipeInvoke
  dsimp only
  rw [middle]
  split_ifs with failed
  · exact ⟨rfl, fun cleared => cleared.resolve_left failed⟩
  · exact later sink _ out

theorem value_pipe (full : ∀ input, (invoke first input).Full) (input : Option Json) :
    (invoke (pipe first second) input).value =
      (invoke first input).value.bind fun middle => (invoke second (some middle)).value := by
  show (pipeInvoke first second input).value = _
  unfold pipeInvoke
  dsimp only
  split_ifs with failed
  · rw [value_failed failed, value_failed (by exact failed)]
    rfl
  · have success := not_not.mp failed
    obtain ⟨middle, written⟩ := Option.isSome_iff_exists.mp (full input success)
    rw [show (invoke first input).value = some middle from (if_pos success).trans written,
      written, Option.bind_some]

theorem batchValue_pipe (agrees : Agrees first) (later : BatchValue second) :
    BatchValue (pipe first second) := by
  intro elements out
  obtain ⟨full, value⟩ := agrees.batches elements none
  rw [batch_array rfl]
  simp only [value_pipe agrees.full]
  rw [Lists.mapM_bind (fun element => (invoke first (some element)).value)
    fun middle => (invoke second (some middle)).value]
  unfold pipeBatch
  dsimp only
  split_ifs with failed
  · have none : (elements.mapM fun element => (invoke first (some element)).value) = none := by
      rw [value_failed failed] at value
      exact Option.map_eq_none_iff.mp value.symm
    rw [none]
    exact ⟨fun success => absurd success failed, value_failed failed⟩
  · obtain ⟨written, isValue⟩ := Option.isSome_iff_exists.mp (full.isSome.mpr (not_not.mp failed))
    rw [isValue] at value
    obtain ⟨outputs, mapped, rfl⟩ := Option.map_eq_some_iff.mp value.symm
    rw [value_eq_some.mp isValue, mapped]
    exact later outputs none

theorem Agrees.pipe (agrees : Agrees first) (later : Agrees second) :
    Agrees (pipe first second) where
  full := full_pipe later.full
  streams := streamAgrees_pipe agrees.streams later.streams
  batches := batchValue_pipe agrees later.batches

/-! ## Wraps -/

theorem full_wrapAfter (effectiveInput : Option Json) (returned : Returned) :
    (wrapAfter config effectiveInput returned).Full := by
  unfold wrapAfter
  split_ifs with failed
  · exact full_failure _
  · cases returned.output with
    | none => exact full_failure _
    | some output =>
    cases config.afterInvoke with
    | none => exact fun _ => rfl
    | some after =>
        dsimp only
        split_ifs with refused
        · exact fun success => absurd success refused
        · exact fun _ => rfl

theorem full_wrap (input : Option Json) : (invoke (wrap inner config) input).Full := by
  show (wrapInvokeCommon inner config false false input).1.Full
  unfold wrapInvokeCommon
  cases config.beforeInvoke with
  | none => exact full_wrapAfter _ _
  | some before =>
      dsimp only
      split_ifs with refused
      · exact fun success => absurd success refused
      · exact full_wrapAfter _ _

theorem wrapInvokeCommon_stream (streams : StreamAgrees inner) (sink : Bool)
    (input : Option Json) : (wrapInvokeCommon inner config true sink input).1 =
      (wrapInvokeCommon inner config false false input).1 := by
  have effective : ∀ input, (wrapEffective inner config true sink input).1 =
      (wrapEffective inner config false false input).1 := by
    intro input
    exact congrArg (wrapAfter config input) (streams.cleared sink input)
  unfold wrapInvokeCommon
  cases config.beforeInvoke with
  | none => exact effective input
  | some before =>
      dsimp only
      split_ifs
      · rfl
      · exact effective _

theorem Agrees.wrap (agrees : Agrees inner) : Agrees (wrap inner config) where
  full := full_wrap
  streams := by
    intro sink input out
    have same := @wrapInvokeCommon_stream inner config agrees.streams sink input
    exact ⟨congrArg Returned.status same, fun _ => congrArg Returned.output same⟩
  batches := by
    intro elements out
    rw [batch_array rfl]
    exact batchLoop_value (wrapInvoke inner config) elements []

/-! ## Leaves -/

/-- A leaf whose callbacks give an output when they succeed. -/
structure Leaf (runnable : Runnable) : Prop where
  invoked : ∀ input, (runnable.invokeJsonValue input).Full
  streamed : ∀ callback, runnable.invokeJsonValueStream = some callback →
    ∀ sink input out, (callback sink input out).1.Full
  batched : ∀ callback, runnable.batchJsonValue = some callback →
    ∀ inputs, (callback inputs).Full

/-- A leaf whose own callbacks for streams and batches, if it has them, agree with the one for
invocations. -/
structure AgreeingLeaf (runnable : Runnable) : Prop extends Leaf runnable where
  streams : runnable.invokeJsonValueStream.isSome = true → StreamAgrees runnable
  batches : runnable.batchJsonValue.isSome = true → BatchAgrees runnable

theorem agreeingLeaf_fallback {callback : Callback} (full : ∀ input, (callback input).Full) :
    AgreeingLeaf ⟨callback, none, none⟩ where
  invoked := full
  streamed := by
    intro _ absent
    cases absent
  batched := by
    intro _ absent
    cases absent
  streams := by
    intro absent
    cases absent
  batches := by
    intro absent
    cases absent

theorem AgreeingLeaf.agrees (leaf : AgreeingLeaf runnable) : Agrees runnable where
  full := leaf.invoked
  streams := by
    cases own : runnable.invokeJsonValueStream with
    | none => exact streamAgrees_fallback own
    | some callback => exact leaf.streams (by rw [own]; rfl)
  batches := by
    cases own : runnable.batchJsonValue with
    | none => exact batchValue_fallback own
    | some callback => exact (batchAgrees_iff leaf.invoked).mp (leaf.batches (by rw [own]; rfl))

inductive Built (leaf : Runnable → Prop) : Runnable → Prop where
  | leaf {runnable : Runnable} : leaf runnable → Built leaf runnable
  | pipe {first second : Runnable} :
      Built leaf first → Built leaf second → Built leaf (pipe first second)
  | wrap {inner : Runnable} (config : WrapConfig) :
      Built leaf inner → Built leaf (wrap inner config)

theorem Built.agrees (built : Built AgreeingLeaf runnable) : Agrees runnable := by
  induction built with
  | leaf leaf => exact leaf.agrees
  | pipe _ _ first second => exact first.pipe second
  | wrap config _ inner => exact inner.wrap

/-- A leaf that gives back its input, or null text for null. -/
def echo : Callback := fun input => ⟨0, some (input.getD .null)⟩

/-- A leaf that echoes when it is invoked and fails when it is streamed. -/
def silent : Runnable := ⟨echo, some fun _ _ _ => (⟨-1, none⟩, []), none⟩

/-- The callbacks of a leaf may disagree, and then its modes do. -/
theorem modes_disagree : ¬∀ runnable, Built Leaf runnable →
    StreamAgrees runnable ∧ BatchAgrees runnable := by
  intro agree
  have leaf : Leaf silent := by
    refine ⟨fun _ _ => rfl, ?_, ?_⟩
    · intro callback own sink input out success
      cases own
      cases success
    · intro callback absent
      cases absent
  have streams := (agree silent (.leaf leaf)).1 false (some .null) none
  exact absurd streams.1 (by decide)

/-- Runnables built from leaves whose modes agree have modes that agree. -/
theorem modes_agree (built : Built AgreeingLeaf runnable) :
    StreamAgrees runnable ∧ BatchAgrees runnable :=
  ⟨built.agrees.streams, (batchAgrees_iff built.agrees.full).mpr built.agrees.batches⟩

/-- A pipe into a wrap whose first hook fails for text and whose second hook puts the output into
an array. -/
def hooked : Runnable := pipe ⟨echo, none, none⟩ (wrap ⟨echo, none, none⟩
  ⟨some fun | some (.string _) => ⟨-1, none⟩ | _ => ⟨0, none⟩,
    some fun _ out => ⟨0, some (.array [out])⟩⟩)

theorem modes_agree_sample : StreamAgrees hooked ∧ BatchAgrees hooked :=
  modes_agree (.pipe (.leaf (agreeingLeaf_fallback fun _ _ => rfl))
    (.wrap _ (.leaf (agreeingLeaf_fallback fun _ _ => rfl))))

end TurboAgent.Runnables
