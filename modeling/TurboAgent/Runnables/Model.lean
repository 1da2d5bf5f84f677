import TurboAgent.Graph.Control

/-!
# Runnables

A runnable is invoked on one value, streamed on one value or run on an array of values.  Two
runnables are piped into one, and one is wrapped with hooks; each combinator has its own way for
each of the three modes.

A pointer to a value may be null, so values that are passed are options.  Allocations succeed.
-/

namespace TurboAgent.Runnables

/-- What a call gives back: its status and what it leaves in the output parameter. -/
structure Returned where
  status : Int
  output : Option Json
  deriving DecidableEq

/-- `turbo_runnable_invoke_json_value_fn` and `turbo_runnable_batch_json_value_fn`; the callers
have cleared the output parameter. -/
abbrev Callback := Option Json → Returned

/-- `turbo_runnable_invoke_json_value_stream_fn`: whether there is a sink, the input, and what
the output parameter is before; with the events. -/
abbrev StreamCallback := Bool → Option Json → Option Json → Returned × List Json

/-- `turbo_runnable_t`. -/
structure Runnable where
  invokeJsonValue : Callback
  invokeJsonValueStream : Option StreamCallback
  batchJsonValue : Option Callback

/-- `turbo_runnable_invoke_json_value`. -/
def invoke (runnable : Runnable) (input : Option Json) : Returned :=
  runnable.invokeJsonValue input

def emit (sink : Bool) (detail : String) (status : Int) : List Json :=
  if sink then [Graph.traceEvent "runnable.invoke" detail "" status] else []

/-- `turbo_runnable_invoke_json_value_stream`. -/
def stream (runnable : Runnable) (sink : Bool) (input out : Option Json) :
    Returned × List Json :=
  match runnable.invokeJsonValueStream with
  | some callback => callback sink input out
  | none =>
      let returned := invoke runnable input
      (returned, emit sink "start" 0 ++ emit sink "finish" returned.status)

/-- `rc != 0 ? rc : -1`. -/
def failure (returned : Returned) : Returned :=
  ⟨if returned.status ≠ 0 then returned.status else -1, none⟩

/-- The loop over an array, with the outputs so far. -/
def batchLoop (call : Callback) : (inputs outputs : List Json) → Returned
  | [], outputs => ⟨0, some (.array outputs)⟩
  | input :: inputs, outputs =>
      let returned := call (some input)
      if returned.status ≠ 0 then failure returned
      else match returned.output with
        | none => failure returned
        | some output => batchLoop call inputs (outputs ++ [output])

def batchEach (call : Callback) (inputs : Option Json) : Returned :=
  match inputs with
  | some (.array elements) => batchLoop call elements []
  | _ => ⟨-1, none⟩

/-- `turbo_runnable_batch_json_value`. -/
def batch (runnable : Runnable) (inputs out : Option Json) : Returned :=
  if inputs = none then ⟨-1, out⟩
  else match runnable.batchJsonValue with
    | some callback => callback inputs
    | none => batchEach (invoke runnable) inputs

/-! ## Pipes -/

/-- `turbo_runnable_pipe_invoke_json_value`. -/
def pipeInvoke (first second : Runnable) : Callback := fun input =>
  let middle := invoke first input
  if middle.status ≠ 0 then ⟨middle.status, none⟩ else invoke second middle.output

/-- `turbo_runnable_pipe_invoke_json_value_stream`. -/
def pipeStream (first second : Runnable) : StreamCallback := fun sink input out =>
  let (middle, events) := stream first sink input none
  if middle.status ≠ 0 then (⟨middle.status, out⟩, events)
  else
    let (returned, more) := stream second sink middle.output out
    (returned, events ++ more)

/-- `turbo_runnable_pipe_batch_json_value`. -/
def pipeBatch (first second : Runnable) : Callback := fun inputs =>
  let middle := batch first inputs none
  if middle.status ≠ 0 then ⟨middle.status, none⟩ else batch second middle.output none

/-- `turbo_runnable_pipe`. -/
def pipe (first second : Runnable) : Runnable where
  invokeJsonValue := pipeInvoke first second
  invokeJsonValueStream := some (pipeStream first second)
  batchJsonValue := some (pipeBatch first second)

/-! ## Wraps -/

/-- `turbo_runnable_wrap_config_t`; a hook gives a replacement, or null for the original. -/
structure WrapConfig where
  beforeInvoke : Option (Option Json → Returned)
  afterInvoke : Option (Option Json → Json → Returned)

/-- The part of `turbo_runnable_wrap_invoke_common` after the call of the inner runnable. -/
def wrapAfter (config : WrapConfig) (effectiveInput : Option Json) (inner : Returned) :
    Returned :=
  if inner.status ≠ 0 then failure inner
  else match inner.output with
    | none => failure inner
    | some innerOutput =>
    match config.afterInvoke with
    | none => ⟨0, some innerOutput⟩
    | some after =>
        let replacement := after effectiveInput innerOutput
        if replacement.status ≠ 0 then ⟨replacement.status, none⟩
        else ⟨0, some (replacement.output.getD innerOutput)⟩

/-- The part of `turbo_runnable_wrap_invoke_common` with the input that the hook has chosen. -/
def wrapEffective (inner : Runnable) (config : WrapConfig) (useStream sink : Bool)
    (effectiveInput : Option Json) : Returned × List Json :=
  let (returned, events) :=
    if useStream then stream inner sink effectiveInput none
    else (invoke inner effectiveInput, [])
  (wrapAfter config effectiveInput returned, events)

/-- `turbo_runnable_wrap_invoke_common`. -/
def wrapInvokeCommon (inner : Runnable) (config : WrapConfig) (useStream sink : Bool)
    (input : Option Json) : Returned × List Json :=
  match config.beforeInvoke with
  | none => wrapEffective inner config useStream sink input
  | some before =>
      let replacement := before input
      if replacement.status ≠ 0 then (⟨replacement.status, none⟩, [])
      else wrapEffective inner config useStream sink (replacement.output.or input)

/-- `turbo_runnable_wrap_invoke_json_value`. -/
def wrapInvoke (inner : Runnable) (config : WrapConfig) : Callback := fun input =>
  (wrapInvokeCommon inner config false false input).1

/-- `turbo_runnable_wrap_invoke_json_value_stream`. -/
def wrapStream (inner : Runnable) (config : WrapConfig) : StreamCallback :=
  fun sink input _ => wrapInvokeCommon inner config true sink input

/-- `turbo_runnable_wrap_batch_json_value`. -/
def wrapBatch (inner : Runnable) (config : WrapConfig) : Callback :=
  batchEach (wrapInvoke inner config)

/-- `turbo_runnable_wrap_json_value`. -/
def wrap (inner : Runnable) (config : WrapConfig) : Runnable where
  invokeJsonValue := wrapInvoke inner config
  invokeJsonValueStream := some (wrapStream inner config)
  batchJsonValue := some (wrapBatch inner config)

end TurboAgent.Runnables
