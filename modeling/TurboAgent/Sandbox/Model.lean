import TurboAgent.Data.Bytes
import TurboAgent.Runtime.Status

/-!
# Tools in a sandbox

A tool runs as a guest of a WebAssembly engine and talks to its host through three functions: it
asks for the size of its input, reads parts of it into its linear memory and writes parts of that
memory to the output.  The engine is not modelled.  It calls the host functions in any order, with
any arguments and with any memory, has room for their one result, and reports in the end how the
guest came out.
-/

namespace TurboAgent.Sandbox

/-- `memcpy` into a block. -/
def memcpy (block : Bytes) (place : Nat) (data : Bytes) : Bytes :=
  block.take place ++ data ++ block.drop (place + data.length)

/-- `turbowasm_status`, as far as the host tells statuses apart. -/
inductive WasmStatus where
  | ok
  | invalidArgument
  | outOfMemory
  | trapped
  | interrupted
  | fuelExhausted
  | other
  deriving DecidableEq

/-- `turbowasm_value`. -/
inductive Value where
  | i32 (value : BitVec 32)
  | other
  deriving DecidableEq

/-- `turbowasm_host_call_memory_span` on a linear memory: a span that it hands out lies in it. -/
structure MemorySpan where
  status : Bytes → BitVec 32 → Nat → WasmStatus
  inside : ∀ {memory address size}, status memory address size = .ok →
    address.toNat + size ≤ memory.length

/-- The status of a span that is asked for only if it is not empty. -/
def MemorySpan.check (span : MemorySpan) (memory : Bytes) (address : BitVec 32) (size : Nat) :
    WasmStatus :=
  if size = 0 then .ok else span.status memory address size

/-- `turbo_tool_runtime_wasm_io_t`.  The size of the input is its length. -/
structure Io where
  (input output : Bytes)
  (outputSize outputLimit : BitVec 64)
  outputOverflow : Bool

/-- What a host function comes to: its result or a failure, and the memory and the state behind
it. -/
structure Returned where
  result : Except WasmStatus (BitVec 32)
  memory : Bytes
  io : Io

section

variable (span : MemorySpan) (io : Io) (memory : Bytes)

/-- `turbo_tool_runtime_wasm_host_input_size`. -/
def hostInputSize : List Value → Returned
  | [] =>
      if 2147483647 < io.input.length then ⟨.error .invalidArgument, memory, io⟩
      else ⟨.ok (BitVec.ofNat 32 io.input.length), memory, io⟩
  | _ => ⟨.error .invalidArgument, memory, io⟩

/-- `turbo_tool_runtime_wasm_host_input_read`. -/
def hostInputRead : List Value → Returned
  | [.i32 offset, .i32 destination, .i32 capacity] =>
      if offset.toInt < 0 ∨ capacity.toInt < 0 then ⟨.error .invalidArgument, memory, io⟩
      else if io.input.length < offset.toNat then ⟨.ok (-1), memory, io⟩
      else
        let toCopy := min capacity.toNat (io.input.length - offset.toNat)
        let status := span.check memory destination toCopy
        if status ≠ .ok then ⟨.error status, memory, io⟩
        else
          let memory := memcpy memory destination.toNat ((io.input.drop offset.toNat).take toCopy)
          if 2147483647 < toCopy then ⟨.error .invalidArgument, memory, io⟩
          else ⟨.ok (BitVec.ofNat 32 toCopy), memory, io⟩
  | _ => ⟨.error .invalidArgument, memory, io⟩

/-- `turbo_tool_runtime_wasm_host_output_write`. -/
def hostOutputWrite : List Value → Returned
  | [.i32 source, .i32 length] =>
      if length.toInt < 0 then ⟨.error .invalidArgument, memory, io⟩
      else if io.outputLimit - io.outputSize < length.setWidth 64 then
        ⟨.ok (-1), memory, { io with outputOverflow := true }⟩
      else
        let status := span.check memory source length.toNat
        if status ≠ .ok then ⟨.error status, memory, io⟩
        else
          let output := memcpy io.output io.outputSize.toNat
            ((memory.drop source.toNat).take length.toNat)
          let outputSize := io.outputSize + length.setWidth 64
          ⟨.ok 0, memory,
            { io with output := memcpy output outputSize.toNat [0], outputSize }⟩
  | _ => ⟨.error .invalidArgument, memory, io⟩

end

/-- The functions that `turbo_tool_runtime_wasm_link_tool_io` links. -/
inductive HostFunction where
  | toolInputSize
  | toolInputRead
  | toolOutputWrite
  deriving DecidableEq

/-- A call of the guest, with the linear memory at that moment. -/
structure HostCall where
  function : HostFunction
  arguments : List Value
  memory : Bytes

/-- A call with the state before it and what it came to. -/
structure Answered where
  call : HostCall
  before : Io
  returned : Returned

def HostCall.answer (span : MemorySpan) (call : HostCall) (io : Io) : Returned :=
  match call.function with
  | .toolInputSize => hostInputSize io call.memory call.arguments
  | .toolInputRead => hostInputRead span io call.memory call.arguments
  | .toolOutputWrite => hostOutputWrite span io call.memory call.arguments

/-- The calls of a guest one after the other, and the state that they leave. -/
def answerAll (span : MemorySpan) : List HostCall → Io → List Answered × Io
  | [], io => ([], io)
  | call :: calls, io =>
      let returned := call.answer span io
      let rest := answerAll span calls returned.io
      (⟨call, io, returned⟩ :: rest.1, rest.2)

/-- `turbo_tool_runtime_wasm_interrupt_reason_t`. -/
inductive InterruptReason where
  | none
  | cancelled
  | deadline
  deriving DecidableEq

/-- What the engine reports of an invocation, and the reason that its interrupt check left. -/
structure Reported where
  status : WasmStatus
  trapped : Bool
  results : List Value
  reason : InterruptReason

/-- What one call meets: the contents of the new block, the check for an interrupt before the run,
the answer of the gate, and the run of the guest. -/
structure Attempt where
  block : Option (Nat → UInt8)
  interrupted : InterruptReason
  gate : ToolStatus
  calls : List HostCall
  reported : Reported

/-- `turbo_tool_runtime_wasm_map_status`. -/
def mapStatus (status : WasmStatus) (reason : InterruptReason) (outputOverflow : Bool) :
    ToolStatus :=
  if outputOverflow then .outputLimit
  else
    match status, reason with
    | .ok, _ => .ok
    | .interrupted, .deadline => .deadlineExceeded
    | .interrupted, .cancelled => .cancelled
    | .outOfMemory, _ => .outOfMemory
    | .fuelExhausted, _ => .fuelExhausted
    | .trapped, _ => .trapped
    | _, _ => .error

/-- What a call returns, with the calls of the guest and their last state if it was run. -/
structure Called where
  status : ToolStatus
  output : Option Bytes
  guestStatus : Option (BitVec 32)
  session : Option (List Answered × Io)

/-- The state with which the guest is run, in a block with some contents. -/
def Io.opened (input : Bytes) (outputLimit : BitVec 64) (contents : Nat → UInt8) : Io :=
  ⟨input, memcpy ((List.range (outputLimit + 1).toNat).map contents) 0 [0], 0, outputLimit, false⟩

/-- The end of a call whose guest was run. -/
def finish (reported : Reported) (session : List Answered × Io) : Called :=
  let status := mapStatus reported.status reported.reason session.2.outputOverflow
  if status ≠ .ok then ⟨status, none, none, some session⟩
  else if reported.trapped then ⟨.error, none, none, some session⟩
  else
    match reported.results with
    | [.i32 guestStatus] =>
        if (session.2.output.take session.2.outputSize.toNat).contains 0 then
          ⟨.error, none, none, some session⟩
        else ⟨.ok, some (session.2.output.takeWhile (· ≠ 0)), some guestStatus, some session⟩
    | _ => ⟨.error, none, none, some session⟩

/-- `turbo_tool_runtime_wasm_call`. -/
def call (span : MemorySpan) (input : Bytes) (outputLimit : BitVec 64) (attempt : Attempt) :
    Called :=
  if outputLimit = 0 ∨ outputLimit = BitVec.allOnes 64 ∨ 2147483647 < input.length then
    ⟨.invalidArgument, none, none, none⟩
  else
    match attempt.block with
    | none => ⟨.outOfMemory, none, none, none⟩
    | some contents =>
        if attempt.interrupted ≠ .none then
          ⟨mapStatus .interrupted attempt.interrupted false, none, none, none⟩
        else if attempt.gate ≠ .ok then ⟨attempt.gate, none, none, none⟩
        else
          finish attempt.reported
            (answerAll span attempt.calls (.opened input outputLimit contents))

/-- `turbo_tool_runtime_wasm_impl_t`, with the names of its tools. -/
structure Runtime where
  tools : List Bytes
  maxInputBytes : Nat
  maxOutputBytes : BitVec 64

/-- The text of the arguments; without one it is that of an empty object. -/
def inputOf (argumentsJson : Option Bytes) : Bytes :=
  argumentsJson.getD (asciiBytes "\x7b\x7d")

/-- `turbo_tool_runtime_wasm_invoke_with_context`.  The place of the tool is an argument of the
guest. -/
def invokeWithContext (span : MemorySpan) (runtime : Runtime) (name : Bytes)
    (argumentsJson : Option Bytes) (attempt : Attempt) : Called :=
  if runtime.maxInputBytes < (inputOf argumentsJson).length then ⟨.error, none, none, none⟩
  else if runtime.tools.contains name then
    let called := call span (inputOf argumentsJson) runtime.maxOutputBytes attempt
    if called.status ≠ .ok ∨ called.guestStatus ≠ some 0 then
      { called with
        status := if called.status = .ok then .error else called.status
        output := none }
    else called
  else ⟨.notFound, none, none, none⟩

end TurboAgent.Sandbox
