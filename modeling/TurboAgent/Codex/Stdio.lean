import TurboAgent.Runtime.Status

/-!
# Stdio transport

A read of the transport takes a line from the buffer of its input, and reads from the pipe until
there is one.

What the pipe does is given: what ends each wait, in order.  A call that has a deadline asks the
clock after a wait, and the wait says whether the deadline has passed; a call without one never
finds it passed.  Allocations succeed.
-/

namespace TurboAgent.Codex

abbrev lineFeed : UInt8 := 10

abbrev carriageReturn : UInt8 := 13

/-- `TURBO_CODEX_STDIO_READ_CHUNK_BYTES`. -/
def readChunkBytes : Nat := 8192

/-- What one `read` of the pipe gives. -/
abbrev Chunk := { data : List UInt8 // data ≠ [] ∧ data.length ≤ readChunkBytes }

inductive Wake where
  | interrupted (late : Bool)
  | failed
  | timedOut
  | readInterrupted
  | closed
  | arrived (chunk : Chunk) (late : Bool)
  deriving DecidableEq

/-- `turbo_codex_stdio_t`. -/
structure Stdio where
  maxLineBytes : Nat
  input : List UInt8
  closed : Bool

/-- What a call returns: a status that is not that of success, or a line. -/
abbrev Returned := Except Status (List UInt8)

/-- A line without the carriage return at its end. -/
def stripReturn (line : List UInt8) : List UInt8 :=
  if line.getLast? = some carriageReturn then line.dropLast else line

/-- `turbo_codex_stdio_take_line`. -/
def takeLine (stdio : Stdio) : Returned × Stdio :=
  if lineFeed ∉ stdio.input then (.error .enoent, stdio)
  else
    let line := stripReturn (stdio.input.takeWhile (· != lineFeed))
    if stdio.maxLineBytes < line.length then (.error .emsgsize, stdio)
    else (.ok line, { stdio with input := (stdio.input.dropWhile (· != lineFeed)).tail })

/-- `max_line_bytes + 1`, in 64 bits. -/
def bufferLimit (maxLineBytes : Nat) : Nat := (maxLineBytes + 1) % 2 ^ 64

/-- `turbo_codex_stdio_append`. -/
def appendInput (stdio : Stdio) (data : List UInt8) : Except Status Unit × Stdio :=
  let limit := bufferLimit stdio.maxLineBytes
  if limit < data.length ∨ limit - data.length < stdio.input.length then
    (.error .emsgsize, stdio)
  else
    let input := stdio.input ++ data
    if stdio.maxLineBytes < input.length ∧ lineFeed ∉ input then
      (.error .emsgsize, { stdio with input })
    else (.ok (), { stdio with input })

/-- The loop of `turbo_codex_stdio_read_impl`; without a result it still waits. -/
def readLoop (stdio : Stdio) : List Wake → Option (Returned × Stdio × List Wake)
  | [] => none
  | .interrupted late :: wakes =>
      if late then some (.error .etimedout, stdio, wakes) else readLoop stdio wakes
  | .failed :: wakes => some (.error .eio, stdio, wakes)
  | .timedOut :: wakes => some (.error .etimedout, stdio, wakes)
  | .readInterrupted :: wakes => readLoop stdio wakes
  | .closed :: wakes =>
      some (.error (if stdio.input ≠ [] then .eproto else .eshutdown), stdio, wakes)
  | .arrived chunk late :: wakes =>
      let (appended, stdio) := appendInput stdio chunk.1
      match appended with
      | .error status => some (.error status, stdio, wakes)
      | .ok () =>
          let (taken, stdio) := takeLine stdio
          if taken ≠ .error .enoent then some (taken, stdio, wakes)
          else if late then some (.error .etimedout, stdio, wakes)
          else readLoop stdio wakes

/-- `turbo_codex_stdio_read_impl`. -/
def readImpl (stdio : Stdio) (wakes : List Wake) : Option (Returned × Stdio × List Wake) :=
  if stdio.closed then some (.error .einval, stdio, wakes)
  else
    let (taken, stdio) := takeLine stdio
    if taken ≠ .error .enoent then some (taken, stdio, wakes) else readLoop stdio wakes

def readCalls : (calls : Nat) → Stdio → List Wake → List Returned
  | 0, _, _ => []
  | calls + 1, stdio, wakes =>
      match readImpl stdio wakes with
      | none => []
      | some (returned, stdio, wakes) => returned :: readCalls calls stdio wakes

/-- The state after `turbo_codex_stdio_transport_create`. -/
def opened (maxLineBytes : Nat) : Stdio := ⟨maxLineBytes, [], false⟩

end TurboAgent.Codex
