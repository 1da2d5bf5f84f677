import Mathlib

/-!
# Status codes

`Status` names the codes that runtime functions return.  `unclassified` is the
bare `-1` of stores that do not classify their errors; `other` stands for any
further code of a backend.  `ToolStatus` is `turbo_tool_status_t`.
-/

namespace TurboAgent

inductive Status where
  | ok
  | einval
  | enomem
  | eio
  | enoent
  | ealready
  | enotsup
  | eproto
  | ebusy
  | ecanceled
  | etimedout
  | erange
  | enospc
  | eperm
  | emsgsize
  | efbig
  | enobufs
  | eshutdown
  | unclassified
  | other (code : Fin 1048576)
  deriving DecidableEq

/-- Codes of a failed store call: anything but success and absence. -/
abbrev StoreError := { status : Status // status ≠ .ok ∧ status ≠ .enoent }

/-- `turbo_tool_status_t`. -/
inductive ToolStatus where
  | ok
  | error
  | invalidArgument
  | duplicate
  | notFound
  | outOfMemory
  | cancelled
  | deadlineExceeded
  | outputLimit
  | unknownSideEffect
  | backpressure
  | fuelExhausted
  | trapped
  deriving DecidableEq

namespace ToolStatus

def code : ToolStatus → Int
  | .ok => 0
  | .error => -1
  | .invalidArgument => -2
  | .duplicate => -3
  | .notFound => -4
  | .outOfMemory => -5
  | .cancelled => -6
  | .deadlineExceeded => -7
  | .outputLimit => -8
  | .unknownSideEffect => -9
  | .backpressure => -10
  | .fuelExhausted => -11
  | .trapped => -12

/-- Tool status of a numeric value, if it is one. -/
def ofCode (value : Int) : Option ToolStatus :=
  [ok, error, invalidArgument, duplicate, notFound, outOfMemory, cancelled,
    deadlineExceeded, outputLimit, unknownSideEffect, backpressure, fuelExhausted,
    trapped].find? fun status => status.code == value

end ToolStatus

end TurboAgent
