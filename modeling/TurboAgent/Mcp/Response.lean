import TurboAgent.Data.Bytes
import TurboAgent.Data.Json
import TurboAgent.Data.Utf8
import TurboAgent.Runtime.Status

/-!
# Responses of an MCP server

A server answers a request with a JSON-RPC message, or with a stream of events of which one
carries the message.  The client that sent the request has cleared its last error, and a body
longer than its limit does not come to the parsers.  Allocations succeed.
-/

namespace TurboAgent.Mcp

open Runtime

/-- The JSON reader: `json_parse` and `json_number_text`.  A line feed before a document is
skipped, and there is no document in an empty text. -/
structure JsonReader where
  parse : Bytes → Option Json
  numberText : Json → Bytes
  parse_newline : ∀ text, parse (10 :: text) = parse text
  parse_nil : parse [] = none

def cString (text : String) : Bytes :=
  (utf8 text).takeWhile (· ≠ 0)

/-- `turbo_mcp_client_set_error`: what `last_error` holds of a message. -/
def lastErrorOf (message : Bytes) : Bytes :=
  message.take 511

/-- What a parser returns, and what it leaves in `last_error`. -/
structure Parsed where
  status : ToolStatus
  result : Option Json
  lastError : Bytes
  deriving DecidableEq

def failure (status : ToolStatus) (message : Bytes) : Parsed :=
  ⟨status, none, lastErrorOf message⟩

/-- What `turbo_mcp_response_matches` says of a document. -/
inductive Match where
  | other
  | failed (message : Bytes)
  | found (result : Json)
  deriving DecidableEq

/-- The document is a message of JSON-RPC 2.0 with exactly this id. -/
def carries (reader : JsonReader) (requestId : UInt64) (root : Json) : Bool :=
  root.isObject && root.field "jsonrpc" == some (.string "2.0") &&
    match root.field "id" with
    | some (.number mantissa exponent) =>
        reader.numberText (.number mantissa exponent) == decimal requestId.toNat
    | _ => false

def errorMessage (error : Json) : Bytes :=
  match error.field "message" with
  | some (.string text) => cString text
  | _ => asciiBytes "MCP JSON-RPC error"

/-- `turbo_mcp_response_matches`. -/
def responseMatches (reader : JsonReader) (requestId : UInt64) (root : Json) : Match :=
  if carries reader requestId root = false then .other
  else
    match root.field "error", root.field "result" with
    | some error, _ => .failed (errorMessage error)
    | none, none => .failed (asciiBytes "MCP JSON-RPC response has neither result nor error")
    | none, some result => .found result

/-- `turbo_mcp_parse_json_response`. -/
def parseJsonResponse (reader : JsonReader) (requestId : UInt64) (body : Bytes) : Parsed :=
  if body = [] then failure .error (asciiBytes "invalid MCP JSON response")
  else
    match reader.parse body with
    | none => failure .error (asciiBytes "invalid MCP JSON response")
    | some root =>
        match responseMatches reader requestId root with
        | .found result => ⟨.ok, some result, []⟩
        | .failed message => failure .error message
        | .other => failure .error (asciiBytes "MCP JSON-RPC response id mismatch")

/-! ## Streams of events -/

def firstLine (rest : Bytes) : Bytes :=
  rest.takeWhile (· ≠ 10)

def afterLine (rest : Bytes) : Bytes :=
  rest.drop ((firstLine rest).length + 1)

@[simp] theorem firstLine_nil : firstLine [] = [] := rfl

@[simp] theorem afterLine_nil : afterLine [] = [] := rfl

theorem afterLine_lt {rest : Bytes} (filled : rest ≠ []) :
    (afterLine rest).length < rest.length := by
  have some_byte := List.length_pos_of_ne_nil filled
  rw [afterLine, List.length_drop]
  omega

/-- A line without the carriage return at its end. -/
def stripReturn (line : Bytes) : Bytes :=
  if line.getLast? = some 13 then line.dropLast else line

/-- The value of a line that starts with `data:`. -/
def dataValue (line : Bytes) : Option Bytes :=
  if (asciiBytes "data:").isPrefixOf line then
    match line.drop 5 with
    | 32 :: value => some value
    | value => some value
  else none

/-- The end of a stream without the result of a message. -/
def streamFailure (status : ToolStatus) (message : Bytes) : Parsed :=
  let lastError := lastErrorOf message
  ⟨status, none,
    if lastError = [] then lastErrorOf (asciiBytes "MCP SSE stream contained no matching response")
    else lastError⟩

/-- The dispatch of an event: the end of the stream, or none. -/
def dispatch (reader : JsonReader) (requestId : UInt64) (eventData : Bytes) : Option Parsed :=
  if eventData = [] then none
  else
    match reader.parse eventData with
    | none => none
    | some root =>
        match responseMatches reader requestId root with
        | .found result => some ⟨.ok, some result, []⟩
        | .failed message => some (streamFailure .error message)
        | .other => none

def appendData (eventData value : Bytes) : Bytes :=
  (if eventData = [] then [] else eventData ++ [10]) ++ value

/-- The loop of `turbo_mcp_parse_sse_response`, at what is left of the body. -/
def sseLoop (reader : JsonReader) (maxResponseBytes : Nat) (requestId : UInt64) (rest : Bytes)
    (eventData : Bytes) : Parsed :=
  if _empty : stripReturn (firstLine rest) = [] then
    match dispatch reader requestId eventData with
    | some parsed => parsed
    | none =>
        if _over : afterLine rest = [] then streamFailure .error []
        else sseLoop reader maxResponseBytes requestId (afterLine rest) []
  else
    match dataValue (stripReturn (firstLine rest)) with
    | none => sseLoop reader maxResponseBytes requestId (afterLine rest) eventData
    | some value =>
        if maxResponseBytes < (appendData eventData value).length then
          streamFailure .outputLimit (asciiBytes "MCP SSE event exceeds response limit")
        else sseLoop reader maxResponseBytes requestId (afterLine rest) (appendData eventData value)
termination_by rest.length
decreasing_by
  · exact afterLine_lt fun none => _over (none ▸ afterLine_nil)
  · exact afterLine_lt fun none => _empty (by rw [none]; rfl)
  · exact afterLine_lt fun none => _empty (by rw [none]; rfl)

/-- `turbo_mcp_parse_sse_response`. -/
def parseSseResponse (reader : JsonReader) (maxResponseBytes : Nat) (requestId : UInt64)
    (body : Bytes) : Parsed :=
  sseLoop reader maxResponseBytes requestId body []

end TurboAgent.Mcp
