import TurboAgent.Logic.Slots
import TurboAgent.Provider.Anthropic

/-!
# Chat completions

A completion is turned into a model event directly from its document, or from a stream of chunks.
A chunk has pieces of the content and of the tool calls, which are told apart by their index.  The
chunks are put together to a document that is read like any other.
-/

namespace TurboAgent.Provider.Chat

open Anthropic (ToolCall setIfNonempty appendText appendIfPresent updateSlot)

/-! ## The response document -/

def firstChoice (record : Json) : Option Json :=
  match record.field "choices" with
  | some (.array (choice :: _)) => some choice
  | _ => none

/-- The text that `turbo_provider_extract_chat_text` takes from a part of the content. -/
def partText (part : Json) : String :=
  if part.isObject = false then ""
  else if (part.getString "type").any fun type => type ≠ "text" && type ≠ "output_text" then ""
  else
    match part.getString "text" with
    | some text => text
    | none => (((part.field "text").bind (·.getString "value")).getD "")

/-- `turbo_provider_extract_chat_text`. -/
def extractText (message : Json) : String :=
  match message.getString "content", message.field "content" with
  | some text, _ => text
  | none, some (.array parts) => parts.foldl (fun buffer part => buffer ++ partText part) ""
  | none, _ => ""

/-- The call that `turbo_provider_collect_chat_tool_calls` takes from an entry. -/
def callOf (entry : Json) : Option Json :=
  match entry.field "function" with
  | some (.object fields) =>
      match entry.getString "id", (Json.object fields).getString "name",
          (Json.object fields).getString "arguments" with
      | some callId, some name, some arguments => some (toolCallRecord callId name arguments)
      | _, _, _ => none
  | _ => none

/-- `tool_calls` of a record, when it is an array. -/
def toolCallsOf (record : Json) : List Json :=
  match record.field "tool_calls" with
  | some (.array entries) => entries
  | _ => []

/-- `turbo_provider_collect_chat_tool_calls`. -/
def collectToolCalls (message : Json) : List Json :=
  (toolCallsOf message).filterMap callOf

/-- The message of the first choice; a record without fields stands for none. -/
def messageOf (response : Json) : Json :=
  ((firstChoice response).bind (·.field "message")).getD .null

/-- `turbo_provider_response_to_event_json_value` for this provider. -/
def responseToEvent (response : Json) : Option Json :=
  if response.isObject = false then none
  else
    let event := modelEvent ((response.getString "id").getD "") (extractText (messageOf response))
      (collectToolCalls (messageOf response))
    if modelEventValid event then some event else none

/-! ## The stream -/

/-- `turbo_agent_sse_chat_stream_state_t`. -/
structure StreamState where
  (id role content finishReason : Option String)
  toolCalls : List ToolCall
  deriving DecidableEq

def StreamState.initial : StreamState := ⟨none, none, none, none, []⟩

def changeCall (piece : Json) (call : ToolCall) : ToolCall :=
  let call := { call with
    id := setIfNonempty call.id (piece.getString "id")
    type := setIfNonempty call.type (piece.getString "type") }
  match piece.field "function" with
  | some (.object fields) => { call with
      name := setIfNonempty call.name ((Json.object fields).getString "name")
      arguments := appendText call.arguments
        (((Json.object fields).getString "arguments").getD "") }
  | _ => call

/-- One piece of a tool call, with its position among those of the chunk. -/
def applyPiece (toolCalls : List ToolCall) (piece : Json × Nat) : Option (List ToolCall) :=
  if piece.1.isObject = false then none
  else
    let index := getInt piece.1 "index" piece.2
    if index < 0 then none
    else some (updateSlot toolCalls index.toNat (changeCall piece.1))

def applyDelta (state : StreamState) (delta : Json) : Option StreamState :=
  if delta.isObject = false then some state
  else
    ((toolCallsOf delta).zipIdx.foldlM applyPiece state.toolCalls).map fun toolCalls =>
      { state with
        role := setIfNonempty state.role (delta.getString "role")
        content := appendIfPresent state.content (delta.getString "content")
        toolCalls }

/-- `turbo_agent_sse_chat_apply_chunk`. -/
def applyChunk (state : StreamState) (chunk : Json) : Option StreamState :=
  if chunk.isObject = false then none
  else
    match firstChoice chunk with
    | some (.object fields) =>
        let state := { state with id := setIfNonempty state.id (chunk.getString "id") }
        (applyDelta state ((Json.field (.object fields) "delta").getD .null)).map fun state =>
          { state with
            finishReason := setIfNonempty state.finishReason
              ((Json.object fields).getString "finish_reason") }
    | _ => none

/-- The entry that `turbo_agent_sse_build_chat_tool_calls_array` makes of a slot. -/
def slotEntry (call : ToolCall) : Option Json :=
  match call.id, call.name, call.arguments with
  | some id, some name, some arguments => some (.object
      [("id", .string id), ("type", .string (call.type.getD "function")),
        ("function", .object [("name", .string name), ("arguments", .string arguments)])])
  | _, _, _ => none

/-- The role of the message that is put together. -/
def roleOf (state : StreamState) : String :=
  match state.role with
  | some role => if role = "" then "assistant" else role
  | none => "assistant"

/-- `turbo_agent_sse_build_chat_response_json` before it is serialized. -/
def buildResponse (state : StreamState) : Option Json :=
  match state.id with
  | none => none
  | some id => (state.toolCalls.mapM slotEntry).map fun entries =>
      .object [("id", .string id), ("object", .string "chat.completion"),
        ("choices", .array [.object [("index", .int 0),
          ("message", .object ([("role", .string (roleOf state)),
            ("content", .string (state.content.getD ""))] ++
            if state.toolCalls = [] then [] else [("tool_calls", .array entries)])),
          ("finish_reason", .string (state.finishReason.getD
            (if state.toolCalls = [] then "stop" else "tool_calls")))]])]

/-- The loop of `turbo_agent_chat_sse_to_json` over the data of the frames; the flag is
`saw_chunk`. -/
def applyData (codec : JsonCodec) : List (List Char) → StreamState → Bool →
    Option (StreamState × Bool)
  | [], state, saw => some (state, saw)
  | data :: rest, state, saw =>
      if String.ofList data = "[DONE]" then some (state, saw)
      else if data = [] then applyData codec rest state saw
      else
        match codec.parse (String.ofList data) with
        | none => none
        | some chunk =>
            match applyChunk state chunk with
            | none => none
            | some state => applyData codec rest state true

/-- The document that a stream is put together to. -/
def sseToResponse (codec : JsonCodec) (bytes : List Char) : Option Json :=
  match applyData codec ((framesOf (normalizeNewlines bytes)).map collectEventData) .initial
      false with
  | some (state, true) => buildResponse state
  | _ => none

/-- `turbo_agent_chat_sse_to_json`. -/
def sseToJson (codec : JsonCodec) (bytes : List Char) : Option String :=
  (sseToResponse codec bytes).map fun response => (codec.serialize response).val

/-- `turbo_provider_sse_to_event_json_value` for this provider. -/
def sseToEvent (codec : JsonCodec) (bytes : List Char) : Option Json :=
  match sseToJson codec bytes with
  | none => none
  | some text =>
      match codec.parse text with
      | none => none
      | some response => responseToEvent response

end TurboAgent.Provider.Chat
