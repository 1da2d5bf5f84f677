import TurboAgent.Provider.Sse

/-!
# Anthropic messages

A message of the provider is turned into a model event in two ways: directly from its
response document, or from the stream of events that delivers it.  The stream is first put
together to a response document, which is then serialized, parsed and turned into an event
like any other.
-/

namespace TurboAgent.Provider

/-! ## Model events -/

/-- `turbo_provider_tool_call_record_create`. -/
def toolCallRecord (callId name arguments : String) : Json :=
  .object [("call_id", .string callId), ("name", .string name), ("arguments", .string arguments)]

/-- `turbo_event_model_create_json_value`. -/
def modelEvent (responseId outputText : String) (toolCalls : List Json) : Json :=
  .object [("kind", .string "model"), ("response_id", .string responseId),
    ("output_text", .string outputText), ("tool_calls", .array toolCalls)]

/-- The check of `turbo_event_model_validate_json_value` on a tool call. -/
def toolCallValid (call : Json) : Bool :=
  call.isObject && (call.field "call_id").isSome && (call.field "name").isSome &&
    (call.field "arguments").isSome

/-- `turbo_event_model_validate_json_value`. -/
def modelEventValid (event : Json) : Bool :=
  event.isObject &&
  match event.field "kind", event.field "response_id", event.field "output_text",
      event.field "tool_calls" with
  | some kind, some (.string _), some (.string _), some (.array toolCalls) =>
      kind == .string "model" && toolCalls.all toolCallValid
  | _, _, _, _ => false

namespace Anthropic

/-! ## The response document -/

/-- The text that `turbo_provider_extract_anthropic_text` takes from a block. -/
def blockText (item : Json) : String :=
  if item.isObject ∧ item.getString "type" = some "text" then (item.getString "text").getD ""
  else ""

/-- The call that `turbo_provider_collect_anthropic_tool_calls` takes from a block. -/
def blockCall (codec : JsonCodec) (item : Json) : Option Json :=
  if item.isObject ∧ item.getString "type" = some "tool_use" then
    match item.getString "id", item.getString "name", item.field "input" with
    | some callId, some name, some input =>
        some (toolCallRecord callId name (codec.serialize input).val)
    | _, _, _ => none
  else none

/-- `content` of a response, when it is an array. -/
def content (response : Json) : List Json :=
  match response.field "content" with
  | some (.array items) => items
  | _ => []

/-- `turbo_provider_extract_anthropic_text`. -/
def extractText (response : Json) : String :=
  (content response).foldl (fun buffer item => buffer ++ blockText item) ""

/-- `turbo_provider_collect_anthropic_tool_calls`. -/
def collectToolCalls (codec : JsonCodec) (response : Json) : List Json :=
  (content response).filterMap (blockCall codec)

/-- `turbo_provider_response_to_event_json_value` for this provider. -/
def responseToEvent (codec : JsonCodec) (response : Json) : Option Json :=
  if !response.isObject then none
  else
    let event := modelEvent ((response.getString "id").getD "") (extractText response)
      (collectToolCalls codec response)
    if modelEventValid event then some event else none

/-! ## The stream -/

/-- `turbo_agent_sse_tool_call_t`. -/
structure ToolCall where
  (id type name arguments : Option String)
  deriving DecidableEq

/-- A slot that `turbo_agent_sse_ensure_tool_call_capacity` has cleared. -/
def ToolCall.empty : ToolCall := ⟨none, none, none, none⟩

/-- `turbo_agent_sse_anthropic_stream_state_t`. -/
structure StreamState where
  (id role content stopReason : Option String)
  toolCalls : List ToolCall
  deriving DecidableEq

def StreamState.initial : StreamState := ⟨none, none, none, none, []⟩

/-- `turbo_agent_sse_set_if_nonempty`. -/
def setIfNonempty (target text : Option String) : Option String :=
  match text with
  | none => target
  | some text => if text = "" then target else some text

/-- `turbo_agent_sse_append_dynamic_text`. -/
def appendText (buffer : Option String) (text : String) : Option String :=
  some (buffer.getD "" ++ text)

def appendIfPresent (buffer text : Option String) : Option String :=
  match text with
  | none => buffer
  | some text => appendText buffer text

/-- `turbo_agent_sse_ensure_tool_call_capacity`. -/
def ensureCapacity (toolCalls : List ToolCall) (index : Nat) : List ToolCall :=
  toolCalls ++ List.replicate (index + 1 - toolCalls.length) ToolCall.empty

def updateSlot (toolCalls : List ToolCall) (index : Nat) (change : ToolCall → ToolCall) :
    List ToolCall :=
  (ensureCapacity toolCalls index).modify index change

/-- The arguments that the start of a tool block replaces, if any. -/
def startArguments (codec : JsonCodec) (input : Option Json) : Option String :=
  match input with
  | none => none
  | some (.object []) => none
  | some (.object fields) => some (codec.serialize (.object fields)).val
  | some _ => some "\x7b\x7d"

/-- `content_block_start` of `turbo_agent_sse_anthropic_apply_event`. -/
def applyBlockStart (codec : JsonCodec) (state : StreamState) (event : Json) :
    Option StreamState :=
  match event.field "content_block" with
  | some block =>
      if !block.isObject then none
      else
        let index := getInt event "index" 0
        if index < 0 then none
        else if block.getString "type" = some "text" then
          some { state with content := appendIfPresent state.content (block.getString "text") }
        else if block.getString "type" = some "tool_use" then
          some { state with
            toolCalls := updateSlot state.toolCalls index.toNat fun call => {
              id := setIfNonempty call.id (block.getString "id")
              type := setIfNonempty call.type (some "tool_use")
              name := setIfNonempty call.name (block.getString "name")
              arguments := (startArguments codec (block.field "input")).or call.arguments } }
        else some state
  | none => none

/-- `content_block_delta` of `turbo_agent_sse_anthropic_apply_event`. -/
def applyBlockDelta (state : StreamState) (event : Json) : Option StreamState :=
  match event.field "delta" with
  | some delta =>
      if !delta.isObject then none
      else
        let index := getInt event "index" 0
        if index < 0 then none
        else if delta.getString "type" = some "text_delta" then
          some { state with content := appendIfPresent state.content (delta.getString "text") }
        else if delta.getString "type" = some "input_json_delta" then
          some { state with
            toolCalls := updateSlot state.toolCalls index.toNat fun call => { call with
              type := setIfNonempty call.type (some "tool_use")
              arguments := appendIfPresent call.arguments (delta.getString "partial_json") } }
        else some state
  | none => none

/-- `turbo_agent_sse_anthropic_apply_event`. -/
def applyEvent (codec : JsonCodec) (state : StreamState) (event : Json) : Option StreamState :=
  if !event.isObject then none
  else
    match event.getString "type" with
    | none => none
    | some "message_start" =>
        match event.field "message" with
        | some message =>
            if !message.isObject then none
            else some { state with
              id := setIfNonempty state.id (message.getString "id")
              role := setIfNonempty state.role (message.getString "role") }
        | none => none
    | some "content_block_start" => applyBlockStart codec state event
    | some "content_block_delta" => applyBlockDelta state event
    | some "message_delta" =>
        match event.field "delta" with
        | some delta =>
            if !delta.isObject then none
            else some { state with
              stopReason := setIfNonempty state.stopReason (delta.getString "stop_reason") }
        | none => none
    | some _ => some state

/-- `turbo_agent_sse_tool_call_input_object`. -/
def inputObject (codec : JsonCodec) (call : ToolCall) : Option Json :=
  match call.arguments with
  | none => some (.object [])
  | some arguments => if arguments = "" then some (.object []) else codec.parse arguments

/-- `turbo_prompt_tool_use_part_create` for a slot. -/
def toolUsePart (codec : JsonCodec) (call : ToolCall) : Option Json :=
  match call.id, call.name with
  | some id, some name => (inputObject codec call).map fun input =>
      .object [("type", .string "tool_use"), ("id", .string id), ("name", .string name),
        ("input", input)]
  | _, _ => none

/-- `turbo_prompt_content_text_part_create`. -/
def textPart (text : String) : Json :=
  .object [("type", .string "text"), ("text", .string text)]

def textParts (content : Option String) : List Json :=
  match content with
  | none => []
  | some text => if text = "" then [] else [textPart text]

/-- `turbo_agent_sse_build_anthropic_response_json` before it is serialized. -/
def buildResponse (codec : JsonCodec) (state : StreamState) : Option Json :=
  match state.id, state.role with
  | some id, some role =>
      if role = "" then none
      else (state.toolCalls.mapM (toolUsePart codec)).map fun toolUses =>
        .object [("id", .string id), ("role", .string role),
          ("content", .array (textParts state.content ++ toolUses)),
          ("stop_reason", .string (state.stopReason.getD "end_turn"))]
  | _, _ => none

/-- The loop of `turbo_agent_anthropic_messages_sse_to_json`; the flag is `saw_event`. -/
def applyFrames (codec : JsonCodec) : List (List Char) → StreamState → Bool →
    Option (StreamState × Bool)
  | [], state, saw => some (state, saw)
  | frame :: rest, state, saw =>
      let data := String.ofList (collectEventData frame)
      if data = "[DONE]" then some (state, saw)
      else if data = "" then applyFrames codec rest state saw
      else
        match codec.parse data with
        | none => none
        | some event =>
            match event.getString "type" with
            | none => applyFrames codec rest state saw
            | some type =>
                if type = "ping" then applyFrames codec rest state saw
                else
                  match applyEvent codec state event with
                  | none => none
                  | some state =>
                      if type = "message_stop" then some (state, true)
                      else applyFrames codec rest state true

/-- `turbo_agent_anthropic_messages_sse_to_json`. -/
def sseToJson (codec : JsonCodec) (bytes : List Char) : Option String :=
  match applyFrames codec (framesOf (normalizeNewlines bytes)) .initial false with
  | some (state, true) => (buildResponse codec state).map fun response =>
      (codec.serialize response).val
  | _ => none

/-- `turbo_provider_sse_to_event_json_value` for this provider. -/
def sseToEvent (codec : JsonCodec) (bytes : List Char) : Option Json :=
  match sseToJson codec bytes with
  | none => none
  | some text =>
      match codec.parse text with
      | none => none
      | some response => responseToEvent codec response

end Anthropic

end TurboAgent.Provider
