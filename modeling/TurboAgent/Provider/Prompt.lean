import TurboAgent.Provider.Anthropic

/-!
# Prompt messages

A conversation is a list of messages: a role, a content (a text, nothing, or parts), and
possibly tool calls or the id of the call that the message answers.  It is exported to three
wire formats.  Strings are read as C strings on the way.
-/

namespace TurboAgent.Provider.Prompt

/-- `turbo_runtime_json_value_as_string` and `json_string`. -/
def asString : Json → Option String
  | .string text => some (String.ofList (text.toList.takeWhile (· ≠ '\x00')))
  | _ => none

/-- `json_type(value) == JSON_STRING`. -/
def isString : Json → Bool
  | .string _ => true
  | _ => false

def elements : Json → List Json
  | .array values => values
  | _ => []

def hasString (record : Json) (key : String) : Bool :=
  (record.field key).any isString

def hasObject (record : Json) (key : String) : Bool :=
  (record.field key).any Json.isObject

/-- `tool_calls` of a message, none when it has none. -/
def toolCalls (message : Json) : List Json :=
  ((message.field "tool_calls").map elements).getD []

/-! ## Validation -/

/-- The check of `turbo_prompt_message_validate_json_value` on a part. -/
def partValid (part : Json) : Bool :=
  part.isObject &&
  match part.getString "type" with
  | some "text" => hasString part "text"
  | some "tool_use" => hasString part "id" && hasString part "name" && hasObject part "input"
  | some "tool_result" => hasString part "tool_use_id" && hasString part "content"
  | _ => false

/-- The check of `turbo_prompt_message_validate_json_value` on the content. -/
def contentValid : Json → Bool
  | .string _ => true
  | .null => true
  | .array parts => parts.all partValid
  | _ => false

/-- The check of `turbo_prompt_message_validate_json_value` on a tool call. -/
def toolCallValid (call : Json) : Bool :=
  call.isObject && hasString call "id" && hasString call "type" &&
  match call.field "function" with
  | some function =>
      function.isObject && hasString function "name" &&
        (function.field "arguments").any fun arguments => isString arguments || arguments.isObject
  | none => false

/-- The check of `turbo_prompt_message_validate_json_value` on `tool_calls`. -/
def toolCallsValid : Json → Bool
  | .array calls => calls.all toolCallValid
  | _ => false

/-- `turbo_prompt_message_validate_json_value`. -/
def messageValid (message : Json) : Bool :=
  message.isObject && hasString message "role" && (message.field "content").any contentValid &&
    (message.field "tool_call_id").all isString && (message.field "tool_calls").all toolCallsValid

/-! ## Chat -/

/-- `turbo_prompt_content_part_to_json`. -/
def partToJson (part : Json) : Option Json :=
  if !part.isObject then none
  else
    match part.getString "type" with
    | none => none
    | some "tool_use" => (part.field "input").map fun input => part.set "input" input
    | some _ => some part

/-- `turbo_prompt_content_json_value_to_json`. -/
def contentToJson : Json → Option Json
  | .null => some .null
  | .string text => (asString (.string text)).map .string
  | .array parts => (parts.mapM partToJson).map .array
  | _ => none

def stringField (key : String) (value : Option String) : List (String × Json) :=
  (value.map fun text => (key, Json.string text)).toList

/-- `turbo_prompt_message_to_openai_chat_json`. -/
def messageToChat (message : Json) : Option Json :=
  if !messageValid message then none
  else
    match message.getString "role", message.field "content" with
    | some role, some content => (contentToJson content).map fun converted =>
        .object ([("role", .string role), ("content", converted)] ++
          stringField "tool_call_id" (message.getString "tool_call_id") ++
          ((message.field "tool_calls").map fun calls =>
            ("tool_calls", Json.array (elements calls))).toList)
    | _, _ => none

/-- `turbo_prompt_messages_to_openai_chat_json`. -/
def messagesToChat (messages : Json) : Option Json :=
  match messages with
  | .array messages => (messages.mapM messageToChat).map .array
  | _ => none

/-! ## Responses -/

/-- `turbo_prompt_responses_text`. -/
def responsesText (role : String) (text : Option String) : Option Json :=
  text.map fun text => .object [("role", .string role), ("content", .string text)]

/-- `turbo_prompt_responses_call`. -/
def responsesCall (codec : JsonCodec) (id name : Option String) (arguments : Option Json) :
    Option Json :=
  match id, name, arguments with
  | some id, some name, some arguments =>
      if id = "" ∨ name = "" then none
      else
        let text :=
          if arguments.isObject then some (codec.serialize arguments).val else asString arguments
        text.map fun text => .object [("type", .string "function_call"), ("call_id", .string id),
          ("name", .string name), ("arguments", .string text)]
  | _, _, _ => none

/-- `turbo_prompt_responses_result`. -/
def responsesResult (id output : Option String) : Option Json :=
  match id, output with
  | some id, some output =>
      if id = "" then none
      else some (.object [("type", .string "function_call_output"), ("call_id", .string id),
        ("output", .string output)])
  | _, _ => none

/-- One part of `turbo_prompt_messages_to_openai_responses_json`. -/
def responsesPart (codec : JsonCodec) (role : String) (part : Json) : Option Json :=
  match part.getString "type" with
  | some "text" => responsesText role (part.getString "text")
  | some "tool_use" =>
      if role ≠ "assistant" then none
      else responsesCall codec (part.getString "id") (part.getString "name") (part.field "input")
  | _ => responsesResult (part.getString "tool_use_id") (part.getString "content")

/-- The content in `turbo_prompt_messages_to_openai_responses_json`. -/
def responsesContent (codec : JsonCodec) (role : String) (calls : Option Json) :
    Json → Option (List Json)
  | .string text =>
      if calls.isNone ∨ text ≠ "" then
        (responsesText role (asString (.string text))).map fun item => [item]
      else some []
  | .array parts => parts.mapM (responsesPart codec role)
  | _ => some []

/-- One call of `turbo_prompt_messages_to_openai_responses_json`. -/
def responsesToolCall (codec : JsonCodec) (call : Json) : Option Json :=
  if call.getString "type" ≠ some "function" then none
  else
    let function := (call.field "function").getD .null
    responsesCall codec (call.getString "id") (function.getString "name")
      (function.field "arguments")

/-- One message of `turbo_prompt_messages_to_openai_responses_json`. -/
def messageToResponses (codec : JsonCodec) (message : Json) : Option (List Json) :=
  if !messageValid message then none
  else
    match message.getString "role", message.field "content" with
    | some role, some content =>
        let calls := message.field "tool_calls"
        if role = "tool" then
          if calls.isSome then none
          else
            (responsesResult (message.getString "tool_call_id") (asString content)).map
              fun item => [item]
        else if role ∉ ["user", "assistant", "system", "developer"] then none
        else if calls.isSome ∧ role ≠ "assistant" then none
        else do
          let items ← responsesContent codec role calls content
          let callItems ← (toolCalls message).mapM (responsesToolCall codec)
          some (items ++ callItems)
    | _, _ => none

/-- `turbo_prompt_messages_to_openai_responses_json`. -/
def messagesToResponses (codec : JsonCodec) (messages : Json) : Option Json :=
  match messages with
  | .array messages => (messages.mapM (messageToResponses codec)).map fun items =>
      .array items.flatten
  | _ => none

/-! ## Anthropic -/

/-- `input_json` of `turbo_prompt_tool_call_to_anthropic_part`. -/
def inputJson (codec : JsonCodec) (arguments : Json) : Json :=
  match asString arguments with
  | some text => (codec.parse text).getD (.object [])
  | none => arguments

/-- `turbo_prompt_tool_call_to_anthropic_part`; a null id or name is not written. -/
def toolCallToPart (codec : JsonCodec) (call : Json) : Option Json :=
  match call.field "function" with
  | none => none
  | some function =>
      (function.field "arguments").map fun arguments =>
        .object ([("type", .string "tool_use")] ++ stringField "id" (call.getString "id") ++
          stringField "name" (function.getString "name") ++
          [("input", inputJson codec arguments)])

/-- The content of an assistant message with tool calls before its calls. -/
def assistantParts : Json → Option (List Json)
  | .string text =>
      match asString (.string text) with
      | some text => some (if text = "" then [] else [Anthropic.textPart text])
      | none => some []
  | .array parts => parts.mapM partToJson
  | _ => some []

/-- `turbo_prompt_tool_result_part_create`. -/
def toolResultPart (id output : String) : Json :=
  .object [("type", .string "tool_result"), ("tool_use_id", .string id),
    ("content", .string output)]

def anthropicMessage (role : String) (content : Json) : Json :=
  .object [("role", .string role), ("content", content)]

/-- `turbo_prompt_message_to_anthropic_json`. -/
def messageToAnthropic (codec : JsonCodec) (message : Json) : Option Json :=
  if !messageValid message then none
  else
    match message.getString "role", message.field "content" with
    | some "system", some _ => none
    | some "assistant", some content =>
        match message.field "tool_calls" with
        | some calls => do
            let parts ← assistantParts content
            let uses ← (elements calls).mapM (toolCallToPart codec)
            some (anthropicMessage "assistant" (.array (parts ++ uses)))
        | none => (contentToJson content).map (anthropicMessage "assistant")
    | some "tool", some content =>
        match message.getString "tool_call_id", asString content with
        | some id, some output =>
            some (anthropicMessage "user" (.array [toolResultPart id output]))
        | _, _ => none
    | some _, some content => (contentToJson content).map (anthropicMessage "user")
    | _, _ => none

/-- `turbo_prompt_status_t` of a failure. -/
inductive Status where
  | invalidArgument
  | outOfMemory
  deriving DecidableEq

/-- The system text after another one: `turbo_prompt_join_strings` with an empty line. -/
def joinSystem (system : Option String) (text : String) : String :=
  match system with
  | some system => system ++ "\n\n" ++ text
  | none => text

/-- The loop of `turbo_prompt_messages_to_anthropic_json`. -/
def anthropicLoop (codec : JsonCodec) : List Json → Option String →
    Except Status (List Json × Option String)
  | [], system => .ok ([], system)
  | message :: rest, system =>
      if !messageValid message then .error .invalidArgument
      else if message.getString "role" = some "system" then
        match (message.field "content").bind asString with
        | none => .error .invalidArgument
        | some text => anthropicLoop codec rest (some (joinSystem system text))
      else
        match messageToAnthropic codec message with
        | none => .error .outOfMemory
        | some converted =>
            (anthropicLoop codec rest system).map fun (messages, system) =>
              (converted :: messages, system)

/-- `turbo_prompt_messages_to_anthropic_json`. -/
def messagesToAnthropic (codec : JsonCodec) (messages : Json) :
    Except Status (Json × Option String) :=
  match messages with
  | .array messages => (anthropicLoop codec messages none).map fun (messages, system) =>
      (.array messages, system)
  | _ => .error .invalidArgument

end TurboAgent.Provider.Prompt
