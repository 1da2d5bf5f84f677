import TurboAgent.Provider.Sse

/-!
# Chains

A chain runs prompt, model and tool steps one after the other over a state: a JSON object with
an input, messages, model outputs, tool requests and tool results.  Two executors run it, one on
a plain state that it changes in place and one on a bound copy, and every step has a branch for
each.

Models and tools are deterministic: functions of what they are called with.  Rendering of
templates and the JSON library are parameters, allocations succeed, and no event sink is set.
-/

namespace TurboAgent.Chain

open Provider (JsonCodec)

/-- `turbo_chain_status_t`, without the status of a step that cannot be added. -/
inductive Status where
  | ok
  | stop
  | error
  | invalidArgument
  | outOfMemory
  deriving DecidableEq

/-- `turbo_model_result_t`. -/
structure ModelResult where
  (outputText toolName toolArgumentsJson : Option CString)

/-- `turbo_model_json_value_result_t`. -/
structure ModelJsonValueResult where
  (outputText toolName : Option CString)
  toolArguments : Option Json

/-- `turbo_model_t`.  A callback that fails has no result. -/
structure Model where
  invoke : Option (List Json → Option ModelResult)
  invokeJsonValue : Option (List Json → Option ModelJsonValueResult)

/-- A tool of a registry.  A callback that fails has no result; one that succeeds may leave its
output unset. -/
structure Tool where
  name : String
  (handler contextHandler : Option (String → Option (Option String)))
  (jsonValueHandler jsonValueContextHandler : Option (Json → Option (Option Json)))

/-- The callbacks that a chain enters, with the number of the step or of the tool request. -/
inductive Invocation where
  | model (step : Nat) (messages : List Json)
  | textTool (request : Nat) (name arguments : String)
  | jsonValueTool (request : Nat) (name : String) (arguments : Json)
  deriving DecidableEq

/-! ## The registry -/

/-- `turbo_tool_openai_compatible_name_equals`. -/
def compatibleNameEquals (original compatible : String) : Bool :=
  (original.toList.map fun ch => if isIdChar ch then ch else '_') == compatible.toList

/-- `turbo_tool_registry_find`: the tool with the name, or the only one with a compatible name. -/
def find (tools : List Tool) (name : String) : Option Tool :=
  match tools.find? fun tool => tool.name == name with
  | some tool => some tool
  | none =>
      match tools.filter fun tool => compatibleNameEquals tool.name name with
      | [tool] => some tool
      | _ => none

def textCallback (tools : List Tool) (name : String) : Option (String → Option (Option String)) :=
  (find tools name).bind fun tool => tool.handler.or tool.contextHandler

def jsonValueCallback (tools : List Tool) (name : String) : Option (Json → Option (Option Json)) :=
  (find tools name).bind fun tool => tool.jsonValueHandler.or tool.jsonValueContextHandler

/-- `turbo_tool_registry_execute`. -/
def execute (tools : List Tool) (request : Nat) (name arguments : String) :
    Option (Option String) × List Invocation :=
  match textCallback tools name with
  | none => (none, [])
  | some callback => (callback arguments, [.textTool request name arguments])

/-- `turbo_tool_registry_execute_json_value`. -/
def executeJsonValue (tools : List Tool) (request : Nat) (name : String) (arguments : Json) :
    Option (Option Json) × List Invocation :=
  match jsonValueCallback tools name with
  | none => (none, [])
  | some callback => (callback arguments, [.jsonValueTool request name arguments])

/-! ## The state -/

/-- `turbo_chain_state_require_object`: an object under a key, put there if there is none. -/
def stateRequireObject (state : Json) (key : String) : Json :=
  match state.field key with
  | some (.object _) => state
  | some _ => (state.set key .null).set key (.object [])
  | none => state.set key (.object [])

/-- `turbo_chain_state_require_array`. -/
def stateRequireArray (state : Json) (key : String) : Json :=
  match state.field key with
  | some (.array _) => state
  | some _ => (state.set key .null).set key (.array [])
  | none => state.set key (.array [])

/-- `turbo_chain_json_value_state_require_object`. -/
def jsonValueStateRequireObject (state : Json) (key : String) : Json :=
  match state.field key with
  | some (.object _) => state
  | _ => state.set key (.object [])

/-- `turbo_chain_json_value_state_require_array`. -/
def jsonValueStateRequireArray (state : Json) (key : String) : Json :=
  match state.field key with
  | some (.array _) => state
  | _ => state.set key (.array [])

def elements (state : Json) (key : String) : List Json :=
  match state.field key with
  | some (.array elements) => elements
  | _ => []

def addElement (state : Json) (key : String) (element : Json) : Json :=
  state.set key (.array (elements state key ++ [element]))

/-- `turbo_prompt_message_create`. -/
def message (role content : String) : Json :=
  .object [("role", .string role), ("content", .string content)]

/-- `turbo_chain_append_message`. -/
def appendMessage (state : Json) (role content : String) : Json :=
  addElement (stateRequireArray state "messages") "messages" (message role content)

/-- `turbo_chain_append_message_json_value`. -/
def appendMessageJsonValue (state : Json) (role content : String) : Json :=
  addElement (jsonValueStateRequireArray state "messages") "messages" (message role content)

def noArguments : String := "\x7b\x7d"

section

variable (codec : JsonCodec)

/-- A tool request as a model asks for it, with the value of its arguments. -/
def requestWithValue (name : String) (arguments : Option Json) : Json :=
  match arguments with
  | some value =>
      .object [("name", .string name), ("arguments", value),
        ("arguments_json", .string (codec.serialize value).val)]
  | none => .object [("name", .string name), ("arguments_json", .string noArguments)]

def requestWithText (name : String) (argumentsJson : Option CString) : Json :=
  .object [("name", .string name),
    ("arguments_json", .string ((argumentsJson.map Subtype.val).getD noArguments))]

/-- `turbo_chain_store_tool_request_json`. -/
def storeToolRequestJson (state : Json) (name : String) (argumentsJson : Option CString) : Json :=
  addElement (stateRequireArray state "tool_requests") "tool_requests"
    (requestWithText name argumentsJson)

/-- `turbo_chain_store_tool_request_json_value`. -/
def storeToolRequestJsonValue (state : Json) (name : String) (arguments : Option Json) : Json :=
  addElement (stateRequireArray state "tool_requests") "tool_requests"
    (requestWithValue codec name arguments)

/-- `turbo_chain_store_tool_request_json_value_state`. -/
def storeToolRequestJsonValueState (state : Json) (name : String) (arguments : Option Json) : Json :=
  addElement (jsonValueStateRequireArray state "tool_requests") "tool_requests"
    (requestWithValue codec name arguments)

/-- `turbo_chain_store_tool_result_json`. -/
def storeToolResultJson (state : Json) (name : String) (argumentsJson : Option String)
    (output : String) : Json :=
  addElement (stateRequireArray state "tool_results") "tool_results"
    (.object [("name", .string name), ("arguments_json", .string (argumentsJson.getD noArguments)),
      ("output", .string output)])

def argumentFields (arguments : Option Json) : List (String × Json) :=
  match arguments with
  | some value => [("arguments", value), ("arguments_json", .string (codec.serialize value).val)]
  | none => [("arguments_json", .string noArguments)]

def outputFields (outputValue : Option Json) : List (String × Json) :=
  match outputValue with
  | some value => [("output_value", value)]
  | none => []

/-- `turbo_chain_store_tool_result_json_value`. -/
def storeToolResultJsonValue (state : Json) (name : String) (arguments outputValue : Option Json)
    (output : String) : Json :=
  addElement (stateRequireArray state "tool_results") "tool_results"
    (.object ([("name", .string name)] ++ argumentFields codec arguments ++
      [("output", .string output)] ++ outputFields outputValue))

/-- `turbo_chain_store_tool_result_json_value_state`. -/
def storeToolResultJsonValueState (state : Json) (name : String)
    (arguments outputValue : Option Json) (output : String) : Json :=
  addElement (jsonValueStateRequireArray state "tool_results") "tool_results"
    (.object ([("name", .string name), ("output", .string output)] ++
      argumentFields codec arguments ++ outputFields outputValue))

end

/-! ## Steps -/

inductive Step where
  | prompt (role templateText : String)
  | model (model : Model)
  | tool (tools : List Tool)

/-- What a step or a chain does: its status, the state, and the callbacks it entered. -/
structure Ran where
  status : Status
  state : Json
  calls : List Invocation

/-- The parameters: the JSON library, and compiling and rendering a template. -/
structure Library where
  codec : JsonCodec
  mustache : String → Json → Option String

section

variable (library : Library)

/-- `turbo_prompt_render_template`. -/
def renderTemplate (templateText : String) (input : Json) : Option String :=
  (library.codec.parse (library.codec.serialize input).val).bind (library.mustache templateText)

/-- `turbo_chain_prompt_step_run` on a plain state. -/
def promptStepRun (role templateText : String) (state : Json) : Ran :=
  let state := stateRequireObject state "input"
  match renderTemplate library templateText ((state.field "input").getD .null) with
  | none => ⟨.outOfMemory, state, []⟩
  | some rendered => ⟨.ok, appendMessage state role rendered, []⟩

/-- `turbo_chain_prompt_step_run` on a bound state. -/
def promptStepRunJsonValue (role templateText : String) (state : Json) : Ran :=
  let state := jsonValueStateRequireObject state "input"
  match renderTemplate library templateText ((state.field "input").getD .null) with
  | none => ⟨.outOfMemory, state, []⟩
  | some rendered => ⟨.ok, appendMessageJsonValue state role rendered, []⟩

/-- Store the output of a model in a plain state. -/
def storeOutput (state : Json) (outputText : Option CString) : Json :=
  match outputText with
  | none => state
  | some text =>
      addElement (stateRequireArray (appendMessage state "assistant" text.val) "model_outputs")
        "model_outputs" (.object [("text", .string text.val)])

/-- Store the output of a model in a bound state. -/
def storeOutputJsonValue (state : Json) (outputText : Option CString) : Json :=
  match outputText with
  | none => state
  | some text =>
      addElement
        (appendMessageJsonValue (jsonValueStateRequireArray state "model_outputs") "assistant"
          text.val)
        "model_outputs" (.object [("text", .string text.val)])

/-- `turbo_chain_model_step_run` on a plain state. -/
def modelStepRun (index : Nat) (model : Model) (state : Json) : Ran :=
  match model.invokeJsonValue, model.invoke with
  | some invoke, _ =>
      let state := stateRequireArray state "messages"
      let messages := elements state "messages"
      match invoke messages with
      | none => ⟨.error, state, [.model index messages]⟩
      | some result =>
          let state := storeOutput state result.outputText
          match result.toolName with
          | none => ⟨.ok, state, [.model index messages]⟩
          | some name =>
              ⟨.ok, storeToolRequestJsonValue library.codec state name.val result.toolArguments,
                [.model index messages]⟩
  | none, some invoke =>
      let state := stateRequireArray state "messages"
      let messages := elements state "messages"
      match invoke messages with
      | none => ⟨.error, state, [.model index messages]⟩
      | some result =>
          let state := storeOutput state result.outputText
          match result.toolName with
          | none => ⟨.ok, state, [.model index messages]⟩
          | some name =>
              ⟨.ok, storeToolRequestJson state name.val result.toolArgumentsJson,
                [.model index messages]⟩
  | none, none => ⟨.invalidArgument, state, []⟩

/-- `turbo_chain_model_step_run` on a bound state. -/
def modelStepRunJsonValue (index : Nat) (model : Model) (state : Json) : Ran :=
  match model.invokeJsonValue, model.invoke with
  | some invoke, _ =>
      let state := jsonValueStateRequireArray state "messages"
      let messages := elements state "messages"
      match invoke messages with
      | none => ⟨.error, state, [.model index messages]⟩
      | some result =>
          let state := storeOutputJsonValue state result.outputText
          match result.toolName with
          | none => ⟨.ok, state, [.model index messages]⟩
          | some name =>
              ⟨.ok, storeToolRequestJsonValueState library.codec state name.val result.toolArguments,
                [.model index messages]⟩
  | none, some invoke =>
      let state := jsonValueStateRequireArray state "messages"
      let messages := elements state "messages"
      match invoke messages with
      | none => ⟨.error, state, [.model index messages]⟩
      | some result =>
          let state := storeOutputJsonValue state result.outputText
          match result.toolName with
          | none => ⟨.ok, state, [.model index messages]⟩
          | some name =>
              match result.toolArgumentsJson with
              | none =>
                  ⟨.ok, storeToolRequestJsonValueState library.codec state name.val none,
                    [.model index messages]⟩
              | some text =>
                  match library.codec.parse text.val with
                  | none => ⟨.error, state, [.model index messages]⟩
                  | some value =>
                      ⟨.ok, storeToolRequestJsonValueState library.codec state name.val (some value),
                        [.model index messages]⟩
  | none, none => ⟨.invalidArgument, state, []⟩

def runTextRequest (tools : List Tool) (index : Nat) (name : String)
    (argumentsJson : Option String) (state : Json) : Ran :=
  match execute tools index name (argumentsJson.getD noArguments) with
  | (none, calls) => ⟨.error, state, calls⟩
  | (some output, calls) =>
      ⟨.ok, storeToolResultJson (appendMessage state "tool" (output.getD "")) name argumentsJson
        (output.getD ""), calls⟩

def runValueRequest (tools : List Tool) (index : Nat) (name : String) (arguments state : Json) : Ran :=
  match executeJsonValue tools index name arguments with
  | (none, calls) => ⟨.error, state, calls⟩
  | (some none, calls) => ⟨.outOfMemory, state, calls⟩
  | (some (some output), calls) =>
      let text := (library.codec.serialize output).val
      ⟨.ok, storeToolResultJsonValue library.codec (appendMessage state "tool" text) name
        (some arguments) (some output) text, calls⟩

def runRequest (tools : List Tool) (index : Nat) (name : String) (request state : Json) : Ran :=
  match request.field "arguments" with
  | some arguments => runValueRequest library tools index name arguments state
  | none => runTextRequest tools index name (request.getString "arguments_json") state

/-- `turbo_chain_tool_step_run` on a plain state. -/
def toolStepRun (tools : List Tool) (state : Json) : Ran :=
  let state := stateRequireArray (stateRequireArray state "tool_requests") "tool_results"
  let index := (elements state "tool_results").length
  match (elements state "tool_requests")[index]? with
  | none => ⟨.ok, state, []⟩
  | some request =>
      if !request.isObject then ⟨.invalidArgument, state, []⟩
      else
        match request.getString "name" with
        | none => ⟨.invalidArgument, state, []⟩
        | some name => runRequest library tools index name request state

def runTextRequestJsonValue (tools : List Tool) (index : Nat) (name : String)
    (arguments : Option Json) (argumentsJson : Option String) (state : Json)
    (entered : List Invocation) : Ran :=
  match execute tools index name (argumentsJson.getD noArguments) with
  | (none, calls) => ⟨.error, state, entered ++ calls⟩
  | (some output, calls) =>
      ⟨.ok, storeToolResultJsonValueState library.codec
        (appendMessageJsonValue state "tool" (output.getD "")) name arguments none
        (output.getD ""), entered ++ calls⟩

def runRequestJsonValue (tools : List Tool) (index : Nat) (name : String) (request state : Json) :
    Ran :=
  match request.field "arguments" with
  | some arguments =>
      match executeJsonValue tools index name arguments with
      | (some (some output), calls) =>
          let text := (library.codec.serialize output).val
          ⟨.ok, storeToolResultJsonValueState library.codec
            (appendMessageJsonValue state "tool" text) name (some arguments) (some output) text,
            calls⟩
      | (some none, calls) => ⟨.outOfMemory, state, calls⟩
      | (none, calls) =>
          runTextRequestJsonValue library tools index name (some arguments)
            (request.getString "arguments_json") state calls
  | none =>
      runTextRequestJsonValue library tools index name none (request.getString "arguments_json")
        state []

/-- `turbo_chain_tool_step_run` on a bound state. -/
def toolStepRunJsonValue (tools : List Tool) (state : Json) : Ran :=
  let state := jsonValueStateRequireArray (jsonValueStateRequireArray state "tool_requests")
    "tool_results"
  let index := (elements state "tool_results").length
  match (elements state "tool_requests")[index]? with
  | none => ⟨.ok, state, []⟩
  | some request =>
      if !request.isObject then ⟨.invalidArgument, state, []⟩
      else
        match request.getString "name" with
        | none => ⟨.invalidArgument, state, []⟩
        | some name => runRequestJsonValue library tools index name request state

/-! ## Executors -/

def runStep (index : Nat) (state : Json) : Step → Ran
  | .prompt role templateText => promptStepRun library role templateText state
  | .model model => modelStepRun library index model state
  | .tool tools => toolStepRun library tools state

def runStepJsonValue (index : Nat) (state : Json) : Step → Ran
  | .prompt role templateText => promptStepRunJsonValue library role templateText state
  | .model model => modelStepRunJsonValue library index model state
  | .tool tools => toolStepRunJsonValue library tools state

/-- The loop of both executors: a step that does not succeed ends it. -/
def runSteps (step : Nat → Json → Step → Ran) : Nat → List Step → Json → Ran
  | _, [], state => ⟨.ok, state, []⟩
  | index, first :: steps, state =>
      let ran := step index state first
      if ran.status = .ok then
        let rest := runSteps step (index + 1) steps ran.state
        ⟨rest.status, rest.state, ran.calls ++ rest.calls⟩
      else ran

/-- `turbo_chain_run`. -/
def chainRun (chain : List Step) (state : Json) : Ran :=
  if state.isObject then runSteps (runStep library) 0 chain state
  else ⟨.invalidArgument, state, []⟩

/-- `turbo_chain_run_json_value`, whose output state is the one of a run that succeeds. -/
def chainRunJsonValue (chain : List Step) (state : Json) : Ran :=
  if state.isObject then runSteps (runStepJsonValue library) 0 chain state
  else ⟨.invalidArgument, state, []⟩

end

end TurboAgent.Chain
