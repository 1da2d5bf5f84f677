import TurboAgent.Chain.Model
import TurboAgent.Data.Fields
import TurboAgent.Logic.Lists

/-!
# The executors of a chain

The two branches of a step store the same messages and outputs, but they differ for tools.  A
request that a model makes with a text of arguments is kept as a text in a plain state and also
as a value in a bound one; a value that fails is run again as a text in a bound state only; and
a text that was run is kept with its result in a plain state only.  Runs whose tool steps stay
clear of the differences agree.
-/

namespace TurboAgent.Chain

open Json (set_set isObject_set field_set_same field_set_other)
open Provider (JsonCodec)

/-! ## Both branches of the state functions -/

theorem jsonValueStateRequireArray_eq : jsonValueStateRequireArray = stateRequireArray := by
  funext state key
  unfold jsonValueStateRequireArray stateRequireArray
  rw [set_set]
  cases state.field key with
  | none => rfl
  | some value => cases value <;> rfl

theorem jsonValueStateRequireObject_eq : jsonValueStateRequireObject = stateRequireObject := by
  funext state key
  unfold jsonValueStateRequireObject stateRequireObject
  rw [set_set]
  cases state.field key with
  | none => rfl
  | some value => cases value <;> rfl

theorem appendMessageJsonValue_eq : appendMessageJsonValue = appendMessage := by
  funext state role content
  rw [appendMessageJsonValue, jsonValueStateRequireArray_eq, appendMessage]

def inputOf (state : Json) : Json :=
  match state.field "input" with
  | some (.object fields) => .object fields
  | _ => .object []

section

variable {state : Json} {key other : String}

theorem isObject_require (state : Json) (key : String) :
    (stateRequireArray state key).isObject = state.isObject := by
  unfold stateRequireArray
  split
  next => rfl
  next => rw [isObject_set, isObject_set]
  next => rw [isObject_set]

theorem isObject_addElement (state : Json) (key : String) (element : Json) :
    (addElement state key element).isObject = state.isObject :=
  isObject_set state key _

theorem elements_require (object : state.isObject = true) (key other : String) :
    elements (stateRequireArray state key) other = elements state other := by
  unfold stateRequireArray
  by_cases same : key = other
  · subst same
    split
    next => rfl
    next value notArray stored =>
      rw [set_set, elements, field_set_same object, elements, stored]
      cases value with
      | array elements => exact absurd rfl (notArray elements)
      | _ => rfl
    next none => rw [elements, field_set_same object, elements, none]
  · split
    next => rfl
    next => rw [set_set, elements, field_set_other state _ same, elements]
    next => rw [elements, field_set_other state _ same, elements]

theorem inputOf_require (notInput : key ≠ "input") :
    inputOf (stateRequireArray state key) = inputOf state := by
  unfold stateRequireArray
  split
  next => rfl
  next => rw [set_set, inputOf, field_set_other state _ notInput, inputOf]
  next => rw [inputOf, field_set_other state _ notInput, inputOf]

theorem elements_add (object : state.isObject = true) (key other : String) (element : Json) :
    elements (addElement state key element) other =
      if key = other then elements state other ++ [element] else elements state other := by
  split
  next same => rw [elements, addElement, same, field_set_same object]
  next distinct => rw [elements, addElement, field_set_other state _ distinct, elements]

theorem stateRequireObject_input (object : state.isObject = true) :
    (stateRequireObject state "input").isObject = true ∧
      (stateRequireObject state "input").field "input" = some (inputOf state) ∧
      ∀ key, key ≠ "input" → elements (stateRequireObject state "input") key = elements state key := by
  unfold stateRequireObject
  split
  next fields stored => exact ⟨object, by rw [inputOf, stored], fun _ _ => rfl⟩
  next value notObject stored =>
    rw [set_set]
    refine ⟨(isObject_set _ _ _).trans object, ?_, fun key distinct => ?_⟩
    · rw [field_set_same object, inputOf, stored]
      cases value with
      | object fields => exact absurd rfl (notObject fields)
      | _ => rfl
    · rw [elements, field_set_other state _ distinct.symm, elements]
  next none =>
    refine ⟨(isObject_set _ _ _).trans object, ?_, fun key distinct => ?_⟩
    · rw [field_set_same object, inputOf, none]
    · rw [elements, field_set_other state _ distinct.symm, elements]

theorem inputOf_add (element : Json) (notInput : key ≠ "input") :
    inputOf (addElement state key element) = inputOf state := by
  rw [inputOf, addElement, field_set_other state _ notInput, inputOf]

end

/-! ## What is observed of a state -/

section

variable (codec : JsonCodec)

/-- The arguments of a request or a result: their value, or what their text says. -/
def argumentsOf (record : Json) : Option Json :=
  match record.field "arguments" with
  | some value => some value
  | none => (record.getString "arguments_json").bind codec.parse

def requestOf (record : Json) : Option Json × Option Json :=
  (record.field "name", argumentsOf codec record)

def resultOf (record : Json) : Option Json × Option Json × Option Json :=
  (record.field "name", argumentsOf codec record, record.field "output")

/-- The messages, model outputs, tool requests and tool results of a state. -/
def observed (state : Json) : List Json × List Json × List (Option Json × Option Json) ×
    List (Option Json × Option Json × Option Json) :=
  (elements state "messages", elements state "model_outputs",
    (elements state "tool_requests").map (requestOf codec),
    (elements state "tool_results").map (resultOf codec))

/-- A request in both states: the same record, or a text of arguments and its value. -/
inductive Matching : Json → Json → Prop where
  | same (request : Json) : Matching request request
  | parsed (name : String) (text : CString) (value : Json)
      (parse : codec.parse text.val = some value) :
      Matching (requestWithText name (some text)) (requestWithValue codec name (some value))

/-- A plain and a bound state of the same run. -/
structure Related (plain bound : Json) : Prop where
  plainObject : plain.isObject = true
  boundObject : bound.isObject = true
  input : inputOf plain = inputOf bound
  messages : elements plain "messages" = elements bound "messages"
  modelOutputs : elements plain "model_outputs" = elements bound "model_outputs"
  toolRequests : List.Forall₂ (Matching codec) (elements plain "tool_requests")
    (elements bound "tool_requests")
  toolResults : (elements plain "tool_results").map (resultOf codec) =
    (elements bound "tool_results").map (resultOf codec)

theorem Related.refl {state : Json} (object : state.isObject = true) :
    Related codec state state :=
  ⟨object, object, rfl, rfl, rfl, List.forall₂_same.mpr fun request _ => .same request, rfl⟩

end

namespace Related

variable {codec : JsonCodec} {plain bound : Json} {key : String}

theorem requirePlain (related : Related codec plain bound) (notInput : key ≠ "input") :
    Related codec (stateRequireArray plain key) bound := by
  have unchanged := fun other => elements_require related.plainObject key other
  refine ⟨(isObject_require plain key).trans related.plainObject, related.boundObject, ?_, ?_, ?_,
    ?_, ?_⟩
  · rw [inputOf_require notInput, related.input]
  · rw [unchanged, related.messages]
  · rw [unchanged, related.modelOutputs]
  · rw [unchanged]
    exact related.toolRequests
  · rw [unchanged, related.toolResults]

theorem requireBound (related : Related codec plain bound) (notInput : key ≠ "input") :
    Related codec plain (stateRequireArray bound key) := by
  have unchanged := fun other => elements_require related.boundObject key other
  refine ⟨related.plainObject, (isObject_require bound key).trans related.boundObject, ?_, ?_, ?_,
    ?_, ?_⟩
  · rw [inputOf_require notInput, related.input]
  · rw [unchanged, related.messages]
  · rw [unchanged, related.modelOutputs]
  · rw [unchanged]
    exact related.toolRequests
  · rw [unchanged, related.toolResults]

theorem require (related : Related codec plain bound) (notInput : key ≠ "input") :
    Related codec (stateRequireArray plain key) (stateRequireArray bound key) :=
  (related.requirePlain notInput).requireBound notInput

theorem requireObject (related : Related codec plain bound) :
    Related codec (stateRequireObject plain "input") (stateRequireObject bound "input") ∧
      (stateRequireObject plain "input").field "input" =
        (stateRequireObject bound "input").field "input" := by
  obtain ⟨plainObject, plainInput, plainOthers⟩ := stateRequireObject_input related.plainObject
  obtain ⟨boundObject, boundInput, boundOthers⟩ := stateRequireObject_input related.boundObject
  have same : (stateRequireObject plain "input").field "input" =
      (stateRequireObject bound "input").field "input" := by
    rw [plainInput, boundInput, related.input]
  refine ⟨⟨plainObject, boundObject, ?_, ?_, ?_, ?_, ?_⟩, same⟩
  · rw [inputOf, inputOf, same]
  · rw [plainOthers _ (by decide), boundOthers _ (by decide), related.messages]
  · rw [plainOthers _ (by decide), boundOthers _ (by decide), related.modelOutputs]
  · rw [plainOthers _ (by decide), boundOthers _ (by decide)]
    exact related.toolRequests
  · rw [plainOthers _ (by decide), boundOthers _ (by decide), related.toolResults]

variable {left right : Json}

theorem add (related : Related codec plain bound) (notInput : key ≠ "input")
    (messages : key = "messages" → left = right)
    (modelOutputs : key = "model_outputs" → left = right)
    (toolRequests : key = "tool_requests" → Matching codec left right)
    (toolResults : key = "tool_results" → resultOf codec left = resultOf codec right) :
    Related codec (addElement plain key left) (addElement bound key right) where
  plainObject := (isObject_addElement plain key left).trans related.plainObject
  boundObject := (isObject_addElement bound key right).trans related.boundObject
  input := by rw [inputOf_add _ notInput, inputOf_add _ notInput, related.input]
  messages := by
    rw [elements_add related.plainObject, elements_add related.boundObject, related.messages]
    split
    next same => rw [messages same]
    next => rfl
  modelOutputs := by
    rw [elements_add related.plainObject, elements_add related.boundObject, related.modelOutputs]
    split
    next same => rw [modelOutputs same]
    next => rfl
  toolRequests := by
    rw [elements_add related.plainObject, elements_add related.boundObject]
    split
    next same =>
      exact List.rel_append related.toolRequests (.cons (toolRequests same) .nil)
    next => exact related.toolRequests
  toolResults := by
    rw [elements_add related.plainObject, elements_add related.boundObject]
    split
    next same =>
      rw [List.map_append, List.map_append, related.toolResults, List.map_singleton,
        List.map_singleton, toolResults same]
    next => exact related.toolResults

theorem appendMessage (related : Related codec plain bound) (role content : String) :
    Related codec (appendMessage plain role content) (appendMessage bound role content) :=
  (related.require (by decide)).add (by decide) (fun _ => rfl) (by simp) (by simp) (by simp)

theorem addOutput (related : Related codec plain bound) (text : String) :
    Related codec (addElement plain "model_outputs" (.object [("text", .string text)]))
      (addElement bound "model_outputs" (.object [("text", .string text)])) :=
  related.add (by decide) (by simp) (fun _ => rfl) (by simp) (by simp)

theorem addRequest (related : Related codec plain bound) (matching : Matching codec left right) :
    Related codec (addElement (stateRequireArray plain "tool_requests") "tool_requests" left)
      (addElement (stateRequireArray bound "tool_requests") "tool_requests" right) :=
  (related.require (by decide)).add (by decide) (by simp) (by simp) (fun _ => matching)
    (by simp)

theorem addResult (related : Related codec plain bound)
    (same : resultOf codec left = resultOf codec right) :
    Related codec (addElement (stateRequireArray plain "tool_results") "tool_results" left)
      (addElement (stateRequireArray bound "tool_results") "tool_results" right) :=
  (related.require (by decide)).add (by decide) (by simp) (by simp) (by simp)
    (fun _ => same)

end Related

/-! ## Steps -/

section

variable (library : Library)

/-- A step in both runs: the same status and callbacks, and states that stay related if it
succeeds. -/
structure StepAgrees (plain bound : Ran) : Prop where
  status : plain.status = bound.status
  calls : plain.calls = bound.calls
  related : plain.status = .ok → Related library.codec plain.state bound.state

variable {library} {plain bound : Json}

theorem promptStep_agrees (related : Related library.codec plain bound)
    (role templateText : String) :
    StepAgrees library (promptStepRun library role templateText plain)
      (promptStepRunJsonValue library role templateText bound) := by
  obtain ⟨required, same⟩ := related.requireObject
  unfold promptStepRun promptStepRunJsonValue
  rw [jsonValueStateRequireObject_eq, appendMessageJsonValue_eq]
  dsimp only
  rw [same]
  split
  next => exact ⟨rfl, rfl, by simp⟩
  next rendered _ => exact ⟨rfl, rfl, fun _ => required.appendMessage role rendered⟩

theorem storeOutput_related (related : Related library.codec plain bound)
    (outputText : Option CString) :
    Related library.codec (storeOutput plain outputText)
      (storeOutputJsonValue bound outputText) := by
  unfold storeOutput storeOutputJsonValue
  rw [jsonValueStateRequireArray_eq, appendMessageJsonValue_eq]
  cases outputText with
  | none => exact related
  | some text =>
      have required := related.requireBound (by decide : "model_outputs" ≠ "input")
      exact ((required.appendMessage "assistant" text.val).requirePlain (by decide)).addOutput
        text.val

theorem storeRequest_value (related : Related library.codec plain bound) (name : String)
    (arguments : Option Json) :
    Related library.codec (storeToolRequestJsonValue library.codec plain name arguments)
      (storeToolRequestJsonValueState library.codec bound name arguments) := by
  rw [storeToolRequestJsonValueState, jsonValueStateRequireArray_eq]
  exact related.addRequest (.same _)

theorem storeRequest_none (related : Related library.codec plain bound) (name : String) :
    Related library.codec (storeToolRequestJson plain name none)
      (storeToolRequestJsonValueState library.codec bound name none) := by
  rw [storeToolRequestJsonValueState, jsonValueStateRequireArray_eq]
  exact related.addRequest (.same _)

variable {value : Json}

theorem storeRequest_text (related : Related library.codec plain bound) (name : String)
    {text : CString} (parsed : library.codec.parse text.val = some value) :
    Related library.codec (storeToolRequestJson plain name (some text))
      (storeToolRequestJsonValueState library.codec bound name (some value)) := by
  rw [storeToolRequestJsonValueState, jsonValueStateRequireArray_eq]
  exact related.addRequest (.parsed name text value parsed)

def ValidTexts (library : Library) (chain : List Step) : Prop :=
  ∀ model invoke, .model model ∈ chain → model.invokeJsonValue = none →
    model.invoke = some invoke → ∀ messages result, invoke messages = some result →
      ∀ text, result.toolArgumentsJson = some text → (library.codec.parse text.val).isSome = true

theorem modelStep_agrees (related : Related library.codec plain bound) (index : Nat) (model : Model)
    (valid : ∀ invoke, model.invokeJsonValue = none → model.invoke = some invoke →
      ∀ messages result, invoke messages = some result → ∀ text,
        result.toolArgumentsJson = some text → (library.codec.parse text.val).isSome = true) :
    StepAgrees library (modelStepRun library index model plain)
      (modelStepRunJsonValue library index model bound) := by
  have required := related.require (by decide : "messages" ≠ "input")
  unfold modelStepRun modelStepRunJsonValue
  rw [jsonValueStateRequireArray_eq]
  cases native : model.invokeJsonValue with
  | some invoke =>
      dsimp only
      rw [required.messages]
      cases answer : invoke (elements (stateRequireArray bound "messages") "messages") with
      | none => exact ⟨rfl, rfl, by simp⟩
      | some result =>
          have stored := storeOutput_related required result.outputText
          dsimp only
          cases result.toolName with
          | none => exact ⟨rfl, rfl, fun _ => stored⟩
          | some name =>
              exact ⟨rfl, rfl, fun _ => storeRequest_value stored name.val result.toolArguments⟩
  | none =>
      cases textual : model.invoke with
      | none => exact ⟨rfl, rfl, by simp⟩
      | some invoke =>
          dsimp only
          rw [required.messages]
          cases answer : invoke (elements (stateRequireArray bound "messages") "messages") with
          | none => exact ⟨rfl, rfl, by simp⟩
          | some result =>
              have stored := storeOutput_related required result.outputText
              dsimp only
              cases result.toolName with
              | none => exact ⟨rfl, rfl, fun _ => stored⟩
              | some name =>
                  dsimp only
                  cases asked : result.toolArgumentsJson with
                  | none => exact ⟨rfl, rfl, fun _ => storeRequest_none stored name.val⟩
                  | some text =>
                      obtain ⟨value, parsed⟩ := Option.isSome_iff_exists.mp
                        (valid invoke native textual _ result answer text asked)
                      dsimp only
                      rw [parsed]
                      exact ⟨rfl, rfl, fun _ => storeRequest_text stored name.val parsed⟩

/-! ## Tool steps -/

def pendingRequest (state : Json) : Option Json :=
  (elements state "tool_requests")[(elements state "tool_results").length]?

/-- A request, as the plain and the bound state have it, that stays clear of the differences.
- With the value of its arguments in both, the callback for values succeeds or there is none for
  texts.
- With a text in one and its value in the other, there is no callback for values, and the text is
  the one that the library writes for the value, unless there is no callback for texts either.
- With a text in both, it is read as no arguments, unless the callback fails. -/
def RequestSafe (library : Library) (tools : List Tool) (plain bound : Json) : Prop :=
  ∀ name, plain.getString "name" = some name →
    (∀ value, bound.field "arguments" = some value → plain.field "arguments" ≠ none →
      textCallback tools name = none ∨
        ∃ callback, jsonValueCallback tools name = some callback ∧ callback value ≠ none) ∧
    (∀ value, bound.field "arguments" = some value → plain.field "arguments" = none →
      jsonValueCallback tools name = none ∧
        (textCallback tools name = none ∨
          plain.getString "arguments_json" = some (library.codec.serialize value).val)) ∧
    (bound.field "arguments" = none →
      library.codec.parse ((plain.getString "arguments_json").getD noArguments) =
          library.codec.parse noArguments ∨
        ∀ callback, textCallback tools name = some callback →
          callback ((plain.getString "arguments_json").getD noArguments) = none)

/-- A step whose request, if it runs one, stays clear of the differences. -/
def StepSafe (library : Library) (plain bound : Json) : Step → Prop
  | .tool tools => ∀ left right, pendingRequest plain = some left →
      pendingRequest bound = some right → RequestSafe library tools left right
  | _ => True

variable {name : String}

theorem storeResult_text (related : Related library.codec plain bound) {output : String}
    {arguments : Option Json} {text : Option String} (read :
      argumentsOf library.codec (.object [("arguments_json", .string (text.getD noArguments))]) =
        argumentsOf library.codec (.object (argumentFields library.codec arguments))) :
    Related library.codec (storeToolResultJson plain name text output)
      (storeToolResultJsonValueState library.codec bound name arguments none output) := by
  rw [storeToolResultJsonValueState, jsonValueStateRequireArray_eq]
  refine related.addResult ?_
  cases arguments with
  | none =>
      simpa [resultOf, argumentsOf, argumentFields, outputFields, Json.field,
        Json.findField_cons_same, Json.findField_cons_other, Json.getString] using read
  | some value =>
      simpa [resultOf, argumentsOf, argumentFields, outputFields, Json.field,
        Json.findField_cons_same, Json.findField_cons_other, Json.getString] using read

theorem storeResult_value (related : Related library.codec plain bound) (name output : String)
    (arguments outputValue : Json) :
    Related library.codec
      (storeToolResultJsonValue library.codec plain name (some arguments) (some outputValue) output)
      (storeToolResultJsonValueState library.codec bound name (some arguments) (some outputValue)
        output) := by
  rw [storeToolResultJsonValueState, jsonValueStateRequireArray_eq]
  refine related.addResult ?_
  simp [resultOf, argumentsOf, argumentFields, outputFields, Json.field, Json.findField]

variable {tools : List Tool} {index : Nat}

/-- A text that is run in both states, with results that are observed alike. -/
theorem runText_agrees (related : Related library.codec plain bound) {arguments : Option Json}
    {left right : Option String} (same : left.getD noArguments = right.getD noArguments)
    (alike : ∀ callback output, textCallback tools name = some callback →
      callback (left.getD noArguments) = some output →
        argumentsOf library.codec (.object [("arguments_json", .string (left.getD noArguments))]) =
          argumentsOf library.codec (.object (argumentFields library.codec arguments))) :
    StepAgrees library (runTextRequest tools index name left plain)
      (runTextRequestJsonValue library tools index name arguments right bound []) := by
  unfold runTextRequest runTextRequestJsonValue execute
  rw [← same]
  cases callback : textCallback tools name with
  | none => exact ⟨rfl, rfl, by simp⟩
  | some call =>
      dsimp only
      cases answer : call (left.getD noArguments) with
      | none => exact ⟨rfl, rfl, by simp⟩
      | some output =>
          exact ⟨rfl, rfl, fun _ => storeResult_text (appendMessageJsonValue_eq ▸
            related.appendMessage "tool" (output.getD "")) (alike call output callback answer)⟩

theorem argumentsOf_text {codec : JsonCodec} {text : String} (plainText : noNul text = true) :
    argumentsOf codec (.object [("arguments_json", .string text)]) = codec.parse text := by
  have stored : (Json.object [("arguments_json", .string text)]).field "arguments_json" =
      some (.string text) := rfl
  have absent : (Json.object [("arguments_json", .string text)]).field "arguments" = none := rfl
  rw [argumentsOf, absent]
  dsimp only
  rw [Json.getString_of_field stored plainText, Option.bind_some]

theorem runValue_agrees (related : Related library.codec plain bound) {request : Json}
    (stored : request.field "arguments" = some value) (safe : textCallback tools name = none ∨
      ∃ callback, jsonValueCallback tools name = some callback ∧ callback value ≠ none) :
    StepAgrees library (runValueRequest library tools index name value plain)
      (runRequestJsonValue library tools index name request bound) := by
  unfold runValueRequest runRequestJsonValue executeJsonValue
  rw [stored]
  dsimp only
  cases callback : jsonValueCallback tools name with
  | none =>
      rcases safe with none | ⟨other, found, _⟩
      · unfold runTextRequestJsonValue execute
        rw [none]
        exact ⟨rfl, rfl, by simp⟩
      · rw [callback] at found
        exact absurd found (by simp)
  | some call =>
      dsimp only
      cases answer : call value with
      | none =>
          rcases safe with none | ⟨other, found, succeeds⟩
          · unfold runTextRequestJsonValue execute
            rw [none]
            exact ⟨rfl, rfl, by simp⟩
          · rw [callback] at found
            cases found
            exact absurd answer succeeds
      | some output =>
          cases output with
          | none => exact ⟨rfl, rfl, by simp⟩
          | some output =>
              exact ⟨rfl, rfl, fun _ => storeResult_value (appendMessageJsonValue_eq ▸
                related.appendMessage "tool" (library.codec.serialize output).val) name _ value
                output⟩

theorem runSame_agrees (related : Related library.codec plain bound) {request : Json}
    (named : request.getString "name" = some name)
    (safe : RequestSafe library tools request request) :
    StepAgrees library (runRequest library tools index name request plain)
      (runRequestJsonValue library tools index name request bound) := by
  obtain ⟨values, _, texts⟩ := safe name named
  unfold runRequest
  cases stored : request.field "arguments" with
  | some value =>
      exact runValue_agrees related stored (values value stored (by rw [stored]; simp))
  | none =>
      unfold runRequestJsonValue
      rw [stored]
      refine runText_agrees related rfl fun callback output found answer => ?_
      rcases texts stored with read | fails
      · have plainText : noNul ((request.getString "arguments_json").getD noArguments) = true := by
          cases text : request.getString "arguments_json" with
          | none => decide
          | some text => exact Json.getString_noNul ‹_›
        rw [argumentsOf_text plainText, read]
        exact (argumentsOf_text (by decide)).symm
      · exact absurd answer (by rw [fails callback found]; simp)

theorem runParsed_agrees (related : Related library.codec plain bound) {requested : String}
    {text : CString} (parsed : library.codec.parse text.val = some value)
    (named : (requestWithText requested (some text)).getString "name" = some name)
    (safe : RequestSafe library tools (requestWithText requested (some text))
      (requestWithValue library.codec requested (some value))) :
    StepAgrees library
      (runRequest library tools index name (requestWithText requested (some text)) plain)
      (runRequestJsonValue library tools index name
        (requestWithValue library.codec requested (some value)) bound) := by
  have boundField : (requestWithValue library.codec requested (some value)).field "arguments" =
      some value := by simp [requestWithValue, Json.field, Json.findField]
  have plainField : (requestWithText requested (some text)).field "arguments" = none := by
    simp [requestWithText, Json.field, Json.findField]
  have boundText : (requestWithValue library.codec requested (some value)).getString
      "arguments_json" = some (library.codec.serialize value).val :=
    Json.getString_of_field (by simp [requestWithValue, Json.field, Json.findField])
      (library.codec.serialize value).property
  have plainText : (requestWithText requested (some text)).getString "arguments_json" =
      some text.val :=
    Json.getString_of_field (by simp [requestWithText, Json.field, Json.findField]) text.property
  obtain ⟨noValues, texts⟩ := (safe name named).2.1 value boundField plainField
  unfold runRequest runRequestJsonValue executeJsonValue
  rw [plainField, boundField, noValues, plainText, boundText]
  dsimp only
  rcases texts with none | same
  · unfold runTextRequest runTextRequestJsonValue execute
    rw [none]
    exact ⟨rfl, rfl, by simp⟩
  · rw [plainText] at same
    have written := Option.some.inj same
    refine runText_agrees related (by rw [written]) fun _ _ _ _ => ?_
    rw [Option.getD_some, argumentsOf_text text.property, parsed]
    simp [argumentsOf, argumentFields, Json.field, Json.findField]

theorem toolStep_agrees (related : Related library.codec plain bound) (tools : List Tool)
    (safe : StepSafe library plain bound (.tool tools)) :
    StepAgrees library (toolStepRun library tools plain)
      (toolStepRunJsonValue library tools bound) := by
  have required := (related.require (by decide : "tool_requests" ≠ "input")).require
    (by decide : "tool_results" ≠ "input")
  have sameIndex : (elements plain "tool_results").length =
      (elements bound "tool_results").length := by
    have lengths := congrArg List.length related.toolResults
    rwa [List.length_map, List.length_map] at lengths
  have plainElements : ∀ key, elements (stateRequireArray (stateRequireArray plain
      "tool_requests") "tool_results") key = elements plain key := fun key => by
    rw [elements_require ((isObject_require _ _).trans related.plainObject),
      elements_require related.plainObject]
  have boundElements : ∀ key, elements (stateRequireArray (stateRequireArray bound
      "tool_requests") "tool_results") key = elements bound key := fun key => by
    rw [elements_require ((isObject_require _ _).trans related.boundObject),
      elements_require related.boundObject]
  unfold toolStepRun toolStepRunJsonValue
  rw [jsonValueStateRequireArray_eq]
  dsimp only
  rw [plainElements, plainElements, boundElements, boundElements, sameIndex]
  rcases Lists.forall₂_getElem related.toolRequests (elements bound "tool_results").length with
    ⟨plainNone, boundNone⟩ | ⟨left, right, plainSome, boundSome, matching⟩
  · rw [plainNone, boundNone]
    exact ⟨rfl, rfl, fun _ => required⟩
  · have requestSafe := safe left right (by rw [pendingRequest, sameIndex, plainSome]) boundSome
    rw [plainSome, boundSome]
    dsimp only
    cases matching with
    | same =>
        by_cases object : left.isObject = true
        · rw [object, Bool.not_true, if_neg Bool.false_ne_true, if_neg Bool.false_ne_true]
          cases named : left.getString "name" with
          | none => exact ⟨rfl, rfl, by simp⟩
          | some name => exact runSame_agrees required named requestSafe
        · rw [if_pos (by simpa using object), if_pos (by simpa using object)]
          exact ⟨rfl, rfl, by simp⟩
    | parsed requested text value parsed =>
        have plainObject : (requestWithText requested (some text)).isObject = true := rfl
        have boundObject : (requestWithValue library.codec requested (some value)).isObject =
            true := rfl
        have sameName : (requestWithValue library.codec requested (some value)).getString "name" =
            (requestWithText requested (some text)).getString "name" := by
          simp [requestWithValue, requestWithText, Json.getString, Json.field, Json.findField]
        rw [plainObject, boundObject, sameName, Bool.not_true, if_neg Bool.false_ne_true,
          if_neg Bool.false_ne_true]
        cases named : (requestWithText requested (some text)).getString "name" with
        | none => exact ⟨rfl, rfl, by simp⟩
        | some name => exact runParsed_agrees required parsed named requestSafe

end

end TurboAgent.Chain
