import TurboAgent.Data.Fields
import TurboAgent.Logic.Lists
import TurboAgent.Provider.Prompt

/-!
# Exported conversations

What a conversation says is a list of items: texts with their speaker, tool calls and tool
results.  An export preserves a conversation when the same items are read off it.
-/

namespace TurboAgent.Provider.Prompt

inductive Arguments where
  | value (value : Json)
  | raw (text : String)
  deriving DecidableEq

inductive Item where
  | text (speaker text : String)
  | call (id name : String) (arguments : Arguments)
  | result (id output : String)
  deriving DecidableEq

namespace Item

def isSystem : Item → Bool
  | .text speaker _ => speaker == "system"
  | _ => false

end Item

/-! ## Reading messages -/

def readText (speaker text : String) : List Item :=
  if text = "" then [] else [.text speaker text]

def readArguments (codec : JsonCodec) (arguments : Json) : Arguments :=
  match asString arguments with
  | some text =>
      match codec.parse text with
      | some value => .value value
      | none => .raw text
  | none => .value arguments

def textField (record : Json) (key : String) : String :=
  (record.getString key).getD ""

def readPart (speaker : String) (part : Json) : List Item :=
  match part.getString "type" with
  | some "text" => readText speaker (textField part "text")
  | some "tool_use" =>
      [.call (textField part "id") (textField part "name")
        (.value ((part.field "input").getD .null))]
  | some "tool_result" => [.result (textField part "tool_use_id") (textField part "content")]
  | _ => []

def readContent (speaker : String) : Json → List Item
  | .string text => readText speaker ((asString (.string text)).getD "")
  | .array parts => parts.flatMap (readPart speaker)
  | _ => []

def callName (call : Json) : String :=
  textField ((call.field "function").getD .null) "name"

def callArguments (call : Json) : Json :=
  (((call.field "function").getD .null).field "arguments").getD .null

def readCall (codec : JsonCodec) (call : Json) : Item :=
  .call (textField call "id") (callName call) (readArguments codec (callArguments call))

/-- The content of a message, or the result that it is. -/
def readBody (message : Json) : List Item :=
  let content := (message.field "content").getD .null
  match message.getString "role", message.getString "tool_call_id", asString content with
  | some "tool", some id, some output => [.result id output]
  | role, _, _ => readContent (role.getD "") content

def readMessage (codec : JsonCodec) (message : Json) : List Item :=
  readBody message ++ (toolCalls message).map (readCall codec)

def readMessages (codec : JsonCodec) (messages : Json) : List Item :=
  (elements messages).flatMap (readMessage codec)

def readResponsesItem (codec : JsonCodec) (item : Json) : List Item :=
  match item.getString "type" with
  | some "function_call" =>
      [.call (textField item "call_id") (textField item "name")
        (readArguments codec ((item.field "arguments").getD .null))]
  | some "function_call_output" => [.result (textField item "call_id") (textField item "output")]
  | _ => readText (textField item "role") (textField item "content")

def systemText (message : Json) : Option String :=
  if message.getString "role" = some "system" then (message.field "content").bind asString
  else none

def systemTexts (messages : Json) : List String :=
  (elements messages).filterMap systemText

/-! ## Exports -/

inductive Format where
  | chat
  | responses
  | anthropic
  deriving DecidableEq

structure Export where
  document : Json
  system : Option String
  deriving DecidableEq

def exportMessages (codec : JsonCodec) (format : Format) (messages : Json) : Option Export :=
  match format with
  | .chat => (messagesToChat messages).map fun document => ⟨document, none⟩
  | .responses => (messagesToResponses codec messages).map fun document => ⟨document, none⟩
  | .anthropic =>
      match messagesToAnthropic codec messages with
      | .ok (document, system) => some ⟨document, system⟩
      | .error _ => none

/-- The same items are read off the export.  In the Anthropic format the texts of the system
are in the system string, with an empty line between them. -/
def Preserved (codec : JsonCodec) (format : Format) (messages : Json) (exported : Export) : Prop :=
  match format with
  | .chat => readMessages codec exported.document = readMessages codec messages
  | .responses => (elements exported.document).flatMap (readResponsesItem codec) =
      readMessages codec messages
  | .anthropic =>
      readMessages codec exported.document =
          (readMessages codec messages).filter (fun item => !item.isSystem) ∧
        exported.system = if systemTexts messages = [] then none
          else some ("\n\n".intercalate (systemTexts messages))

instance (codec : JsonCodec) (format : Format) (messages : Json) (exported : Export) :
    Decidable (Preserved codec format messages exported) :=
  match format with
  | .chat => inferInstanceAs (Decidable (readMessages codec exported.document = _))
  | .responses => inferInstanceAs (Decidable
      ((elements exported.document).flatMap (readResponsesItem codec) = _))
  | .anthropic => inferInstanceAs (Decidable (readMessages codec exported.document = _ ∧
      exported.system = _))

/-- The arguments of a call are an object or the text of a JSON value. -/
def ArgumentsParse (codec : JsonCodec) (call : Json) : Prop :=
  ∀ text, asString (callArguments call) = some text → (codec.parse text).isSome = true

instance (codec : JsonCodec) (call : Json) : Decidable (ArgumentsParse codec call) :=
  decidable_of_iff
    ((asString (callArguments call)).all (fun text => (codec.parse text).isSome) = true)
    (Option.all_eq_true _ _)

def CallsKept (codec : JsonCodec) (message : Json) : Prop :=
  if message.getString "role" = some "assistant" then
    ∀ call ∈ toolCalls message, ArgumentsParse codec call
  else toolCalls message = []

instance (codec : JsonCodec) (message : Json) : Decidable (CallsKept codec message) :=
  inferInstanceAs (Decidable (if message.getString "role" = some "assistant" then
    ∀ call ∈ toolCalls message, ArgumentsParse codec call else toolCalls message = []))

def argumentValues (message : Json) : List Json :=
  (elements ((message.field "content").getD .null)).filterMap (fun part => part.field "input") ++
    (toolCalls message).map callArguments

/-- Arguments that are objects survive serialization. -/
def Faithful (codec : JsonCodec) (message : Json) : Prop :=
  ∀ value ∈ argumentValues message, value.isObject = true →
    codec.parse (codec.serialize value).val = some value

instance (codec : JsonCodec) (message : Json) : Decidable (Faithful codec message) :=
  inferInstanceAs (Decidable (∀ value ∈ argumentValues message, value.isObject = true → _))

/-! ## Strings -/

section Strings

theorem getString_eq (record : Json) (key : String) :
    record.getString key = (record.field key).bind asString := by
  rw [Json.getString]
  cases record.field key with
  | none => rfl
  | some value => cases value <;> rfl

theorem asString_again {value : Json} {text : String} (read : asString value = some text) :
    asString (.string text) = some text := by
  cases value with
  | string whole =>
      cases read
      simp [asString, List.takeWhile_takeWhile]
  | _ => cases read

theorem asString_of_getString {record : Json} {key text : String}
    (read : record.getString key = some text) : asString (.string text) = some text := by
  rw [getString_eq] at read
  obtain ⟨value, -, isText⟩ := Option.bind_eq_some_iff.mp read
  exact asString_again isText

theorem asString_object {value : Json} (object : value.isObject = true) : asString value = none := by
  cases value with
  | object fields => rfl
  | _ => cases object

theorem getString_of_hasString {record : Json} {key : String}
    (has : hasString record key = true) : ∃ text, record.getString key = some text := by
  rw [hasString] at has
  rw [getString_eq]
  cases stored : record.field key with
  | none => simp [stored] at has
  | some value =>
      cases value with
      | string text => exact ⟨_, rfl⟩
      | _ => simp [stored, isString] at has

end Strings

/-! ## Contents -/

section Contents

theorem partToJson_eq {part converted : Json} (result : partToJson part = some converted) :
    converted = part := by
  rw [partToJson] at result
  split at result
  next => cases result
  split at result
  next => cases result
  next =>
    obtain ⟨input, stored, rfl⟩ := Option.map_eq_some_iff.mp result
    exact Json.set_same stored
  next =>
    cases result
    rfl

theorem contentToJson_read {content converted : Json}
    (result : contentToJson content = some converted) :
    asString converted = asString content ∧
      ∀ speaker, readContent speaker converted = readContent speaker content := by
  cases content with
  | null =>
      cases result
      exact ⟨rfl, fun _ => rfl⟩
  | string text =>
      rw [contentToJson] at result
      obtain ⟨read, isRead, rfl⟩ := Option.map_eq_some_iff.mp result
      have again := asString_again isRead
      refine ⟨by rw [again, isRead], fun speaker => ?_⟩
      rw [readContent, readContent, again, isRead]
  | array parts =>
      rw [contentToJson] at result
      obtain ⟨parts', mapped, rfl⟩ := Option.map_eq_some_iff.mp result
      rw [Lists.eq_of_mapM (fun _ _ _ => partToJson_eq) mapped]
      exact ⟨rfl, fun _ => rfl⟩
  | bool value => cases result
  | number mantissa exponent => cases result
  | object fields => cases result

theorem isSystem_readContent {speaker : String} {content : Json} (other : speaker ≠ "system") :
    ∀ item ∈ readContent speaker content, item.isSystem = false := by
  have texts : ∀ text, ∀ item ∈ readText speaker text, item.isSystem = false := by
    intro text item member
    rw [readText] at member
    split at member
    next => cases member
    cases List.mem_singleton.mp member
    simpa [Item.isSystem] using other
  intro item member
  cases content with
  | string text => exact texts _ item member
  | array parts =>
      obtain ⟨part, -, inside⟩ := List.mem_flatMap.mp member
      rw [readPart] at inside
      split at inside
      next => exact texts _ item inside
      next =>
        cases List.mem_singleton.mp inside
        rfl
      next =>
        cases List.mem_singleton.mp inside
        rfl
      next => cases inside
  | null => cases member
  | bool value => cases member
  | number mantissa exponent => cases member
  | object fields => cases member

end Contents

/-! ## Valid messages -/

section Valid

variable {codec : JsonCodec} {message content : Json}

theorem contentValid_of_valid (valid : messageValid message = true)
    (isContent : message.field "content" = some content) : contentValid content = true := by
  simp only [messageValid, Bool.and_eq_true] at valid
  simpa [isContent] using valid.1.1.2

theorem toolCallValid_of_valid (valid : messageValid message = true) :
    ∀ call ∈ toolCalls message, toolCallValid call = true := by
  simp only [messageValid, Bool.and_eq_true] at valid
  intro call member
  cases isCalls : message.field "tool_calls" with
  | none => simp [toolCalls, isCalls] at member
  | some calls =>
      cases calls with
      | array calls =>
          have all : calls.all toolCallValid = true := by
            simpa [isCalls, toolCallsValid] using valid.2
          have known : call ∈ calls := by simpa [toolCalls, isCalls, elements] using member
          exact List.all_eq_true.mp all call known
      | _ => simp [toolCalls, isCalls, elements] at member

theorem readBody_other {role : String} (isRole : message.getString "role" = some role)
    (isContent : message.field "content" = some content) (other : role ≠ "tool") :
    readBody message = readContent role content := by
  unfold readBody
  simp only [isRole, isContent, Option.getD_some]
  split
  next isTool _ _ => exact absurd (Option.some.inj isTool) other
  next => rfl

theorem Faithful.input (faithful : Faithful codec message)
    (isContent : message.field "content" = some content) :
    ∀ part ∈ elements content, ∀ input, part.field "input" = some input →
      input.isObject = true → codec.parse (codec.serialize input).val = some input := by
  intro part member input isInput
  apply faithful input
  rw [argumentValues, isContent, Option.getD_some]
  exact List.mem_append_left _ (List.mem_filterMap.mpr ⟨part, member, isInput⟩)

theorem Faithful.call (faithful : Faithful codec message) {call : Json}
    (member : call ∈ toolCalls message) :
    (callArguments call).isObject = true →
      codec.parse (codec.serialize (callArguments call)).val = some (callArguments call) := by
  apply faithful
  exact List.mem_append_right _ (List.mem_map_of_mem member)

end Valid

/-! ## Chat -/

section Chat

variable {codec : JsonCodec}

theorem readMessage_congr {left right content content' : Json}
    (role : left.getString "role" = right.getString "role")
    (id : left.getString "tool_call_id" = right.getString "tool_call_id")
    (isContent : left.field "content" = some content)
    (isContent' : right.field "content" = some content')
    (text : asString content = asString content')
    (contents : ∀ speaker, readContent speaker content = readContent speaker content')
    (calls : toolCalls left = toolCalls right) :
    readMessage codec left = readMessage codec right := by
  simp only [readMessage, readBody, role, id, isContent, isContent', Option.getD_some, text, calls,
    contents]

theorem messageToChat_read {message converted : Json}
    (result : messageToChat message = some converted) :
    readMessage codec converted = readMessage codec message := by
  rw [messageToChat] at result
  split at result
  next => cases result
  split at result
  next role content isRole isContent =>
    obtain ⟨content', made, rfl⟩ := Option.map_eq_some_iff.mp result
    obtain ⟨sameText, sameContent⟩ := contentToJson_read made
    have roleAgain := asString_of_getString isRole
    refine readMessage_congr ?_ ?_ rfl isContent sameText sameContent ?_
    · rw [isRole]
      exact roleAgain
    · cases isId : message.getString "tool_call_id" with
      | none => cases message.field "tool_calls" <;> rfl
      | some id => exact asString_of_getString isId
    · rw [toolCalls, toolCalls]
      cases message.getString "tool_call_id" <;> cases message.field "tool_calls" <;> rfl
  next => cases result

theorem messagesToChat_read {messages document : Json}
    (result : messagesToChat messages = some document) :
    readMessages codec document = readMessages codec messages := by
  cases messages with
  | array messages =>
      rw [messagesToChat] at result
      obtain ⟨converted, mapped, rfl⟩ := Option.map_eq_some_iff.mp result
      exact Lists.flatMap_of_mapM (fun _ _ _ => messageToChat_read) mapped
  | _ => cases result

end Chat

/-! ## Responses -/

section Responses

variable {codec : JsonCodec}

def Plain (text : String) : Prop :=
  asString (.string text) = some text

theorem plain_of_noNul {text : String} (plain : noNul text = true) : Plain text := by
  have stored : (Json.object [("text", .string text)]).field "text" = some (.string text) := rfl
  have read := Json.getString_of_field stored plain
  rwa [getString_eq, stored] at read

theorem plain_of_getString {record : Json} {key : String} :
    ∀ text, record.getString key = some text → Plain text :=
  fun _ => asString_of_getString

theorem plain_of_asString {value : Json} : ∀ text, asString value = some text → Plain text :=
  fun _ => asString_again

variable {role : String} {item : Json}

theorem responsesText_read {text : String} (isRole : Plain role) (isText : Plain text)
    (result : responsesText role (some text) = some item) :
    readResponsesItem codec item = readText role text := by
  cases result
  rw [Plain] at isRole isText
  simp [readResponsesItem, textField, getString_eq, Json.field, Json.findField, isRole, isText]

theorem responsesResult_read (codec : JsonCodec) {id output : Option String}
    (isId : ∀ text, id = some text → Plain text)
    (isOutput : ∀ text, output = some text → Plain text)
    (result : responsesResult id output = some item) :
    ∃ id' output', id = some id' ∧ output = some output' ∧
      readResponsesItem codec item = [.result id' output'] := by
  unfold responsesResult at result
  split at result
  next id' output' =>
    split at result
    next => cases result
    cases result
    have kind : Plain "function_call_output" := by rw [Plain]; decide
    have plainId := isId id' rfl
    have plainOutput := isOutput output' rfl
    rw [Plain] at kind plainId plainOutput
    refine ⟨id', output', rfl, rfl, ?_⟩
    simp [readResponsesItem, textField, getString_eq, Json.field, Json.findField, kind, plainId,
      plainOutput]
  next => cases result

theorem responsesCall_read {id name : Option String} {arguments : Json}
    (isId : ∀ text, id = some text → Plain text) (isName : ∀ text, name = some text → Plain text)
    (faithful : arguments.isObject = true →
      codec.parse (codec.serialize arguments).val = some arguments)
    (result : responsesCall codec id name (some arguments) = some item) :
    ∃ id' name', id = some id' ∧ name = some name' ∧
      readResponsesItem codec item = [.call id' name' (readArguments codec arguments)] := by
  unfold responsesCall at result
  split at result
  next id' name' _ isArguments =>
    cases isArguments
    split at result
    next => cases result
    obtain ⟨text, isText, rfl⟩ := Option.map_eq_some_iff.mp result
    have plainId := isId id' rfl
    have plainName := isName name' rfl
    have read : asString (.string text) = some text ∧
        readArguments codec (.string text) = readArguments codec arguments := by
      split at isText
      next object =>
        cases isText
        have plain := plain_of_noNul (codec.serialize arguments).property
        rw [Plain] at plain
        simp [plain, readArguments, faithful object, asString_object object]
      next =>
        have again := asString_again isText
        simp [readArguments, again, isText]
    have kind : asString (.string "function_call") = some "function_call" := by decide
    rw [Plain] at plainId plainName
    refine ⟨id', name', rfl, rfl, ?_⟩
    simp [readResponsesItem, textField, getString_eq, Json.field, Json.findField, kind, plainId,
      plainName, read.2]
  next => cases result

theorem responsesPart_read {part : Json} (isRole : Plain role) (valid : partValid part = true)
    (faithful : ∀ input, part.field "input" = some input → input.isObject = true →
      codec.parse (codec.serialize input).val = some input)
    (result : responsesPart codec role part = some item) :
    readResponsesItem codec item = readPart role part := by
  rw [partValid, Bool.and_eq_true] at valid
  obtain ⟨-, valid⟩ := valid
  unfold responsesPart at result
  unfold readPart
  split at valid
  next type =>
    obtain ⟨text, isText⟩ := getString_of_hasString valid
    simp only [type, isText] at result ⊢
    rw [textField, isText, Option.getD_some]
    exact responsesText_read isRole (asString_of_getString isText) result
  next type =>
    simp only [Bool.and_eq_true] at valid
    obtain ⟨⟨hasId, hasName⟩, hasInput⟩ := valid
    obtain ⟨input, isInput, object⟩ : ∃ input, part.field "input" = some input ∧
        input.isObject = true := by simpa [hasObject, Option.any_eq_true] using hasInput
    simp only [type, isInput] at result ⊢
    split at result
    next => cases result
    obtain ⟨id, name, isId, isName, read⟩ := responsesCall_read plain_of_getString
      plain_of_getString (faithful input isInput) result
    rw [read, textField, textField, isId, isName]
    simp [readArguments, asString_object object]
  next type =>
    simp only [type] at result ⊢
    obtain ⟨id, output, isId, isOutput, read⟩ :=
      responsesResult_read codec plain_of_getString plain_of_getString result
    rw [read, textField, textField, isId, isOutput]
    rfl
  next => cases valid

theorem responsesToolCall_read {call : Json} (valid : toolCallValid call = true)
    (faithful : (callArguments call).isObject = true →
      codec.parse (codec.serialize (callArguments call)).val = some (callArguments call))
    (result : responsesToolCall codec call = some item) :
    readResponsesItem codec item = [readCall codec call] := by
  rw [responsesToolCall] at result
  split at result
  next => cases result
  have present : ((call.field "function").getD .null).field "arguments" =
      some (callArguments call) := by
    simp only [toolCallValid, Bool.and_eq_true] at valid
    obtain ⟨-, valid⟩ := valid
    rw [callArguments]
    cases isFunction : call.field "function" with
    | none => simp [isFunction] at valid
    | some function =>
        simp only [isFunction, Bool.and_eq_true, Option.any_eq_true] at valid
        obtain ⟨-, arguments, isArguments, -⟩ := valid
        simp [isArguments]
  simp only [present] at result
  obtain ⟨id, name, isId, isName, read⟩ := responsesCall_read plain_of_getString
    plain_of_getString faithful result
  rw [read, readCall, textField, isId, callName, textField, isName]
  rfl

theorem responsesContent_read {calls : Option Json} {content : Json} {items : List Json}
    (isRole : Plain role) (valid : contentValid content = true)
    (faithful : ∀ part ∈ elements content, ∀ input, part.field "input" = some input →
      input.isObject = true → codec.parse (codec.serialize input).val = some input)
    (result : responsesContent codec role calls content = some items) :
    items.flatMap (readResponsesItem codec) = readContent role content := by
  cases content with
  | string text =>
      rw [responsesContent] at result
      split at result
      next =>
        obtain ⟨item, made, rfl⟩ := Option.map_eq_some_iff.mp result
        have isText : asString (.string text) = some _ := rfl
        rw [isText] at made
        rw [List.flatMap_singleton, responsesText_read isRole (asString_again isText) made,
          readContent, isText, Option.getD_some]
      next both =>
        cases result
        have empty : text = "" := by
          by_contra filled
          exact both (.inr filled)
        rw [empty]
        rfl
  | array parts =>
      apply Lists.flatMap_of_mapM _ result
      intro part member item made
      exact responsesPart_read isRole (List.all_eq_true.mp valid part member)
        (faithful part member) made
  | null =>
      cases result
      rfl
  | bool value => cases valid
  | number mantissa exponent => cases valid
  | object fields => cases valid

theorem messageToResponses_read {message : Json} {items : List Json}
    (faithful : Faithful codec message) (result : messageToResponses codec message = some items) :
    items.flatMap (readResponsesItem codec) = readMessage codec message := by
  rw [messageToResponses] at result
  split at result
  next => cases result
  next valid =>
    have valid' : messageValid message = true := by simpa using valid
    split at result
    next role content isRole isContent =>
      dsimp only at result
      split at result
      next tool =>
        split at result
        next => cases result
        next noCalls =>
          obtain ⟨item, made, rfl⟩ := Option.map_eq_some_iff.mp result
          obtain ⟨id, output, isId, isOutput, read⟩ :=
            responsesResult_read codec plain_of_getString plain_of_asString made
          have none : toolCalls message = [] := by
            rw [toolCalls, Option.not_isSome_iff_eq_none.mp noCalls]
            rfl
          rw [tool] at isRole
          simp [read, readMessage, readBody, isRole, isContent, isId, isOutput, none]
      next other =>
        split at result
        next => cases result
        split at result
        next => cases result
        obtain ⟨contentItems, made, result⟩ := Option.bind_eq_some_iff.mp result
        obtain ⟨callItems, mapped, result⟩ := Option.bind_eq_some_iff.mp result
        cases result
        have contents := responsesContent_read (asString_of_getString isRole)
          (contentValid_of_valid valid' isContent) (faithful.input isContent) made
        have calls : callItems.flatMap (readResponsesItem codec) =
            (toolCalls message).flatMap fun call => [readCall codec call] := by
          apply Lists.flatMap_of_mapM _ mapped
          intro call member item made
          exact responsesToolCall_read (toolCallValid_of_valid valid' call member)
            (faithful.call member) made
        rw [List.flatMap_append, contents, calls, readMessage,
          readBody_other isRole isContent other, List.map_eq_flatMap]
    next => cases result

theorem messagesToResponses_read {messages document : Json}
    (faithful : ∀ message ∈ elements messages, Faithful codec message)
    (result : messagesToResponses codec messages = some document) :
    (elements document).flatMap (readResponsesItem codec) = readMessages codec messages := by
  cases messages with
  | array messages =>
      rw [messagesToResponses] at result
      obtain ⟨items, mapped, rfl⟩ := Option.map_eq_some_iff.mp result
      have read := Lists.flatMap_of_mapM (g := fun items => items.flatMap (readResponsesItem codec))
        (fun message member items => messageToResponses_read (faithful message member)) mapped
      rw [elements, ← List.flatMap_id, List.flatMap_assoc]
      exact read
  | _ => cases result

end Responses

/-! ## Anthropic -/

section Anthropic

variable {codec : JsonCodec}

def anthropicCall (codec : JsonCodec) (call : Json) : Item :=
  .call (textField call "id") (callName call) (.value (inputJson codec (callArguments call)))

def anthropicItems (codec : JsonCodec) (message : Json) : List Item :=
  if message.getString "role" = some "system" then []
  else readBody message ++
    if message.getString "role" = some "assistant" then
      (toolCalls message).map (anthropicCall codec)
    else []

theorem readMessage_anthropicMessage {role : String} {content : Json} (plain : Plain role)
    (other : role ≠ "tool") :
    readMessage codec (anthropicMessage role content) = readContent role content := by
  have isRole : (anthropicMessage role content).getString "role" = some role := by
    rw [getString_eq]
    exact plain
  have none : toolCalls (anthropicMessage role content) = [] := rfl
  rw [readMessage, readBody_other isRole rfl other, none, List.map_nil, List.append_nil]

theorem readPart_textPart {speaker text : String} (plain : Plain text) :
    readPart speaker (Anthropic.textPart text) = readText speaker text := by
  have kind : asString (.string "text") = some "text" := by decide
  rw [Plain] at plain
  simp [readPart, Anthropic.textPart, getString_eq, Json.field, Json.findField, kind, textField,
    plain]

theorem readPart_toolResultPart {speaker id output : String} (plainId : Plain id)
    (plainOutput : Plain output) :
    readPart speaker (toolResultPart id output) = [.result id output] := by
  have kind : asString (.string "tool_result") = some "tool_result" := by decide
  rw [Plain] at plainId plainOutput
  simp [readPart, toolResultPart, getString_eq, Json.field, Json.findField, kind, textField,
    plainId, plainOutput]

theorem assistantParts_read {content : Json} {parts : List Json} (speaker : String)
    (result : assistantParts content = some parts) :
    parts.flatMap (readPart speaker) = readContent speaker content := by
  cases content with
  | string text =>
      obtain ⟨read, isRead⟩ : ∃ read, asString (.string text) = some read := ⟨_, rfl⟩
      simp only [assistantParts, isRead, Option.some.injEq] at result
      rw [← result, readContent, isRead, Option.getD_some]
      split
      next empty =>
        rw [empty]
        rfl
      next => rw [List.flatMap_singleton, readPart_textPart (asString_again isRead)]
  | array parts' =>
      rw [Lists.eq_of_mapM (fun _ _ _ => partToJson_eq) result]
      rfl
  | null =>
      cases result
      rfl
  | bool value =>
      cases result
      rfl
  | number mantissa exponent =>
      cases result
      rfl
  | object fields =>
      cases result
      rfl

theorem toolCallToPart_read {call part : Json} (speaker : String)
    (valid : toolCallValid call = true) (result : toolCallToPart codec call = some part) :
    readPart speaker part = [anthropicCall codec call] := by
  simp only [toolCallValid, Bool.and_eq_true] at valid
  obtain ⟨⟨⟨-, hasId⟩, -⟩, hasFunction⟩ := valid
  obtain ⟨id, isId⟩ := getString_of_hasString hasId
  unfold toolCallToPart at result
  split at result
  next => cases result
  next function isFunction =>
    simp only [isFunction, Bool.and_eq_true] at hasFunction
    obtain ⟨name, isName⟩ := getString_of_hasString hasFunction.1.2
    obtain ⟨arguments, isArguments, rfl⟩ := Option.map_eq_some_iff.mp result
    have plainId : asString (.string id) = some id := asString_of_getString isId
    have plainName : asString (.string name) = some name := asString_of_getString isName
    have kind : asString (.string "tool_use") = some "tool_use" := by decide
    have exported : anthropicCall codec call =
        .call id name (.value (inputJson codec arguments)) := by
      simp [anthropicCall, callName, callArguments, textField, isId, isName, isFunction,
        isArguments]
    rw [exported, isId, isName]
    simp [readPart, stringField, getString_eq, Json.field, Json.findField, kind, textField, plainId,
      plainName]

theorem messageToAnthropic_read {message converted : Json}
    (role : ∃ role ∈ ["user", "assistant", "tool"], message.getString "role" = some role)
    (result : messageToAnthropic codec message = some converted) :
    readMessage codec converted = anthropicItems codec message := by
  have user : Plain "user" := by rw [Plain]; decide
  have assistant : Plain "assistant" := by rw [Plain]; decide
  rw [messageToAnthropic] at result
  split at result
  next => cases result
  next valid =>
    have valid' : messageValid message = true := by simpa using valid
    split at result
    next => cases result
    next content isRole isContent =>
      have others : (some "assistant" : Option String) ≠ some "system" := by decide
      rw [anthropicItems, isRole, if_neg others, if_pos rfl,
        readBody_other isRole isContent (by decide)]
      split at result
      next calls isCalls =>
        obtain ⟨parts, isParts, result⟩ := Option.bind_eq_some_iff.mp result
        obtain ⟨uses, mapped, result⟩ := Option.bind_eq_some_iff.mp result
        cases result
        have known : toolCalls message = elements calls := by rw [toolCalls, isCalls]; rfl
        have read : uses.flatMap (readPart "assistant") =
            (elements calls).flatMap fun call => [anthropicCall codec call] := by
          apply Lists.flatMap_of_mapM _ mapped
          intro call member part made
          exact toolCallToPart_read "assistant"
            (toolCallValid_of_valid valid' call (known ▸ member)) made
        rw [readMessage_anthropicMessage assistant (by decide), readContent, List.flatMap_append,
          assistantParts_read "assistant" isParts, read, known, List.map_eq_flatMap]
      next isCalls =>
        obtain ⟨content', made, rfl⟩ := Option.map_eq_some_iff.mp result
        have none : toolCalls message = [] := by rw [toolCalls, isCalls]; rfl
        rw [readMessage_anthropicMessage assistant (by decide), (contentToJson_read made).2, none,
          List.map_nil, List.append_nil]
    next content isRole isContent =>
      split at result
      next id output isId isOutput =>
        cases result
        have body : readBody message = [.result id output] := by
          simp [readBody, isRole, isId, isContent, isOutput]
        rw [readMessage_anthropicMessage user (by decide), readContent, List.flatMap_singleton,
          readPart_toolResultPart (asString_of_getString isId) (asString_again isOutput)]
        simp [anthropicItems, isRole, body]
      next => cases result
    next role' content notSystem notAssistant notTool isRole isContent =>
      obtain ⟨known, member, isKnown⟩ := role
      have isUser : role' = "user" := by
        cases isRole.symm.trans isKnown
        simp only [List.mem_cons, List.not_mem_nil, or_false] at member
        rcases member with isUser | isAssistant | isTool
        · exact isUser
        · exact (notAssistant isAssistant).elim
        · exact (notTool isTool).elim
      obtain ⟨content', made, rfl⟩ := Option.map_eq_some_iff.mp result
      rw [isUser] at isRole
      rw [readMessage_anthropicMessage user (by decide), (contentToJson_read made).2,
        ← readBody_other isRole isContent (by decide)]
      simp [anthropicItems, isRole]
    next => cases result

def roles : List String := ["system", "user", "assistant", "tool"]

theorem anthropicLoop_read {messages documents : List Json} {system last : Option String}
    (known : ∀ message ∈ messages, ∃ role ∈ roles, message.getString "role" = some role)
    (result : anthropicLoop codec messages system = .ok (documents, last)) :
    documents.flatMap (readMessage codec) = messages.flatMap (anthropicItems codec) ∧
      last = (messages.filterMap systemText).foldl (fun system text => some (joinSystem system text))
        system ∧
      ∀ message ∈ messages, message.getString "role" = some "system" →
        ∃ text, (message.field "content").bind asString = some text := by
  induction messages generalizing documents system with
  | nil =>
      cases result
      exact ⟨rfl, rfl, by simp⟩
  | cons message messages ih =>
      have rest := fun message member => known message (List.mem_cons_of_mem _ member)
      rw [anthropicLoop] at result
      split at result
      next => cases result
      split at result
      next isSystem =>
        split at result
        next => cases result
        next text isText =>
          obtain ⟨read, joined, texts⟩ := ih rest result
          have here : systemText message = some text := by rw [systemText, if_pos isSystem, isText]
          rw [List.flatMap_cons, anthropicItems, if_pos isSystem, List.filterMap_cons_some here]
          exact ⟨read, joined, List.forall_mem_cons.mpr ⟨fun _ => ⟨text, isText⟩, texts⟩⟩
      next notSystem =>
        have here : systemText message = none := by rw [systemText, if_neg notSystem]
        have role : ∃ role ∈ ["user", "assistant", "tool"],
            message.getString "role" = some role := by
          obtain ⟨role, member, isRole⟩ := known message List.mem_cons_self
          rcases List.mem_cons.mp member with isSystem | other
          · rw [isRole, isSystem] at notSystem
            exact absurd rfl notSystem
          · exact ⟨role, other, isRole⟩
        split at result
        next => cases result
        next converted made =>
          cases looped : anthropicLoop codec messages system with
          | error status =>
              rw [looped] at result
              cases result
          | ok found =>
              obtain ⟨documents', last'⟩ := found
              rw [looped] at result
              cases result
              obtain ⟨read, joined, texts⟩ := ih rest looped
              rw [List.flatMap_cons, List.flatMap_cons, messageToAnthropic_read role made, read,
                List.filterMap_cons_none here]
              exact ⟨rfl, joined, List.forall_mem_cons.mpr
                ⟨fun isSystem => absurd isSystem notSystem, texts⟩⟩

theorem foldl_joinSystem (texts : List String) (text : String) :
    texts.foldl (fun system text => some (joinSystem system text)) (some text) =
      some ("\n\n".intercalate (text :: texts)) := by
  induction texts generalizing text with
  | nil => rfl
  | cons next texts ih => exact ih _

theorem foldl_joinSystem_none (texts : List String) :
    texts.foldl (fun system text => some (joinSystem system text)) none =
      if texts = [] then none else some ("\n\n".intercalate texts) := by
  cases texts with
  | nil => rfl
  | cons text texts => exact foldl_joinSystem texts text

end Anthropic

/-! ## Exports of conversations -/

section Exports

variable {codec : JsonCodec}

def keptItems (codec : JsonCodec) (message : Json) : List Item :=
  (if message.getString "role" = some "system" then [] else readBody message) ++
    (toolCalls message).map (readCall codec)

theorem filter_readMessage {message : Json} (isRole : ∃ role, message.getString "role" = some role)
    (system : message.getString "role" = some "system" →
      ∃ text, (message.field "content").bind asString = some text) :
    (readMessage codec message).filter (fun item => !item.isSystem) =
      keptItems codec message := by
  have calls : ((toolCalls message).map (readCall codec)).filter (fun item => !item.isSystem) =
      (toolCalls message).map (readCall codec) := by
    rw [List.filter_eq_self]
    intro item member
    obtain ⟨call, -, rfl⟩ := List.mem_map.mp member
    rfl
  rw [readMessage, List.filter_append, calls, keptItems]
  congr 1
  split
  next isSystem =>
    obtain ⟨text, isText⟩ := system isSystem
    obtain ⟨content, isContent, isText⟩ := Option.bind_eq_some_iff.mp isText
    rw [readBody_other isSystem isContent (by decide), List.filter_eq_nil_iff]
    intro item member
    cases content with
    | string whole =>
        rw [readContent, readText] at member
        split at member
        next => cases member
        cases List.mem_singleton.mp member
        simp [Item.isSystem]
    | _ => cases isText
  next notSystem =>
    obtain ⟨role, isRole⟩ := isRole
    have other : role ≠ "system" := by
      rintro rfl
      exact notSystem isRole
    rw [List.filter_eq_self]
    intro item member
    rw [readBody, isRole] at member
    split at member
    next =>
      cases List.mem_singleton.mp member
      rfl
    rw [Option.getD_some] at member
    rw [isSystem_readContent other item member]
    rfl

theorem length_anthropicItems_le (message : Json) :
    (anthropicItems codec message).length ≤ (keptItems codec message).length := by
  rw [anthropicItems, keptItems]
  split
  next => exact Nat.zero_le _
  split
  next => simp
  next => simp

theorem anthropicCall_eq_iff {call : Json} :
    anthropicCall codec call = readCall codec call ↔ ArgumentsParse codec call := by
  rw [anthropicCall, readCall, Item.call.injEq, readArguments, inputJson, ArgumentsParse]
  cases isText : asString (callArguments call) with
  | none => simp
  | some text => cases parsed : codec.parse text <;> simp [parsed]

theorem anthropicItems_eq_iff (message : Json) :
    anthropicItems codec message = keptItems codec message ↔ CallsKept codec message := by
  rw [anthropicItems, keptItems, CallsKept]
  split
  next isSystem =>
    have other : (some "system" : Option String) ≠ some "assistant" := by decide
    rw [isSystem, if_neg other, List.nil_append, eq_comm, List.map_eq_nil_iff]
  split
  next => simp [List.append_cancel_left_eq, List.map_inj_left, anthropicCall_eq_iff]
  next => simp

theorem messagesToAnthropic_read {messages document : Json} {system : Option String}
    (known : ∀ message ∈ elements messages, ∃ role ∈ roles, message.getString "role" = some role)
    (result : messagesToAnthropic codec messages = .ok (document, system)) :
    readMessages codec document = (elements messages).flatMap (anthropicItems codec) ∧
      (system = if systemTexts messages = [] then none
        else some ("\n\n".intercalate (systemTexts messages))) ∧
      (readMessages codec messages).filter (fun item => !item.isSystem) =
        (elements messages).flatMap (keptItems codec) := by
  cases messages with
  | array messages =>
      rw [messagesToAnthropic] at result
      cases looped : anthropicLoop codec messages none with
      | error status =>
          rw [looped] at result
          cases result
      | ok found =>
          obtain ⟨documents, last⟩ := found
          rw [looped] at result
          cases result
          obtain ⟨read, joined, texts⟩ := anthropicLoop_read known looped
          refine ⟨read, by rw [joined, foldl_joinSystem_none]; rfl, ?_⟩
          rw [readMessages, List.filter_flatMap]
          apply List.flatMap_congr
          intro message member
          obtain ⟨role, -, isRole⟩ := known message member
          exact filter_readMessage ⟨role, isRole⟩ (texts message member)
  | _ => cases result

/-- The condition under which an export preserves a conversation: in the Anthropic format all
tool calls are the assistant's, and their arguments are JSON. -/
def Exportable (codec : JsonCodec) (format : Format) (messages : Json) : Prop :=
  format = .anthropic → ∀ message ∈ elements messages, CallsKept codec message

def sampleMessage (role text : String) : Json :=
  .object [("role", .string role), ("content", .string text)]

/-- A message of a role with a call whose arguments are a text. -/
def sampleCaller (role arguments : String) : Json :=
  .object [("role", .string role), ("content", .string "Look"),
    ("tool_calls", .array [.object [("id", .string "c"), ("type", .string "function"),
      ("function", .object [("name", .string "find"), ("arguments", .string arguments)])]])]

def sampleAnswer : Json :=
  .object [("role", .string "tool"), ("content", .string "found"), ("tool_call_id", .string "c")]

def sampleCodec : JsonCodec := knownCodec [.object [("q", .int 1)]]

def sampleConversation : Json :=
  .array [sampleMessage "system" "Be kind.", sampleMessage "user" "Find it.",
    sampleCaller "assistant" "\x7b\"q\":1\x7d", sampleAnswer]

end Exports

end TurboAgent.Provider.Prompt
