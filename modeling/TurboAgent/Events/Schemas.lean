import TurboAgent.Provider.Anthropic
import TurboAgent.ToolSchema.Denotation

/-!
# Event schemas and their validators

Each kind of event has a schema and a validator, written apart from each other.  They agree on
every event but for two slips: a validator takes any number for a status where the schema wants
an integer, and it asks for the fields of a tool call without looking at their types.

Allocations succeed.
-/

namespace TurboAgent.Events

open Provider (toolCallValid)
open ToolSchema (Double Reading Satisfies HasType TypeHolds satisfies_iff)

/-! ## Schemas -/

structure Field where
  key : String
  schema : Json
  required : Bool

def objectSchema (fields : List Field) : Json :=
  .object [("type", .string "object"),
    ("properties", .object (fields.map fun field => (field.key, field.schema))),
    ("required", .array ((fields.filter Field.required).map fun field => .string field.key))]

/-- A schema that declares a type and nothing else. -/
def typeSchema (declared : Json) : Json := .object [("type", declared)]

def Field.typed (key type : String) : Field := ⟨key, typeSchema (.string type), true⟩

/-- `turbo_event_string_or_null_schema_field`. -/
def Field.stringOrNull (key : String) (allowNull required : Bool) : Field :=
  ⟨key, typeSchema (if allowNull then .array [.string "string", .string "null"]
    else .string "string"), required⟩

/-- The fields of `turbo_event_tool_call_schema_json_value`. -/
def toolCallFields : List Field :=
  [.typed "call_id" "string", .typed "name" "string", .typed "arguments" "string"]

def arraySchema (items : Json) : Json := .object [("type", .string "array"), ("items", items)]

/-- The fields of `turbo_event_model_schema_json_value`. -/
def modelFields : List Field :=
  [.typed "kind" "string", .typed "response_id" "string", .typed "output_text" "string",
    ⟨"tool_calls", arraySchema (objectSchema toolCallFields), true⟩]

/-- The fields of `turbo_event_trace_schema_json_value`. -/
def traceFields : List Field :=
  [.typed "kind" "string", .typed "name" "string", .typed "detail" "string",
    .typed "payload" "string", .typed "status" "integer"]

/-- The fields of `turbo_event_tool_result_schema_json_value`. -/
def toolResultFields : List Field :=
  [.typed "kind" "string", .typed "name" "string", .typed "arguments_json" "string",
    .typed "output" "string", .typed "status" "integer",
    .stringOrNull "child_thread_id" false false, .stringOrNull "child_run_id" false false,
    .stringOrNull "child_checkpoint_id" true false, .stringOrNull "child_status" false false,
    .stringOrNull "parent_agent_run_id" false false,
    .stringOrNull "parent_tool_call_id" false false,
    .stringOrNull "parent_tool_name" false false,
    .stringOrNull "parent_graph_run_id" false false,
    .stringOrNull "call_frame_id" false false]

/-- The fields of `turbo_event_handoff_schema_json_value`. -/
def handoffFields : List Field :=
  [.typed "kind" "string", .typed "phase" "string", .stringOrNull "from_agent" true true,
    .stringOrNull "target_agent" true true, .stringOrNull "reason" true true,
    .stringOrNull "active_agent" true true, .typed "status" "integer"]

inductive Kind where
  | model
  | trace
  | toolResult
  | handoff
  deriving DecidableEq

namespace Kind

/-- What the field `kind` holds. -/
def text : Kind → String
  | .model => "model"
  | .trace => "trace"
  | .toolResult => "tool_result"
  | .handoff => "handoff"

def fields : Kind → List Field
  | .model => modelFields
  | .trace => traceFields
  | .toolResult => toolResultFields
  | .handoff => handoffFields

def schema (kind : Kind) : Json := objectSchema kind.fields

end Kind

/-! ## Validators -/

/-- `json_type(value) == JSON_STRING`. -/
def isString : Json → Bool
  | .string _ => true
  | _ => false

/-- `json_type(value) == JSON_NUMBER`. -/
def isNumber : Json → Bool
  | .number _ _ => true
  | _ => false

def isStringOrNull (allowNull : Bool) (value : Json) : Bool :=
  isString value || (allowNull && value == .null)

def requires (event : Json) (key : String) (check : Json → Bool) : Bool :=
  (event.field key).any check

/-- `turbo_event_tool_result_optional_field_valid`. -/
def optionalFieldValid (event : Json) (key : String) (allowNull : Bool) : Bool :=
  (event.field key).all (isStringOrNull allowNull)

/-- `turbo_event_required_string_or_null_field_valid`. -/
def requiredStringOrNullFieldValid (event : Json) (key : String) (allowNull : Bool) : Bool :=
  requires event key (isStringOrNull allowNull)

/-- The loop over the tool calls of a model event. -/
def toolCallsValid : Json → Bool
  | .array calls => calls.all toolCallValid
  | _ => false

/-- `turbo_event_kind_json_value`. -/
def kindOf (event : Json) : Option String := event.getString "kind"

/-- `turbo_event_model_validate_json_value`. -/
def modelValidate (event : Json) : Bool :=
  event.isObject && kindOf event == some "model" && requires event "response_id" isString &&
    requires event "output_text" isString && requires event "tool_calls" toolCallsValid

/-- `turbo_event_trace_validate_json_value`. -/
def traceValidate (event : Json) : Bool :=
  event.isObject && kindOf event == some "trace" && requires event "name" isString &&
    requires event "detail" isString && requires event "payload" isString &&
    requires event "status" isNumber

/-- `turbo_event_tool_result_validate_json_value`. -/
def toolResultValidate (event : Json) : Bool :=
  event.isObject && kindOf event == some "tool_result" && requires event "name" isString &&
    requires event "arguments_json" isString && requires event "output" isString &&
    requires event "status" isNumber &&
    optionalFieldValid event "child_thread_id" false &&
    optionalFieldValid event "child_run_id" false &&
    optionalFieldValid event "child_checkpoint_id" true &&
    optionalFieldValid event "child_status" false &&
    optionalFieldValid event "parent_agent_run_id" false &&
    optionalFieldValid event "parent_tool_call_id" false &&
    optionalFieldValid event "parent_tool_name" false &&
    optionalFieldValid event "parent_graph_run_id" false &&
    optionalFieldValid event "call_frame_id" false

/-- `turbo_event_handoff_validate_json_value`. -/
def handoffValidate (event : Json) : Bool :=
  event.isObject && kindOf event == some "handoff" && requires event "phase" isString &&
    requires event "status" isNumber &&
    requiredStringOrNullFieldValid event "from_agent" true &&
    requiredStringOrNullFieldValid event "target_agent" true &&
    requiredStringOrNullFieldValid event "reason" true &&
    requiredStringOrNullFieldValid event "active_agent" true

/-- `turbo_event_validate_json_value`. -/
def validate (event : Json) : Bool :=
  match kindOf event with
  | some "model" => modelValidate event
  | some "trace" => traceValidate event
  | some "tool_result" => toolResultValidate event
  | some "handoff" => handoffValidate event
  | _ => false

/-! ## What the schemas say -/

def Field.Holds (double : Int → Nat → Double) (event : Json) (field : Field) : Prop :=
  match event.field field.key with
  | none => field.required = false
  | some value => Satisfies (.exact double) value field.schema

section

variable {double : Int → Nat → Double} {event value : Json} {key : String}

@[simp] theorem Field.typed_key (key type : String) : (Field.typed key type).key = key := rfl

@[simp] theorem Field.stringOrNull_key (key : String) (allowNull required : Bool) :
    (Field.stringOrNull key allowNull required).key = key := rfl

theorem satisfies_objectSchema {fields : List Field}
    (schemas : ∀ field ∈ fields, field.schema.isObject = true) :
    Satisfies (.exact double) event (objectSchema fields) ↔
      event.isObject = true ∧ ∀ field ∈ fields, field.Holds double event := by
  rw [satisfies_iff]
  constructor
  · rintro ⟨meets, children⟩
    have isObject : HasType (.exact double) event "object" := meets.type (.string "object") rfl
    cases event with
    | object entries =>
        refine ⟨rfl, fun field member => ?_⟩
        rw [Field.Holds]
        split
        next absent =>
          by_contra required
          have listed : field ∈ fields.filter Field.required :=
            List.mem_filter.mpr ⟨member, by simpa using required⟩
          obtain ⟨name, same, found⟩ := meets.contents.2.1 _ rfl (.string field.key)
            (List.mem_map.mpr ⟨field, listed, rfl⟩)
          cases same
          have present : (Json.field (.object entries) field.key).isSome = true := found
          rw [absent] at present
          cases present
        next value found =>
          exact children value field.schema
            (.property rfl (List.mem_map.mpr ⟨field, member, rfl⟩) found)
    | _ => simp [HasType] at isObject
  · rintro ⟨isObject, holds⟩
    cases event with
    | object entries =>
        refine ⟨⟨?_, ?_, ?_, ⟨?_, ?_⟩, ?_, ?_, ?_⟩, ?_⟩
        · intro declared isDeclared
          cases isDeclared
          rfl
        · exact nofun
        · exact nofun
        · exact nofun
        · exact nofun
        · intro required isRequired
          cases isRequired
          intro entry member
          obtain ⟨field, listed, rfl⟩ := List.mem_map.mp member
          obtain ⟨isField, required⟩ := List.mem_filter.mp listed
          refine ⟨field.key, rfl, ?_⟩
          have held := holds field isField
          rw [Field.Holds] at held
          split at held
          next => rw [required] at held; cases held
          next value found => exact Option.isSome_of_eq_some found
        · intro properties isProperties
          cases isProperties
          intro property member
          obtain ⟨field, isField, rfl⟩ := List.mem_map.mp member
          exact schemas field isField
        · exact nofun
        · intro value' schema' child
          cases child with
          | property isProperties member found =>
              cases isProperties
              obtain ⟨field, isField, same⟩ := List.mem_map.mp member
              cases same
              have held := holds field isField
              rw [Field.Holds, show Json.field (.object entries) field.key = _ from found] at held
              exact held
          | additional absent => cases absent
    | _ => cases isObject

theorem satisfies_typeSchema {declared : Json} :
    Satisfies (.exact double) value (typeSchema declared) ↔
      TypeHolds (.exact double) value declared := by
  rw [satisfies_iff]
  constructor
  · rintro ⟨meets, -⟩
    exact meets.type declared rfl
  · intro holds
    refine ⟨⟨?_, ?_, ?_, ?_⟩, ?_⟩
    · intro other same
      cases same
      exact holds
    · exact nofun
    · exact nofun
    · cases value <;>
        simp [ToolSchema.ContentsHold, ToolSchema.SizeHolds, ToolSchema.numericBounds, typeSchema,
          Json.field, Json.findField]
    · intro value' schema' child
      cases child with
      | item absent => cases absent
      | property absent => cases absent
      | additional absent => cases absent

theorem satisfies_arraySchema {items : Json} (isSchema : items.isObject = true) :
    Satisfies (.exact double) value (arraySchema items) ↔
      ∃ elements, value = .array elements ∧
        ∀ element ∈ elements, Satisfies (.exact double) element items := by
  rw [satisfies_iff]
  constructor
  · rintro ⟨meets, children⟩
    have isArray : HasType (.exact double) value "array" := meets.type (.string "array") rfl
    cases value with
    | array elements => exact ⟨elements, rfl, fun element member => children _ _ (.item rfl member)⟩
    | _ => simp [HasType] at isArray
  · rintro ⟨elements, rfl, satisfy⟩
    refine ⟨⟨?_, ?_, ?_, ⟨?_, ?_⟩, ?_⟩, ?_⟩
    · intro declared isDeclared
      cases isDeclared
      rfl
    · exact nofun
    · exact nofun
    · exact nofun
    · exact nofun
    · intro other same
      cases same
      exact isSchema
    · intro value' schema' child
      cases child with
      | item isItems member =>
          cases isItems
          exact satisfy _ member

theorem typeHolds_string :
    TypeHolds (.exact double) value (.string "string") ↔ isString value = true := by
  cases value <;> simp [TypeHolds, HasType, Reading.exact, isString]

variable {allowNull : Bool}

theorem typeHolds_stringOrNull :
    TypeHolds (.exact double) value
        (if allowNull then .array [.string "string", .string "null"] else .string "string") ↔
      isStringOrNull allowNull value = true := by
  cases allowNull with
  | false =>
      simp only [isStringOrNull, Bool.false_and, Bool.or_false]
      exact typeHolds_string
  | true =>
      simp only [if_true, TypeHolds, isStringOrNull, Bool.true_and, Bool.or_eq_true, beq_iff_eq]
      constructor
      · rintro ⟨name, listed, has⟩
        rcases List.mem_cons.mp listed with same | listed
        · cases same
          exact .inl (typeHolds_string.mp has)
        · cases List.mem_singleton.mp listed
          cases value <;> simp [HasType, Reading.exact] at has ⊢
      · rintro (isText | rfl)
        · exact ⟨"string", List.mem_cons_self, typeHolds_string.mpr isText⟩
        · exact ⟨"null", List.mem_cons_of_mem _ List.mem_cons_self, rfl⟩

/-! ## What the validators check -/

theorem requires_iff {field : Field} {check : Json → Bool} (required : field.required = true)
    (checks : ∀ value, check value = true ↔ Satisfies (.exact double) value field.schema) :
    requires event field.key check = true ↔ field.Holds double event := by
  rw [requires, Field.Holds]
  cases event.field field.key with
  | none => simp [required]
  | some value => exact checks value

variable (double)

theorem requires_isString :
    requires event key isString = true ↔ (Field.typed key "string").Holds double event := by
  apply @requires_iff double event (.typed key "string") isString rfl
  intro value
  exact typeHolds_string.symm.trans satisfies_typeSchema.symm

theorem requiredStringOrNullFieldValid_iff :
    requiredStringOrNullFieldValid event key allowNull = true ↔
      (Field.stringOrNull key allowNull true).Holds double event := by
  apply @requires_iff double event (.stringOrNull key allowNull true) _ rfl
  intro value
  exact typeHolds_stringOrNull.symm.trans satisfies_typeSchema.symm

theorem optionalFieldValid_iff :
    optionalFieldValid event key allowNull = true ↔
      (Field.stringOrNull key allowNull false).Holds double event := by
  rw [optionalFieldValid, Field.Holds, Field.stringOrNull_key]
  cases event.field key with
  | none => simp [Field.stringOrNull]
  | some value => exact typeHolds_stringOrNull.symm.trans satisfies_typeSchema.symm

theorem kind_holds {text : String} (isKind : kindOf event = some text) :
    (Field.typed "kind" "string").Holds double event := by
  apply (requires_isString double).mp
  rw [kindOf, Json.getString] at isKind
  rw [requires]
  split at isKind
  next found => rw [found]; rfl
  next => cases isKind

theorem isObject_of_kind {text : String} (isKind : kindOf event = some text) :
    event.isObject = true := by
  cases event with
  | object fields => rfl
  | _ => cases isKind

end

/-! ## Agreement -/

namespace Kind

/-- The field of which a validator checks less than its schema says. -/
def slip : Kind → Field
  | .model => ⟨"tool_calls", arraySchema (objectSchema toolCallFields), true⟩
  | _ => .typed "status" "integer"

/-- What a validator asks of that field: an array of objects with the fields of a call, or a
number. -/
def Loose (event : Json) : Kind → Prop
  | .model => ∃ calls, event.field "tool_calls" = some (.array calls) ∧
      ∀ call ∈ calls, call.isObject = true ∧
        ∀ field ∈ toolCallFields, (call.field field.key).isSome = true
  | _ => ∃ mantissa exponent, event.field "status" = some (.number mantissa exponent)

/-- What it does not look at: whether the fields of the calls are strings, and whether the
number is an integer. -/
def Strict (double : Int → Nat → Double) (event : Json) : Kind → Prop
  | .model => ∀ calls, event.field "tool_calls" = some (.array calls) →
      ∀ call ∈ calls, ∀ field ∈ toolCallFields, ∀ value,
        call.field field.key = some value → isString value = true
  | _ => ∀ mantissa exponent, event.field "status" = some (.number mantissa exponent) →
      (double mantissa exponent).isIntegral = true

/-- The other fields are as the schema wants them. -/
def OthersHold (double : Int → Nat → Double) (event : Json) (kind : Kind) : Prop :=
  ∀ field ∈ kind.fields, field.key ≠ kind.slip.key → field.Holds double event

end Kind

section

variable {double : Int → Nat → Double} {event : Json} {kind : Kind}

theorem toolCall_satisfies {call : Json} :
    Satisfies (.exact double) call (objectSchema toolCallFields) ↔
      call.isObject = true ∧ ∀ field ∈ toolCallFields, field.Holds double call :=
  satisfies_objectSchema (by simp [toolCallFields, Field.typed, typeSchema, Json.isObject])

theorem toolCallField_holds {call : Json} {field : Field} (member : field ∈ toolCallFields) :
    field.Holds double call ↔ (call.field field.key).isSome = true ∧
      ∀ value, call.field field.key = some value → isString value = true := by
  have typed : field = .typed field.key "string" := by
    simp only [toolCallFields, List.mem_cons, List.not_mem_nil, or_false] at member
    rcases member with rfl | rfl | rfl <;> rfl
  rw [typed, ← requires_isString double, requires, Field.typed_key]
  cases call.field field.key <;> simp

theorem slip_holds :
    kind.slip.Holds double event ↔ kind.Loose event ∧ kind.Strict double event := by
  have status : (Field.typed "status" "integer").Holds double event ↔
      (∃ mantissa exponent, event.field "status" = some (.number mantissa exponent)) ∧
        ∀ mantissa exponent, event.field "status" = some (.number mantissa exponent) →
          (double mantissa exponent).isIntegral = true := by
    rw [Field.Holds, Field.typed_key]
    cases event.field "status" with
    | none => simp [Field.typed]
    | some value =>
        refine satisfies_typeSchema.trans ?_
        cases value <;> simp [TypeHolds, HasType, Reading.exact]
  cases kind with
  | model =>
      rw [Field.Holds, Kind.slip]
      cases found : event.field "tool_calls" with
      | none => simp [Kind.Loose, found]
      | some value =>
          refine (satisfies_arraySchema rfl).trans ?_
          simp only [Kind.Loose, Kind.Strict, found, Option.some.injEq, toolCall_satisfies]
          constructor
          · rintro ⟨calls, rfl, satisfy⟩
            refine ⟨⟨calls, rfl, ?_⟩, ?_⟩
            · intro call member
              exact ⟨(satisfy call member).1, fun field isField =>
                ((toolCallField_holds isField).mp ((satisfy call member).2 field isField)).1⟩
            · rintro _ same call member field isField
              cases same
              exact ((toolCallField_holds isField).mp ((satisfy call member).2 field isField)).2
          · rintro ⟨⟨calls, rfl, present⟩, strings⟩
            refine ⟨calls, rfl, fun call member => ⟨(present call member).1, ?_⟩⟩
            intro field isField
            exact (toolCallField_holds isField).mpr
              ⟨(present call member).2 field isField, strings calls rfl call member field isField⟩
  | trace => exact status
  | toolResult => exact status
  | handoff => exact status

theorem satisfies_iff_slip (isObject : event.isObject = true) :
    Satisfies (.exact double) event kind.schema ↔
      kind.OthersHold double event ∧ kind.Loose event ∧ kind.Strict double event := by
  have listed : kind.slip ∈ kind.fields ∧
      ∀ field ∈ kind.fields, field.key = kind.slip.key → field = kind.slip := by
    cases kind <;>
      simp [Kind.slip, Kind.fields, modelFields, traceFields, toolResultFields, handoffFields]
  have schemas : ∀ field ∈ kind.fields, field.schema.isObject = true := by
    cases kind <;>
      simp [Kind.fields, modelFields, traceFields, toolResultFields, handoffFields, Field.typed,
        Field.stringOrNull, typeSchema, arraySchema, Json.isObject]
  rw [← slip_holds, Kind.schema, satisfies_objectSchema schemas]
  constructor
  · rintro ⟨-, holds⟩
    exact ⟨fun field member _ => holds field member, holds _ listed.1⟩
  · rintro ⟨others, slip⟩
    refine ⟨isObject, fun field member => ?_⟩
    by_cases same : field.key = kind.slip.key
    · rw [listed.2 field member same]
      exact slip
    · exact others field member same

theorem toolCallsValid_iff : requires event "tool_calls" toolCallsValid = true ↔
    Kind.model.Loose event := by
  simp only [requires, Option.any_eq_true, Kind.Loose]
  constructor
  · rintro ⟨value, found, valid⟩
    cases value with
    | array calls =>
        refine ⟨calls, found, fun call member => ?_⟩
        have called := List.all_eq_true.mp valid call member
        simp only [toolCallValid, Bool.and_eq_true] at called
        simp [toolCallFields, called]
    | _ => cases valid
  · rintro ⟨calls, found, present⟩
    refine ⟨_, found, List.all_eq_true.mpr fun call member => ?_⟩
    obtain ⟨isObject, fields⟩ := present call member
    simp only [toolCallFields, List.forall_mem_cons, Field.typed_key] at fields
    simp [toolCallValid, isObject, fields]

theorem requires_isNumber : requires event "status" isNumber = true ↔
    ∃ mantissa exponent, event.field "status" = some (.number mantissa exponent) := by
  rw [requires]
  cases event.field "status" with
  | none => simp
  | some value => cases value <;> simp [isNumber]

theorem validate_iff_slip (isKind : kindOf event = some kind.text) :
    validate event = true ↔ kind.OthersHold double event ∧ kind.Loose event := by
  have isObject := isObject_of_kind isKind
  have held := kind_holds double isKind
  rw [validate, isKind]
  cases kind with
  | model =>
      simp [Kind.text, modelValidate, Kind.OthersHold, Kind.fields, Kind.slip, modelFields,
        isObject, isKind, held, requires_isString double, toolCallsValid_iff]
  | trace =>
      simp [Kind.text, traceValidate, Kind.OthersHold, Kind.fields, Kind.slip, traceFields,
        isObject, isKind, held, requires_isString double, requires_isNumber, Kind.Loose, and_assoc]
  | toolResult =>
      simp only [Kind.text, toolResultValidate, Kind.OthersHold, Kind.fields, Kind.slip,
        toolResultFields, isObject, isKind, held, requires_isString double, requires_isNumber,
        optionalFieldValid_iff double, Kind.Loose, List.forall_mem_cons, Field.typed_key,
        Field.stringOrNull_key, Bool.and_eq_true]
      simp
      tauto
  | handoff =>
      simp [Kind.text, handoffValidate, Kind.OthersHold, Kind.fields, Kind.slip,
        handoffFields, isObject, isKind, held, requires_isString double,
        requires_isNumber, requiredStringOrNullFieldValid_iff double, Kind.Loose]
      tauto

def traceOf (mantissa : Int) (exponent : Nat) : Json :=
  .object [("kind", .string "trace"), ("name", .string "n"), ("detail", .string "d"),
    ("payload", .string "p"), ("status", .number mantissa exponent)]

def numberedCall : Json :=
  .object [("kind", .string "model"), ("response_id", .string "r"), ("output_text", .string "t"),
    ("tool_calls", .array [.object [("call_id", .string "c"), ("name", .int 7),
      ("arguments", .string "a")]])]

def decimal (mantissa : Int) (exponent : Nat) : Double :=
  .finite (mantissa / 10 ^ exponent)

/-- A validator agrees with the schema of its kind exactly where the field of the slip is as the
schema wants it, or another part of the event is not. -/
theorem validate_agrees_iff (double : Int → Nat → Double) (event : Json) (kind : Kind)
    (isKind : kindOf event = some kind.text) :
    (validate event = true ↔ Satisfies (.exact double) event kind.schema) ↔
      (kind.OthersHold double event → kind.Loose event → kind.Strict double event) := by
  rw [@validate_iff_slip double event kind isKind, satisfies_iff_slip (isObject_of_kind isKind)]
  constructor
  · intro agree others loose
    exact (agree.mp ⟨others, loose⟩).2.2
  · intro strict
    constructor
    · rintro ⟨others, loose⟩
      exact ⟨others, loose, strict others loose⟩
    · rintro ⟨others, loose, -⟩
      exact ⟨others, loose⟩

theorem validate_agrees_iff_two :
    (validate (traceOf 20 1) = true ↔
        Satisfies (.exact decimal) (traceOf 20 1) Kind.trace.schema) ↔
      (Kind.trace.OthersHold decimal (traceOf 20 1) → Kind.trace.Loose (traceOf 20 1) →
        Kind.trace.Strict decimal (traceOf 20 1)) :=
  validate_agrees_iff decimal (traceOf 20 1) .trace (by decide)

/-- Both slips: the validators accept what the schemas exclude. -/
theorem validate_accepts_more :
    ¬(validate (traceOf 15 1) = true ↔
        Satisfies (.exact decimal) (traceOf 15 1) Kind.trace.schema) ∧
      ¬(validate numberedCall = true ↔
        Satisfies (.exact decimal) numberedCall Kind.model.schema) := by
  have broken : ¬Kind.trace.Strict decimal (traceOf 15 1) := by
    intro strict
    have whole := strict 15 1 rfl
    norm_num [decimal, Double.isIntegral] at whole
  have untyped : ¬Kind.model.Strict decimal numberedCall := by
    intro strict
    have typed := strict _ rfl _ List.mem_cons_self (.typed "name" "string")
      (List.mem_cons_of_mem _ List.mem_cons_self) (.int 7) rfl
    cases typed
  have trace := @satisfies_iff_slip decimal (traceOf 15 1) .trace rfl
  have model := @satisfies_iff_slip decimal numberedCall .model rfl
  constructor
  · intro agree
    exact broken (trace.mp (agree.mp (by decide))).2.2
  · intro agree
    exact untyped (model.mp (agree.mp (by decide))).2.2

end

end TurboAgent.Events
