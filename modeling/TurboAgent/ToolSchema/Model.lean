import TurboAgent.Data.Json
import TurboAgent.Data.Utf8

/-!
# The tool schema validator

Arguments of tools are checked against a subset of JSON Schema.  The walk goes through the
schema and the value together: a subschema is looked at when the value has something for it.

Strings are read as C strings, up to their first NUL.  What the JSON library gives as the number
of a literal is an argument, so that nothing here depends on how decimals are rounded.
-/

namespace TurboAgent.ToolSchema

/-- The values of `double` that a JSON number can have. -/
inductive Double where
  | negativeInfinity
  | finite (value : ℚ)
  | positiveInfinity
  deriving DecidableEq

namespace Double

def lt : Double → Double → Bool
  | .negativeInfinity, .finite _ | .negativeInfinity, .positiveInfinity => true
  | .finite left, .finite right => decide (left < right)
  | .finite _, .positiveInfinity => true
  | _, _ => false

/-- `isfinite`. -/
def isFinite : Double → Bool
  | .finite _ => true
  | _ => false

/-- `isfinite(number) && modf(number, &integral) == 0.0`. -/
def isIntegral : Double → Bool
  | .finite value => value.den == 1
  | _ => false

end Double

def cString (text : String) : String :=
  String.ofList (text.toList.takeWhile (· ≠ '\x00'))

/-- `turbo_tool_schema_validation_status_t` without `TURBO_TOOL_SCHEMA_VALID`. -/
inductive Refusal where
  | valueInvalid
  | invalidArgument
  | invalidSchema
  | unsupported
  deriving DecidableEq

structure Rejection where
  refusal : Refusal
  message : String
  detail : Option String
  deriving DecidableEq

/-- `turbo_tool_schema_diagnostic`, for a buffer that is large enough. -/
def Rejection.diagnostic (rejection : Rejection) : String :=
  match rejection.detail.filter (· ≠ "") with
  | some detail => rejection.message ++ ": " ++ detail
  | none => rejection.message

abbrev Checked := Except Rejection Unit

def reject (refusal : Refusal) (message : String) (detail : Option String) : Checked :=
  .error ⟨refusal, message, detail⟩

/-! ## Keywords -/

/-- `turbo_tool_schema_annotation_keyword`. -/
def annotationKeyword (key : String) : Bool :=
  ["$id", "$schema", "title", "description", "default", "examples", "deprecated", "readOnly",
    "writeOnly"].contains key

/-- `turbo_tool_schema_supported_keyword`. -/
def supportedKeyword (key : String) : Bool :=
  annotationKeyword key ||
    ["type", "properties", "required", "additionalProperties", "items", "enum", "const", "minimum",
      "maximum", "exclusiveMinimum", "exclusiveMaximum", "minLength", "maxLength", "minItems",
      "maxItems", "minProperties", "maxProperties"].contains key

/-- `turbo_tool_schema_check_keywords`. -/
def checkKeywords : Json → Checked
  | .object fields => fields.forM fun field =>
      if supportedKeyword field.1 then .ok ()
      else reject .unsupported "unsupported parameter-schema keyword" (some field.1)
  | _ => reject .invalidSchema "parameter schema must be an object" none

/-! ## Values -/

section

variable (double : Int → Nat → Double)

/-- `turbo_tool_schema_json_equal`, with the number of levels that it may still go down. -/
def jsonEqual : Nat → Json → Json → Bool
  | 0, _, _ => false
  | _ + 1, .null, .null => true
  | _ + 1, .bool left, .bool right => left == right
  | _ + 1, .number mantissa exponent, .number mantissa' exponent' =>
      double mantissa exponent == double mantissa' exponent'
  | _ + 1, .string left, .string right => cString left == cString right
  | levels + 1, .array lefts, .array rights =>
      lefts.length == rights.length &&
        (lefts.zip rights).all fun pair => jsonEqual levels pair.1 pair.2
  | levels + 1, .object lefts, .object rights =>
      lefts.length == rights.length && lefts.all fun field =>
        match Json.findField rights field.1 with
        | some right => jsonEqual levels field.2 right
        | none => false
  | _ + 1, _, _ => false

/-- The loop of `turbo_tool_schema_utf8_codepoint_count`. -/
def countCodepoints : List UInt8 → Nat
  | [] => 0
  | byte :: rest =>
      if byte = 0 then 0
      else (if byte &&& 0xc0 ≠ 0x80 then 1 else 0) + countCodepoints rest

/-- `turbo_tool_schema_utf8_codepoint_count`. -/
def codepointCount (text : String) : Nat :=
  countCodepoints (utf8 text)

/-- `turbo_tool_schema_nonnegative_size`. -/
def nonnegativeSize : Json → Option Nat
  | .number mantissa exponent =>
      match double mantissa exponent with
      | .finite value =>
          if 0 ≤ value ∧ value.den = 1 ∧ value ≤ 9007199254740991 then some value.num.toNat
          else none
      | _ => none
  | _ => none

/-- `turbo_tool_schema_type_matches`; a type that is not known has no answer. -/
def typeMatches (value : Json) (typeName : String) : Option Bool :=
  if typeName = "object" then some value.isObject
  else if typeName = "array" then some (match value with | .array _ => true | _ => false)
  else if typeName = "string" then some (match value with | .string _ => true | _ => false)
  else if typeName = "number" then
    some (match value with
      | .number mantissa exponent => (double mantissa exponent).isFinite
      | _ => false)
  else if typeName = "integer" then
    some (match value with
      | .number mantissa exponent => (double mantissa exponent).isIntegral
      | _ => false)
  else if typeName = "boolean" then some (match value with | .bool _ => true | _ => false)
  else if typeName = "null" then some (match value with | .null => true | _ => false)
  else none

/-! ## The checks of one node -/

def anyType (value : Json) : List Json → Except Rejection Bool
  | [] => .ok false
  | .string name :: rest =>
      match typeMatches double value (cString name) with
      | none => .error ⟨.unsupported, "unsupported parameter type", some (cString name)⟩
      | some true => .ok true
      | some false => anyType value rest
  | _ :: _ => .error ⟨.invalidSchema, "type array must contain strings", none⟩

def checkMatched (matched : Bool) : Checked :=
  if matched then .ok () else reject .valueInvalid "parameter type mismatch" none

/-- The check of `type`. -/
def checkType (value schema : Json) : Checked :=
  match schema.field "type" with
  | none => .ok ()
  | some (.string name) =>
      match typeMatches double value (cString name) with
      | none => reject .unsupported "unsupported parameter type" (some (cString name))
      | some matched => checkMatched matched
  | some (.array entries) =>
      match anyType double value entries with
      | .error rejection => .error rejection
      | .ok matched => checkMatched matched
  | some _ => reject .invalidSchema "type must be a string or string array" none

/-- `TURBO_TOOL_SCHEMA_MAX_DEPTH`, counted in levels. -/
def maxLevels : Nat := 65

/-- The check of `enum`. -/
def checkEnum (value schema : Json) : Checked :=
  match schema.field "enum" with
  | none => .ok ()
  | some (.array (first :: rest)) =>
      if (first :: rest).any (jsonEqual double maxLevels value) then .ok ()
      else reject .valueInvalid "parameter is not an admitted enum value" none
  | some _ => reject .invalidSchema "enum must be a non-empty array" none

/-- The check of `const`. -/
def checkConst (value schema : Json) : Checked :=
  match schema.field "const" with
  | none => .ok ()
  | some constant =>
      if jsonEqual double maxLevels value constant then .ok ()
      else reject .valueInvalid "parameter does not match const" none

/-- An entry of `numeric_bounds`. -/
structure NumericBound where
  key : String
  (exclusive lower : Bool)

/-- `numeric_bounds`. -/
def numericBounds : List NumericBound :=
  [⟨"minimum", false, true⟩, ⟨"maximum", false, false⟩, ⟨"exclusiveMinimum", true, true⟩,
    ⟨"exclusiveMaximum", true, false⟩]

def NumericBound.violated (bound : NumericBound) (number limit : Double) : Bool :=
  match bound.lower, bound.exclusive with
  | true, true => !limit.lt number
  | true, false => number.lt limit
  | false, true => !number.lt limit
  | false, false => limit.lt number

def checkNumericBound (number : Double) (schema : Json) (bound : NumericBound) : Checked :=
  match schema.field bound.key with
  | none => .ok ()
  | some (.number mantissa exponent) =>
      let limit := double mantissa exponent
      if !limit.isFinite then
        reject .invalidSchema "numeric bound must be a finite number" (some bound.key)
      else if bound.violated number limit then
        reject .valueInvalid "parameter violates numeric bound" (some bound.key)
      else .ok ()
  | some _ => reject .invalidSchema "numeric bound must be a finite number" (some bound.key)

/-- The check of a lower or an upper bound of a size; `kind` names what is measured. -/
def checkSizeBound (kind : String) (size : Nat) (schema : Json) (key : String) (minimum : Bool) :
    Checked :=
  match schema.field key with
  | none => .ok ()
  | some bound =>
      match nonnegativeSize double bound with
      | none => reject .invalidSchema (kind ++ " bound must be a non-negative integer") (some key)
      | some limit =>
          if (minimum && decide (size < limit)) || (!minimum && decide (limit < size)) then
            reject .valueInvalid ("parameter violates " ++ kind ++ " bound") (some key)
          else .ok ()

def checkSizeBounds (kind : String) (size : Nat) (schema : Json) (least most : String) :
    Checked := do
  checkSizeBound double kind size schema least true
  checkSizeBound double kind size schema most false

variable (visit : Json → Json → Checked)

/-- The check of `items`. -/
def checkItems (elements : List Json) (schema : Json) : Checked :=
  match schema.field "items" with
  | none => .ok ()
  | some items =>
      if !items.isObject then reject .unsupported "items must be an object schema" none
      else elements.forM fun element => visit element items

/-- The check of one entry of `required`. -/
def checkRequiredEntry (fields : List (String × Json)) : Json → Checked
  | .string name =>
      if (Json.findField fields (cString name)).isSome then .ok ()
      else reject .valueInvalid "missing required property" (some (cString name))
  | _ => reject .invalidSchema "required entries must be strings" none

/-- The check of `required`. -/
def checkRequired (fields : List (String × Json)) (schema : Json) : Checked :=
  match schema.field "required" with
  | none => .ok ()
  | some (.array entries) => entries.forM (checkRequiredEntry fields)
  | some _ => reject .invalidSchema "required must be an array" none

def checkProperty (fields : List (String × Json)) (property : String × Json) : Checked :=
  if !property.2.isObject then
    reject .invalidSchema "property schema must be an object" (some property.1)
  else
    match Json.findField fields property.1 with
    | none => .ok ()
    | some value => visit value property.2

/-- The check of `properties`. -/
def checkProperties (fields : List (String × Json)) (schema : Json) : Checked :=
  match schema.field "properties" with
  | none => .ok ()
  | some (.object properties) => properties.forM (checkProperty visit fields)
  | some _ => reject .invalidSchema "properties must be an object" none

def propertySchema (schema : Json) (key : String) : Option Json :=
  (schema.field "properties").bind fun properties => properties.field key

def checkExtra (schema additional : Json) (field : String × Json) : Checked :=
  if (propertySchema schema field.1).isSome then .ok ()
  else
    match additional with
    | .bool true => .ok ()
    | .bool false => reject .valueInvalid "unexpected property" (some field.1)
    | _ => visit field.2 additional

/-- The check of `additionalProperties`. -/
def checkAdditional (fields : List (String × Json)) (schema : Json) : Checked :=
  match schema.field "additionalProperties" with
  | none => .ok ()
  | some (.bool allowed) => fields.forM (checkExtra visit schema (.bool allowed))
  | some (.object sub) => fields.forM (checkExtra visit schema (.object sub))
  | some _ => reject .invalidSchema "additionalProperties must be boolean or schema" none

/-- The checks that depend on the kind of the value. -/
def checkContents (schema : Json) : Json → Checked
  | .number mantissa exponent =>
      numericBounds.forM (checkNumericBound double (double mantissa exponent) schema)
  | .string text =>
      checkSizeBounds double "string length" (codepointCount text) schema "minLength" "maxLength"
  | .array elements => do
      checkSizeBounds double "array" elements.length schema "minItems" "maxItems"
      checkItems visit elements schema
  | .object fields => do
      checkSizeBounds double "object" fields.length schema "minProperties" "maxProperties"
      checkRequired fields schema
      checkProperties visit fields schema
      checkAdditional visit fields schema
  | _ => .ok ()

/-- The checks of one node, where `visit` goes down to the next. -/
def checkNode (value schema : Json) : Checked := do
  checkKeywords schema
  checkType double value schema
  checkEnum double value schema
  checkConst double value schema
  checkContents double visit schema value

/-- `turbo_tool_schema_validate_node`, with the number of levels that it may still go down. -/
def validateNode : Nat → Json → Json → Checked
  | 0, _, _ => reject .unsupported "parameter schema exceeds maximum depth" none
  | levels + 1, value, schema => checkNode double (validateNode levels) value schema

/-! ## Arguments -/

/-- `turbo_tool_definition_t`, as far as validation reads it.  The text of a schema stands for
what it parses to. -/
structure Definition where
  parametersJson : Option (Option Json)
  parametersSchema : Option Json
  strict : Bool

/-- A strict schema admits no further properties unless it says so. -/
def strictSchema (strict : Bool) (parameters : Json) : Json :=
  if strict ∧ parameters.isObject ∧ (parameters.field "additionalProperties").isNone then
    parameters.set "additionalProperties" (.bool false)
  else parameters

/-- `turbo_tool_schema_parse_parameters`. -/
def parseParameters (definition : Definition) : Option Json :=
  match definition.parametersSchema with
  | some schema => some (strictSchema definition.strict schema)
  | none => (definition.parametersJson.bind id).map (strictSchema definition.strict)

/-- `turbo_tool_schema_validate_arguments_json_value`. -/
def validateArguments (definition : Definition) (arguments : Json) : Checked :=
  if definition.parametersJson.isNone ∧ definition.parametersSchema.isNone then
    reject .invalidArgument "invalid tool-schema validation arguments" none
  else
    match parseParameters definition with
    | none => reject .invalidSchema "could not materialize parameter schema" none
    | some schema => validateNode double maxLevels arguments schema

end

end TurboAgent.ToolSchema
