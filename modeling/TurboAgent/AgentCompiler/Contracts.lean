import TurboAgent.ToolRegistry.Model
import TurboAgent.ToolSchema.Soundness

/-!
# Result contracts

A compiler may connect the result of one tool with a parameter of another one.  It compares the
type that the result schema declares with the type of the parameter, where both are scalars and
the parameter has no further keywords.  What it says is sound for the validator: a compatible
result is a valid parameter, and an incompatible one never is.
-/

namespace TurboAgent.AgentCompiler

open ToolSchema (Double typeMatches cString strictSchema validateNode)

/-- `turbo_agent_contract_compatibility_t`. -/
inductive Compatibility where
  | unknown
  | compatible
  | incompatible
  deriving DecidableEq

/-- `turbo_agent_contract_type_t`. -/
inductive ContractType where
  | unknown
  | object
  | array
  | string
  | integer
  | number
  | boolean
  | null
  deriving DecidableEq

def ContractType.ofName (name : String) : ContractType :=
  if name = "object" then .object
  else if name = "array" then .array
  else if name = "string" then .string
  else if name = "integer" then .integer
  else if name = "number" then .number
  else if name = "boolean" then .boolean
  else if name = "null" then .null
  else .unknown

/-- `contract_type`. -/
def contractType (schema : Json) : ContractType :=
  match schema.field "type" with
  | some (.string name) => .ofName (cString name)
  | _ => .unknown

/-- `contract_scalar`. -/
def contractScalar : ContractType → Bool
  | .string | .integer | .number | .boolean | .null => true
  | _ => false

/-- `contract_type_only_scalar`. -/
def contractTypeOnlyScalar (schema : Json) : Option ContractType :=
  if schema.isObject ∧ schema.size = 1 ∧ (schema.field "type").isSome then
    if contractScalar (contractType schema) then some (contractType schema) else none
  else none

/-- `contract_definition_by_name`. -/
def contractDefinitionByName (registry : ToolRegistry.Registry) (name : CString) :
    Option ToolSchema.Definition :=
  match registry.resolveName name with
  | .error _ => none
  | .ok canonical =>
      (registry.findExact canonical).map fun tool => tool.definition.registration.definition

/-- The parameter schema that is compared: as it is given, or as it is parsed. -/
def contractParameters (definition : ToolSchema.Definition) : Option Json :=
  match definition.parametersSchema with
  | some schema => some schema
  | none => (definition.parametersJson.bind id).map (strictSchema definition.strict)

def consumerSlot (registry : ToolRegistry.Registry) (consumerTool consumerProperty : CString) :
    Option Json := do
  let definition ← contractDefinitionByName registry consumerTool
  let parameters ← contractParameters definition
  let properties ← parameters.field "properties"
  properties.field consumerProperty.1

def producerSchema (registry : ToolRegistry.Registry) (producerTool : CString) : Option Json :=
  match registry.getResultContract producerTool with
  | .error _ => none
  | .ok contract => contract.1

/-- What two types say about a result and a parameter. -/
def compareTypes (producer consumer : ContractType) : Compatibility :=
  if !contractScalar producer then .unknown
  else if producer = consumer ∨ (producer = .integer ∧ consumer = .number) then .compatible
  else if producer = .number ∧ consumer = .integer then .unknown
  else .incompatible

/-- `turbo_agent_tool_result_slot_compatibility`. -/
def toolResultSlotCompatibility (registry : ToolRegistry.Registry)
    (producerTool consumerTool consumerProperty : CString) : Compatibility :=
  if consumerProperty.1 = "" then .unknown
  else
    match producerSchema registry producerTool with
    | none => .unknown
    | some resultSchema =>
        match (consumerSlot registry consumerTool consumerProperty).bind contractTypeOnlyScalar with
        | none => .unknown
        | some consumerType => compareTypes (contractType resultSchema) consumerType

/-! ## Types and values -/

def ContractType.name : ContractType → String
  | .unknown => ""
  | .object => "object"
  | .array => "array"
  | .string => "string"
  | .integer => "integer"
  | .number => "number"
  | .boolean => "boolean"
  | .null => "null"

def kindOf : Json → ContractType
  | .null => .null
  | .bool _ => .boolean
  | .number .. => .number
  | .string _ => .string
  | .array _ => .array
  | .object _ => .object

def ContractType.kind : ContractType → ContractType
  | .integer => .number
  | type => type

variable {type : ContractType}

theorem ContractType.ofName_name {name : String} (named : ContractType.ofName name = type)
    (known : type ≠ .unknown) : name = type.name := by
  subst named
  unfold ContractType.ofName at known ⊢
  split_ifs at known ⊢ <;> first | assumption | exact absurd rfl known

section

variable {double : Int → Nat → Double} {value : Json}

theorem kindOf_of_matches (matched : typeMatches double value type.name = some true) :
    kindOf value = type.kind := by
  cases type <;> cases value <;>
    first | rfl | simp [typeMatches, ContractType.name, Json.isObject] at matched

theorem number_of_integer (matched : typeMatches double value "integer" = some true) :
    typeMatches double value "number" = some true := by
  cases value with
  | number mantissa exponent =>
      simp only [typeMatches] at matched ⊢
      cases read : double mantissa exponent <;> simp_all [Double.isIntegral, Double.isFinite]
  | _ => simp [typeMatches] at matched

theorem matches_of_compatible {producer consumer : ContractType}
    (compatible : compareTypes producer consumer = .compatible)
    (matched : typeMatches double value producer.name = some true) :
    typeMatches double value consumer.name = some true := by
  unfold compareTypes at compatible
  split at compatible
  next => cases compatible
  split at compatible
  next fits =>
    rcases fits with rfl | ⟨rfl, rfl⟩
    · exact matched
    · exact number_of_integer matched
  next =>
    split at compatible
    next => cases compatible
    next => cases compatible

theorem not_matches_of_incompatible {producer consumer : ContractType}
    (scalar : contractScalar consumer = true)
    (incompatible : compareTypes producer consumer = .incompatible)
    (matched : typeMatches double value producer.name = some true) :
    typeMatches double value consumer.name ≠ some true := by
  intro also
  have kinds : producer.kind = consumer.kind :=
    (kindOf_of_matches matched).symm.trans (kindOf_of_matches also)
  revert scalar incompatible kinds
  cases producer <;> cases consumer <;> decide

/-! ## Types and the validator -/

theorem declared_of_contractType {schema : Json} (known : contractType schema ≠ .unknown) :
    ∃ text, schema.field "type" = some (.string text) ∧ cString text = (contractType schema).name := by
  generalize same : contractType schema = type at known
  unfold contractType at same
  split at same
  next text declared => exact ⟨text, declared, ContractType.ofName_name same known⟩
  next => exact absurd same.symm known

theorem matches_of_valid {schema : Json} {levels : Nat} (known : contractType schema ≠ .unknown)
    (valid : validateNode double levels value schema = .ok ()) :
    typeMatches double value (contractType schema).name = some true := by
  obtain ⟨text, declared, named⟩ := declared_of_contractType known
  have passes := ((ToolSchema.validateNode_eq_ok.mp valid) 0 value schema .here).2
  exact named ▸ passes.2.type _ declared

theorem known_of_scalar (scalar : contractScalar type = true) : type ≠ .unknown := by
  rintro rfl
  cases scalar

/-- A schema that declares a type and nothing else accepts every value of the type. -/
theorem valid_of_matches {text : String} (levels : Nat)
    (matched : typeMatches double value (cString text) = some true) :
    validateNode double (levels + 1) value (.object [("type", .string text)]) = .ok () := by
  have other : ∀ key, key ≠ "type" → (Json.object [("type", .string text)]).field key = none :=
    fun key different => if_neg different.symm
  have absent : ∀ key found, key ≠ "type" →
      (Json.object [("type", .string text)]).field key ≠ some found :=
    fun key found different stored => absurd ((other key different).symm.trans stored) nofun
  have children : ∀ value' schema', ¬ ToolSchema.Child (value, .object [("type", .string text)])
      (value', schema') := by
    intro value' schema' child
    cases child with
    | item stored _ => exact absent _ _ (by decide) stored
    | property stored _ _ => exact absent _ _ (by decide) stored
    | additional stored _ _ => exact absent _ _ (by decide) stored
  rw [validateNode, ToolSchema.checkNode_eq_ok]
  refine ⟨?_, ⟨?_, ?_, ?_, ?_⟩, fun value' schema' child => absurd child (children value' schema')⟩
  · exact ToolSchema.checkKeywords_eq_ok.mpr ⟨_, rfl, by simp [ToolSchema.supportedKeyword]⟩
  · intro declared stored
    cases stored
    exact matched
  · exact fun _ stored => absurd stored (absent _ _ (by decide))
  · exact fun _ stored => absurd stored (absent _ _ (by decide))
  · cases value with
    | number mantissa exponent =>
        intro bound listed limit stored
        have different : ∀ bound ∈ ToolSchema.numericBounds, bound.key ≠ "type" := by decide
        exact absurd stored (absent _ _ (different bound listed))
    | _ => simp [ToolSchema.ContentsHold, ToolSchema.SizeHolds, other]

end

/-! ## What a comparison says -/

section

variable {registry : ToolRegistry.Registry} {producerTool consumerTool consumerProperty : CString}

theorem only_type {slot : Json} (only : contractTypeOnlyScalar slot = some type) :
    contractScalar type = true ∧ ∃ text, slot = .object [("type", .string text)] ∧
      cString text = type.name := by
  unfold contractTypeOnlyScalar at only
  split at only
  next shape =>
    obtain ⟨isObject, single, _⟩ := shape
    split at only
    next scalar =>
      cases only
      refine ⟨scalar, ?_⟩
      obtain ⟨text, declared, named⟩ := declared_of_contractType (known_of_scalar scalar)
      refine ⟨text, ?_, named⟩
      cases slot with
      | object fields =>
          obtain ⟨⟨key, value⟩, rfl⟩ := List.length_eq_one_iff.mp single
          simp only [Json.field, Json.findField] at declared
          split at declared
          next same =>
            cases same
            cases declared
            rfl
          next => cases declared
      | _ => cases isObject
    next => cases only
  next => cases only

theorem compared_of_known
    (known : toolResultSlotCompatibility registry producerTool consumerTool consumerProperty ≠
      .unknown) :
    ∃ schema slot type, producerSchema registry producerTool = some schema ∧
      consumerSlot registry consumerTool consumerProperty = some slot ∧
      contractTypeOnlyScalar slot = some type ∧ contractScalar (contractType schema) = true ∧
      toolResultSlotCompatibility registry producerTool consumerTool consumerProperty =
        compareTypes (contractType schema) type := by
  unfold toolResultSlotCompatibility at known ⊢
  split at known
  next => exact absurd rfl known
  next named =>
    rw [if_neg named]
    cases produced : producerSchema registry producerTool with
    | none =>
        rw [produced] at known
        exact absurd rfl known
    | some schema =>
        rw [produced] at known
        cases consumed : consumerSlot registry consumerTool consumerProperty with
        | none =>
            rw [consumed] at known
            exact absurd rfl known
        | some slot =>
            rw [consumed] at known
            cases only : contractTypeOnlyScalar slot with
            | none =>
                simp only [Option.bind_some, only] at known
                exact absurd rfl known
            | some type =>
                simp only [Option.bind_some, only] at known ⊢
                refine ⟨schema, slot, type, rfl, rfl, only, ?_, rfl⟩
                by_contra scalar
                rw [compareTypes, if_pos (by simpa using scalar)] at known
                exact known rfl

end

theorem contractType_strict (strict : Bool) (schema : Json) :
    contractType (strictSchema strict schema) = contractType schema := by
  unfold strictSchema
  split
  next => rw [contractType, Json.field_set_other schema _ (by decide), contractType]
  next => rfl

/-- Where a comparison says that a result is compatible, every value that the validator accepts
for the result schema, strict or not, it accepts for the parameter.  Where it says that a result is
incompatible, the validator accepts no value for both. -/
theorem compatibility_sound (double : Int → Nat → Double) (registry : ToolRegistry.Registry)
    (producerTool consumerTool consumerProperty : CString) :
    (toolResultSlotCompatibility registry producerTool consumerTool consumerProperty =
        .compatible →
      ∃ schema slot, producerSchema registry producerTool = some schema ∧
        consumerSlot registry consumerTool consumerProperty = some slot ∧
        ∀ strict levels levels' value,
          validateNode double levels value (strictSchema strict schema) = .ok () →
            validateNode double (levels' + 1) value slot = .ok ()) ∧
      (toolResultSlotCompatibility registry producerTool consumerTool consumerProperty =
          .incompatible →
        ∃ schema slot, producerSchema registry producerTool = some schema ∧
          consumerSlot registry consumerTool consumerProperty = some slot ∧
          ∀ strict levels levels' value,
            validateNode double levels value (strictSchema strict schema) = .ok () →
              validateNode double levels' value slot ≠ .ok ()) := by
  have declared : ∀ {schema strict levels value}, contractScalar (contractType schema) = true →
      validateNode double levels value (strictSchema strict schema) = .ok () →
        typeMatches double value (contractType schema).name = some true := by
    intro schema strict levels value scalar valid
    rw [← contractType_strict strict schema] at scalar ⊢
    exact matches_of_valid (known_of_scalar scalar) valid
  constructor
  · intro compatible
    obtain ⟨schema, slot, type, produced, consumed, only, scalar, compared⟩ :=
      compared_of_known (by rw [compatible]; decide)
    obtain ⟨_, text, rfl, named⟩ := only_type only
    refine ⟨schema, _, produced, consumed, fun strict levels levels' value valid => ?_⟩
    have matched := matches_of_compatible (compared.symm.trans compatible) (declared scalar valid)
    exact valid_of_matches levels' (named ▸ matched)
  · intro incompatible
    obtain ⟨schema, slot, type, produced, consumed, only, scalar, compared⟩ :=
      compared_of_known (by rw [incompatible]; decide)
    obtain ⟨isScalar, text, rfl, named⟩ := only_type only
    refine ⟨schema, _, produced, consumed, fun strict levels levels' value valid also => ?_⟩
    have matched := declared scalar valid
    have passes := ((ToolSchema.validateNode_eq_ok.mp also) 0 _ _ .here).2
    exact not_matches_of_incompatible isScalar (compared.symm.trans incompatible) matched
      (named ▸ passes.2.type _ rfl)

/-- A tool with a result of a type and one parameter of a type. -/
def sampleTool (name result parameter : String) (plain : noNul name = true) :
    ToolRegistry.Tool where
  definition := {
    registration := {
      name := ⟨name, plain⟩
      definition := ⟨none, some (.object [("type", .string "object"),
        ("properties", .object [("input", .object [("type", .string parameter)])])]), true⟩
      policy := ⟨.sequential, .none⟩
      requiredCapabilities := []
      effects := 0 }
    description := ⟨"", noNul_empty⟩
    callbacks := ⟨some 1, none, none, none, none, none⟩
    resultSchemaJson := some (some (.object [("type", .string result), ("minimum", .number 0 0)]))
    strictResult := 1 }
  valid := by
    have effects : EffectFlags.Valid 0 := by decide
    exact ⟨⟨.inr rfl, effects, nofun, List.nodup_nil, by simp⟩, rfl, .inr rfl, fun _ => rfl, rfl⟩
  executionMetadata := none

/-- A tool that counts, one that takes numbers and one that takes texts. -/
def sampleRegistry : ToolRegistry.Registry where
  tools := [sampleTool "count" "integer" "null" (by decide),
    sampleTool "scale" "number" "number" (by decide),
    sampleTool "print" "null" "string" (by decide)]
  distinct := by decide

/-- A count is a number and is not a text. -/
theorem compatibility_sound_sample :
    (∃ schema slot, producerSchema sampleRegistry ⟨"count", by decide⟩ = some schema ∧
      consumerSlot sampleRegistry ⟨"scale", by decide⟩ ⟨"input", by decide⟩ = some slot ∧
      ∀ strict levels levels' value,
        validateNode ToolSchema.exactDouble levels value (strictSchema strict schema) = .ok () →
          validateNode ToolSchema.exactDouble (levels' + 1) value slot = .ok ()) ∧
      ∃ schema slot, producerSchema sampleRegistry ⟨"count", by decide⟩ = some schema ∧
        consumerSlot sampleRegistry ⟨"print", by decide⟩ ⟨"input", by decide⟩ = some slot ∧
        ∀ strict levels levels' value,
          validateNode ToolSchema.exactDouble levels value (strictSchema strict schema) = .ok () →
            validateNode ToolSchema.exactDouble levels' value slot ≠ .ok () :=
  ⟨(compatibility_sound ToolSchema.exactDouble sampleRegistry ⟨"count", by decide⟩
      ⟨"scale", by decide⟩ ⟨"input", by decide⟩).1 (by decide),
    (compatibility_sound ToolSchema.exactDouble sampleRegistry ⟨"count", by decide⟩
      ⟨"print", by decide⟩ ⟨"input", by decide⟩).2 (by decide)⟩

end TurboAgent.AgentCompiler
