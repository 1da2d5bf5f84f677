import TurboAgent.ToolSchema.Model

/-!
# What a schema says

The denotation of the subset, independent of the order in which the validator checks it: a value
satisfies a schema when every part of it that the schema reaches meets the keywords of its
subschema.  The way in which strings and numbers are read is a parameter; the denotation proper
reads both as they are written.
-/

namespace TurboAgent.ToolSchema

structure Reading where
  double : Int → Nat → Double
  text : String → String

def Reading.exact (double : Int → Nat → Double) : Reading := ⟨double, id⟩

def Reading.c (double : Int → Nat → Double) : Reading := ⟨double, cString⟩

/-- The number that a literal stands for. -/
def exactDouble (mantissa : Int) (exponent : Nat) : Double := .finite (mantissa / 10 ^ exponent)

/-- Strings and numbers as they are written. -/
abbrev Reading.literal : Reading := .exact exactDouble

def Double.le (left right : Double) : Bool := !right.lt left

section

variable (reading : Reading)

mutual
def Same : Json → Json → Prop
  | .null, .null => True
  | .bool left, .bool right => left = right
  | .number mantissa exponent, .number mantissa' exponent' =>
      reading.double mantissa exponent = reading.double mantissa' exponent'
  | .string left, .string right => reading.text left = reading.text right
  | .array lefts, .array rights => SameElements lefts rights
  | .object lefts, .object rights => SameFields lefts rights
  | _, _ => False

def SameElements : List Json → List Json → Prop
  | [], [] => True
  | left :: lefts, right :: rights => Same left right ∧ SameElements lefts rights
  | _, _ => False

/-- Equality of objects: each field of one has its own field in the other. -/
def SameFields : List (String × Json) → List (String × Json) → Prop
  | [], rights => rights = []
  | (key, left) :: lefts, rights => ∃ before right after,
      rights = before ++ (key, right) :: after ∧ Same left right ∧
      SameFields lefts (before ++ after)
end

def HasType (value : Json) (name : String) : Prop :=
  match value with
  | .null => name = "null"
  | .bool _ => name = "boolean"
  | .number mantissa exponent =>
      (name = "number" ∧ (reading.double mantissa exponent).isFinite = true) ∨
      (name = "integer" ∧ (reading.double mantissa exponent).isIntegral = true)
  | .string _ => name = "string"
  | .array _ => name = "array"
  | .object _ => name = "object"

/-- `type`: a name, or a list of names of which one fits. -/
def TypeHolds (value : Json) : Json → Prop
  | .string name => HasType reading value (reading.text name)
  | .array entries => ∃ name, .string name ∈ entries ∧ HasType reading value (reading.text name)
  | _ => False

def NumericBound.Admits (bound : NumericBound) (number limit : Double) : Prop :=
  match bound.lower, bound.exclusive with
  | true, true => limit.lt number = true
  | true, false => limit.le number = true
  | false, true => number.lt limit = true
  | false, false => number.le limit = true

def BoundHolds (number : Double) (bound : NumericBound) : Json → Prop
  | .number mantissa exponent => (reading.double mantissa exponent).isFinite = true ∧
      bound.Admits number (reading.double mantissa exponent)
  | _ => False

/-- The bounds on a size: natural numbers that are kept.  The subset has none above `2 ^ 53 - 1`. -/
def SizeHolds (size : Nat) (schema : Json) (least most : String) : Prop :=
  (∀ bound, schema.field least = some bound →
    ∃ limit, nonnegativeSize reading.double bound = some limit ∧ limit ≤ size) ∧
  (∀ bound, schema.field most = some bound →
    ∃ limit, nonnegativeSize reading.double bound = some limit ∧ size ≤ limit)

/-- `required`: names of fields. -/
def RequiredHolds (fields : List (String × Json)) : Json → Prop
  | .array entries => ∀ entry ∈ entries, ∃ name, entry = .string name ∧
      (Json.findField fields (reading.text name)).isSome = true
  | _ => False

/-- `properties`: an object of schemas. -/
def PropertiesHold : Json → Prop
  | .object properties => ∀ property ∈ properties, property.2.isObject = true
  | _ => False

/-- `additionalProperties`: a schema, or whether there may be such fields. -/
def AdditionalHolds (fields : List (String × Json)) (schema : Json) : Json → Prop
  | .bool allowed => allowed = false → ∀ field ∈ fields, (propertySchema schema field.1).isSome = true
  | .object _ => True
  | _ => False

/-- The keywords that depend on the kind of the value. -/
def ContentsHold (schema : Json) : Json → Prop
  | .number mantissa exponent => ∀ bound ∈ numericBounds, ∀ limit,
      schema.field bound.key = some limit →
      BoundHolds reading (reading.double mantissa exponent) bound limit
  | .string text => SizeHolds reading (reading.text text).length schema "minLength" "maxLength"
  | .array elements => SizeHolds reading elements.length schema "minItems" "maxItems" ∧
      ∀ items, schema.field "items" = some items → items.isObject = true
  | .object fields => SizeHolds reading fields.length schema "minProperties" "maxProperties" ∧
      (∀ required, schema.field "required" = some required → RequiredHolds reading fields required) ∧
      (∀ properties, schema.field "properties" = some properties → PropertiesHold properties) ∧
      ∀ additional, schema.field "additionalProperties" = some additional →
        AdditionalHolds fields schema additional
  | _ => True

/-- A value meets the keywords of a schema, its subschemas aside.  What it means to have a
declared type and to be equal to a value is given. -/
structure Meets (declares equals : Json → Json → Prop) (value schema : Json) : Prop where
  type : ∀ declared, schema.field "type" = some declared → declares value declared
  enumeration : ∀ values, schema.field "enum" = some values →
    ∃ entries, values = .array entries ∧ ∃ entry ∈ entries, equals value entry
  constant : ∀ constant, schema.field "const" = some constant → equals value constant
  contents : ContentsHold reading schema value

end

/-- The parts of a value and the subschemas that apply to them. -/
inductive Child : Json × Json → Json × Json → Prop where
  | item {elements : List Json} {schema items element : Json} :
      schema.field "items" = some items → element ∈ elements →
      Child (.array elements, schema) (element, items)
  | property {fields properties : List (String × Json)} {schema sub value : Json} {key : String} :
      schema.field "properties" = some (.object properties) → (key, sub) ∈ properties →
      Json.findField fields key = some value →
      Child (.object fields, schema) (value, sub)
  | additional {fields sub : List (String × Json)} {schema value : Json} {key : String} :
      schema.field "additionalProperties" = some (.object sub) → (key, value) ∈ fields →
      (propertySchema schema key).isNone = true →
      Child (.object fields, schema) (value, .object sub)

inductive Reach : Nat → Json × Json → Json × Json → Prop where
  | here {node : Json × Json} : Reach 0 node node
  | down {steps : Nat} {node child last : Json × Json} :
      Child node child → Reach steps child last → Reach (steps + 1) node last

def Satisfies (reading : Reading) (value schema : Json) : Prop :=
  ∀ steps value' schema', Reach steps (value, schema) (value', schema') →
    Meets reading (TypeHolds reading) (Same reading) value' schema'

/-- A value satisfies a schema when it meets the keywords and its parts satisfy the subschemas. -/
theorem satisfies_iff {reading : Reading} {value schema : Json} :
    Satisfies reading value schema ↔
      Meets reading (TypeHolds reading) (Same reading) value schema ∧
      ∀ value' schema', Child (value, schema) (value', schema') →
        Satisfies reading value' schema' := by
  constructor
  · intro satisfies
    constructor
    · exact satisfies 0 value schema .here
    · intro value' schema' child steps value'' schema'' reach
      exact satisfies (steps + 1) value'' schema'' (.down child reach)
  · rintro ⟨meets, children⟩ steps value' schema' reach
    cases reach with
    | here => exact meets
    | down child rest => exact children _ _ child _ _ _ rest

/-! ## Checks in sequence -/

variable {refusal : Refusal} {message : String} {detail : Option String}

@[simp] theorem reject_ne_ok : reject refusal message detail ≠ .ok () := by
  simp [reject]

@[simp] theorem bind_eq_ok {first : Checked} {second : Unit → Checked} :
    (first >>= second) = .ok () ↔ first = .ok () ∧ second () = .ok () := by
  cases first with
  | error rejection => simp [Bind.bind, Except.bind]
  | ok result => simp [Bind.bind, Except.bind]

@[simp] theorem forM_eq_ok {α : Type} {check : α → Checked} {items : List α} :
    forM items check = .ok () ↔ ∀ item ∈ items, check item = .ok () := by
  induction items with
  | nil => simp [pure, Except.pure]
  | cons item items ih => simp [ih]

@[simp] theorem ite_reject_eq_ok {condition : Prop} [Decidable condition] {check : Checked} :
    (if condition then check else reject refusal message detail) = .ok () ↔
      condition ∧ check = .ok () := by
  split <;> simp_all

@[simp] theorem reject_ite_eq_ok {condition : Prop} [Decidable condition] {check : Checked} :
    (if condition then reject refusal message detail else check) = .ok () ↔
      ¬condition ∧ check = .ok () := by
  split <;> simp_all

/-! ## The checks of one node -/

section

variable {double : Int → Nat → Double} {visit : Json → Json → Checked} {value schema : Json}
  {fields : List (String × Json)} {elements : List Json}

/-- What the validator takes for a declared type. -/
def TypeAdmitted (double : Int → Nat → Double) (value : Json) : Json → Prop
  | .string name => typeMatches double value (cString name) = some true
  | .array entries => anyType double value entries = .ok true
  | _ => False

theorem checkType_eq_ok : checkType double value schema = .ok () ↔
    ∀ declared, schema.field "type" = some declared → TypeAdmitted double value declared := by
  unfold checkType
  split
  next absent => simp [absent]
  next name stored =>
    simp only [stored, Option.some.injEq, forall_eq', TypeAdmitted]
    cases typeMatches double value (cString name) with
    | none => simp
    | some matched => simp [checkMatched]
  next entries stored =>
    simp only [stored, Option.some.injEq, forall_eq', TypeAdmitted]
    cases anyType double value entries with
    | error rejection => simp
    | ok matched => simp [checkMatched]
  next other notString notArray stored =>
    simp only [stored, Option.some.injEq, forall_eq', reject_ne_ok, false_iff]
    cases other with
    | string name => exact absurd rfl (notString name)
    | array entries => exact absurd rfl (notArray entries)
    | _ => simp [TypeAdmitted]

theorem checkEnum_eq_ok : checkEnum double value schema = .ok () ↔
    ∀ values, schema.field "enum" = some values → ∃ entries, values = .array entries ∧
      ∃ entry ∈ entries, jsonEqual double maxLevels value entry = true := by
  unfold checkEnum
  split
  next absent => simp [absent]
  next first rest stored =>
    simp only [stored, Option.some.injEq, forall_eq', ite_reject_eq_ok, and_true, Json.array.injEq,
      exists_eq_left', List.any_eq_true]
  next other malformed stored =>
    simp only [stored, Option.some.injEq, forall_eq', reject_ne_ok, false_iff]
    rintro ⟨entries, rfl, entry, member, -⟩
    cases entries with
    | nil => cases member
    | cons first rest => exact malformed first rest rfl

theorem checkConst_eq_ok : checkConst double value schema = .ok () ↔
    ∀ constant, schema.field "const" = some constant →
      jsonEqual double maxLevels value constant = true := by
  unfold checkConst
  split
  next absent => simp [absent]
  next constant stored => simp [stored]

theorem admits_iff {bound : NumericBound} {number limit : Double} :
    bound.Admits number limit ↔ bound.violated number limit = false := by
  obtain ⟨key, exclusive, lower⟩ := bound
  cases lower <;> cases exclusive <;> simp [NumericBound.Admits, NumericBound.violated, Double.le]

theorem checkNumericBound_eq_ok {number : Double} {bound : NumericBound} :
    checkNumericBound double number schema bound = .ok () ↔
      ∀ limit, schema.field bound.key = some limit → BoundHolds (.c double) number bound limit := by
  unfold checkNumericBound
  split
  next absent => simp [absent]
  next mantissa exponent stored =>
    simp [stored, BoundHolds, Reading.c, admits_iff]
  next other notNumber stored =>
    simp only [stored, Option.some.injEq, forall_eq', reject_ne_ok, false_iff]
    cases other with
    | number mantissa exponent => exact absurd rfl (notNumber mantissa exponent)
    | _ => simp [BoundHolds]

theorem checkSizeBound_eq_ok {kind key : String} {size : Nat} {minimum : Bool} :
    checkSizeBound double kind size schema key minimum = .ok () ↔
      ∀ bound, schema.field key = some bound → ∃ limit, nonnegativeSize double bound = some limit ∧
        if minimum then limit ≤ size else size ≤ limit := by
  unfold checkSizeBound
  split
  next absent => simp [absent]
  next bound stored =>
    simp only [stored, Option.some.injEq, forall_eq']
    cases nonnegativeSize double bound with
    | none => simp
    | some limit => cases minimum <;> simp

theorem checkSizeBounds_eq_ok {kind least most : String} {size : Nat} :
    checkSizeBounds double kind size schema least most = .ok () ↔
      SizeHolds (.c double) size schema least most := by
  simp [checkSizeBounds, checkSizeBound_eq_ok, SizeHolds, Reading.c]

theorem checkItems_eq_ok : checkItems visit elements schema = .ok () ↔
    ∀ items, schema.field "items" = some items → items.isObject = true ∧
      ∀ element ∈ elements, visit element items = .ok () := by
  unfold checkItems
  split
  next absent => simp [absent]
  next items stored => simp [stored]

theorem checkRequired_eq_ok : checkRequired fields schema = .ok () ↔
    ∀ required, schema.field "required" = some required →
      RequiredHolds (.c double) fields required := by
  unfold checkRequired
  split
  next absent => simp [absent]
  next entries stored =>
    simp only [stored, List.forM_eq_forM, forM_eq_ok, Option.some.injEq, forall_eq', RequiredHolds]
    apply forall_congr'
    intro entry
    apply imp_congr_right
    intro _
    cases entry with
    | string name => simp [checkRequiredEntry, Reading.c, Option.isSome_iff_ne_none]
    | _ => simp [checkRequiredEntry]
  next other notArray stored =>
    simp only [stored, Option.some.injEq, forall_eq', reject_ne_ok, false_iff]
    cases other with
    | array entries => exact absurd rfl (notArray entries)
    | _ => simp [RequiredHolds]

theorem checkProperty_eq_ok {property : String × Json} :
    checkProperty visit fields property = .ok () ↔ property.2.isObject = true ∧
      ∀ value, Json.findField fields property.1 = some value → visit value property.2 = .ok () := by
  unfold checkProperty
  cases Json.findField fields property.1 with
  | none => simp
  | some value => simp

theorem checkProperties_eq_ok : checkProperties visit fields schema = .ok () ↔
    (∀ properties, schema.field "properties" = some properties → PropertiesHold properties) ∧
      ∀ properties, schema.field "properties" = some (.object properties) →
        ∀ key sub, (key, sub) ∈ properties → ∀ value, Json.findField fields key = some value →
          visit value sub = .ok () := by
  unfold checkProperties
  split
  next absent => simp [absent]
  next properties stored =>
    simp only [stored, List.forM_eq_forM, forM_eq_ok, checkProperty_eq_ok, Option.some.injEq,
      forall_eq', PropertiesHold, Json.object.injEq]
    constructor
    · intro each
      constructor
      · intro property member
        exact (each property member).1
      · intro key sub member value found
        exact (each (key, sub) member).2 value found
    · intro both property member
      constructor
      · exact both.1 property member
      · intro value found
        exact both.2 property.1 property.2 member value found
  next other notObject stored =>
    simp only [stored, Option.some.injEq, forall_eq', reject_ne_ok, false_iff]
    cases other with
    | object entries => exact absurd rfl (notObject entries)
    | _ => simp [PropertiesHold]

theorem checkAdditional_eq_ok : checkAdditional visit fields schema = .ok () ↔
    (∀ additional, schema.field "additionalProperties" = some additional →
      AdditionalHolds fields schema additional) ∧
    ∀ sub, schema.field "additionalProperties" = some (.object sub) →
      ∀ key value, (key, value) ∈ fields → (propertySchema schema key).isNone = true →
        visit value (.object sub) = .ok () := by
  unfold checkAdditional
  split
  next absent => simp [absent]
  next allowed stored =>
    simp only [stored, List.forM_eq_forM, forM_eq_ok, Option.some.injEq, forall_eq', reduceCtorEq,
      false_implies, implies_true, and_true, AdditionalHolds]
    cases allowed with
    | true => simp [checkExtra]
    | false => simp [checkExtra, Option.isSome_iff_ne_none]
  next sub stored =>
    simp only [stored, List.forM_eq_forM, forM_eq_ok, Option.some.injEq, forall_eq', AdditionalHolds,
      true_and, Json.object.injEq, Prod.forall, checkExtra]
    apply forall₂_congr
    intro key value
    apply imp_congr_right
    intro _
    cases propertySchema schema key with
    | none => simp
    | some found => simp
  next other notBool notObject stored =>
    simp only [stored, Option.some.injEq, forall_eq', reject_ne_ok, false_iff, not_and]
    cases other with
    | bool allowed => exact absurd rfl (notBool allowed)
    | object entries => exact absurd rfl (notObject entries)
    | _ => simp [AdditionalHolds]

theorem countCodepoints_append {front back : List UInt8} (plain : ∀ byte ∈ front, byte ≠ 0) :
    countCodepoints (front ++ back) =
      front.countP (fun byte => byte &&& 0xc0 ≠ 0x80) + countCodepoints back := by
  induction front with
  | nil => simp
  | cons byte rest ih =>
      have first := plain byte List.mem_cons_self
      have others := ih fun other member => plain other (List.mem_cons_of_mem byte member)
      simp only [List.cons_append, countCodepoints, if_neg first, others, List.countP_cons,
        decide_eq_true_eq]
      omega

theorem countCodepoints_flatMap (chars : List Char) :
    countCodepoints (chars.flatMap String.utf8EncodeChar) =
      (chars.takeWhile (· ≠ '\x00')).length := by
  induction chars with
  | nil => rfl
  | cons ch chars ih =>
      rw [List.flatMap_cons]
      by_cases nul : ch = '\x00'
      · subst nul
        rw [utf8EncodeChar_nul]
        simp [countCodepoints]
      · obtain ⟨lead, rest, bytes, isLead, nonzero, others⟩ := utf8EncodeChar_shape nul
        have plain : ∀ byte ∈ lead :: rest, byte ≠ 0 := by
          exact List.forall_mem_cons.mpr ⟨nonzero, fun byte later => (others byte later).2⟩
        have none : rest.countP (fun byte => byte &&& 0xc0 ≠ 0x80) = 0 := by
          rw [List.countP_eq_zero]
          intro byte member
          simp [(others byte member).1]
        have one : (lead :: rest).countP (fun byte => byte &&& 0xc0 ≠ 0x80) = 1 := by
          rw [List.countP_cons_of_pos (by simpa using isLead), none]
        rw [bytes, countCodepoints_append plain, one, ih]
        simp [nul, Nat.add_comm]

theorem codepointCount_eq (text : String) : codepointCount text = (cString text).length := by
  rw [codepointCount, utf8, countCodepoints_flatMap, cString, String.length_ofList]

theorem checkContents_eq_ok : checkContents double visit schema value = .ok () ↔
    ContentsHold (.c double) schema value ∧
      ∀ value' schema', Child (value, schema) (value', schema') → visit value' schema' = .ok () := by
  cases value with
  | null | bool =>
      simp only [checkContents, ContentsHold, true_and, true_iff]
      intro value' schema' child
      cases child
  | number mantissa exponent =>
      simp only [checkContents, ContentsHold, List.forM_eq_forM, forM_eq_ok, checkNumericBound_eq_ok]
      refine (and_iff_left ?_).symm
      intro value' schema' child
      cases child
  | string text =>
      simp only [checkContents, ContentsHold, checkSizeBounds_eq_ok, codepointCount_eq]
      refine (and_iff_left ?_).symm
      intro value' schema' child
      cases child
  | array elements =>
      simp only [checkContents, ContentsHold, bind_eq_ok, checkSizeBounds_eq_ok, checkItems_eq_ok,
        and_assoc]
      apply and_congr_right
      intro _
      constructor
      · intro each
        constructor
        · intro items stored
          exact (each items stored).1
        · intro value' schema' child
          cases child with
          | item stored member => exact (each _ stored).2 _ member
      · intro both items stored
        constructor
        · exact both.1 items stored
        · intro element member
          exact both.2 _ _ (.item stored member)
  | object fields =>
      have required : checkRequired fields schema = .ok () ↔ ∀ required,
          schema.field "required" = some required → RequiredHolds (.c double) fields required :=
        checkRequired_eq_ok
      simp only [checkContents, ContentsHold, bind_eq_ok, checkSizeBounds_eq_ok, required,
        checkProperties_eq_ok, checkAdditional_eq_ok]
      constructor
      · rintro ⟨sizes, isRequired, ⟨properties, property⟩, ⟨additional, extra⟩⟩
        refine ⟨⟨sizes, isRequired, properties, additional⟩, ?_⟩
        intro value' schema' child
        cases child with
        | property stored member found => exact property _ stored _ _ member _ found
        | additional stored member unlisted => exact extra _ stored _ _ member unlisted
      · rintro ⟨⟨sizes, isRequired, properties, additional⟩, children⟩
        refine ⟨sizes, isRequired, ⟨properties, ?_⟩, ⟨additional, ?_⟩⟩
        · intro stored found key sub member value here
          exact children _ _ (.property found member here)
        · intro sub stored key value member unlisted
          exact children _ _ (.additional stored member unlisted)

theorem checkKeywords_eq_ok : checkKeywords schema = .ok () ↔
    ∃ fields, schema = .object fields ∧ ∀ field ∈ fields, supportedKeyword field.1 = true := by
  cases schema with
  | object fields => simp [checkKeywords]
  | _ => simp [checkKeywords]

/-- A node passes when its keywords are known, the value meets them and the walk goes on. -/
theorem checkNode_eq_ok : checkNode double visit value schema = .ok () ↔
    checkKeywords schema = .ok () ∧
    Meets (.c double) (TypeAdmitted double)
      (fun left right => jsonEqual double maxLevels left right = true) value schema ∧
    ∀ value' schema', Child (value, schema) (value', schema') → visit value' schema' = .ok () := by
  simp only [checkNode, bind_eq_ok, checkType_eq_ok, checkEnum_eq_ok, checkConst_eq_ok,
    checkContents_eq_ok]
  apply and_congr_right
  intro _
  constructor
  · rintro ⟨type, enumeration, constant, contents, children⟩
    exact ⟨⟨type, enumeration, constant, contents⟩, children⟩
  · rintro ⟨⟨type, enumeration, constant, contents⟩, children⟩
    exact ⟨type, enumeration, constant, contents, children⟩

end

/-! ## The walk -/

/-- What the validator asks of a value and a subschema that it visits. -/
def Passes (double : Int → Nat → Double) (value schema : Json) : Prop :=
  checkKeywords schema = .ok () ∧
    Meets (.c double) (TypeAdmitted double)
      (fun left right => jsonEqual double maxLevels left right = true) value schema

/-- The walk succeeds when everything that it reaches is near enough and passes. -/
theorem validateNode_eq_ok {double : Int → Nat → Double} {levels : Nat} {value schema : Json} :
    validateNode double levels value schema = .ok () ↔
      ∀ steps value' schema', Reach steps (value, schema) (value', schema') →
        steps < levels ∧ Passes double value' schema' := by
  induction levels generalizing value schema with
  | zero =>
      simp only [validateNode, reject_ne_ok, false_iff]
      intro each
      exact absurd (each 0 value schema .here).1 (Nat.not_lt_zero 0)
  | succ levels ih =>
      rw [validateNode, checkNode_eq_ok]
      constructor
      · rintro ⟨keywords, meets, children⟩ steps value' schema' reach
        cases reach with
        | here => exact ⟨Nat.succ_pos levels, keywords, meets⟩
        | @down steps _ child _ toChild rest =>
            have below := ih.mp (children child.1 child.2 toChild) steps value' schema' rest
            exact ⟨Nat.succ_lt_succ below.1, below.2⟩
      · intro each
        have here := (each 0 value schema .here).2
        refine ⟨here.1, here.2, ?_⟩
        intro value' schema' child
        apply ih.mpr
        intro steps value'' schema'' rest
        have below := each (steps + 1) value'' schema'' (.down child rest)
        exact ⟨Nat.lt_of_succ_lt_succ below.1, below.2⟩

end TurboAgent.ToolSchema
