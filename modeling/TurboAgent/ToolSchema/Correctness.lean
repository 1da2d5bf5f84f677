import TurboAgent.Data.Fields
import TurboAgent.ToolSchema.Denotation

/-!
# The validator against the denotation

On schemas of the supported subset the validator accepts a value when the value satisfies the
schema with its strings read up to their first NUL and its numbers as doubles.  Of a schema with
a keyword outside the subset it notices only what the value reaches.
-/

namespace TurboAgent.ToolSchema

open Json (findField_append findField_eq_none)
open Reading (exact)

/-! ## Fields -/

variable {fields : List (String × Json)} {key : String} {value : Json}

theorem split_of_findField (found : Json.findField fields key = some value) :
    ∃ before after, fields = before ++ (key, value) :: after := by
  induction fields with
  | nil => cases found
  | cons field fields ih =>
      rw [Json.findField] at found
      split at found
      next same =>
        cases found
        exact ⟨[], fields, by simp [← same]⟩
      next =>
        obtain ⟨before, after, rfl⟩ := ih found
        exact ⟨field :: before, after, rfl⟩

variable {before after : List (String × Json)}

theorem findField_middle (distinct : ((before ++ (key, value) :: after).map Prod.fst).Nodup) :
    Json.findField (before ++ (key, value) :: after) key = some value := by
  have fresh : key ∉ before.map Prod.fst := by
    rw [List.map_append, List.nodup_append] at distinct
    intro member
    exact distinct.2.2 key member key (by simp) rfl
  rw [findField_append, findField_eq_none.mpr fresh]
  simp [Json.findField]

theorem findField_without {other : String} (different : other ≠ key) :
    Json.findField (before ++ (key, value) :: after) other =
      Json.findField (before ++ after) other := by
  rw [findField_append, findField_append, Json.findField, if_neg (Ne.symm different)]

theorem nodup_without {field : String × Json}
    (distinct : ((before ++ field :: after).map Prod.fst).Nodup) :
    ((before ++ after).map Prod.fst).Nodup := by
  apply List.Nodup.sublist _ distinct
  apply List.Sublist.map
  exact (List.sublist_cons_self field after).append_left before

theorem mem_of_findField (found : Json.findField fields key = some value) :
    (key, value) ∈ fields := by
  obtain ⟨before, after, rfl⟩ := split_of_findField found
  simp

/-! ## Parts -/

/-- An element of an array, or the value of a field. -/
inductive Part : Json → Json → Prop where
  | element {elements : List Json} {element : Json} :
      element ∈ elements → Part (.array elements) element
  | field {fields : List (String × Json)} {field : String × Json} :
      field ∈ fields → Part (.object fields) field.2

/-- Something holds of a value and of all that is inside it. -/
def Everywhere (holds : Json → Prop) (value : Json) : Prop :=
  ∀ part, Relation.ReflTransGen Part value part → holds part

section

variable {holds : Json → Prop} {value part : Json}

theorem Everywhere.here (everywhere : Everywhere holds value) : holds value :=
  everywhere value .refl

theorem Everywhere.inside (everywhere : Everywhere holds value) (isPart : Part value part) :
    Everywhere holds part :=
  fun inner below => everywhere inner (.head isPart below)

theorem everywhere_iff : Everywhere holds value ↔
    holds value ∧ ∀ part, Part value part → Everywhere holds part := by
  refine ⟨fun everywhere => ⟨everywhere.here, fun _ => everywhere.inside⟩, ?_⟩
  rintro ⟨here, parts⟩ part below
  rcases Relation.ReflTransGen.cases_head below with rfl | ⟨child, isPart, rest⟩
  · exact here
  · exact parts child isPart part rest

theorem Everywhere.field {key : String} (everywhere : Everywhere holds value)
    (stored : value.field key = some part) : Everywhere holds part := by
  cases value with
  | object fields => exact everywhere.inside (.field (mem_of_findField stored))
  | _ => cases stored

end

/-! ## Nesting and keys -/

mutual
def depth : Json → Nat
  | .array elements => elementsDepth elements
  | .object fields => fieldsDepth fields
  | _ => 0

/-- How deep the elements of an array are nested. -/
def elementsDepth : List Json → Nat
  | [] => 0
  | element :: elements => max (depth element + 1) (elementsDepth elements)

/-- How deep the fields of an object are nested. -/
def fieldsDepth : List (String × Json) → Nat
  | [] => 0
  | (_, value) :: fields => max (depth value + 1) (fieldsDepth fields)
end

mutual
def Keyed : Json → Prop
  | .array elements => ElementsKeyed elements
  | .object fields => (fields.map Prod.fst).Nodup ∧ FieldsKeyed fields
  | _ => True

def ElementsKeyed : List Json → Prop
  | [] => True
  | element :: elements => Keyed element ∧ ElementsKeyed elements

def FieldsKeyed : List (String × Json) → Prop
  | [] => True
  | (_, value) :: fields => Keyed value ∧ FieldsKeyed fields
end

theorem depth_element {elements : List Json} {element : Json} (member : element ∈ elements) :
    depth element < elementsDepth elements := by
  induction elements with
  | nil => cases member
  | cons first rest ih =>
      rw [elementsDepth]
      rcases List.mem_cons.mp member with rfl | later
      · exact lt_max_of_lt_left (Nat.lt_succ_self _)
      · exact lt_max_of_lt_right (ih later)

theorem depth_field (member : (key, value) ∈ fields) : depth value < fieldsDepth fields := by
  induction fields with
  | nil => cases member
  | cons first rest ih =>
      obtain ⟨name, head⟩ := first
      rw [fieldsDepth]
      rcases List.mem_cons.mp member with same | later
      · cases same
        exact lt_max_of_lt_left (Nat.lt_succ_self _)
      · exact lt_max_of_lt_right (ih later)

theorem keyed_element {elements : List Json} (keyed : ElementsKeyed elements) {element : Json}
    (member : element ∈ elements) : Keyed element := by
  induction elements with
  | nil => cases member
  | cons first rest ih =>
      rcases List.mem_cons.mp member with rfl | later
      · exact keyed.1
      · exact ih keyed.2 later

theorem keyed_field (keyed : FieldsKeyed fields) (member : (key, value) ∈ fields) :
    Keyed value := by
  induction fields with
  | nil => cases member
  | cons first rest ih =>
      obtain ⟨name, head⟩ := first
      rcases List.mem_cons.mp member with same | later
      · cases same
        exact keyed.1
      · exact ih keyed.2 later

/-! ## Equality -/

variable {reading : Reading}

theorem sameElements_iff {lefts rights : List Json} :
    SameElements reading lefts rights ↔ List.Forall₂ (Same reading) lefts rights := by
  induction lefts generalizing rights with
  | nil => cases rights <;> simp [SameElements]
  | cons left lefts ih => cases rights <;> simp [SameElements, ih]

/-- With distinct keys, objects are the same when they have as many fields and each field of one
is found in the other. -/
theorem sameFields_iff {lefts rights : List (String × Json)}
    (leftDistinct : (lefts.map Prod.fst).Nodup) (rightDistinct : (rights.map Prod.fst).Nodup) :
    SameFields reading lefts rights ↔ lefts.length = rights.length ∧ ∀ field ∈ lefts,
      ∃ right, Json.findField rights field.1 = some right ∧ Same reading field.2 right := by
  induction lefts generalizing rights with
  | nil =>
      cases rights with
      | nil => simp [SameFields]
      | cons right rights => simp [SameFields]
  | cons field lefts ih =>
      obtain ⟨key, left⟩ := field
      rw [List.map_cons, List.nodup_cons] at leftDistinct
      have apart : ∀ other ∈ lefts, other.1 ≠ key := by
        intro other member same
        have named : other.1 ∈ lefts.map Prod.fst := List.mem_map_of_mem member
        rw [same] at named
        exact leftDistinct.1 named
      rw [SameFields]
      constructor
      · rintro ⟨before, right, after, rfl, same, others⟩
        have remaining := nodup_without rightDistinct
        obtain ⟨lengths, found⟩ := (ih leftDistinct.2 remaining).mp others
        constructor
        · simp only [List.length_cons, lengths, List.length_append]
          omega
        · intro field member
          rcases List.mem_cons.mp member with rfl | later
          · exact ⟨right, findField_middle rightDistinct, same⟩
          · rw [findField_without (apart field later)]
            exact found field later
      · rintro ⟨lengths, found⟩
        obtain ⟨right, here, same⟩ := found (key, left) List.mem_cons_self
        obtain ⟨before, after, rfl⟩ := split_of_findField here
        have remaining := nodup_without rightDistinct
        refine ⟨before, right, after, rfl, same, (ih leftDistinct.2 remaining).mpr ⟨?_, ?_⟩⟩
        · simp only [List.length_cons, List.length_append] at lengths ⊢
          omega
        · intro field member
          have other := found field (List.mem_cons_of_mem _ member)
          rw [findField_without (apart field member)] at other
          exact other

variable {double : Int → Nat → Double} {levels : Nat}

/-- The comparison of the validator is equality of values, up to the levels that it goes down. -/
theorem jsonEqual_iff {left right : Json} (leftKeyed : Keyed left) (rightKeyed : Keyed right)
    (near : depth right < levels) :
    jsonEqual double levels left right = true ↔ Same (.c double) left right := by
  induction levels generalizing left right with
  | zero => cases near
  | succ levels ih =>
      cases left with
      | null => cases right <;> simp [jsonEqual, Same]
      | bool value => cases right <;> simp [jsonEqual, Same]
      | number mantissa exponent => cases right <;> simp [jsonEqual, Same, Reading.c]
      | string text => cases right <;> simp [jsonEqual, Same, Reading.c]
      | array lefts =>
          cases right with
          | array rights =>
              simp only [jsonEqual, Same, sameElements_iff, List.forall₂_iff_zip, Bool.and_eq_true,
                beq_iff_eq, List.all_eq_true]
              apply and_congr_right
              intro _
              have element : ∀ pair ∈ lefts.zip rights,
                  (jsonEqual double levels pair.1 pair.2 = true ↔
                    Same (.c double) pair.1 pair.2) := by
                intro pair member
                obtain ⟨inLeft, inRight⟩ := List.of_mem_zip member
                apply ih (keyed_element leftKeyed inLeft) (keyed_element rightKeyed inRight)
                exact Nat.lt_of_lt_of_le (depth_element inRight) (Nat.le_of_lt_succ near)
              constructor
              · intro each left right member
                exact (element (left, right) member).mp (each (left, right) member)
              · intro each pair member
                exact (element pair member).mpr (each member)
          | _ => simp [jsonEqual, Same]
      | object lefts =>
          cases right with
          | object rights =>
              simp only [jsonEqual, Same, sameFields_iff leftKeyed.1 rightKeyed.1, Bool.and_eq_true,
                beq_iff_eq, List.all_eq_true]
              apply and_congr_right
              intro _
              apply forall₂_congr
              intro field member
              cases found : Json.findField rights field.1 with
              | none => simp
              | some right =>
                  have inRight := mem_of_findField found
                  have nested := ih (keyed_field leftKeyed.2 member) (keyed_field rightKeyed.2 inRight)
                    (Nat.lt_of_lt_of_le (depth_field inRight) (Nat.le_of_lt_succ near))
                  simp [nested]
          | _ => simp [jsonEqual, Same]

/-! ## Types -/

def typeNames : List String :=
  ["object", "array", "string", "number", "integer", "boolean", "null"]

def KnownTypes : Json → Prop
  | .string name => name ∈ typeNames
  | .array entries => ∀ entry ∈ entries, ∃ name ∈ typeNames, entry = .string name
  | _ => False

theorem cString_eq {text : String} (plain : noNul text = true) : cString text = text := by
  have stored : (Json.object [("", .string text)]).field "" = some (.string text) := rfl
  have read := Json.getString_of_field stored plain
  simp only [Json.getString, stored, Option.some.injEq] at read
  exact read

theorem cString_typeName {name : String} (known : name ∈ typeNames) : cString name = name := by
  apply cString_eq
  simp only [typeNames, List.mem_cons, List.not_mem_nil, or_false] at known
  rcases known with rfl | rfl | rfl | rfl | rfl | rfl | rfl <;> decide

section

variable {double : Int → Nat → Double} {value : Json}

theorem typeMatches_known (double : Int → Nat → Double) (value : Json) {name : String}
    (known : name ∈ typeNames) :
    ∃ matched, typeMatches double value name = some matched ∧
      (matched = true ↔ HasType (.c double) value name) := by
  simp only [typeNames, List.mem_cons, List.not_mem_nil, or_false] at known
  rcases known with rfl | rfl | rfl | rfl | rfl | rfl | rfl <;>
    refine ⟨_, rfl, ?_⟩ <;> cases value <;> simp [HasType, Json.isObject, Reading.c]

theorem anyType_known {entries : List Json}
    (known : ∀ entry ∈ entries, ∃ name ∈ typeNames, entry = .string name) :
    anyType double value entries = .ok true ↔
      ∃ name, .string name ∈ entries ∧ HasType (.c double) value (cString name) := by
  induction entries with
  | nil => simp [anyType]
  | cons entry entries ih =>
      obtain ⟨name, isName, rfl⟩ := known entry List.mem_cons_self
      have others := ih fun other member => known other (List.mem_cons_of_mem _ member)
      obtain ⟨matched, answer, holds⟩ := typeMatches_known double value isName
      rw [anyType, cString_typeName isName, answer]
      cases matched with
      | true =>
          simp only [true_iff]
          exact ⟨name, List.mem_cons_self, by rw [cString_typeName isName]; exact holds.mp rfl⟩
      | false =>
          simp only [others, List.mem_cons, Json.string.injEq]
          constructor
          · rintro ⟨other, member, has⟩
            exact ⟨other, .inr member, has⟩
          · rintro ⟨other, rfl | member, has⟩
            · rw [cString_typeName isName] at has
              exact absurd (holds.mpr has) (by simp)
            · exact ⟨other, member, has⟩

theorem typeAdmitted_iff {declared : Json} (known : KnownTypes declared) :
    TypeAdmitted double value declared ↔ TypeHolds (.c double) value declared := by
  cases declared with
  | string name =>
      obtain ⟨matched, answer, holds⟩ := typeMatches_known double value known
      simp only [TypeAdmitted, TypeHolds, cString_typeName known, answer, Option.some.injEq]
      rw [holds]
      simp [Reading.c, cString_typeName known]
  | array entries => exact anyType_known known
  | _ => exact False.elim known

end

/-! ## Supported schemas -/

inductive Subschema : Json → Json → Prop where
  | items {schema items : Json} : schema.field "items" = some items → Subschema schema items
  | property {schema sub : Json} {properties : List (String × Json)} {key : String} :
      schema.field "properties" = some (.object properties) → (key, sub) ∈ properties →
      Subschema schema sub
  | additional {schema : Json} {sub : List (String × Json)} :
      schema.field "additionalProperties" = some (.object sub) → Subschema schema (.object sub)

theorem Child.subschema {node child : Json × Json} (down : Child node child) :
    Subschema node.2 child.2 := by
  cases down with
  | item stored _ => exact .items stored
  | property stored member _ => exact .property stored member
  | additional stored _ _ => exact .additional stored

theorem Child.keyed {node child : Json × Json} (down : Child node child) (keyed : Keyed node.1) :
    Keyed child.1 := by
  cases down with
  | item _ member => exact keyed_element keyed member
  | property _ _ found => exact keyed_field keyed.2 (mem_of_findField found)
  | additional _ member _ => exact keyed_field keyed.2 member

/-- A value that the validator can compare with others. -/
def Comparable (value : Json) : Prop := Keyed value ∧ depth value < maxLevels

/-- Schemas of the supported subset, nested to less than a number of levels.  Other keywords need
no condition: where their value has the wrong shape nothing satisfies them. -/
def WellFormed : Nat → Json → Prop
  | 0, _ => False
  | levels + 1, schema =>
      checkKeywords schema = .ok () ∧
      (∀ declared, schema.field "type" = some declared → KnownTypes declared) ∧
      (∀ entries, schema.field "enum" = some (.array entries) →
        ∀ entry ∈ entries, Comparable entry) ∧
      (∀ constant, schema.field "const" = some constant → Comparable constant) ∧
      ∀ sub, Subschema schema sub → WellFormed levels sub

variable {schema : Json}

/-- Keywords are met in another sense when that sense is weaker on what the schema holds. -/
theorem Meets.mono {reading' : Reading} {declares declares' equals equals' : Json → Json → Prop}
    (type : ∀ declared, schema.field "type" = some declared → declares value declared →
      declares' value declared)
    (enumeration : ∀ entries, schema.field "enum" = some (.array entries) → ∀ entry ∈ entries,
      equals value entry → equals' value entry)
    (constant : ∀ constant, schema.field "const" = some constant → equals value constant →
      equals' value constant)
    (contents : ContentsHold reading schema value → ContentsHold reading' schema value)
    (meets : Meets reading declares equals value schema) :
    Meets reading' declares' equals' value schema where
  type := fun declared stored => type declared stored (meets.type declared stored)
  enumeration := by
    intro values stored
    obtain ⟨entries, rfl, entry, member, equal⟩ := meets.enumeration values stored
    exact ⟨entries, rfl, entry, member, enumeration entries stored entry member equal⟩
  constant := fun value stored => constant value stored (meets.constant value stored)
  contents := contents meets.contents

theorem passes_iff (wellFormed : WellFormed (levels + 1) schema) (keyed : Keyed value) :
    Passes double value schema ↔
      Meets (.c double) (TypeHolds (.c double)) (Same (.c double)) value schema := by
  obtain ⟨keywords, types, entries, constants, -⟩ := wellFormed
  have equal : ∀ other, Comparable other →
      (jsonEqual double maxLevels value other = true ↔ Same (.c double) value other) :=
    fun other comparable => jsonEqual_iff keyed comparable.1 comparable.2
  constructor
  · rintro ⟨-, meets⟩
    apply meets.mono
    · exact fun declared stored => (typeAdmitted_iff (types declared stored)).mp
    · exact fun listed stored entry member => (equal entry (entries listed stored entry member)).mp
    · exact fun constant stored => (equal constant (constants constant stored)).mp
    · exact id
  · intro meets
    refine ⟨keywords, meets.mono ?_ ?_ ?_ id⟩
    · exact fun declared stored => (typeAdmitted_iff (types declared stored)).mpr
    · exact fun listed stored entry member => (equal entry (entries listed stored entry member)).mpr
    · exact fun constant stored => (equal constant (constants constant stored)).mpr

theorem validateNode_iff (wellFormed : WellFormed levels schema) (keyed : Keyed value) :
    validateNode double levels value schema = .ok () ↔ Satisfies (.c double) value schema := by
  induction levels generalizing value schema with
  | zero => exact False.elim wellFormed
  | succ levels ih =>
      rw [validateNode, checkNode_eq_ok, satisfies_iff, ← and_assoc]
      apply and_congr
      · exact passes_iff wellFormed keyed
      · apply forall₂_congr
        intro value' schema'
        apply imp_congr_right
        intro child
        exact ih (wellFormed.2.2.2.2 schema' child.subschema) (child.keyed keyed)

/-! ## Readings -/

/-- A text without NUL, or a number that is its double. -/
def PlainLeaf (double : Int → Nat → Double) : Json → Prop
  | .number mantissa exponent => double mantissa exponent = exactDouble mantissa exponent
  | .string text => noNul text = true
  | _ => True

/-- No text in a value has a NUL, and every number is its double. -/
abbrev Plain (double : Int → Nat → Double) : Json → Prop := Everywhere (PlainLeaf double)

section

variable {double : Int → Nat → Double}

-- Equality does not tell the two readings of plain values apart.
mutual
theorem same_plain : (left right : Json) → Plain double left → Plain double right →
    (Same (.c double) left right ↔ Same .literal left right)
  | .null, right, _, _ => by cases right <;> simp [Same]
  | .bool _, right, _, _ => by cases right <;> simp [Same]
  | .number _ _, right, leftPlain, rightPlain => by
      cases right with
      | number =>
          rw [Same, Same]
          exact iff_of_eq (congrArg₂ Eq leftPlain.here rightPlain.here)
      | _ => simp [Same]
  | .string _, right, leftPlain, rightPlain => by
      cases right with
      | string =>
          rw [Same, Same]
          exact iff_of_eq (congrArg₂ Eq (cString_eq leftPlain.here) (cString_eq rightPlain.here))
      | _ => simp [Same]
  | .array lefts, right, leftPlain, rightPlain => by
      cases right with
      | array rights =>
          rw [Same, Same]
          exact sameElements_plain lefts rights (fun _ member => leftPlain.inside (.element member))
            fun _ member => rightPlain.inside (.element member)
      | _ => simp [Same]
  | .object lefts, right, leftPlain, rightPlain => by
      cases right with
      | object rights =>
          rw [Same, Same]
          exact sameFields_plain lefts rights (fun _ member => leftPlain.inside (.field member))
            fun _ member => rightPlain.inside (.field member)
      | _ => simp [Same]

theorem sameElements_plain : (lefts rights : List Json) →
    (∀ left ∈ lefts, Plain double left) → (∀ right ∈ rights, Plain double right) →
    (SameElements (.c double) lefts rights ↔ SameElements .literal lefts rights)
  | [], rights, _, _ => by cases rights <;> simp [SameElements]
  | left :: lefts, [], _, _ => by simp [SameElements]
  | left :: lefts, right :: rights, leftPlain, rightPlain => by
      obtain ⟨leftHere, leftPlain⟩ := List.forall_mem_cons.mp leftPlain
      obtain ⟨rightHere, rightPlain⟩ := List.forall_mem_cons.mp rightPlain
      rw [SameElements, SameElements]
      exact and_congr (same_plain left right leftHere rightHere)
        (sameElements_plain lefts rights leftPlain rightPlain)

theorem sameFields_plain : (lefts rights : List (String × Json)) →
    (∀ field ∈ lefts, Plain double field.2) → (∀ field ∈ rights, Plain double field.2) →
    (SameFields (.c double) lefts rights ↔ SameFields .literal lefts rights)
  | [], rights, _, _ => by rw [SameFields, SameFields]
  | (key, left) :: lefts, rights, leftPlain, rightPlain => by
      obtain ⟨leftHere, leftPlain⟩ := List.forall_mem_cons.mp leftPlain
      rw [SameFields, SameFields]
      apply exists_congr
      intro before
      apply exists₂_congr
      intro right after
      apply and_congr_right
      rintro rfl
      rw [List.forall_mem_append, List.forall_mem_cons] at rightPlain
      obtain ⟨before, rightHere, after⟩ := rightPlain
      exact and_congr (same_plain left right leftHere rightHere)
        (sameFields_plain lefts _ leftPlain (List.forall_mem_append.mpr ⟨before, after⟩))
end

variable {value schema : Json}

theorem hasType_plain (plain : Plain double value) (name : String) :
    HasType (.c double) value name ↔ HasType .literal value name := by
  cases value with
  | number mantissa exponent =>
      have same : double mantissa exponent = exactDouble mantissa exponent := plain.here
      simp only [HasType, Reading.c, exact, same]
  | _ => rfl

theorem typeHolds_plain {declared : Json} (plain : Plain double value)
    (plainDeclared : Plain double declared) :
    TypeHolds (.c double) value declared ↔ TypeHolds .literal value declared := by
  have text : ∀ name, noNul name = true → (HasType (.c double) value (cString name) ↔
      HasType .literal value name) := by
    intro name plainName
    rw [cString_eq plainName]
    exact hasType_plain plain name
  cases declared with
  | string name => exact text name plainDeclared.here
  | array entries =>
      apply exists_congr
      intro name
      apply and_congr_right
      intro member
      exact text name (plainDeclared.inside (.element member)).here
  | _ => rfl

theorem nonnegativeSize_plain {bound : Json} (plain : Plain double bound) :
    nonnegativeSize double bound = nonnegativeSize exactDouble bound := by
  cases bound with
  | number mantissa exponent =>
      have same : double mantissa exponent = exactDouble mantissa exponent := plain.here
      simp only [nonnegativeSize, same]
  | _ => rfl

theorem sizeHolds_plain (plain : Plain double schema) (size : Nat) (least most : String) :
    SizeHolds (.c double) size schema least most ↔ SizeHolds .literal size schema least most := by
  have same : ∀ key bound, schema.field key = some bound →
      nonnegativeSize double bound = nonnegativeSize exactDouble bound :=
    fun _ _ stored => nonnegativeSize_plain (plain.field stored)
  refine and_congr (forall₂_congr fun bound stored => ?_) (forall₂_congr fun bound stored => ?_)
  · exact iff_of_eq (congrArg (fun size' => ∃ limit, size' = some limit ∧ limit ≤ size)
      (same least bound stored))
  · exact iff_of_eq (congrArg (fun size' => ∃ limit, size' = some limit ∧ size ≤ limit)
      (same most bound stored))

theorem requiredHolds_plain {required : Json} (plain : Plain double required)
    (fields : List (String × Json)) :
    RequiredHolds (.c double) fields required ↔ RequiredHolds .literal fields required := by
  cases required with
  | array entries =>
      refine forall₂_congr fun entry member => exists_congr fun name => and_congr_right ?_
      rintro rfl
      have read : cString name = name := cString_eq (plain.inside (.element member)).here
      simp only [Reading.c, exact, read, id]
  | _ => rfl

theorem boundHolds_plain {limit : Json} (plain : Plain double limit) (number : Double)
    (bound : NumericBound) :
    BoundHolds (.c double) number bound limit ↔ BoundHolds .literal number bound limit := by
  cases limit with
  | number mantissa exponent =>
      have same : double mantissa exponent = exactDouble mantissa exponent := plain.here
      simp only [BoundHolds, Reading.c, exact, same]
  | _ => rfl

theorem contentsHold_plain (plain : Plain double value) (plainSchema : Plain double schema) :
    ContentsHold (.c double) schema value ↔ ContentsHold .literal schema value := by
  cases value with
  | number mantissa exponent =>
      have same : double mantissa exponent = exactDouble mantissa exponent := plain.here
      refine forall₂_congr fun bound _ => forall₂_congr fun limit stored => ?_
      rw [boundHolds_plain (plainSchema.field stored)]
      simp only [Reading.c, exact, same]
  | string text =>
      simp only [ContentsHold, sizeHolds_plain plainSchema]
      simp only [Reading.c, exact, cString_eq plain.here, id]
  | array elements => exact and_congr_left' (sizeHolds_plain plainSchema _ _ _)
  | object fields =>
      refine and_congr (sizeHolds_plain plainSchema _ _ _) (and_congr_left' ?_)
      exact forall₂_congr fun required stored => requiredHolds_plain (plainSchema.field stored) _
  | _ => rfl

theorem meets_plain (plain : Plain double value) (plainSchema : Plain double schema) :
    Meets (.c double) (TypeHolds (.c double)) (Same (.c double)) value schema ↔
      Meets .literal (TypeHolds .literal) (Same .literal) value schema := by
  have type : ∀ declared, schema.field "type" = some declared →
      (TypeHolds (.c double) value declared ↔ TypeHolds .literal value declared) :=
    fun _ stored => typeHolds_plain plain (plainSchema.field stored)
  have equal : ∀ other, Plain double other → (Same (.c double) value other ↔
      Same .literal value other) := fun other => same_plain value other plain
  have entry : ∀ entries, schema.field "enum" = some (.array entries) → ∀ entry ∈ entries,
      Plain double entry := fun _ stored _ member => (plainSchema.field stored).inside (.element member)
  have contents := contentsHold_plain plain plainSchema
  constructor
  · apply Meets.mono
    · exact fun declared stored => (type declared stored).mp
    · exact fun entries stored other member => (equal other (entry entries stored other member)).mp
    · exact fun constant stored => (equal constant (plainSchema.field stored)).mp
    · exact contents.mp
  · apply Meets.mono
    · exact fun declared stored => (type declared stored).mpr
    · exact fun entries stored other member => (equal other (entry entries stored other member)).mpr
    · exact fun constant stored => (equal constant (plainSchema.field stored)).mpr
    · exact contents.mpr

theorem Child.plain {node child : Json × Json} (down : Child node child)
    (plain : Plain double node.1) (plainSchema : Plain double node.2) :
    Plain double child.1 ∧ Plain double child.2 := by
  cases down with
  | item stored member => exact ⟨plain.inside (.element member), plainSchema.field stored⟩
  | property stored member found =>
      exact ⟨plain.inside (.field (mem_of_findField found)),
        (plainSchema.field stored).inside (.field member)⟩
  | additional stored member _ => exact ⟨plain.inside (.field member), plainSchema.field stored⟩

theorem satisfies_plain (plain : Plain double value) (plainSchema : Plain double schema) :
    Satisfies (.c double) value schema ↔ Satisfies .literal value schema := by
  refine forall₄_congr fun steps value' schema' reach => ?_
  have both : ∀ {steps : Nat} {node last : Json × Json}, Reach steps node last →
      Plain double node.1 → Plain double node.2 → Plain double last.1 ∧ Plain double last.2 := by
    intro steps node last reach
    induction reach with
    | here => exact And.intro
    | down child _ ih =>
        intro plain plainSchema
        obtain ⟨below, belowSchema⟩ := child.plain plain plainSchema
        exact ih below belowSchema
  obtain ⟨here, schemaHere⟩ := both reach plain plainSchema
  exact meets_plain here schemaHere

end

/-- The validator is right about values and schemas without NUL whose numbers are doubles. -/
theorem validateNode_plain {double : Int → Nat → Double} {value schema : Json}
    (wellFormed : WellFormed maxLevels schema) (keyed : Keyed value) (plain : Plain double value)
    (plainSchema : Plain double schema) :
    validateNode double maxLevels value schema = .ok () ↔ Satisfies .literal value schema :=
  (validateNode_iff wellFormed keyed).trans (satisfies_plain plain plainSchema)

def constSchema (constant : Json) : Json := .object [("const", constant)]

theorem constSchema_wellFormed {constant : Json} (comparable : Comparable constant) :
    WellFormed maxLevels (constSchema constant) := by
  refine ⟨rfl, ?_, ?_, ?_, ?_⟩
  · intro declared stored
    cases stored
  · intro entries stored
    cases stored
  · intro constant stored
    cases stored
    exact comparable
  · intro sub subschema
    cases subschema with
    | items stored => cases stored
    | property stored _ => cases stored
    | additional stored => cases stored

theorem constText_wellFormed : WellFormed maxLevels (constSchema (.string "a")) :=
  constSchema_wellFormed ⟨trivial, by decide⟩

theorem constText_plain {double : Int → Nat → Double} : Plain double (.string "a") ∧
    Plain double (constSchema (.string "a")) := by
  have plain : Plain double (.string "a") :=
    everywhere_iff.mpr ⟨show noNul "a" = true by decide, fun _ isPart => nomatch isPart⟩
  refine ⟨plain, everywhere_iff.mpr ⟨trivial, fun _ isPart => ?_⟩⟩
  cases isPart with
  | field member =>
      obtain rfl := List.mem_singleton.mp member
      exact plain

theorem not_satisfies_const {value constant : Json} (different : ¬Same .literal value constant) :
    ¬Satisfies .literal value (constSchema constant) :=
  fun satisfies => different ((satisfies 0 _ _ .here).constant constant rfl)

/-- `strtod` on whole numbers up to `2 ^ 54`: above `2 ^ 53` an odd one is in the middle of two
doubles, and goes to the multiple of four. -/
def wholeDouble (mantissa : Int) (exponent : Nat) : Double :=
  if exponent = 0 ∧ 2 ^ 53 < mantissa ∧ mantissa % 2 = 1 then .finite ((mantissa + 1) / 4 * 4 : Int)
  else exactDouble mantissa exponent

/-- A number is taken for the constant that has its double. -/
theorem rounded_number_accepted :
    validateNode wholeDouble maxLevels (.number 9007199254740992 0)
      (constSchema (.number 9007199254740993 0)) = .ok () ∧
    ¬Satisfies .literal (.number 9007199254740992 0)
      (constSchema (.number 9007199254740993 0)) :=
  ⟨by decide +kernel, not_satisfies_const (by simp [Same, exact, exactDouble])⟩

/-! ## Unsupported keywords -/

/-- A keyword outside the subset stands somewhere in a schema. -/
def ContainsUnsupported (schema : Json) : Prop :=
  ∃ fields, Relation.ReflTransGen Subschema schema (.object fields) ∧
    ∃ field ∈ fields, supportedKeyword field.1 = false

theorem validateArguments_parsed {definition : Definition}
    (parsed : parseParameters definition = some schema) (arguments : Json) :
    validateArguments double definition arguments =
      validateNode double maxLevels arguments schema := by
  have given : ¬(definition.parametersJson.isNone ∧ definition.parametersSchema.isNone) := by
    rintro ⟨noJson, noSchema⟩
    simp only [Option.isNone_iff_eq_none] at noJson noSchema
    simp [parseParameters, noJson, noSchema] at parsed
  simp only [validateArguments, if_neg given, parsed]

/-- A schema with a keyword outside the subset under a property. -/
def patternDefinition : Definition where
  parametersJson := none
  parametersSchema := some (.object [("properties",
    .object [("a", .object [("pattern", .string "x")])])])
  strict := false

end TurboAgent.ToolSchema
