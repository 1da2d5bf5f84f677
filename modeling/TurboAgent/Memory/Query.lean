import TurboAgent.Logic.Sorting
import TurboAgent.Memory.Records

/-!
# Sorted queries

A query sorts the records that match by one of their fields and by their id, and keeps the first
ones.  The id joins the namespace and the key, and two records may have the same id.
-/

namespace TurboAgent.Memory

open Logic.Sorting

/-- `turbo_agent_memory_query_options_t`.  The empty text of a filter asks for nothing. -/
structure QueryOptions where
  (namespacePrefix kind keyPrefix textSubstring idPrefix metadataScope metadataPathPrefix : Bytes)
  (createdAfter createdBefore : Bytes)
  (sortBy sortOrder : Option String)
  limit : Nat

/-! ## Filters -/

/-- `turbo_agent_memory_record_prefix_matches`. -/
def recordPrefixMatches (value : Option String) (pre : Bytes) : Bool :=
  pre.isEmpty || value.any fun found => (text pre).toList.isPrefixOf found.toList

/-- `turbo_agent_memory_record_metadata_matches`. -/
def recordMetadataMatches (record : Json) (metadataScope metadataPathPrefix : Bytes) : Bool :=
  metadataScope.isEmpty && metadataPathPrefix.isEmpty ||
    match record.field "metadata" with
    | some (.object fields) =>
        (metadataScope.isEmpty ||
          (Json.object fields).getString "scope" == some (text metadataScope)) &&
          recordPrefixMatches ((Json.object fields).getString "path") metadataPathPrefix
    | _ => false

/-- `turbo_agent_memory_record_created_at_matches`. -/
def recordCreatedAtMatches (record : Json) (createdAfter createdBefore : Bytes) : Bool :=
  createdAfter.isEmpty && createdBefore.isEmpty ||
    (record.getString "created_at").any fun createdAt =>
      (createdAfter.isEmpty || compare createdAt (text createdAfter) != .lt) &&
        (createdBefore.isEmpty || compare createdAt (text createdBefore) != .gt)

/-- `turbo_agent_memory_record_matches_query_options`. -/
def recordMatchesQueryOptions (record : Json) (options : QueryOptions) : Bool :=
  recordPrefixMatches (record.getString "namespace") options.namespacePrefix &&
    recordPrefixMatches (record.getString "id") options.idPrefix &&
    matchesQuery record options.kind options.keyPrefix options.textSubstring &&
    recordMetadataMatches record options.metadataScope options.metadataPathPrefix &&
    recordCreatedAtMatches record options.createdAfter options.createdBefore

/-- `turbo_agent_memory_query_filter_records`. -/
def queryFilterRecords (options : QueryOptions) (records : List Json) : List Json :=
  records.filter fun record => recordMatchesQueryOptions record options

/-! ## Comparators -/

/-- `turbo_agent_memory_record_string_compare`, which puts no text in front. -/
def recordStringCompare : Option String → Option String → Ordering
  | none, none => .eq
  | none, some _ => .lt
  | some _, none => .gt
  | some left, some right => compare left right

/-- `turbo_agent_memory_record_compare_by_field`.  Only the order of the field is turned. -/
def recordCompareByField (field : String) (descending : Bool) (left right : Json) : Ordering :=
  (if descending then recordStringCompare (right.getString field) (left.getString field)
    else recordStringCompare (left.getString field) (right.getString field)).then
    (recordStringCompare (left.getString "id") (right.getString "id"))

/-- `turbo_agent_memory_query_select_compare`. -/
def querySelectCompare (sortBy sortOrder : Option String) : Option (Json → Json → Ordering) :=
  match sortBy with
  | none => none
  | some field =>
      if sortOrder = none ∨ sortOrder = some "asc" then select field false
      else if sortOrder = some "desc" then select field true
      else none
where
  /-- The comparator of a field. -/
  select (field : String) (descending : Bool) : Option (Json → Json → Ordering) :=
    if field ∈ ["id", "namespace", "kind", "key"] then
      some (recordCompareByField field descending)
    else none

/-! ## Queries -/

/-- `limit > 0 && limit < count ? limit : count`. -/
def copyCount (limit count : Nat) : Nat :=
  if 0 < limit ∧ limit < count then limit else count

section

variable (qsort : (Json → Json → Ordering) → List Json → List Json)

/-- `turbo_agent_memory_query_materialize_records`. -/
def queryMaterializeRecords (compare : Option (Json → Json → Ordering)) (limit : Nat)
    (records : List Json) : List Json :=
  (match compare with
  | none => records
  | some compare => qsort compare records).take (copyCount limit records.length)

variable (codec : Codec) (list : Bytes → Option (List Record))

/-- `turbo_agent_memory_query_records_ex` over the records that a store lists. -/
def queryRecordsEx (options : Option QueryOptions) : Option (List Json) :=
  match options with
  | none => listRecordsImpl (queryWithList codec (list []) [] [] [])
  | some options =>
      if options.sortOrder ≠ none ∧ options.sortOrder ≠ some "asc" ∧
          options.sortOrder ≠ some "desc" then none
      else if options.sortBy.isSome && (querySelectCompare options.sortBy options.sortOrder).isNone
      then none
      else
        (listRecordsImpl (queryWithList codec (list options.namespacePrefix) options.kind
          options.keyPrefix options.textSubstring)).map fun records =>
            let filtered := queryFilterRecords options records
            let compare := querySelectCompare options.sortBy options.sortOrder
            if compare.isNone && options.limit == 0 then filtered
            else queryMaterializeRecords qsort compare options.limit filtered

end

/-- The records that match, in the order of the store. -/
def matching (codec : Codec) (records : List Record) (options : QueryOptions) :
    Option (List Json) :=
  (listRecordsImpl (queryWithList codec (some (memoryList records options.namespacePrefix))
    options.kind options.keyPrefix options.textSubstring)).map (queryFilterRecords options)

def Lists (records : List Record) (list : Bytes → Option (List Record)) : Prop :=
  ∀ namespacePrefix, ∃ listed, list namespacePrefix = some listed ∧
    listed.Perm (memoryList records namespacePrefix)

/-! ## The order -/

theorem recordStringCompare_eq (left right : Option String) :
    recordStringCompare left right = compare left right := by
  cases left <;> cases right <;> rfl

instance (field : String) (descending : Bool) :
    Std.TransCmp (recordCompareByField field descending) := by
  have byId : Std.TransCmp (compareOn fun record : Json => record.getString "id") := inferInstance
  have byField : Std.TransCmp (compareOn fun record : Json => record.getString field) :=
    inferInstance
  have turned : Std.TransCmp fun left right : Json =>
      compareOn (fun record : Json => record.getString field) right left := byField.opposite
  cases descending with
  | false =>
      have same : recordCompareByField field false = compareLex
          (compareOn fun record : Json => record.getString field)
          (compareOn fun record : Json => record.getString "id") := by
        funext left right
        simp only [recordCompareByField, recordStringCompare_eq]
        rfl
      rw [same]
      infer_instance
  | true =>
      have same : recordCompareByField field true = compareLex
          (fun left right => compareOn (fun record : Json => record.getString field) right left)
          (compareOn fun record : Json => record.getString "id") := by
        funext left right
        simp only [recordCompareByField, recordStringCompare_eq]
        rfl
      rw [same]
      infer_instance

theorem querySelectCompare_some {sortBy sortOrder : Option String}
    {compare : Json → Json → Ordering} (selected : querySelectCompare sortBy sortOrder =
      some compare) :
    sortBy.isSome = true ∧
      (sortOrder = none ∨ sortOrder = some "asc" ∨ sortOrder = some "desc") ∧
      ∃ field descending, compare = recordCompareByField field descending := by
  have known : ∀ field descending, querySelectCompare.select field descending = some compare →
      ∃ field descending, compare = recordCompareByField field descending := by
    intro field descending found
    rw [querySelectCompare.select] at found
    split at found
    next => exact ⟨field, descending, (Option.some.inj found).symm⟩
    next => cases found
  unfold querySelectCompare at selected
  split at selected
  next => cases selected
  next field =>
    split at selected
    next ascending => exact ⟨rfl, ascending.imp_right .inl, known field _ selected⟩
    split at selected
    next descending => exact ⟨rfl, .inr (.inr descending), known field _ selected⟩
    next => cases selected

/-! ## The result of a sorted query -/

variable {codec : Codec} {records : List Record} {options : QueryOptions}
  {compare : Json → Json → Ordering}

theorem queryRecordsEx_sorted
    (selected : querySelectCompare options.sortBy options.sortOrder = some compare)
    (qsort : (Json → Json → Ordering) → List Json → List Json)
    (list : Bytes → Option (List Record)) :
    queryRecordsEx qsort codec list (some options) =
      ((listRecordsImpl (queryWithList codec (list options.namespacePrefix) options.kind
        options.keyPrefix options.textSubstring)).map (queryFilterRecords options)).map
          fun found => (qsort compare found).take (copyCount options.limit found.length) := by
  obtain ⟨sorts, ordered, -⟩ := querySelectCompare_some selected
  have valid : ¬(options.sortOrder ≠ none ∧ options.sortOrder ≠ some "asc" ∧
      options.sortOrder ≠ some "desc") := by
    rintro ⟨given, notAscending, notDescending⟩
    rcases ordered with absent | ascending | descending
    · exact given absent
    · exact notAscending ascending
    · exact notDescending descending
  rw [queryRecordsEx]
  dsimp only
  rw [if_neg valid, selected, if_neg (by simp), Option.map_map]
  rfl

theorem matching_alike (codec : Codec) (options : QueryOptions)
    {list : Bytes → Option (List Record)} (lists : Lists records list) :
    Alike ((listRecordsImpl (queryWithList codec (list options.namespacePrefix) options.kind
      options.keyPrefix options.textSubstring)).map (queryFilterRecords options))
      (matching codec records options) := by
  obtain ⟨listed, isListed, perm⟩ := lists options.namespacePrefix
  rw [isListed]
  have alike : Alike (some listed) (some (memoryList records options.namespacePrefix)) := perm
  exact (listRecordsImpl_alike alike _ _ _).filter _

theorem Alike.of_none {α : Type} {left : Option (List α)} (alike : Alike left none) :
    left = none := by
  cases left with
  | none => rfl
  | some left => exact alike.elim

theorem Alike.of_some {α : Type} {left : Option (List α)} {right : List α}
    (alike : Alike left (some right)) : ∃ other, left = some other ∧ other.Perm right := by
  cases left with
  | none => exact alike.elim
  | some left => exact ⟨left, rfl, alike⟩

theorem memoryList_lists (records : List Record) :
    Lists records fun namespacePrefix => some (memoryList records namespacePrefix) :=
  fun _ => ⟨_, rfl, .refl _⟩

/-- A sorted query has one result for all sorts and all orders of listing, which is the front of
the records that match. -/
def OrderIndependent (codec : Codec) (records : List Record) (options : QueryOptions)
    (compare : Json → Json → Ordering) : Prop :=
  ∃ answer, (∀ qsort, Conforms qsort → ∀ list, Lists records list →
      queryRecordsEx qsort codec list (some options) = answer) ∧
    ∀ found, matching codec records options = some found →
      ∃ sorted, Sorts compare found sorted ∧
        answer = some (sorted.take (copyCount options.limit found.length))

theorem determined_of_orderIndependent
    (selected : querySelectCompare options.sortBy options.sortOrder = some compare)
    (independent : OrderIndependent codec records options compare) {found : List Json}
    (isFound : matching codec records options = some found) :
    Determined compare found (copyCount options.limit found.length) := by
  obtain ⟨-, -, field, descending, rfl⟩ := querySelectCompare_some selected
  obtain ⟨answer, same, -⟩ := independent
  have taken : ∀ sorted, Sorts (recordCompareByField field descending) found sorted →
      some (sorted.take (copyCount options.limit found.length)) = answer := by
    intro sorted sorts
    obtain ⟨qsort, conforms, result⟩ := sorts.exists_conforms
    rw [← same qsort conforms _ (memoryList_lists records), queryRecordsEx_sorted selected,
      show Option.map (queryFilterRecords options) _ = some found from isFound, Option.map_some,
      result]
  apply determined_iff.mpr
  intro left right leftSorts rightSorts
  exact Option.some.inj ((taken left leftSorts).trans (taken right rightSorts).symm)

theorem orderIndependent_of_determined
    (selected : querySelectCompare options.sortBy options.sortOrder = some compare)
    (determined : ∀ found, matching codec records options = some found →
      Determined compare found (copyCount options.limit found.length)) :
    OrderIndependent codec records options compare := by
  obtain ⟨-, -, field, descending, rfl⟩ := querySelectCompare_some selected
  cases isFound : matching codec records options with
  | none =>
      refine ⟨none, fun qsort _ list lists => ?_, fun _ found => ?_⟩
      · have alike := matching_alike codec options lists
        rw [isFound] at alike
        rw [queryRecordsEx_sorted selected, alike.of_none]
        rfl
      · exact absurd (isFound.symm.trans found) (Option.some_ne_none _).symm
  | some found =>
      obtain ⟨sorted, sorts⟩ := exists_sorts (recordCompareByField field descending) found
      refine ⟨some (sorted.take (copyCount options.limit found.length)),
        fun qsort conforms list lists => ?_, fun other isOther => ?_⟩
      · have alike := matching_alike codec options lists
        rw [isFound] at alike
        obtain ⟨listed, isListed, perm⟩ := alike.of_some
        have result := conforms (recordCompareByField field descending) listed
        rw [queryRecordsEx_sorted selected, isListed, Option.map_some, perm.length_eq,
          determined_iff.mp (determined found isFound) _ _
            ⟨result.perm.trans perm, result.sorted⟩ sorts]
      · obtain rfl := Option.some.inj (isFound.symm.trans isOther)
        exact ⟨sorted, sorts, rfl⟩

/-- The result does not depend on the order of listing exactly when no two records that match and
are taken for equal stand among the first ones. -/
theorem queryRecordsEx_independent (codec : Codec) (records : List Record) (options : QueryOptions)
    (compare : Json → Json → Ordering)
    (selected : querySelectCompare options.sortBy options.sortOrder = some compare) :
    OrderIndependent codec records options compare ↔
      ∀ found, matching codec records options = some found →
        Determined compare found (copyCount options.limit found.length) :=
  ⟨fun independent _ => determined_of_orderIndependent selected independent,
    orderIndependent_of_determined selected⟩

/-- Two records in the namespaces `a` and `a::b` that have one id. -/
def sameId : List Record :=
  [⟨asciiBytes "a", asciiBytes "b::c", asciiBytes "1"⟩,
    ⟨asciiBytes "a::b", asciiBytes "c", asciiBytes "1"⟩]

def byKind : QueryOptions :=
  ⟨[], [], [], [], [], [], [], [], [], some "kind", none, 0⟩

theorem byKind_selects : querySelectCompare byKind.sortBy byKind.sortOrder =
    some (recordCompareByField "kind" false) := rfl

theorem queryRecordsEx_independent_sample :
    OrderIndependent contextCodec sameId byKind (recordCompareByField "kind" false) ↔
      ∀ found, matching contextCodec sameId byKind = some found →
        Determined (recordCompareByField "kind" false) found
          (copyCount byKind.limit found.length) :=
  queryRecordsEx_independent contextCodec sameId byKind _ byKind_selects

/-- A sort that keeps the order of the items that are taken for equal. -/
def stableSort (compare : Json → Json → Ordering) (records : List Json) : List Json :=
  records.insertionSort fun left right => (compare left right).isLE

theorem stableSort_conforms : Conforms stableSort := by
  intro compare _ records
  have total : Std.Total fun left right : Json => (compare left right).isLE = true := by
    refine ⟨fun left right => ?_⟩
    by_contra neither
    rw [not_or] at neither
    have lower := Std.OrientedCmp.lt_of_not_isLE neither.1
    exact neither.2 (Ordering.isLE_of_eq_lt lower)
  have transitive : IsTrans Json fun left right => (compare left right).isLE = true :=
    ⟨fun _ _ _ => Std.TransCmp.isLE_trans⟩
  exact ⟨List.perm_insertionSort _ _, List.pairwise_insertionSort _ _⟩

/-- Two records with one id and one kind are answered in the order in which they are listed. -/
theorem queryRecordsEx_ties :
    (¬∀ codec records options compare,
      (records.map fun record => (record.memoryNamespace, record.key)).Nodup →
      querySelectCompare options.sortBy options.sortOrder = some compare →
      ∀ qsort, Conforms qsort → ∀ left right, Lists records left → Lists records right →
        queryRecordsEx qsort codec left (some options) =
          queryRecordsEx qsort codec right (some options)) ∧
    ¬∀ memoryNamespace key memoryNamespace' key',
      makeRecordId memoryNamespace key = makeRecordId memoryNamespace' key' →
        memoryNamespace = memoryNamespace' ∧ key = key' := by
  constructor
  · intro independent
    have turned : Lists sameId fun namespacePrefix =>
        some (memoryList sameId namespacePrefix).reverse :=
      fun _ => ⟨_, rfl, List.reverse_perm _⟩
    have same := independent contextCodec sameId byKind _ (by decide +kernel) byKind_selects
      stableSort stableSort_conforms _ _ (memoryList_lists sameId) turned
    exact absurd (congrArg (Option.map (List.map fun record => record.getString "key")) same)
      (by decide +kernel)
  · intro injective
    exact absurd (injective (asciiBytes "a") (asciiBytes "b::c") (asciiBytes "a::b")
      (asciiBytes "c") (by decide +kernel)).2 (by decide +kernel)

end TurboAgent.Memory
