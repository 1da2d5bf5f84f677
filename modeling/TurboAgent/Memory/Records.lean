import TurboAgent.Memory.Files

/-!
# Reading every record

A listing fails when the canonical form of one of its records is refused.  A value with a
`scope` or a `path` and without the texts of a context record is stored and has such a form, so
the records of a store are read as long as no such value is put.
-/

namespace TurboAgent.Memory

def CString := { name : Bytes // (0 : UInt8) ∉ name }

inductive Call where
  | put (memoryNamespace key valueJson : CString)
  | putRecord (record : Json)
  | delete (memoryNamespace key : CString)

section Calls

variable (codec : Codec)

def memoryCall (records : List Record) : Call → Option (List Record)
  | .put memoryNamespace key valueJson =>
      memoryPut codec records memoryNamespace.1 key.1 valueJson.1
  | .putRecord record => putRecord codec (memoryPut codec records) record
  | .delete memoryNamespace key => memoryDelete records memoryNamespace.1 key.1

def memoryRun (calls : List Call) : List Record :=
  calls.foldl (fun records call => (memoryCall codec records call).getD records) []

variable (longest : Nat)

/-- `turbo_agent_memory_store_file_put` that is not interrupted. -/
def filePut (nonce : UInt64) (directory : Directory) (memoryNamespace key valueJson : Bytes) :
    Option Directory :=
  (filePutSteps codec longest memoryNamespace key valueJson nonce).map fun steps =>
    steps.foldl FileStep.perform directory

def fileCall (nonce : UInt64) (directory : Directory) : Call → Option Directory
  | .put memoryNamespace key valueJson =>
      filePut codec longest nonce directory memoryNamespace.1 key.1 valueJson.1
  | .putRecord record => putRecord codec (filePut codec longest nonce directory) record
  | .delete memoryNamespace key => fileDelete directory memoryNamespace.1 key.1

/-- The directory after calls, each with the nonce of its temporary file. -/
def fileRun (calls : List (UInt64 × Call)) : Directory :=
  calls.foldl
    (fun directory call => (fileCall codec longest call.1 directory call.2).getD directory) ∅

/-! ## Values that are read -/

/-- A value is no context record, or has the texts of one. -/
def Readable (valueJson : Bytes) : Prop :=
  ∀ fields, codec.parse valueJson = some (.object fields) →
    (Json.object fields).field "scope" ≠ none ∨ (Json.object fields).field "path" ≠ none →
      ((Json.object fields).getString "scope").isSome = true ∧
        ((Json.object fields).getString "text").isSome = true

def Call.Readable : Call → Prop
  | .put memoryNamespace key valueJson =>
      putValid codec memoryNamespace.1 key.1 valueJson.1 = true →
        Memory.Readable codec valueJson.1
  | .putRecord record =>
      validateCanonicalRecord record = true → record.getString "kind" ≠ some "context" →
        ∀ value, record.getString "value_json" = some value → Memory.Readable codec (bytes value)
  | .delete _ _ => True

def ReadsBack : Prop :=
  ∀ fields : List (String × String), (fields.map Prod.fst).Nodup →
    ∀ value, codec.parse (codec.serialize (.object (fields.map fun field =>
        (field.1, .string field.2)))) = some value →
      value = .object (fields.map fun field => (field.1, .string field.2))

/-- The records of a store are all read, one for each pair. -/
def Listable (get : Bytes → Bytes → Option Bytes) (list : Bytes → Option (List Record)) : Prop :=
  ∃ records : List Record,
    (records.map fun record => (record.memoryNamespace, record.key)).Nodup ∧
    (∀ memoryNamespace key value, get memoryNamespace key = some value ↔
      ⟨memoryNamespace, key, value⟩ ∈ records) ∧
    (∀ namespacePrefix, ∃ found, listRecords codec (list namespacePrefix) = some found ∧
      found.Perm ((records.filter fun record =>
        namespacePrefix.isPrefixOf record.memoryNamespace).map (canonicalOf codec))) ∧
    (∀ namespacePrefix kind keyPrefix textSubstring, ∃ found,
      queryRecords codec (list namespacePrefix) namespacePrefix kind keyPrefix textSubstring =
        some found ∧
      found.Perm ((records.filter fun record =>
        namespacePrefix.isPrefixOf record.memoryNamespace &&
          matchesQuery (canonicalOf codec record) kind keyPrefix textSubstring).map
            (canonicalOf codec))) ∧
    ∀ record ∈ records, getRecordFrom codec (get record.memoryNamespace record.key)
      record.memoryNamespace record.key = some (canonicalOf codec record)

end Calls

variable {codec : Codec} {longest : Nat} {directory : Directory} {records : List Record}

/-! ## The canonical form -/

theorem validate_json (memoryNamespace key : Bytes) :
    validateCanonicalRecord (canonicalRecord memoryNamespace key "json" .null .null .null) =
      true := by
  rfl

theorem validate_context (memoryNamespace key : Bytes) (text scope : String)
    (path createdAt : Option String) :
    validateCanonicalRecord (canonicalRecord memoryNamespace key "context"
      (nullable (some text)) (.object [("scope", nullable (some scope)),
        ("path", nullable path)]) (nullable createdAt)) = true := by
  cases path <;> cases createdAt <;> rfl

theorem Readable.valid {record : Record} (readable : Readable codec record.valueJson) :
    validateCanonicalRecord (canonicalOf codec record) = true := by
  rw [canonicalOf, makeCanonicalRecord]
  split
  next fields parsed =>
    dsimp only
    split
    next context =>
      obtain ⟨scope, text⟩ := readable fields parsed context
      obtain ⟨scope, isScope⟩ := Option.isSome_iff_exists.mp scope
      obtain ⟨text, isText⟩ := Option.isSome_iff_exists.mp text
      rw [isScope, isText]
      exact validate_context _ _ _ _ _ _
    next => exact validate_json _ _
  next => exact validate_json _ _

theorem canonicalOf_namespace (codec : Codec) (record : Record) :
    (canonicalOf codec record).field "namespace" =
      some (.string (text record.memoryNamespace)) := by
  rw [canonicalOf, makeCanonicalRecord]
  split
  next =>
    dsimp only
    split <;> rfl
  next => rfl

/-! ## Texts -/

theorem text_toList (name : Bytes) :
    (text name).toList = name.map fun byte => Char.ofNat byte.toNat := by
  rw [text, String.toList_ofList]

theorem bytes_text (name : Bytes) : bytes (text name) = name := by
  rw [bytes, text_toList, List.map_map]
  conv_rhs => rw [← List.map_id name]
  refine List.map_congr_left fun byte _ => ?_
  have small : (Char.ofNat byte.toNat).toNat < 256 := by
    rw [charOf_toNat]
    exact byte.toNat_lt
  show (if (Char.ofNat byte.toNat).toNat < 256 then _ else _) = byte
  rw [if_pos small, charOf_toNat, UInt8.ofNat_toNat]

theorem text_noNul {name : Bytes} (plain : (0 : UInt8) ∉ name) : noNul (text name) = true := by
  rw [noNul, text_toList]
  simp only [Bool.not_eq_true', List.contains_eq_mem, decide_eq_false_iff_not, List.mem_map,
    not_exists, not_and]
  intro byte member same
  have code := congrArg Char.toNat same
  rw [charOf_toNat] at code
  have zero : byte = 0 := UInt8.toNat_inj.mp code
  exact plain (zero ▸ member)

theorem text_isPrefixOf (left right : Bytes) :
    (text left).toList.isPrefixOf (text right).toList = left.isPrefixOf right := by
  rw [text_toList, text_toList]
  induction left generalizing right with
  | nil => rfl
  | cons byte left ih =>
      cases right with
      | nil => rfl
      | cons other right =>
          have first : (Char.ofNat byte.toNat == Char.ofNat other.toNat) = (byte == other) := by
            rw [Bool.eq_iff_iff, beq_iff_eq, beq_iff_eq]
            exact charOf_injective.eq_iff
          rw [List.map_cons, List.map_cons, List.isPrefixOf_cons_cons, List.isPrefixOf_cons_cons,
            first, ih]

variable {text : String}

theorem bytes_plain (plain : noNul text = true) : (0 : UInt8) ∉ bytes text := by
  intro member
  obtain ⟨ch, isChar, zero⟩ := List.mem_map.mp member
  have code := congrArg UInt8.toNat zero
  split at code
  next small =>
    rw [UInt8.toNat_ofNat', Nat.mod_eq_of_lt small] at code
    have nul : ch = '\x00' := Char.toNat_inj.mp code
    simp only [noNul, Bool.not_eq_true', List.contains_eq_mem, decide_eq_false_iff_not] at plain
    exact plain (nul ▸ isChar)
  next => cases code

variable {record : Json}

/-! ## Stores of readable records -/

/-- A directory and a list hold the same readable records. -/
structure Sound (codec : Codec) (directory : Directory) (records : List Record) : Prop extends
    Holds codec directory records where
  readable : ∀ record ∈ records, Readable codec record.valueJson
  plain : ∀ record ∈ records, (0 : UInt8) ∉ record.memoryNamespace

variable {memoryNamespace key valueJson : Bytes}

theorem replaceValue_namespace {record : Record} :
    ∀ records : List Record, record ∈ replaceValue memoryNamespace key valueJson records →
      ∃ old ∈ records, old.memoryNamespace = record.memoryNamespace := by
  intro records
  induction records with
  | nil =>
      intro member
      cases member
  | cons first records ih =>
      intro member
      rw [replaceValue] at member
      split at member
      next =>
        rcases List.mem_cons.mp member with rfl | rest
        · exact ⟨first, List.mem_cons_self, rfl⟩
        · exact ⟨record, List.mem_cons_of_mem _ rest, rfl⟩
      rcases List.mem_cons.mp member with rfl | rest
      · exact ⟨record, List.mem_cons_self, rfl⟩
      · obtain ⟨old, isOld, same⟩ := ih rest
        exact ⟨old, List.mem_cons_of_mem _ isOld, same⟩

theorem Sound.put (sound : Sound codec directory records)
    (valid : putValid codec memoryNamespace key valueJson = true)
    (plain : (0 : UInt8) ∉ memoryNamespace) (readable : Readable codec valueJson) :
    Sound codec (directory.insert (recordName memoryNamespace key) valueJson)
      (putRecordIn records memoryNamespace key valueJson) := by
  have parses : (codec.parse valueJson).isSome = true := by
    rw [putValid, Bool.and_eq_true] at valid
    exact valid.2
  refine ⟨sound.toHolds.insert parses, ?_, ?_⟩
  · intro record member
    rw [putRecordIn] at member
    split at member
    next =>
      rcases replaceValue_mem records member with old | new
      · exact sound.readable record old
      · rw [new]
        exact readable
    next =>
      rcases List.mem_cons.mp member with rfl | old
      · exact readable
      · exact sound.readable record old
  · intro record member
    rw [putRecordIn] at member
    split at member
    next =>
      obtain ⟨old, isOld, same⟩ := replaceValue_namespace records member
      rw [← same]
      exact sound.plain old isOld
    next =>
      rcases List.mem_cons.mp member with rfl | old
      · exact plain
      · exact sound.plain record old

theorem Sound.delete (sound : Sound codec directory records) (memoryNamespace key : Bytes) :
    Sound codec (directory.erase (recordName memoryNamespace key))
      (records.eraseP fun record => record.named memoryNamespace key) where
  toHolds := sound.toHolds.erase memoryNamespace key
  readable record member := sound.readable record (List.mem_of_mem_eraseP member)
  plain record member := sound.plain record (List.mem_of_mem_eraseP member)

/-! ## What a record stores -/

theorem payload_reads (readsBack : ReadsBack codec) {scope : String} {path : Option String}
    {createdAt : Option String} {value : Json} (parsed : codec.parse (codec.serialize
      (valueJsonFromCanonical.payload scope path text createdAt)) = some value) :
    value = valueJsonFromCanonical.payload scope path text createdAt := by
  cases createdAt with
  | none =>
      exact readsBack [("scope", scope), ("path", path.getD ""), ("text", text)]
        (by simp) _ parsed
  | some time =>
      exact readsBack [("scope", scope), ("path", path.getD ""), ("text", text),
        ("created_at", time)] (by simp) _ parsed

theorem payload_readable (readsBack : ReadsBack codec) (scope : String) (path : Option String)
    (text : String) (createdAt : Option String) :
    Readable codec (codec.serialize (valueJsonFromCanonical.payload scope path text createdAt)) := by
  intro fields parsed _
  rw [payload_reads readsBack parsed]
  exact ⟨rfl, rfl⟩

theorem valueJsonFromCanonical_readable (readsBack : ReadsBack codec) {value : Bytes}
    (isValue : valueJsonFromCanonical codec record = some value)
    (other : record.getString "kind" ≠ some "context" →
      ∀ stored, record.getString "value_json" = some stored → Readable codec (bytes stored)) :
    Readable codec value := by
  rw [valueJsonFromCanonical] at isValue
  split at isValue
  next => cases isValue
  next kind isKind =>
    split at isValue
    next => cases isValue
    split at isValue
    next =>
      rw [valueJsonFromCanonical.contextValue] at isValue
      split at isValue
      next =>
        split at isValue
        next =>
          split at isValue
          next => cases isValue
          cases isValue
          exact payload_readable readsBack _ _ _ _
        next => cases isValue
      next => cases isValue
    next notContext =>
      split at isValue
      next => cases isValue
      next stored isStored =>
        split at isValue
        next => cases isValue
        cases isValue
        refine other ?_ stored isStored
        rw [isKind]
        exact fun same => notContext (Option.some.inj same)

theorem putRecord_some {σ : Type} {put : Bytes → Bytes → Bytes → Option σ} {after : σ}
    (stored : putRecord codec put record = some after) :
    validateCanonicalRecord record = true ∧ ∃ memoryNamespace key value,
      record.getString "namespace" = some memoryNamespace ∧ record.getString "key" = some key ∧
      valueJsonFromCanonical codec record = some value ∧
      put (bytes memoryNamespace) (bytes key) value = some after := by
  rw [putRecord] at stored
  split at stored
  next => cases stored
  next valid =>
    refine ⟨by simpa using valid, ?_⟩
    split at stored
    next memoryNamespace key value isNamespace isKey isValue =>
      exact ⟨memoryNamespace, key, value, isNamespace, isKey, isValue, stored⟩
    next => cases stored

/-! ## Runs -/

/-- What `put_record` changes in a store whose `put` accepts valid arguments only. -/
theorem putRecord_readable {σ : Type} (put : Bytes → Bytes → Bytes → Option σ)
    (readsBack : ReadsBack codec) (readable : (Call.putRecord record).Readable codec) {after : σ}
    (accepts : ∀ memoryNamespace key value, put memoryNamespace key value = some after →
      putValid codec memoryNamespace key value = true)
    (stored : putRecord codec put record = some after) :
    ∃ memoryNamespace key value, put memoryNamespace key value = some after ∧
      putValid codec memoryNamespace key value = true ∧ (0 : UInt8) ∉ memoryNamespace ∧
      Memory.Readable codec value := by
  obtain ⟨valid, memoryNamespace, key, value, isNamespace, -, isValue, isPut⟩ :=
    putRecord_some stored
  exact ⟨bytes memoryNamespace, bytes key, value, isPut, accepts _ _ _ isPut,
    bytes_plain (Json.getString_noNul isNamespace),
    valueJsonFromCanonical_readable readsBack isValue (readable valid)⟩

theorem memoryPut_some {after : List Record}
    (stored : memoryPut codec records memoryNamespace key valueJson = some after) :
    putValid codec memoryNamespace key valueJson = true ∧
      after = putRecordIn records memoryNamespace key valueJson := by
  obtain ⟨valid, ⟨⟩⟩ := Option.ite_none_right_eq_some.mp stored
  exact ⟨valid, rfl⟩

theorem Holds.filePut_some (holds : Holds codec directory records) {nonce : UInt64}
    {after : Directory}
    (stored : filePut codec longest nonce directory memoryNamespace key valueJson = some after) :
    putValid codec memoryNamespace key valueJson = true ∧
      after = directory.insert (recordName memoryNamespace key) valueJson := by
  rw [filePut, filePutSteps] at stored
  split at stored
  next => cases stored
  next writable =>
    rw [Option.map_some, writeSteps_perform (holds.tempName_absent memoryNamespace key nonce)]
      at stored
    refine ⟨?_, (Option.some.inj stored).symm⟩
    by_contra invalid
    exact writable (.inl (by simpa using invalid))

theorem Sound.memoryCall (sound : Sound codec directory records) (readsBack : ReadsBack codec)
    {call : Call} (readable : call.Readable codec) :
    ∃ after, Sound codec after ((Memory.memoryCall codec records call).getD records) := by
  cases done : Memory.memoryCall codec records call with
  | none => exact ⟨directory, sound⟩
  | some after =>
      rw [Option.getD_some]
      cases call with
      | put memoryNamespace key valueJson =>
          obtain ⟨valid, rfl⟩ := memoryPut_some done
          exact ⟨_, sound.put valid memoryNamespace.2 (readable valid)⟩
      | putRecord record =>
          obtain ⟨memoryNamespace, key, value, isPut, valid, plain, isReadable⟩ :=
            putRecord_readable (memoryPut codec records) readsBack readable
              (fun _ _ _ isPut => (memoryPut_some isPut).1) done
          obtain ⟨-, rfl⟩ := memoryPut_some isPut
          exact ⟨_, sound.put valid plain isReadable⟩
      | delete memoryNamespace key =>
          obtain ⟨-, ⟨⟩⟩ := Option.ite_none_right_eq_some.mp done
          exact ⟨_, sound.delete memoryNamespace.1 key.1⟩

theorem Sound.fileCall (sound : Sound codec directory records) (readsBack : ReadsBack codec)
    (nonce : UInt64) {call : Call} (readable : call.Readable codec) :
    ∃ after, Sound codec
      ((Memory.fileCall codec longest nonce directory call).getD directory) after := by
  cases done : Memory.fileCall codec longest nonce directory call with
  | none => exact ⟨records, sound⟩
  | some after =>
      rw [Option.getD_some]
      cases call with
      | put memoryNamespace key valueJson =>
          obtain ⟨valid, rfl⟩ := sound.toHolds.filePut_some done
          exact ⟨_, sound.put valid memoryNamespace.2 (readable valid)⟩
      | putRecord record =>
          obtain ⟨memoryNamespace, key, value, isPut, valid, plain, isReadable⟩ :=
            putRecord_readable (filePut codec longest nonce directory) readsBack readable
              (fun _ _ _ isPut => (sound.toHolds.filePut_some isPut).1) done
          obtain ⟨-, rfl⟩ := sound.toHolds.filePut_some isPut
          exact ⟨_, sound.put valid plain isReadable⟩
      | delete memoryNamespace key =>
          obtain ⟨-, ⟨⟩⟩ := Option.ite_none_right_eq_some.mp done
          exact ⟨_, sound.delete memoryNamespace.1 key.1⟩

theorem empty_sound (codec : Codec) : Sound codec ∅ [] where
  toHolds := empty_holds codec
  readable := by simp
  plain := by simp

theorem memoryRun_sound (readsBack : ReadsBack codec) (calls : List Call)
    (readable : ∀ call ∈ calls, call.Readable codec) :
    ∃ directory, Sound codec directory (memoryRun codec calls) := by
  induction calls using List.reverseRecOn with
  | nil => exact ⟨∅, empty_sound codec⟩
  | append_singleton calls call ih =>
      obtain ⟨directory, sound⟩ := ih fun call member => readable call (by simp [member])
      rw [memoryRun, List.foldl_append]
      exact sound.memoryCall readsBack (readable call (by simp))

theorem fileRun_sound (readsBack : ReadsBack codec) (calls : List (UInt64 × Call))
    (readable : ∀ call ∈ calls, call.2.Readable codec) :
    ∃ records, Sound codec (fileRun codec longest calls) records := by
  induction calls using List.reverseRecOn with
  | nil => exact ⟨[], empty_sound codec⟩
  | append_singleton calls call ih =>
      obtain ⟨records, sound⟩ := ih fun call member => readable call (by simp [member])
      rw [fileRun, List.foldl_append]
      exact sound.fileCall readsBack call.1 (readable call (by simp))

/-! ## Listings -/

theorem matchesQuery_all (record : Json) : matchesQuery record [] [] [] = true := rfl

theorem canonicalRecords_readable {listed : List Record}
    (readable : ∀ record ∈ listed, Readable codec record.valueJson)
    (kind keyPrefix textSubstring : Bytes) :
    listRecordsImpl (queryWithList codec (some listed) kind keyPrefix textSubstring) =
      some ((listed.filter fun record =>
        matchesQuery (canonicalOf codec record) kind keyPrefix textSubstring).map
          (canonicalOf codec)) := by
  have valid : listed.all (fun record => validateCanonicalRecord (canonicalOf codec record)) =
      true := List.all_eq_true.mpr fun record member => (readable record member).valid
  have filtered : (listed.map (canonicalOf codec)).filter (fun canonical =>
      matchesQuery canonical kind keyPrefix textSubstring) = (listed.filter fun record =>
        matchesQuery (canonicalOf codec record) kind keyPrefix textSubstring).map
          (canonicalOf codec) := List.filter_map
  rw [queryWithList, Option.bind_some, canonicalRecords_eq, if_pos valid, filtered,
    listRecordsImpl, Option.filter_some, if_pos]
  rw [List.all_eq_true]
  intro canonical member
  obtain ⟨record, isRecord, rfl⟩ := List.mem_map.mp member
  exact (readable record (List.mem_filter.mp isRecord).1).valid

theorem Holds.distinct (holds : Holds codec directory records) :
    (records.map fun record => (record.memoryNamespace, record.key)).Nodup := by
  apply List.Nodup.of_map fun pair => recordName pair.1 pair.2
  have keys : (records.map fileOf).keys.Nodup := holds.nodupKeys
  rw [List.keys, List.map_map] at keys
  rw [List.map_map]
  exact keys

theorem filterRecords_found {found : List Record}
    {namespacePrefix kind keyPrefix textSubstring : Bytes}
    (matched : ∀ record ∈ found, (0 : UInt8) ∉ record.memoryNamespace ∧
      namespacePrefix.isPrefixOf record.memoryNamespace = true ∧
      matchesQuery (canonicalOf codec record) kind keyPrefix textSubstring = true) :
    filterRecords namespacePrefix kind keyPrefix textSubstring (found.map (canonicalOf codec)) =
      found.map (canonicalOf codec) := by
  rw [filterRecords, List.filter_eq_self]
  intro canonical member
  obtain ⟨record, isRecord, rfl⟩ := List.mem_map.mp member
  obtain ⟨plain, within, matched⟩ := matched record isRecord
  have stored := Json.getString_of_field (canonicalOf_namespace codec record)
    (text_noNul plain)
  rw [matched, stored, Option.any_some, text_isPrefixOf, within, Bool.or_true]
  rfl

theorem Sound.listable (sound : Sound codec directory records)
    {get : Bytes → Bytes → Option Bytes} {list : Bytes → Option (List Record)}
    (gets : ∀ memoryNamespace key, get memoryNamespace key = memoryGet records memoryNamespace key)
    (lists : ∀ namespacePrefix, ∃ listed, list namespacePrefix = some listed ∧
      listed.Perm (memoryList records namespacePrefix)) :
    Listable codec get list := by
  have getsMember : ∀ memoryNamespace key value, get memoryNamespace key = some value ↔
      ⟨memoryNamespace, key, value⟩ ∈ records := by
    intro memoryNamespace key value
    rw [gets, memoryGet, Option.map_eq_some_iff]
    constructor
    · rintro ⟨record, found, rfl⟩
      obtain ⟨member, named⟩ := findRecord_mem found
      rw [← Record.eq_of_named named]
      exact member
    · intro member
      exact ⟨_, sound.toHolds.findRecord_of_mem member, rfl⟩
  have listed : ∀ namespacePrefix kind keyPrefix textSubstring, ∃ found : List Record,
      listRecordsImpl (queryWithList codec (list namespacePrefix) kind keyPrefix textSubstring) =
        some (found.map (canonicalOf codec)) ∧
      found.Perm ((memoryList records namespacePrefix).filter fun record =>
        matchesQuery (canonicalOf codec record) kind keyPrefix textSubstring) := by
    intro namespacePrefix kind keyPrefix textSubstring
    obtain ⟨listed, isListed, perm⟩ := lists namespacePrefix
    have readable : ∀ record ∈ listed, Readable codec record.valueJson := fun record member =>
      sound.readable record (List.mem_filter.mp (perm.mem_iff.mp member)).1
    rw [isListed, canonicalRecords_readable readable]
    exact ⟨_, rfl, perm.filter _⟩
  refine ⟨records, ?_, getsMember, ?_, ?_, ?_⟩
  · exact sound.toHolds.distinct
  · intro namespacePrefix
    obtain ⟨found, isFound, perm⟩ := listed namespacePrefix [] [] []
    refine ⟨_, isFound, (perm.map _).trans ?_⟩
    rw [List.filter_eq_self.mpr fun record _ => matchesQuery_all _, memoryList]
  · intro namespacePrefix kind keyPrefix textSubstring
    obtain ⟨found, isFound, perm⟩ := listed namespacePrefix kind keyPrefix textSubstring
    have matched : ∀ record ∈ found, (0 : UInt8) ∉ record.memoryNamespace ∧
        namespacePrefix.isPrefixOf record.memoryNamespace = true ∧
        matchesQuery (canonicalOf codec record) kind keyPrefix textSubstring = true := by
      intro record member
      obtain ⟨isListed, matched⟩ := List.mem_filter.mp (perm.mem_iff.mp member)
      obtain ⟨isRecord, within⟩ := List.mem_filter.mp isListed
      exact ⟨sound.plain record isRecord, within, matched⟩
    have filters : (memoryList records namespacePrefix).filter (fun record =>
        matchesQuery (canonicalOf codec record) kind keyPrefix textSubstring) =
          records.filter fun record => namespacePrefix.isPrefixOf record.memoryNamespace &&
            matchesQuery (canonicalOf codec record) kind keyPrefix textSubstring := by
      rw [memoryList, List.filter_filter]
      exact congrArg (records.filter ·) (funext fun record => Bool.and_comm _ _)
    rw [filters] at perm
    refine ⟨_, ?_, perm.map _⟩
    rw [queryRecords, isFound, Option.map_some, filterRecords_found matched]
  · intro record member
    have stored := (getsMember record.memoryNamespace record.key record.valueJson).mpr member
    rw [stored, getRecordFrom, Option.bind_some]
    exact if_pos (sound.readable record member).valid

/-- After calls that store readable values, every record of either store is listed, found by
queries and read alone. -/
theorem run_listable (codec : Codec) (longest : Nat) (readsBack : ReadsBack codec)
    (order : List Bytes → List Bytes) (reads : ∀ names, (order names).Perm names)
    (calls : List (UInt64 × Call)) (readable : ∀ call ∈ calls, call.2.Readable codec) :
    Listable codec (memoryGet (memoryRun codec (calls.map Prod.snd)))
      (fun namespacePrefix => some (memoryList (memoryRun codec (calls.map Prod.snd))
        namespacePrefix)) ∧
    Listable codec (fileGet codec (fileRun codec longest calls))
      (fileList codec order (fileRun codec longest calls)) := by
  constructor
  · have readable : ∀ call ∈ calls.map Prod.snd, call.Readable codec := by
      intro call member
      obtain ⟨pair, isPair, rfl⟩ := List.mem_map.mp member
      exact readable pair isPair
    obtain ⟨directory, sound⟩ := memoryRun_sound readsBack _ readable
    exact sound.listable (fun _ _ => rfl) fun _ => ⟨_, rfl, .refl _⟩
  · obtain ⟨records, sound⟩ := fileRun_sound readsBack calls readable
    exact sound.listable sound.toHolds.get fun namespacePrefix =>
      sound.toHolds.list reads namespacePrefix

/-! ## A value that hides the others -/

def cstring (text : String) (plain : (0 : UInt8) ∉ asciiBytes text) : CString :=
  ⟨asciiBytes text, plain⟩

/-- What is stored of a context record with the texts `s` and `t`. -/
def sampleContext : Json :=
  .object [("scope", .string "s"), ("path", .string ""), ("text", .string "t")]

/-- A reader that knows the documents of the runs below. -/
def contextCodec : Codec where
  parse value :=
    if value = asciiBytes "1" then some (.number 1 0)
    else if value = asciiBytes "\x7b\"scope\":\"x\"\x7d" then
      some (.object [("scope", .string "x")])
    else if value = asciiBytes "\x7b\"scope\":\"s\",\"path\":\"\",\"text\":\"t\"\x7d" then
      some sampleContext
    else none
  serialize value :=
    if value = sampleContext then
      asciiBytes "\x7b\"scope\":\"s\",\"path\":\"\",\"text\":\"t\"\x7d"
    else []

/-- A document and a context record are stored. -/
def readableCalls : List (UInt64 × Call) :=
  [(7, .put (cstring "n" (by decide)) (cstring "a" (by decide)) (cstring "1" (by decide))),
    (8, .putRecord (canonicalRecord (asciiBytes "n") (asciiBytes "c") "context" (.string "t")
      (.object [("scope", .string "s"), ("path", .null)]) .null))]

theorem contextCodec_readsBack : ReadsBack contextCodec := by
  intro fields _ value parsed
  by_cases same : Json.object (fields.map fun field => (field.1, .string field.2)) = sampleContext
  · rw [same] at parsed ⊢
    have read : contextCodec.parse (contextCodec.serialize sampleContext) =
        some sampleContext := by
      decide +kernel
    rw [read] at parsed
    exact (Option.some.inj parsed).symm
  · have unread : contextCodec.parse (contextCodec.serialize (Json.object (fields.map fun field =>
        (field.1, .string field.2)))) = none := by
      have written : contextCodec.serialize (Json.object (fields.map fun field =>
          (field.1, .string field.2))) = [] := if_neg same
      rw [written]
      decide +kernel
    rw [unread] at parsed
    cases parsed

theorem readableCalls_readable : ∀ call ∈ readableCalls, call.2.Readable contextCodec := by
  intro call member
  rw [readableCalls, List.mem_cons, List.mem_singleton] at member
  rcases member with rfl | rfl
  · intro _ fields parsed
    have read : contextCodec.parse (asciiBytes "1") = some (.number 1 0) := by decide +kernel
    rw [cstring, read] at parsed
    cases parsed
  · intro _ notContext
    exact absurd (by decide +kernel) notContext

theorem run_listable_sample :
    (memoryRun contextCodec (readableCalls.map Prod.snd)).length = 2 ∧
    Listable contextCodec (memoryGet (memoryRun contextCodec (readableCalls.map Prod.snd)))
      (fun namespacePrefix => some (memoryList
        (memoryRun contextCodec (readableCalls.map Prod.snd)) namespacePrefix)) ∧
    Listable contextCodec (fileGet contextCodec (fileRun contextCodec 255 readableCalls))
      (fileList contextCodec List.reverse (fileRun contextCodec 255 readableCalls)) :=
  ⟨by decide +kernel, run_listable contextCodec 255 contextCodec_readsBack List.reverse
    List.reverse_perm readableCalls readableCalls_readable⟩

/-- A value with a scope and no text hides the record beside it. -/
theorem scope_without_text_hides :
    ¬∀ codec, ReadsBack codec → ∀ calls,
      Listable codec (memoryGet (memoryRun codec calls))
        fun namespacePrefix => some (memoryList (memoryRun codec calls) namespacePrefix) := by
  intro listable
  obtain ⟨records, -, -, lists, -⟩ := listable contextCodec contextCodec_readsBack
    [.put (cstring "n" (by decide)) (cstring "a" (by decide)) (cstring "1" (by decide)),
      .put (cstring "n" (by decide)) (cstring "b" (by decide))
        (cstring "\x7b\"scope\":\"x\"\x7d" (by decide))]
  obtain ⟨found, isFound, -⟩ := lists []
  have failed : listRecords contextCodec (some (memoryList (memoryRun contextCodec
      [.put (cstring "n" (by decide)) (cstring "a" (by decide)) (cstring "1" (by decide)),
        .put (cstring "n" (by decide)) (cstring "b" (by decide))
          (cstring "\x7b\"scope\":\"x\"\x7d" (by decide))]) [])) = none := by
    decide +kernel
  rw [failed] at isFound
  cases isFound

end TurboAgent.Memory
