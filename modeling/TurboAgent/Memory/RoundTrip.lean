import TurboAgent.Memory.Records

/-!
# A record that is put and read again

A context record is lowered to the texts of its fields and rebuilt from them.  Of a record of
another kind only the value is stored, and the record that is read is made from the value.
-/

namespace TurboAgent.Memory

open Json (getString_noNul)
open FileStep (perform)

/-- The callbacks of a store that put a value and read it. -/
structure Store (σ : Type) where
  put : σ → Bytes → Bytes → Bytes → Option σ
  get : σ → Bytes → Bytes → Option Bytes

/-- Documents are put, and a value that was put is read. -/
structure Store.Keeps {σ : Type} (codec : Codec) (store : Store σ) : Prop where
  parses {state after : σ} {memoryNamespace key value : Bytes} :
    store.put state memoryNamespace key value = some after → (codec.parse value).isSome = true
  reads {state after : σ} {memoryNamespace key value : Bytes} :
    store.put state memoryNamespace key value = some after →
      store.get after memoryNamespace key = some value

section

variable (codec : Codec) (longest : Nat)

/-- `turbo_agent_memory_store_memory_create`. -/
def memoryStore : Store (List Record) where
  put := memoryPut codec
  get := memoryGet

/-- `turbo_agent_memory_store_file_create`, with the nonce of the next temporary file. -/
def fileStore (nonce : UInt64) : Store Directory where
  put := filePut codec longest nonce
  get := fileGet codec

end

variable {codec : Codec} {longest : Nat} {memoryNamespace key : Bytes}

theorem findRecord_replaceValue {valueJson : Bytes} {records : List Record}
    (found : (findRecord records memoryNamespace key).isSome = true) :
    memoryGet (replaceValue memoryNamespace key valueJson records) memoryNamespace key =
      some valueJson := by
  induction records with
  | nil => cases found
  | cons record records ih =>
      rw [replaceValue]
      by_cases named : record.named memoryNamespace key = true
      · have still : { record with valueJson }.named memoryNamespace key = true :=
          named
        rw [if_pos named, memoryGet, findRecord_cons, if_pos still]
        rfl
      · rw [findRecord_cons, if_neg named] at found
        rw [if_neg named, memoryGet, findRecord_cons, if_neg named]
        exact ih found

theorem putValid_parses {value : Bytes} (valid : putValid codec memoryNamespace key value = true) :
    (codec.parse value).isSome = true := by
  rw [putValid, Bool.and_eq_true] at valid
  exact valid.2

theorem memoryStore_keeps (codec : Codec) : (memoryStore codec).Keeps codec where
  parses stored := putValid_parses (memoryPut_some stored).1
  reads {records after memoryNamespace key value} stored := by
    obtain ⟨-, rfl⟩ := memoryPut_some stored
    show memoryGet (putRecordIn records memoryNamespace key value) memoryNamespace key = some value
    rw [putRecordIn]
    split
    next found => exact findRecord_replaceValue found
    have named : (⟨memoryNamespace, key, value⟩ : Record).named memoryNamespace key = true := by
      rw [Record.named, beq_self_eq_true, beq_self_eq_true, Bool.and_self]
    rw [memoryGet, findRecord_cons, if_pos named]
    rfl

/-- The steps of a write leave the content under the name, whatever the directory has. -/
theorem writeSteps_lookup (name content : Bytes) (nonce : UInt64) (directory : Directory) :
    ((writeSteps name content nonce).foldl perform directory).lookup name =
      some content := by
  have created : tempName name nonce ∈ directory.insert (tempName name nonce) [] :=
    (AList.mem_insert directory).mpr (.inl rfl)
  show (perform (perform (perform (directory.insert
    (tempName name nonce) []) (.write (tempName name nonce) content))
      (.fsync (tempName name nonce))) (.rename (tempName name nonce) name)).lookup name = _
  have written : perform (directory.insert (tempName name nonce) [])
      (.write (tempName name nonce) content) = directory.insert (tempName name nonce) content := by
    rw [perform, if_pos created, AList.insert_insert]
  rw [written, perform, perform, AList.lookup_insert]
  exact AList.lookup_insert _

theorem filePut_steps {nonce : UInt64} {directory after : Directory} {value : Bytes}
    (stored : filePut codec longest nonce directory memoryNamespace key value = some after) :
    (codec.parse value).isSome = true ∧
      after = (writeSteps (recordName memoryNamespace key) value nonce).foldl perform
        directory := by
  obtain ⟨steps, planned, rfl⟩ := Option.map_eq_some_iff.mp stored
  rw [filePutSteps] at planned
  split at planned
  next => cases planned
  next writable =>
    obtain rfl := Option.some.inj planned
    refine ⟨?_, rfl⟩
    by_contra unread
    exact writable (.inl (by simp [putValid, unread]))

theorem fileStore_keeps (codec : Codec) (longest : Nat) (nonce : UInt64) :
    (fileStore codec longest nonce).Keeps codec where
  parses stored := (filePut_steps stored).1
  reads {directory after memoryNamespace key value} stored := by
    obtain ⟨parses, rfl⟩ := filePut_steps stored
    show fileGet codec _ memoryNamespace key = some value
    rw [fileGet, writeSteps_lookup]
    exact Option.filter_some_pos parses

/-! ## What is read of a record -/

structure Named (record : Json) (memoryNamespace key : Bytes) : Prop where
  id : record.getString "id" = some (text (makeRecordId memoryNamespace key))
  memoryNamespace : record.getString "namespace" = some (text memoryNamespace)
  key : record.getString "key" = some (text key)

def metadataOf (record : Json) : Json :=
  (record.field "metadata").getD .null

/-- A record has the texts of another, with the empty path in the place of no path. -/
structure Kept (record result : Json) : Prop where
  id : result.getString "id" = record.getString "id"
  memoryNamespace : result.getString "namespace" = record.getString "namespace"
  kind : result.getString "kind" = record.getString "kind"
  key : result.getString "key" = record.getString "key"
  text : result.getString "text" = record.getString "text"
  scope : (metadataOf result).getString "scope" = (metadataOf record).getString "scope"
  path : (metadataOf result).getString "path" =
    some (((metadataOf record).getString "path").getD "")
  createdAt : result.getString "created_at" = record.getString "created_at"

/-- A record has the texts of another in all its fields. -/
structure SameRecord (record result : Json) : Prop where
  id : result.getString "id" = record.getString "id"
  memoryNamespace : result.getString "namespace" = record.getString "namespace"
  kind : result.getString "kind" = record.getString "kind"
  key : result.getString "key" = record.getString "key"
  text : result.getString "text" = record.getString "text"
  metadata (name : String) :
    (metadataOf result).getString name = (metadataOf record).getString name
  createdAt : result.getString "created_at" = record.getString "created_at"

/-- A value is taken for what is stored of a context record. -/
def LooksLikeContext (value : Json) : Prop :=
  value.field "scope" ≠ none ∨ value.field "path" ≠ none

section

variable (codec : Codec) (record : Json) (memoryNamespace key : Bytes)

/-- What `get_record` gives once a record was put.  Nothing is said about a value that looks like a
context record and has not the texts of one. -/
inductive Recovered : Option Json → Prop where
  | context {result : Json} : record.getString "kind" = some "context" → Kept record result →
      Recovered (some result)
  | plain {stored : String} {value : Json} : record.getString "kind" ≠ some "context" →
      record.getString "value_json" = some stored → codec.parse (bytes stored) = some value →
      ¬LooksLikeContext value →
      Recovered (some (canonicalRecord memoryNamespace key "json" .null .null .null))
  | rebuilt {stored scope content : String} {value : Json} :
      record.getString "kind" ≠ some "context" →
      record.getString "value_json" = some stored → codec.parse (bytes stored) = some value →
      LooksLikeContext value → value.getString "scope" = some scope →
      value.getString "text" = some content →
      Recovered (some (canonicalRecord memoryNamespace key "context" (.string content)
        (.object [("scope", .string scope), ("path", nullable (value.getString "path"))])
        (nullable (value.getString "created_at"))))
  | incomplete {stored : String} {value : Json} {result : Option Json} :
      record.getString "kind" ≠ some "context" →
      record.getString "value_json" = some stored → codec.parse (bytes stored) = some value →
      LooksLikeContext value →
      value.getString "scope" = none ∨ value.getString "text" = none → Recovered result

end

/-! ## Reading a value -/

variable {stored : Bytes} {value : Json}

theorem makeCanonicalRecord_plain (parsed : codec.parse stored = some value)
    (plain : ¬LooksLikeContext value) :
    makeCanonicalRecord codec memoryNamespace key stored =
      canonicalRecord memoryNamespace key "json" .null .null .null := by
  rw [makeCanonicalRecord, parsed]
  cases value with
  | object fields => exact if_neg plain
  | _ => rfl

theorem makeCanonicalRecord_context (parsed : codec.parse stored = some value)
    (context : LooksLikeContext value) :
    makeCanonicalRecord codec memoryNamespace key stored =
      canonicalRecord memoryNamespace key "context" (nullable (value.getString "text"))
        (.object [("scope", nullable (value.getString "scope")),
          ("path", nullable (value.getString "path"))])
        (nullable (value.getString "created_at")) := by
  rw [makeCanonicalRecord, parsed]
  cases value with
  | object fields => exact if_pos context
  | _ => exact absurd context (by simp [LooksLikeContext, Json.field])

theorem getRecordFrom_plain (parsed : codec.parse stored = some value)
    (plain : ¬LooksLikeContext value) :
    getRecordFrom codec (some stored) memoryNamespace key =
      some (canonicalRecord memoryNamespace key "json" .null .null .null) := by
  rw [getRecordFrom, Option.bind_some, makeCanonicalRecord_plain parsed plain]
  exact if_pos (validate_json _ _)

variable {scope content : String}

theorem getRecordFrom_context (parsed : codec.parse stored = some value)
    (context : LooksLikeContext value) (isScope : value.getString "scope" = some scope)
    (isText : value.getString "text" = some content) :
    getRecordFrom codec (some stored) memoryNamespace key =
      some (canonicalRecord memoryNamespace key "context" (.string content)
        (.object [("scope", .string scope), ("path", nullable (value.getString "path"))])
        (nullable (value.getString "created_at"))) := by
  rw [getRecordFrom, Option.bind_some, makeCanonicalRecord_context parsed context, isScope, isText]
  exact if_pos (validate_context _ _ _ _ _ _)

/-! ## Writing a record -/

variable {record : Json}

theorem valueJsonFromCanonical_context (kind : record.getString "kind" = some "context")
    (written : valueJsonFromCanonical codec record = some stored) :
    ∃ scope content, (metadataOf record).getString "scope" = some scope ∧
      record.getString "text" = some content ∧
      stored = codec.serialize (valueJsonFromCanonical.payload scope
        ((metadataOf record).getString "path") content (record.getString "created_at")) := by
  rw [valueJsonFromCanonical, kind] at written
  replace written : valueJsonFromCanonical.contextValue codec record = some stored := written
  rw [valueJsonFromCanonical.contextValue] at written
  split at written
  next fields isMetadata =>
    have same : metadataOf record = .object fields := by
      rw [metadataOf, isMetadata]
      rfl
    split at written
    next scope content isScope isText =>
      split at written
      next => cases written
      rw [same]
      exact ⟨scope, content, isScope, isText, (Option.some.inj written).symm⟩
    next => cases written
  next => cases written

theorem valueJsonFromCanonical_other (kind : record.getString "kind" ≠ some "context")
    (written : valueJsonFromCanonical codec record = some stored) :
    ∃ value, record.getString "value_json" = some value ∧ stored = bytes value := by
  rw [valueJsonFromCanonical] at written
  split at written
  next => cases written
  next found isKind =>
    have other : found ≠ "context" := by
      rintro rfl
      exact kind isKind
    rw [if_neg other] at written
    split at written
    next => cases written
    split at written
    next => cases written
    next value isValue =>
      split at written
      next => cases written
      next => exact ⟨value, isValue, (Option.some.inj written).symm⟩

/-! ## The round trip -/

theorem getString_nullable {key : String} {found : Option String}
    (stored : record.field key = some (nullable found))
    (plain : ∀ text ∈ found, noNul text = true) : record.getString key = found := by
  cases found with
  | none =>
      rw [Json.getString, stored]
      rfl
  | some text => exact Json.getString_of_field stored (plain text rfl)

theorem kept_canonicalRecord (named : Named record memoryNamespace key)
    (kind : record.getString "kind" = some "context")
    (isScope : (metadataOf record).getString "scope" = some scope)
    (isText : record.getString "text" = some content) :
    Kept record (canonicalRecord memoryNamespace key "context" (.string content)
      (.object [("scope", .string scope),
        ("path", nullable (some (((metadataOf record).getString "path").getD "")))])
      (nullable (record.getString "created_at"))) where
  id := (Json.getString_of_field rfl (getString_noNul named.id)).trans named.id.symm
  memoryNamespace := (Json.getString_of_field rfl (getString_noNul named.memoryNamespace)).trans
    named.memoryNamespace.symm
  kind := (Json.getString_of_field rfl (getString_noNul kind)).trans kind.symm
  key := (Json.getString_of_field rfl (getString_noNul named.key)).trans named.key.symm
  text := (Json.getString_of_field rfl (getString_noNul isText)).trans isText.symm
  scope := by
    rw [isScope]
    exact Json.getString_of_field rfl (getString_noNul isScope)
  path := by
    refine Json.getString_of_field rfl ?_
    cases isPath : (metadataOf record).getString "path" with
    | none => rfl
    | some path => exact getString_noNul isPath
  createdAt := getString_nullable rfl fun _ found => getString_noNul found

theorem getRecordFrom_payload {path createdAt : Option String} (parsed : codec.parse stored =
      some (valueJsonFromCanonical.payload scope path content createdAt))
    (plainScope : noNul scope = true) (plainText : noNul content = true)
    (plainPath : ∀ text ∈ path, noNul text = true)
    (plainTime : ∀ text ∈ createdAt, noNul text = true) :
    getRecordFrom codec (some stored) memoryNamespace key =
      some (canonicalRecord memoryNamespace key "context" (.string content)
        (.object [("scope", .string scope), ("path", nullable (some (path.getD "")))])
        (nullable createdAt)) := by
  have isPath : (valueJsonFromCanonical.payload scope path content createdAt).getString "path" =
      some (path.getD "") := by
    refine Json.getString_of_field rfl ?_
    cases path with
    | none => rfl
    | some path => exact plainPath path rfl
  have isTime : (valueJsonFromCanonical.payload scope path content createdAt).getString
      "created_at" = createdAt := by
    cases createdAt with
    | none => rfl
    | some time => exact Json.getString_of_field rfl (plainTime time rfl)
  have context : LooksLikeContext (valueJsonFromCanonical.payload scope path content createdAt) :=
    .inl (Option.some_ne_none _)
  rw [getRecordFrom_context parsed context (Json.getString_of_field rfl plainScope)
    (Json.getString_of_field rfl plainText), isPath, isTime]

theorem Store.Keeps.recovered {σ : Type} {store : Store σ} (keeps : store.Keeps codec)
    (readsBack : ReadsBack codec) (named : Named record memoryNamespace key) {state after : σ}
    (stored : putRecord codec (store.put state) record = some after) :
    Recovered codec record memoryNamespace key
      (getRecordFrom codec (store.get after memoryNamespace key) memoryNamespace key) := by
  obtain ⟨-, _, _, value, isNamespace, isKey, isValue, isPut⟩ := putRecord_some stored
  obtain rfl := Option.some.inj (named.memoryNamespace.symm.trans isNamespace)
  obtain rfl := Option.some.inj (named.key.symm.trans isKey)
  rw [bytes_text, bytes_text] at isPut
  rw [keeps.reads isPut]
  obtain ⟨document, parsed⟩ := Option.isSome_iff_exists.mp (keeps.parses isPut)
  by_cases kind : record.getString "kind" = some "context"
  · obtain ⟨scope, content, isScope, isText, rfl⟩ := valueJsonFromCanonical_context kind isValue
    obtain rfl := payload_reads readsBack parsed
    rw [getRecordFrom_payload parsed (getString_noNul isScope) (getString_noNul isText)
      (fun _ found => getString_noNul found) (fun _ found => getString_noNul found)]
    exact .context kind (kept_canonicalRecord named kind isScope isText)
  · obtain ⟨found, isFound, rfl⟩ := valueJsonFromCanonical_other kind isValue
    by_cases context : LooksLikeContext document
    · cases isScope : document.getString "scope" with
      | none => exact .incomplete kind isFound parsed context (.inl isScope)
      | some scope =>
          cases isText : document.getString "text" with
          | none => exact .incomplete kind isFound parsed context (.inr isText)
          | some content =>
              rw [getRecordFrom_context parsed context isScope isText]
              exact .rebuilt kind isFound parsed context isScope isText
    · rw [getRecordFrom_plain parsed context]
      exact .plain kind isFound parsed context

/-- A record that was put in a store, whatever it held, is read as far as it is kept. -/
theorem putRecord_recovered (codec : Codec) (readsBack : ReadsBack codec) {record : Json}
    {memoryNamespace key : Bytes} (named : Named record memoryNamespace key) :
    (∀ records after, putRecord codec (memoryPut codec records) record = some after →
      Recovered codec record memoryNamespace key
        (getRecordFrom codec (memoryGet after memoryNamespace key) memoryNamespace key)) ∧
    ∀ longest nonce directory after,
      putRecord codec (filePut codec longest nonce directory) record = some after →
      Recovered codec record memoryNamespace key
        (getRecordFrom codec (fileGet codec after memoryNamespace key) memoryNamespace key) :=
  ⟨fun _ _ stored => (memoryStore_keeps codec).recovered readsBack named stored,
    fun longest nonce _ _ stored =>
      (fileStore_keeps codec longest nonce).recovered readsBack named stored⟩

def pathless : Json :=
  canonicalRecord (asciiBytes "n") (asciiBytes "c") "context" (.string "t")
    (.object [("scope", .string "s"), ("path", .null)]) .null

theorem pathless_named : Named pathless (asciiBytes "n") (asciiBytes "c") where
  id := by decide +kernel
  memoryNamespace := by decide +kernel
  key := by decide +kernel

theorem putRecord_recovered_sample :
    validateCanonicalRecord pathless = true ∧
    (putRecord contextCodec (memoryPut contextCodec []) pathless).isSome = true ∧
    (∀ records after, putRecord contextCodec (memoryPut contextCodec records) pathless =
      some after → Recovered contextCodec pathless (asciiBytes "n") (asciiBytes "c")
        (getRecordFrom contextCodec (memoryGet after (asciiBytes "n") (asciiBytes "c"))
          (asciiBytes "n") (asciiBytes "c"))) ∧
    ∀ longest nonce directory after,
      putRecord contextCodec (filePut contextCodec longest nonce directory) pathless = some after →
        Recovered contextCodec pathless (asciiBytes "n") (asciiBytes "c")
          (getRecordFrom contextCodec (fileGet contextCodec after (asciiBytes "n")
            (asciiBytes "c")) (asciiBytes "n") (asciiBytes "c")) :=
  ⟨by decide +kernel, by decide +kernel,
    putRecord_recovered contextCodec contextCodec_readsBack pathless_named⟩

def note : Json :=
  .object [("id", .string (text (makeRecordId (asciiBytes "n") (asciiBytes "a")))),
    ("namespace", .string "n"), ("kind", .string "note"), ("key", .string "a"),
    ("text", .string "t"), ("metadata", .null), ("created_at", .null),
    ("value_json", .string "1")]

theorem note_named : Named note (asciiBytes "n") (asciiBytes "a") where
  id := by decide +kernel
  memoryNamespace := by decide +kernel
  key := by decide +kernel

/-- A null path is read as the empty one, and the kind of another record is lost. -/
theorem putRecord_loses :
    (¬∀ codec, ReadsBack codec → ∀ record memoryNamespace key,
      Named record memoryNamespace key → record.getString "kind" = some "context" →
      ∀ records after, putRecord codec (memoryPut codec records) record = some after →
        ∃ result, getRecordFrom codec (memoryGet after memoryNamespace key) memoryNamespace key =
          some result ∧ SameRecord record result) ∧
    ¬∀ codec, ReadsBack codec → ∀ record memoryNamespace key,
      Named record memoryNamespace key → record.getString "kind" ≠ some "context" →
      ∀ records after, putRecord codec (memoryPut codec records) record = some after →
        ∃ result, getRecordFrom codec (memoryGet after memoryNamespace key) memoryNamespace key =
          some result ∧ SameRecord record result := by
  constructor
  · intro returns
    have stored : putRecord contextCodec (memoryPut contextCodec []) pathless =
        some [⟨asciiBytes "n", asciiBytes "c",
          asciiBytes "\x7b\"scope\":\"s\",\"path\":\"\",\"text\":\"t\"\x7d"⟩] := by
      decide +kernel
    obtain ⟨result, read, same⟩ := returns contextCodec contextCodec_readsBack pathless _ _
      pathless_named (by decide +kernel) _ _ stored
    have found : getRecordFrom contextCodec (memoryGet [⟨asciiBytes "n", asciiBytes "c",
        asciiBytes "\x7b\"scope\":\"s\",\"path\":\"\",\"text\":\"t\"\x7d"⟩] (asciiBytes "n")
          (asciiBytes "c")) (asciiBytes "n") (asciiBytes "c") =
        some (canonicalRecord (asciiBytes "n") (asciiBytes "c") "context" (.string "t")
          (.object [("scope", .string "s"), ("path", .string "")]) .null) := by
      decide +kernel
    obtain rfl := Option.some.inj (found.symm.trans read)
    exact absurd (same.metadata "path") (by decide +kernel)
  · intro returns
    have stored : putRecord contextCodec (memoryPut contextCodec []) note =
        some [⟨asciiBytes "n", asciiBytes "a", asciiBytes "1"⟩] := by
      decide +kernel
    obtain ⟨result, read, same⟩ := returns contextCodec contextCodec_readsBack note _ _
      note_named (by decide +kernel) _ _ stored
    have found : getRecordFrom contextCodec (memoryGet [⟨asciiBytes "n", asciiBytes "a",
        asciiBytes "1"⟩] (asciiBytes "n") (asciiBytes "a")) (asciiBytes "n") (asciiBytes "a") =
        some (canonicalRecord (asciiBytes "n") (asciiBytes "a") "json" .null .null .null) := by
      decide +kernel
    obtain rfl := Option.some.inj (found.symm.trans read)
    exact absurd same.kind (by decide +kernel)

end TurboAgent.Memory
