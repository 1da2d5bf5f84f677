import TurboAgent.Data.Bytes
import TurboAgent.Data.Json

/-!
# Long-term memory

Values under a namespace and a key, in a list in memory or in a directory with one file for each
pair.  Readers rebuild a canonical record from the shape of a value and check it.

A JSON string holds one character for each byte.  Lists of records that the source writes as
text and reads back at once are passed as they are.
-/

namespace TurboAgent.Memory

/-- `turbo_agent_memory_record_t`. -/
structure Record where
  (memoryNamespace key valueJson : Bytes)
  deriving DecidableEq

/-- `json_parse` and `json_serialize`. -/
structure Codec where
  parse : Bytes → Option Json
  serialize : Json → Bytes

def text (bytes : Bytes) : String :=
  String.ofList (bytes.map fun byte => Char.ofNat byte.toNat)

def bytes (text : String) : Bytes :=
  text.toList.map fun ch => if ch.toNat < 256 then UInt8.ofNat ch.toNat else 255

/-! ## Canonical records -/

def nullable (value : Option String) : Json :=
  match value with
  | none => .null
  | some text => .string text

/-- `turbo_agent_memory_make_record_id`. -/
def makeRecordId (memoryNamespace key : Bytes) : Bytes :=
  memoryNamespace ++ asciiBytes "::" ++ key

def canonicalRecord (memoryNamespace key : Bytes) (kind : String)
    (content metadata createdAt : Json) : Json :=
  .object [("id", .string (text (makeRecordId memoryNamespace key))),
    ("namespace", .string (text memoryNamespace)), ("kind", .string kind),
    ("key", .string (text key)), ("text", content), ("metadata", metadata),
    ("created_at", createdAt)]

/-- `turbo_agent_memory_make_canonical_record_json_from_parts`. -/
def makeCanonicalRecord (codec : Codec) (memoryNamespace key valueJson : Bytes) : Json :=
  match codec.parse valueJson with
  | some (.object fields) =>
      let value := Json.object fields
      if value.field "scope" ≠ none ∨ value.field "path" ≠ none then
        canonicalRecord memoryNamespace key "context" (nullable (value.getString "text"))
          (.object [("scope", nullable (value.getString "scope")),
            ("path", nullable (value.getString "path"))])
          (nullable (value.getString "created_at"))
      else canonicalRecord memoryNamespace key "json" .null .null .null
  | _ => canonicalRecord memoryNamespace key "json" .null .null .null

def isNullOrString (value : Option Json) : Bool :=
  match value with
  | some .null => true
  | some (.string _) => true
  | _ => false

def metadataValid (metadata : Option Json) : Bool :=
  match metadata with
  | some .null => true
  | some (.object fields) =>
      ((Json.object fields).getString "scope").isSome &&
        isNullOrString ((Json.object fields).field "path")
  | _ => false

/-- `turbo_agent_memory_validate_canonical_record_json`. -/
def validateCanonicalRecord (record : Json) : Bool :=
  (record.getString "id").isSome && (record.getString "namespace").isSome &&
    (record.getString "kind").isSome && (record.getString "key").isSome &&
    isNullOrString (record.field "text") && metadataValid (record.field "metadata") &&
    (record.getString "kind" != some "context" ||
      ((record.getString "text").isSome && ((record.field "metadata").any Json.isObject))) &&
    isNullOrString (record.field "created_at")

/-- `turbo_agent_memory_record_value_json_from_canonical`. -/
def valueJsonFromCanonical (codec : Codec) (record : Json) : Option Bytes :=
  match record.getString "kind" with
  | none => none
  | some kind =>
      if kind = "" then none
      else if kind = "context" then contextValue
      else
        match record.getString "value_json" with
        | none => none
        | some value =>
            if codec.parse (bytes value) = none then none else some (bytes value)
where
  /-- The value of a context record. -/
  contextValue : Option Bytes :=
    match record.field "metadata" with
    | some (.object fields) =>
        match (Json.object fields).getString "scope", record.getString "text" with
        | some scope, some text =>
            if !isNullOrString ((Json.object fields).field "path") ∨
                !isNullOrString (record.field "created_at") then none
            else some (codec.serialize (payload scope ((Json.object fields).getString "path") text
              (record.getString "created_at")))
        | _, _ => none
    | _ => none
  /-- What is stored of a context record. -/
  payload (scope : String) (path : Option String) (text : String) (createdAt : Option String) :
      Json :=
    .object ([("scope", .string scope), ("path", .string (path.getD "")), ("text", .string text)] ++
      match createdAt with
      | none => []
      | some time => [("created_at", .string time)])

/-- `turbo_agent_memory_record_matches_query`.  An empty text asks for nothing. -/
def matchesQuery (record : Json) (kind keyPrefix textSubstring : Bytes) : Bool :=
  (kind.isEmpty || record.getString "kind" == some (text kind)) &&
    (keyPrefix.isEmpty || (record.getString "key").any fun key =>
      (text keyPrefix).toList.isPrefixOf key.toList) &&
    (textSubstring.isEmpty || (record.getString "text").any fun found =>
      decide ((text textSubstring).toList <:+: found.toList))

/-! ## The store in memory -/

def Record.named (record : Record) (memoryNamespace key : Bytes) : Bool :=
  record.memoryNamespace == memoryNamespace && record.key == key

/-- `turbo_agent_memory_find_record`. -/
def findRecord (records : List Record) (memoryNamespace key : Bytes) : Option Record :=
  records.find? fun record => record.named memoryNamespace key

/-- Put a value in the place of the one that a pair has. -/
def replaceValue (memoryNamespace key valueJson : Bytes) : List Record → List Record
  | [] => []
  | record :: records =>
      if record.named memoryNamespace key then { record with valueJson } :: records
      else record :: replaceValue memoryNamespace key valueJson records

section

variable (codec : Codec)

/-- `turbo_agent_memory_store_memory_get`. -/
def memoryGet (records : List Record) (memoryNamespace key : Bytes) : Option Bytes :=
  (findRecord records memoryNamespace key).map Record.valueJson

/-- The arguments that `put` accepts. -/
def putValid (memoryNamespace key valueJson : Bytes) : Bool :=
  !memoryNamespace.isEmpty && !key.isEmpty && (codec.parse valueJson).isSome

/-- The store after a `put` that succeeds. -/
def putRecordIn (records : List Record) (memoryNamespace key valueJson : Bytes) : List Record :=
  if (findRecord records memoryNamespace key).isSome then
    replaceValue memoryNamespace key valueJson records
  else ⟨memoryNamespace, key, valueJson⟩ :: records

/-- `turbo_agent_memory_store_memory_put`. -/
def memoryPut (records : List Record) (memoryNamespace key valueJson : Bytes) :
    Option (List Record) :=
  if putValid codec memoryNamespace key valueJson then
    some (putRecordIn records memoryNamespace key valueJson)
  else none

/-- `turbo_agent_memory_store_memory_list`. -/
def memoryList (records : List Record) (namespacePrefix : Bytes) : List Record :=
  records.filter fun record => namespacePrefix.isPrefixOf record.memoryNamespace

/-- `turbo_agent_memory_store_memory_delete`. -/
def memoryDelete (records : List Record) (memoryNamespace key : Bytes) : Option (List Record) :=
  if (findRecord records memoryNamespace key).isSome then
    some (records.eraseP fun record => record.named memoryNamespace key)
  else none

/-! ## Files -/

/-- `turbo_agent_memory_hex_digit`. -/
def hexDigit (value : Nat) : UInt8 :=
  UInt8.ofNat (if value < 10 then 48 + value else 97 + (value - 10))

/-- `turbo_agent_memory_hex_encode`. -/
def hexEncode (name : Bytes) : Bytes :=
  name.flatMap fun byte => [hexDigit (byte.toNat / 16), hexDigit (byte.toNat % 16)]

/-- `turbo_agent_memory_hex_value`. -/
def hexValue (digit : UInt8) : Option Nat :=
  if 48 ≤ digit.toNat ∧ digit.toNat ≤ 57 then some (digit.toNat - 48)
  else if 97 ≤ digit.toNat ∧ digit.toNat ≤ 102 then some (digit.toNat - 97 + 10)
  else if 65 ≤ digit.toNat ∧ digit.toNat ≤ 70 then some (digit.toNat - 65 + 10)
  else none

/-- `turbo_agent_memory_hex_decode`. -/
def hexDecode : Bytes → Option Bytes
  | [] => some []
  | [_] => none
  | high :: low :: rest =>
      match hexValue high, hexValue low with
      | some high, some low => (hexDecode rest).map (UInt8.ofNat (high * 16 + low) :: ·)
      | _, _ => none

def recordName (memoryNamespace key : Bytes) : Bytes :=
  hexEncode memoryNamespace ++ asciiBytes "__" ++ hexEncode key ++ asciiBytes ".json"

/-- `%016llx`. -/
def hex16 (value : UInt64) : Bytes :=
  (List.range 16).map fun place => hexDigit (value.toNat / 16 ^ (15 - place) % 16)

def tempName (name : Bytes) (nonce : UInt64) : Bytes :=
  name ++ asciiBytes ".tmp." ++ hex16 nonce

abbrev Directory := AList fun _ : Bytes => Bytes

inductive FileStep where
  | create (name : Bytes)
  | write (name content : Bytes)
  | fsync (name : Bytes)
  | rename (source target : Bytes)
  deriving DecidableEq

def FileStep.perform (directory : Directory) : FileStep → Directory
  | .create name => directory.insert name []
  | .write name content =>
      if name ∈ directory then directory.insert name content else directory
  | .fsync _ => directory
  | .rename source target =>
      match directory.lookup source with
      | none => directory
      | some content => (directory.erase source).insert target content

/-- The steps of `turbo_agent_memory_write_text_file`. -/
def writeSteps (name content : Bytes) (nonce : UInt64) : List FileStep :=
  let temp := tempName name nonce
  [.create temp, .write temp content, .fsync temp, .rename temp name]

/-- What `turbo_agent_memory_store_file_put` does in the directory: nothing when it fails.  The
longest name is the one that the file system's limits on names and paths leave for a file of the
directory: a temporary file with a longer one is not opened. -/
def filePutSteps (longest : Nat) (memoryNamespace key valueJson : Bytes) (nonce : UInt64) :
    Option (List FileStep) :=
  if !putValid codec memoryNamespace key valueJson ∨ 2147483647 < valueJson.length ∨
      longest < (tempName (recordName memoryNamespace key) nonce).length then none
  else some (writeSteps (recordName memoryNamespace key) valueJson nonce)

/-- `turbo_agent_memory_store_file_get`. -/
def fileGet (directory : Directory) (memoryNamespace key : Bytes) : Option Bytes :=
  (directory.lookup (recordName memoryNamespace key)).filter fun value =>
    (codec.parse value).isSome

/-- `strrchr` for the dot of an extension. -/
def lastDot : Bytes → Option Nat
  | [] => none
  | byte :: rest =>
      match lastDot rest with
      | some place => some (place + 1)
      | none => if byte = asciiByte '.' then some 0 else none

/-- `strstr` for the separator of a name. -/
def separator : Bytes → Option Nat
  | [] => none
  | byte :: rest =>
      if byte = asciiByte '_' ∧ rest.head? = some (asciiByte '_') then some 0
      else (separator rest).map (· + 1)

def parseName (name : Bytes) : Option (Bytes × Bytes) :=
  match lastDot name, separator name with
  | some extension, some place =>
      if extension ≤ place then none
      else
        match hexDecode (name.take place),
          hexDecode ((name.drop (place + 2)).take (extension - (place + 2))) with
        | some memoryNamespace, some key => some (memoryNamespace, key)
        | _, _ => none
  | _, _ => none

/-- The loop of `turbo_agent_memory_store_file_list_directory` over the names that it reads. -/
def listNames (directory : Directory) (namespacePrefix : Bytes) :
    List Bytes → Option (List Record)
  | [] => some []
  | name :: names =>
      if name = asciiBytes "." ∨ name = asciiBytes ".." then
        listNames directory namespacePrefix names
      else
        match parseName name with
        | none => none
        | some (memoryNamespace, key) =>
            if !namespacePrefix.isPrefixOf memoryNamespace then
              listNames directory namespacePrefix names
            else
              match (directory.lookup name).filter fun value => (codec.parse value).isSome with
              | none => none
              | some value =>
                  (listNames directory namespacePrefix names).map
                    (⟨memoryNamespace, key, value⟩ :: ·)

/-- `turbo_agent_memory_store_file_list`, with the order in which a directory is read. -/
def fileList (order : List Bytes → List Bytes) (directory : Directory)
    (namespacePrefix : Bytes) : Option (List Record) :=
  listNames codec directory namespacePrefix
    (order (asciiBytes "." :: asciiBytes ".." :: directory.keys))

/-- `turbo_agent_memory_store_file_delete`. -/
def fileDelete (directory : Directory) (memoryNamespace key : Bytes) : Option Directory :=
  if recordName memoryNamespace key ∈ directory then
    some (directory.erase (recordName memoryNamespace key))
  else none

/-! ## Reading records -/

/-- The loop of `turbo_agent_memory_query_with_list_callback`. -/
def canonicalRecords (kind keyPrefix textSubstring : Bytes) : List Record → Option (List Json)
  | [] => some []
  | record :: records =>
      let canonical :=
        makeCanonicalRecord codec record.memoryNamespace record.key record.valueJson
      if !validateCanonicalRecord canonical then none
      else if !matchesQuery canonical kind keyPrefix textSubstring then
        canonicalRecords kind keyPrefix textSubstring records
      else (canonicalRecords kind keyPrefix textSubstring records).map (canonical :: ·)

/-- `turbo_agent_memory_query_with_list_callback`. -/
def queryWithList (listed : Option (List Record)) (kind keyPrefix textSubstring : Bytes) :
    Option (List Json) :=
  listed.bind (canonicalRecords codec kind keyPrefix textSubstring)

/-- `turbo_agent_memory_list_records_impl` over the query of a store. -/
def listRecordsImpl (queried : Option (List Json)) : Option (List Json) :=
  queried.filter fun records => records.all validateCanonicalRecord

/-- `turbo_agent_memory_query_filter_records` for the options that `query_records` gives. -/
def filterRecords (namespacePrefix kind keyPrefix textSubstring : Bytes) (records : List Json) :
    List Json :=
  records.filter fun record =>
    (namespacePrefix.isEmpty || (record.getString "namespace").any fun found =>
      (text namespacePrefix).toList.isPrefixOf found.toList) &&
      matchesQuery record kind keyPrefix textSubstring

/-- `turbo_agent_memory_list_records` over the records that a store lists. -/
def listRecords (listed : Option (List Record)) : Option (List Json) :=
  listRecordsImpl (queryWithList codec listed [] [] [])

/-- `turbo_agent_memory_query_records` over the records that a store lists. -/
def queryRecords (listed : Option (List Record))
    (namespacePrefix kind keyPrefix textSubstring : Bytes) : Option (List Json) :=
  (listRecordsImpl (queryWithList codec listed kind keyPrefix textSubstring)).map
    (filterRecords namespacePrefix kind keyPrefix textSubstring)

/-- `turbo_agent_memory_put_record` over the `put` of a store. -/
def putRecord {σ : Type} (put : Bytes → Bytes → Bytes → Option σ) (record : Json) : Option σ :=
  if !validateCanonicalRecord record then none
  else
    match record.getString "namespace", record.getString "key",
      valueJsonFromCanonical codec record with
    | some memoryNamespace, some key, some value => put (bytes memoryNamespace) (bytes key) value
    | _, _, _ => none

/-- `turbo_agent_memory_get_record` over the value that a store has. -/
def getRecordFrom (stored : Option Bytes) (memoryNamespace key : Bytes) : Option Json :=
  stored.bind fun value =>
    let record := makeCanonicalRecord codec memoryNamespace key value
    if validateCanonicalRecord record then some record else none

end

end TurboAgent.Memory
