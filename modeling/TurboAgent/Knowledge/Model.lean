import TurboAgent.Data.Bytes

/-!
# Knowledge index

Documents, their chunks and one full-text row for each chunk, in three tables of one SQLite
database.  A table is the list of its rows.  Statements act on tables as SQL defines, and a
call that fails leaves the database of its last commit.
-/

namespace TurboAgent.Knowledge

/-! ## Tables -/

/-- `turbo_agent_knowledge_document_t`, as the caller gives it. -/
structure Document where
  (id uri : Bytes)
  (kind title : Option Bytes)
  (mtime size : Int)
  (contentHash metadataJson : Option Bytes)
  deriving DecidableEq

/-- A row of `documents`. -/
structure DocumentRow where
  (id uri kind : Bytes)
  title : Option Bytes
  (mtime size : Int)
  contentHash : Bytes
  metadataJson : Option Bytes
  deriving DecidableEq

/-- A row of `chunks`. -/
structure ChunkRow where
  (id documentId : Bytes)
  ordinal : Nat
  text : Bytes
  metadataJson : Option Bytes
  deriving DecidableEq

/-- A row of `chunks_fts`. -/
structure FtsRow where
  (chunkId documentId uri text : Bytes)
  deriving DecidableEq

/-- The tables of `turbo_knowledge_init_schema`. -/
structure Database where
  documents : List DocumentRow
  chunks : List ChunkRow
  chunksFts : List FtsRow
  deriving DecidableEq

def Database.empty : Database := ⟨[], [], []⟩

/-- What the store depends on: the length limit of SQLite, and whether FTS5 is there. -/
structure Config where
  limit : Nat
  fts5Enabled : Bool
  deriving DecidableEq

/-- `sqlite3_bind_text`: a negative size reads up to the terminator, and a value over the
length limit is not bound, so that its parameter stays NULL. -/
def bindText (config : Config) (text : Bytes) (size : Int) : Option Bytes :=
  let value := if size < 0 then text else text.take size.toNat
  if config.limit < value.length then none else some value

/-! ## Statements -/

section Statements

variable (config : Config)

/-- `turbo_knowledge_chunk_id`. -/
def chunkId (documentId : Bytes) (ordinal : Nat) : Bytes :=
  documentId ++ asciiByte '#' :: decimal ordinal

/-- A row is named by a bound id or uri.  NULL equals nothing. -/
def DocumentRow.named (row : DocumentRow) (id uri : Option Bytes) : Bool :=
  some row.id == id || some row.uri == uri

/-- `turbo_knowledge_delete_document_tx`. -/
def deleteDocumentTx (database : Database) (documentId : Bytes) : Database :=
  let id := bindText config documentId (-1)
  { chunksFts := database.chunksFts.filter fun row => some row.documentId != id
    chunks := database.chunks.filter fun row => some row.documentId != id
    documents := database.documents.filter fun row => some row.id != id }

/-- `turbo_knowledge_delete_document_or_uri_tx`. -/
def deleteDocumentOrUriTx (database : Database) (documentId uri : Bytes) : Database :=
  let id := bindText config documentId (-1)
  let uri := bindText config uri (-1)
  let selected := (database.documents.filter fun row => row.named id uri).map DocumentRow.id
  { chunksFts := database.chunksFts.filter fun row => row.documentId ∉ selected
    chunks := database.chunks.filter fun row => row.documentId ∉ selected
    documents := database.documents.filter fun row => !row.named id uri }

def bindOptional (text : Option Bytes) : Option Bytes :=
  text.bind fun text => bindText config text (-1)

/-- `turbo_knowledge_insert_document`.  Ids and uris are unique.  As SQL defines, a primary key
is not NULL. -/
def insertDocument (database : Database) (document : Document) (contentHash : Bytes)
    (size : Int) : Option Database :=
  match bindText config document.id (-1), bindText config document.uri (-1),
    bindText config (document.kind.getD (asciiBytes "text")) (-1),
    bindText config contentHash (-1) with
  | some id, some uri, some kind, some contentHash =>
      if database.documents.any fun row => row.named (some id) (some uri) then none
      else some { database with documents := database.documents ++ [{
        id
        uri
        kind
        title := bindOptional config document.title
        mtime := document.mtime
        size
        contentHash
        metadataJson := bindOptional config document.metadataJson }] }
  | _, _, _, _ => none

/-- `turbo_knowledge_insert_chunk`.  Chunk ids are unique, a chunk refers to a document, and
no column but the metadata is NULL.  Without FTS5 there is no full-text row. -/
def insertChunk (database : Database) (documentId uri : Bytes) (ordinal : Nat) (text : Bytes)
    (textLen : Nat) (metadataJson : Option Bytes) : Option Database :=
  match bindText config (chunkId documentId ordinal) (-1), bindText config documentId (-1),
    bindText config uri (-1), bindText config text (toInt textLen) with
  | some id, some documentId, some uri, some text =>
      if database.chunks.any (fun row => row.id == id) ||
          !database.documents.any fun row => row.id == documentId then none
      else
        let metadataJson := bindOptional config metadataJson
        let chunks := database.chunks ++ [⟨id, documentId, ordinal, text, metadataJson⟩]
        if config.fts5Enabled then some { database with
          chunks
          chunksFts := database.chunksFts ++ [⟨id, documentId, uri, text⟩] }
        else some { database with chunks }
  | _, _, _, _ => none

end Statements

/-! ## Texts -/

/-- `turbo_knowledge_text_is_binary`. -/
def textIsBinary (text : Bytes) : Bool :=
  text.contains 0

/-- `turbo_knowledge_hash_bytes`. -/
def hashBytes (data : Bytes) : UInt64 :=
  data.foldl (fun hash byte => (hash ^^^ byte.toUInt64) * 1099511628211) 1469598103934665603

/-- `turbo_knowledge_hash_text`: sixteen hexadecimal digits. -/
def hashText (text : Bytes) : Bytes :=
  let digits := (Nat.toDigits 16 (hashBytes text).toNat).map asciiByte
  List.replicate (16 - digits.length) (asciiByte '0') ++ digits

/-- The last line end at an offset above `low` and up to a given one. -/
def lineEnd (text : Bytes) (low : Nat) : Nat → Option Nat
  | 0 => none
  | offset + 1 =>
      if offset + 1 ≤ low then none
      else if text[offset + 1]? = some (asciiByte '\n') then some (offset + 1)
      else lineEnd text low offset

/-- `turbo_knowledge_next_chunk_len`. -/
def nextChunkLen (text : Bytes) (target : Nat) : Nat :=
  if text.length ≤ target then text.length
  else
    match lineEnd text (target / 2) target with
    | some offset => offset + 1
    | none => target

def chunkTarget (target : Nat) : Nat :=
  let target := if target = 0 then 2048 else target
  if target < 128 then 128 else target

/-! ## Calls -/

section Calls

variable (config : Config)

/-- The loop of `turbo_agent_knowledge_store_upsert_text` over a nonempty text.  Every round
takes a byte or more, so the length of the text is enough rounds. -/
def insertChunks (document : Document) (target : Nat) :
    (rounds : Nat) → Database → (ordinal : Nat) → (rest : Bytes) → Option Database
  | 0, database, _, rest => if rest = [] then some database else none
  | rounds + 1, database, ordinal, rest =>
      if rest = [] then some database
      else
        let chunkLen := nextChunkLen rest target
        match insertChunk config database document.id document.uri ordinal rest chunkLen
          document.metadataJson with
        | none => none
        | some database =>
            insertChunks document target rounds database (ordinal + 1) (rest.drop chunkLen)

/-- `turbo_agent_knowledge_store_upsert_text`: the database that it commits. -/
def upsertText (database : Database) (document : Document) (text : Bytes) (target : Nat) :
    Option Database :=
  if textIsBinary text then none
  else
    let contentHash := document.contentHash.getD (hashText text)
    let size := if document.size = 0 then (text.length : Int) else document.size
    let cleared := deleteDocumentOrUriTx config database document.id document.uri
    match insertDocument config cleared document contentHash size with
    | none => none
    | some database =>
        if text = [] then
          insertChunk config database document.id document.uri 0 [] 0 document.metadataJson
        else insertChunks config document (chunkTarget target) text.length database 0 text

/-- `turbo_agent_knowledge_store_index_file`, with the file that the path leads to. -/
def indexFile (database : Database) (path : Bytes) (file : Option (Bytes × Int))
    (kind : Option Bytes) (target : Nat) : Option Database :=
  if path = [] then none
  else
    match file with
    | none => none
    | some (text, mtime) =>
        if textIsBinary text then none
        else upsertText config database {
          id := path
          uri := path
          kind := some (kind.getD (asciiBytes "file"))
          title := some path
          mtime
          size := text.length
          contentHash := some (hashText text)
          metadataJson := none } text target

/-- `turbo_agent_knowledge_store_delete_document`. -/
def deleteDocument (database : Database) (documentId : Bytes) : Option Database :=
  if documentId = [] then none else some (deleteDocumentTx config database documentId)

inductive Call where
  | upsertText (document : Document) (text : Bytes) (target : Nat)
  | indexFile (path : Bytes) (file : Option (Bytes × Int)) (kind : Option Bytes) (target : Nat)
  | deleteDocument (documentId : Bytes)
  deriving DecidableEq

/-- The database that a call commits, if no statement of it fails for another reason. -/
def Call.commit (database : Database) : Call → Option Database
  | .upsertText document text target => Knowledge.upsertText config database document text target
  | .indexFile path file kind target =>
      Knowledge.indexFile config database path file kind target
  | .deleteDocument documentId => Knowledge.deleteDocument config database documentId

/-- A call, and whether SQLite runs its statements.  What fails is rolled back. -/
def perform (database : Database) (call : Call) (works : Bool) : Database :=
  if works then (call.commit config database).getD database else database

def run (database : Database) (calls : List (Call × Bool)) : Database :=
  calls.foldl (fun database call => perform config database call.1 call.2) database

end Calls

end TurboAgent.Knowledge
