import TurboAgent.Knowledge.Model
import TurboAgent.Logic.Transaction

/-!
# Statements of the calls

The calls that change the index, statement by statement, on a connection whose statements may
fail.  A statement that fails changes nothing itself; whether the database rolls the transaction
back is up to the database, and the rollback of an open transaction works.

In a store without FTS5 the statement that deletes full-text rows never prepares.
-/

namespace TurboAgent.Knowledge.Faults

open Logic.Transaction

/-- The statements of the calls; those that insert chunks by their ordinals. -/
inductive Statement where
  | beginImmediate
  | deleteChunksFts
  | deleteChunks
  | deleteDocuments
  | insertDocument
  | insertChunk (ordinal : Nat)
  | insertChunkFts (ordinal : Nat)
  | commit
  deriving DecidableEq

abbrev Plan := Statement → Option Fault

section Calls

variable (config : Config) (plan : Plan)

def execute (label : Statement) (change : Database → Option Database) : Work Database :=
  statement plan label (update change)

def deleteTx (deleteChunksFts deleteChunks deleteDocuments : Database → Database) :
    Work Database :=
  andThen
    (if plan .deleteChunksFts = some .prepare then fun connection => (true, connection)
      else execute plan .deleteChunksFts fun database => some (deleteChunksFts database))
    (andThen (execute plan .deleteChunks fun database => some (deleteChunks database))
      (execute plan .deleteDocuments fun database => some (deleteDocuments database)))

/-- `turbo_knowledge_delete_document_tx`. -/
def deleteDocumentTx (documentId : Bytes) : Work Database :=
  let id := bindText config documentId (-1)
  deleteTx plan
    (fun database => { database with
      chunksFts := database.chunksFts.filter fun row => some row.documentId != id })
    (fun database => { database with
      chunks := database.chunks.filter fun row => some row.documentId != id })
    (fun database => { database with
      documents := database.documents.filter fun row => some row.id != id })

/-- `SELECT id FROM documents WHERE id=? OR uri=?`. -/
def selected (database : Database) (id uri : Option Bytes) : List Bytes :=
  (database.documents.filter fun row => row.named id uri).map DocumentRow.id

/-- `turbo_knowledge_delete_document_or_uri_tx`. -/
def deleteDocumentOrUriTx (documentId uri : Bytes) : Work Database :=
  let id := bindText config documentId (-1)
  let uri := bindText config uri (-1)
  deleteTx plan
    (fun database => { database with
      chunksFts := database.chunksFts.filter fun row =>
        !(selected database id uri).contains row.documentId })
    (fun database => { database with
      chunks := database.chunks.filter fun row =>
        !(selected database id uri).contains row.documentId })
    (fun database => { database with
      documents := database.documents.filter fun row => !row.named id uri })

/-- The insertion into `chunks`. -/
def insertChunkRow (database : Database) (documentId : Bytes) (ordinal : Nat) (text : Bytes)
    (textLen : Nat) (metadataJson : Option Bytes) : Option Database :=
  match bindText config (chunkId documentId ordinal) (-1), bindText config documentId (-1),
    bindText config text (toInt textLen) with
  | some id, some documentId, some text =>
      if database.chunks.any (fun row => row.id == id) ||
          !database.documents.any fun row => row.id == documentId then none
      else
        let metadataJson := bindOptional config metadataJson
        some { database with
          chunks := database.chunks ++ [⟨id, documentId, ordinal, text, metadataJson⟩] }
  | _, _, _ => none

/-- The insertion into `chunks_fts`, behind that into `chunks`, which has refused NULL. -/
def insertFtsRow (database : Database) (documentId uri : Bytes) (ordinal : Nat) (text : Bytes)
    (textLen : Nat) : Option Database :=
  match bindText config (chunkId documentId ordinal) (-1), bindText config documentId (-1),
    bindText config uri (-1), bindText config text (toInt textLen) with
  | some id, some documentId, some uri, some text =>
      some { database with chunksFts := database.chunksFts ++ [⟨id, documentId, uri, text⟩] }
  | _, _, _, _ => none

/-- `turbo_knowledge_insert_chunk`. -/
def insertChunk (documentId uri : Bytes) (ordinal : Nat) (text : Bytes) (textLen : Nat)
    (metadataJson : Option Bytes) : Work Database :=
  andThen
    (execute plan (.insertChunk ordinal) fun database =>
      insertChunkRow config database documentId ordinal text textLen metadataJson)
    (if config.fts5Enabled then execute plan (.insertChunkFts ordinal) fun database =>
        insertFtsRow config database documentId uri ordinal text textLen
      else fun connection => (true, connection))

/-- The loop of `turbo_agent_knowledge_store_upsert_text` over a nonempty text. -/
def insertChunks (document : Document) (target : Nat) :
    (rounds : Nat) → (ordinal : Nat) → (rest : Bytes) → Work Database
  | 0, _, rest => fun connection => (decide (rest = []), connection)
  | rounds + 1, ordinal, rest =>
      if rest = [] then fun connection => (true, connection)
      else
        let chunkLen := nextChunkLen rest target
        andThen (insertChunk config plan document.id document.uri ordinal rest chunkLen
            document.metadataJson)
          (insertChunks document target rounds (ordinal + 1) (rest.drop chunkLen))

/-- The insertions of `turbo_agent_knowledge_store_upsert_text`. -/
def insertTx (document : Document) (text : Bytes) (target : Nat) : Work Database :=
  let contentHash := document.contentHash.getD (hashText text)
  let size := if document.size = 0 then (text.length : Int) else document.size
  andThen
    (execute plan .insertDocument fun database =>
      Knowledge.insertDocument config database document contentHash size)
    (if text = [] then
      insertChunk config plan document.id document.uri 0 [] 0 document.metadataJson
    else insertChunks config plan document (chunkTarget target) text.length 0 text)

/-- The statements of `turbo_agent_knowledge_store_upsert_text` within its transaction. -/
def upsertTx (document : Document) (text : Bytes) (target : Nat) : Work Database :=
  andThen (deleteDocumentOrUriTx config plan document.id document.uri)
    (insertTx config plan document text target)

/-- `turbo_agent_knowledge_store_upsert_text`. -/
def upsertText (document : Document) (text : Bytes) (target : Nat) : Work Database :=
  if textIsBinary text then fun connection => (false, connection)
  else andThen (statement plan .beginImmediate begin) fun connection =>
    let (succeeds, connection) :=
      andThen (upsertTx config plan document text target) (statement plan .commit commit)
        connection
    if succeeds then (true, connection) else (false, rollback connection)

/-- `turbo_agent_knowledge_store_delete_document`. -/
def deleteDocument (documentId : Bytes) : Work Database :=
  if documentId = [] then fun connection => (false, connection)
  else andThen (statement plan .beginImmediate begin) fun connection =>
    let (succeeds, connection) := deleteDocumentTx config plan documentId connection
    if succeeds then statement plan .commit commit connection
    else (false, rollback connection)

inductive Write where
  | upsertText (document : Document) (text : Bytes) (target : Nat)
  | deleteDocument (documentId : Bytes)

def Write.perform : Write → Work Database
  | .upsertText document text target => Faults.upsertText config plan document text target
  | .deleteDocument documentId => Faults.deleteDocument config plan documentId

end Calls

end TurboAgent.Knowledge.Faults
