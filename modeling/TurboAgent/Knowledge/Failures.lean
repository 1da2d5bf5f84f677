import TurboAgent.Knowledge.Integrity
import TurboAgent.Knowledge.Transactions

/-!
# Failing statements

A call with a statement that fails leaves the connection as it was, with two exceptions: the
commit of a deletion that leaves its transaction open, and the statement that deletes full-text
rows when it does not prepare.
-/

namespace TurboAgent.Knowledge.Faults

open Logic.Transaction

variable {config : Config} {plan : Plan} {committed database after : Database}

/-! ## Statements that succeed -/

variable {label : Statement}

theorem execute_eq {change : Database → Option Database} :
    execute plan label change ⟨committed, some database⟩ = (true, ⟨committed, some after⟩) ↔
      plan label = none ∧ change database = some after := by
  rcases @statement_update _ _ plan label committed database change with
    ⟨fault, planned, same⟩ | ⟨planned, refused, same⟩ | ⟨planned, changed, made, same⟩
  · rw [execute, same, planned]
    simp
  · rw [execute, same, planned, refused]
    simp
  · rw [execute, same, planned, made]
    simp

theorem within_execute {change : Database → Option Database} :
    Within (execute plan label change) := within_statement change

theorem skip_eq : (fun connection : Connection Database => (true, connection))
    ⟨committed, some database⟩ = (true, ⟨committed, some after⟩) ↔ database = after := by
  simp

section Deletions

variable {deleteChunksFts deleteChunks deleteDocuments : Database → Database}

/-- No statement but the deletion of full-text rows fails, and that one not when it is run. -/
structure Deletes (plan : Plan) : Prop where
  chunksFts : ∀ fault, plan .deleteChunksFts = some fault → fault = .prepare
  chunks : plan .deleteChunks = none
  documents : plan .deleteDocuments = none

theorem within_deleteTx :
    Within (deleteTx plan deleteChunksFts deleteChunks deleteDocuments) := by
  refine within_andThen ?_ (within_andThen within_execute within_execute)
  split_ifs
  · exact within_skip
  · exact within_execute

theorem deleteTx_eq : deleteTx plan deleteChunksFts deleteChunks deleteDocuments
    ⟨committed, some database⟩ = (true, ⟨committed, some after⟩) ↔
      Deletes plan ∧ deleteDocuments (deleteChunks (if plan .deleteChunksFts = some .prepare
        then database else deleteChunksFts database)) = after := by
  unfold deleteTx
  split_ifs with skipped
  · rw [andThen_eq within_skip]
    simp only [skip_eq, exists_eq_left', andThen_eq within_execute,
      execute_eq, Option.some.injEq]
    constructor
    · rintro ⟨between, ⟨chunks, rfl⟩, documents, rfl⟩
      refine ⟨⟨fun fault planned => ?_, chunks, documents⟩, rfl⟩
      rw [skipped] at planned
      exact (Option.some.inj planned).symm
    · rintro ⟨deletes, rfl⟩
      exact ⟨_, ⟨deletes.chunks, rfl⟩, deletes.documents, rfl⟩
  · rw [andThen_eq within_execute]
    simp only [andThen_eq within_execute, execute_eq, Option.some.injEq]
    constructor
    · rintro ⟨first, ⟨fts, rfl⟩, second, ⟨chunks, rfl⟩, documents, rfl⟩
      refine ⟨⟨fun fault planned => ?_, chunks, documents⟩, rfl⟩
      rw [fts] at planned
      cases planned
    · rintro ⟨deletes, rfl⟩
      have fts : plan .deleteChunksFts = none := by
        rw [Option.eq_none_iff_forall_ne_some]
        intro fault planned
        rw [deletes.chunksFts fault planned] at planned
        exact skipped planned
      exact ⟨_, ⟨fts, rfl⟩, _, ⟨deletes.chunks, rfl⟩, deletes.documents, rfl⟩

end Deletions

/-! ## Insertions -/

section Insertions

variable {document : Document} {documentId uri text rest : Bytes}
  {ordinal textLen target rounds : Nat} {metadataJson : Option Bytes}

def chunkStatements (config : Config) (ordinal : Nat) : List Statement :=
  .insertChunk ordinal :: if config.fts5Enabled then [.insertChunkFts ordinal] else []

/-- The statements of the loop over a nonempty text. -/
def loopStatements (config : Config) (target : Nat) :
    (rounds : Nat) → (ordinal : Nat) → (rest : Bytes) → List Statement
  | 0, _, _ => []
  | rounds + 1, ordinal, rest =>
      if rest = [] then []
      else chunkStatements config ordinal ++ loopStatements config target rounds (ordinal + 1)
        (rest.drop (nextChunkLen rest target))

theorem within_insertChunk : Within
    (insertChunk config plan documentId uri ordinal text textLen metadataJson) := by
  refine within_andThen within_execute ?_
  split_ifs
  · exact within_execute
  · exact within_skip

theorem within_insertChunks : ∀ (rounds ordinal : Nat) (rest : Bytes),
    Within (insertChunks config plan document target rounds ordinal rest)
  | 0, _, rest => by
      intro committed content
      exact ⟨rfl, fun done => ⟨content, Prod.ext done rfl⟩⟩
  | rounds + 1, ordinal, rest => by
      rw [insertChunks]
      split_ifs
      · exact within_skip
      · exact within_andThen within_insertChunk (within_insertChunks rounds _ _)

variable {uri' : Bytes}

theorem insertChunk_rows (bound : bindText config uri (-1) = some uri') :
    Knowledge.insertChunk config database documentId uri ordinal text textLen metadataJson =
      (insertChunkRow config database documentId ordinal text textLen metadataJson).bind
        fun database => if config.fts5Enabled then
          insertFtsRow config database documentId uri ordinal text textLen
        else some database := by
  rw [Knowledge.insertChunk, insertChunkRow, bound]
  cases isId : bindText config (chunkId documentId ordinal) (-1) with
  | none => rfl
  | some id =>
  cases isOwner : bindText config documentId (-1) with
  | none => rfl
  | some owner =>
  cases isText : bindText config text (toInt textLen) with
  | none => rfl
  | some value =>
      dsimp only
      by_cases refused : (database.chunks.any (fun row => row.id == id) ||
          !database.documents.any fun row => row.id == owner) = true
      · rw [if_pos refused, if_pos refused]
        rfl
      · rw [if_neg refused, if_neg refused, Option.bind_some]
        simp only [insertFtsRow, isId, isOwner, bound, isText]

theorem insertChunk_eq (bound : bindText config uri (-1) = some uri') :
    insertChunk config plan documentId uri ordinal text textLen metadataJson
        ⟨committed, some database⟩ = (true, ⟨committed, some after⟩) ↔
      (∀ label ∈ chunkStatements config ordinal, plan label = none) ∧
        Knowledge.insertChunk config database documentId uri ordinal text textLen metadataJson =
          some after := by
  rw [insertChunk_rows bound, insertChunk, andThen_eq within_execute, chunkStatements]
  simp only [execute_eq, Option.bind_eq_some_iff]
  split_ifs with enabled
  · simp only [execute_eq, List.forall_mem_cons, List.not_mem_nil, false_implies, implies_true,
      and_true]
    constructor
    · rintro ⟨between, ⟨first, made⟩, second, inserted⟩
      exact ⟨⟨first, second⟩, between, made, inserted⟩
    · rintro ⟨⟨first, second⟩, between, made, inserted⟩
      exact ⟨between, ⟨first, made⟩, second, inserted⟩
  · simp only [skip_eq, List.forall_mem_cons, List.not_mem_nil, false_implies, implies_true,
      and_true, Option.some.injEq]
    constructor
    · rintro ⟨between, ⟨first, made⟩, rfl⟩
      exact ⟨first, between, made, rfl⟩
    · rintro ⟨first, between, made, rfl⟩
      exact ⟨between, ⟨first, made⟩, rfl⟩

theorem insertChunks_eq (bound : bindText config document.uri (-1) = some uri') :
    insertChunks config plan document target rounds ordinal rest
        ⟨committed, some database⟩ = (true, ⟨committed, some after⟩) ↔
      (∀ label ∈ loopStatements config target rounds ordinal rest, plan label = none) ∧
        Knowledge.insertChunks config document target rounds database ordinal rest =
          some after := by
  induction rounds generalizing ordinal rest database with
  | zero =>
      rw [insertChunks, Knowledge.insertChunks, loopStatements]
      by_cases done : rest = [] <;> simp [done]
  | succ rounds ih =>
      rw [insertChunks, Knowledge.insertChunks, loopStatements]
      split_ifs with done
      · simp
      · dsimp only
        rw [andThen_eq within_insertChunk]
        simp only [insertChunk_eq bound, ih, List.forall_mem_append]
        constructor
        · rintro ⟨between, ⟨first, made⟩, later, inserted⟩
          rw [made]
          exact ⟨⟨first, later⟩, inserted⟩
        · rintro ⟨⟨first, later⟩, inserted⟩
          cases made : Knowledge.insertChunk config database document.id document.uri ordinal
              rest (nextChunkLen rest target) document.metadataJson with
          | none =>
              rw [made] at inserted
              cases inserted
          | some between =>
              rw [made] at inserted
              exact ⟨between, ⟨first, rfl⟩, later, inserted⟩

/-! ## Tables without their full-text rows -/

structure SameRows (left right : Database) : Prop where
  documents : left.documents = right.documents
  chunks : left.chunks = right.chunks

variable {left right : Database}

theorem SameRows.insertDocument (same : SameRows left right) {contentHash : Bytes} {size : Int}
    (inserted : Knowledge.insertDocument config left document contentHash size = some after) :
    ∃ after', Knowledge.insertDocument config right document contentHash size = some after' ∧
      SameRows after after' := by
  rw [Knowledge.insertDocument] at inserted ⊢
  rw [← same.documents]
  split at inserted
  next id uri kind hash isId isUri isKind isHash =>
    split at inserted
    next => cases inserted
    next accepted =>
      cases inserted
      rw [if_neg accepted]
      exact ⟨_, rfl, rfl, same.chunks⟩
  next => cases inserted

theorem SameRows.insertChunk (same : SameRows left right)
    (inserted : Knowledge.insertChunk config left documentId uri ordinal text textLen
      metadataJson = some after) :
    ∃ after', Knowledge.insertChunk config right documentId uri ordinal text textLen
      metadataJson = some after' ∧ SameRows after after' := by
  rw [Knowledge.insertChunk] at inserted ⊢
  rw [← same.documents, ← same.chunks]
  split at inserted
  next =>
    split at inserted
    next => cases inserted
    next accepted =>
      dsimp only at inserted ⊢
      rw [if_neg accepted]
      split_ifs at inserted ⊢
      · cases inserted
        exact ⟨_, rfl, rfl, rfl⟩
      · cases inserted
        exact ⟨_, rfl, rfl, rfl⟩
  next => cases inserted

theorem SameRows.insertChunks (same : SameRows left right)
    (inserted : Knowledge.insertChunks config document target rounds left ordinal rest =
      some after) :
    ∃ after', Knowledge.insertChunks config document target rounds right ordinal rest =
      some after' := by
  induction rounds generalizing left right ordinal rest with
  | zero =>
      rw [Knowledge.insertChunks] at inserted ⊢
      split_ifs at inserted ⊢
      exact ⟨right, rfl⟩
  | succ rounds ih =>
      rw [Knowledge.insertChunks] at inserted ⊢
      split_ifs at inserted ⊢
      · exact ⟨right, rfl⟩
      · dsimp only at inserted ⊢
        split at inserted
        next => cases inserted
        next between made =>
          obtain ⟨between', made', same'⟩ := same.insertChunk made
          rw [made']
          exact ih same' inserted

end Insertions

/-! ## Calls -/

section Calls

variable {document : Document} {text documentId : Bytes} {target : Nat} {write : Write}

def writtenStatements (config : Config) (text : Bytes) (target : Nat) : List Statement :=
  if text = [] then chunkStatements config 0
  else loopStatements config (chunkTarget target) text.length 0 text

/-- The statements of a call, when none fails. -/
def Write.statements (config : Config) : Write → List Statement
  | .upsertText _ text target =>
      if textIsBinary text then []
      else [.beginImmediate, .deleteChunksFts, .deleteChunks, .deleteDocuments,
        .insertDocument] ++ writtenStatements config text target ++ [.commit]
  | .deleteDocument documentId =>
      if documentId = [] then []
      else [.beginImmediate, .deleteChunksFts, .deleteChunks, .deleteDocuments, .commit]

/-- What a call commits when the plan has no faults; nothing when an insertion is refused. -/
def Write.commit (config : Config) (database : Database) : Write → Option Database
  | .upsertText document text target => Knowledge.upsertText config database document text target
  | .deleteDocument documentId => Knowledge.deleteDocument config database documentId

def Fails (config : Config) (plan : Plan) (write : Write) (database : Database) : Prop :=
  write.commit config database = none ∨ ∃ label ∈ write.statements config, plan label ≠ none

/-- A fault that the call does not handle: full-text rows are left when the statement that
deletes them does not prepare, and a deletion does not roll back a transaction that its commit
has left open. -/
def Missed (write : Write) (label : Statement) (fault : Fault) : Prop :=
  (label = .deleteChunksFts ∧ fault = .prepare) ∨
    ((∃ documentId, write = .deleteDocument documentId) ∧ label = .commit ∧
      fault ≠ .step true)

/-- Some statement of the call fails in a way that the call handles. -/
def Caught (config : Config) (plan : Plan) (write : Write) (database : Database) : Prop :=
  write.commit config database = none ∨ ∃ label ∈ write.statements config,
    ∃ fault, plan label = some fault ∧ ¬Missed write label fault

/-- The call fails and leaves the connection, outside of a transaction, as it was. -/
def CleanFailure (config : Config) (plan : Plan) (write : Write) (database : Database) : Prop :=
  (write.perform config plan ⟨database, none⟩).1 = false ∧
    (write.perform config plan ⟨database, none⟩).2 = ⟨database, none⟩

theorem begin_cases (plan : Plan) (database : Database) :
    (plan .beginImmediate = none ∧ statement plan .beginImmediate begin ⟨database, none⟩ =
      (true, ⟨database, some database⟩)) ∨
    (plan .beginImmediate ≠ none ∧ statement plan .beginImmediate begin ⟨database, none⟩ =
      (false, ⟨database, none⟩)) := by
  unfold statement
  cases planned : plan .beginImmediate with
  | none => exact .inl ⟨rfl, rfl⟩
  | some fault =>
      refine .inr ⟨Option.some_ne_none _, ?_⟩
      cases fault with
      | prepare => rfl
      | step rolledBack => cases rolledBack <;> rfl

theorem commit_cases (plan : Plan) (database after : Database) :
    (plan .commit = none ∧ statement plan .commit commit ⟨database, some after⟩ =
      (true, ⟨after, none⟩)) ∨
    (plan .commit = some (.step true) ∧
      statement plan .commit commit ⟨database, some after⟩ = (false, ⟨database, none⟩)) ∨
    (∃ fault, plan .commit = some fault ∧ fault ≠ .step true ∧
      statement plan .commit commit ⟨database, some after⟩ =
        (false, ⟨database, some after⟩)) := by
  unfold statement
  cases planned : plan .commit with
  | none => exact .inl ⟨rfl, rfl⟩
  | some fault =>
      cases fault with
      | prepare => exact .inr (.inr ⟨_, rfl, by decide, rfl⟩)
      | step rolledBack =>
          cases rolledBack
          · exact .inr (.inr ⟨_, rfl, by decide, rfl⟩)
          · exact .inr (.inl ⟨rfl, rfl⟩)

/-- What is put in the tables when the statements that delete have run. -/
def filled (config : Config) (document : Document) (text : Bytes) (target : Nat)
    (cleared : Database) : Option Database :=
  (Knowledge.insertDocument config cleared document
      (document.contentHash.getD (hashText text))
      (if document.size = 0 then (text.length : Int) else document.size)).bind fun database =>
    if text = [] then
      Knowledge.insertChunk config database document.id document.uri 0 [] 0 document.metadataJson
    else Knowledge.insertChunks config document (chunkTarget target) text.length database 0 text

theorem upsertText_filled (plain : textIsBinary text = false) :
    Knowledge.upsertText config database document text target = filled config document text
      target (Knowledge.deleteDocumentOrUriTx config database document.id document.uri) := by
  rw [Knowledge.upsertText, plain, if_neg Bool.false_ne_true, filled]
  dsimp only
  cases Knowledge.insertDocument config
    (Knowledge.deleteDocumentOrUriTx config database document.id document.uri) document
    (document.contentHash.getD (hashText text))
    (if document.size = 0 then (text.length : Int) else document.size) <;> rfl

theorem SameRows.filled {left right : Database} (same : SameRows left right)
    (isFilled : (filled config document text target left).isSome = true) :
    (filled config document text target right).isSome = true := by
  obtain ⟨after, made⟩ := Option.isSome_iff_exists.mp isFilled
  obtain ⟨between, inserted, written⟩ := Option.bind_eq_some_iff.mp made
  obtain ⟨between', inserted', same'⟩ := same.insertDocument inserted
  rw [Faults.filled, inserted', Option.bind_some]
  split_ifs at written ⊢
  · obtain ⟨after', made', -⟩ := same'.insertChunk written
    rw [made']
    rfl
  · obtain ⟨after', made'⟩ := same'.insertChunks written
    rw [made']
    rfl

theorem within_insertTx : Within (insertTx config plan document text target) := by
  refine within_andThen within_execute ?_
  split_ifs
  · exact within_insertChunk
  · exact within_insertChunks _ _ _

theorem insertTx_eq : insertTx config plan document text target ⟨committed, some database⟩ =
    (true, ⟨committed, some after⟩) ↔ plan .insertDocument = none ∧
      (∀ label ∈ writtenStatements config text target, plan label = none) ∧
        filled config document text target database = some after := by
  rw [insertTx, andThen_eq within_execute, filled, Option.bind_eq_some_iff]
  simp only [execute_eq]
  have each : ∀ between, Knowledge.insertDocument config database document
      (document.contentHash.getD (hashText text))
      (if document.size = 0 then (text.length : Int) else document.size) = some between →
      ((if text = [] then
          insertChunk config plan document.id document.uri 0 [] 0 document.metadataJson
        else insertChunks config plan document (chunkTarget target) text.length 0 text)
          ⟨committed, some between⟩ = (true, ⟨committed, some after⟩) ↔
        (∀ label ∈ writtenStatements config text target, plan label = none) ∧
          (if text = [] then
            Knowledge.insertChunk config between document.id document.uri 0 [] 0
              document.metadataJson
          else Knowledge.insertChunks config document (chunkTarget target) text.length between
            0 text) = some after) := by
    intro between inserted
    obtain ⟨-, bound, -⟩ := insertDocument_some inserted
    unfold writtenStatements
    split_ifs
    · exact insertChunk_eq bound
    · exact insertChunks_eq bound
  constructor
  · rintro ⟨between, ⟨planned, inserted⟩, written⟩
    obtain ⟨labels, made⟩ := (each between inserted).mp written
    exact ⟨planned, labels, between, inserted, made⟩
  · rintro ⟨planned, labels, between, inserted, made⟩
    exact ⟨between, ⟨planned, inserted⟩, (each between inserted).mpr ⟨labels, made⟩⟩

theorem within_deleteDocumentOrUriTx {uri : Bytes} :
    Within (deleteDocumentOrUriTx config plan documentId uri) := within_deleteTx

theorem deleteDocumentOrUriTx_rows {uri : Bytes}
    (ran : deleteDocumentOrUriTx config plan documentId uri ⟨committed, some database⟩ =
      (true, ⟨committed, some after⟩)) :
    Deletes plan ∧
      SameRows after (Knowledge.deleteDocumentOrUriTx config database documentId uri) := by
  obtain ⟨deletes, rfl⟩ := deleteTx_eq.mp ran
  refine ⟨deletes, ?_⟩
  have kept : ∀ ids : List Bytes,
      (fun row : ChunkRow => !ids.contains row.documentId) =
        fun row => decide (row.documentId ∉ ids) := by
    intro ids
    funext row
    simp
  split_ifs <;> exact ⟨rfl, congrArg (List.filter · database.chunks) (kept _)⟩

theorem deleteDocumentOrUriTx_runs {uri : Bytes} (deletes : Deletes plan) : ∃ after,
    deleteDocumentOrUriTx config plan documentId uri ⟨committed, some database⟩ =
      (true, ⟨committed, some after⟩) := ⟨_, deleteTx_eq.mpr ⟨deletes, rfl⟩⟩

/-- The statements within the transaction succeed exactly if none of them fails, or only the
deletion of full-text rows does, before it is run. -/
theorem upsertTx_succeeds (plain : textIsBinary text = false) :
    (upsertTx config plan document text target ⟨committed, some database⟩).1 = true ↔
      Deletes plan ∧ plan .insertDocument = none ∧
        (∀ label ∈ writtenStatements config text target, plan label = none) ∧
        (Knowledge.upsertText config database document text target).isSome = true := by
  have within : Within (upsertTx config plan document text target) :=
    within_andThen within_deleteTx within_insertTx
  have succeeds : (upsertTx config plan document text target ⟨committed, some database⟩).1 =
      true ↔ ∃ after, upsertTx config plan document text target ⟨committed, some database⟩ =
        (true, ⟨committed, some after⟩) := by
    refine ⟨(within committed database).2, ?_⟩
    rintro ⟨after, same⟩
    rw [same]
  rw [succeeds, upsertText_filled plain]
  simp only [upsertTx, andThen_eq within_deleteDocumentOrUriTx, insertTx_eq]
  constructor
  · rintro ⟨after, cleared, ran, planned, labels, made⟩
    obtain ⟨deletes, same⟩ := deleteDocumentOrUriTx_rows ran
    exact ⟨deletes, planned, labels, same.filled (Option.isSome_iff_exists.mpr ⟨after, made⟩)⟩
  · rintro ⟨deletes, planned, labels, isFilled⟩
    obtain ⟨cleared, ran⟩ := @deleteDocumentOrUriTx_runs config plan committed database
      document.id document.uri deletes
    obtain ⟨-, same⟩ := deleteDocumentOrUriTx_rows ran
    have back : SameRows (Knowledge.deleteDocumentOrUriTx config database document.id
      document.uri) cleared := ⟨same.documents.symm, same.chunks.symm⟩
    obtain ⟨after, made⟩ := Option.isSome_iff_exists.mp (back.filled isFilled)
    exact ⟨after, cleared, ran, planned, labels, made⟩

theorem deleteDocumentTx_runs : (∃ after, deleteDocumentTx config plan documentId
    ⟨committed, some database⟩ = (true, ⟨committed, some after⟩)) ↔ Deletes plan := by
  constructor
  · rintro ⟨after, ran⟩
    exact (deleteTx_eq.mp ran).1
  · exact fun deletes => ⟨_, deleteTx_eq.mpr ⟨deletes, rfl⟩⟩

theorem rollback_within {work : Work Database} (within : Within work) (database : Database) :
    rollback (work ⟨database, some database⟩).2 = ⟨database, none⟩ := by
  rw [rollback, (within database database).1]

theorem upsertText_outcome (plain : textIsBinary text = false) :
    (upsertText config plan document text target ⟨database, none⟩).1 = true ∧
        plan .beginImmediate = none ∧ (upsertTx config plan document text target
          ⟨database, some database⟩).1 = true ∧ plan .commit = none ∨
      upsertText config plan document text target ⟨database, none⟩ = (false, ⟨database, none⟩) ∧
        ¬(plan .beginImmediate = none ∧ (upsertTx config plan document text target
          ⟨database, some database⟩).1 = true ∧ plan .commit = none) := by
  have within : Within (upsertTx config plan document text target) :=
    within_andThen within_deleteTx within_insertTx
  rw [upsertText, plain, if_neg Bool.false_ne_true]
  rcases begin_cases plan database with ⟨begins, ran⟩ | ⟨refused, ran⟩
  · rw [andThen_ran ran]
    cases succeeds : (upsertTx config plan document text target ⟨database, some database⟩).1 with
    | false =>
        right
        rw [andThen_failed succeeds]
        exact ⟨congrArg (Prod.mk false) (rollback_within within database),
          fun all => Bool.false_ne_true all.2.1⟩
    | true =>
        obtain ⟨after, done⟩ := (within database database).2 succeeds
        rw [andThen_ran done]
        rcases commit_cases plan database after with ⟨commits, ended⟩ | ⟨planned, ended⟩ |
          ⟨fault, planned, -, ended⟩
        · left
          rw [ended]
          exact ⟨rfl, begins, rfl, commits⟩
        · right
          rw [ended, planned]
          exact ⟨rfl, fun all => Option.some_ne_none _ all.2.2⟩
        · right
          rw [ended, planned]
          exact ⟨rfl, fun all => Option.some_ne_none _ all.2.2⟩
  · right
    rw [andThen_failed (congrArg Prod.fst ran), ran]
    exact ⟨rfl, fun all => refused all.1⟩

/-- A deletion succeeds, leaves the connection as it was, or leaves a transaction open. -/
theorem deleteDocument_outcome (named : documentId ≠ []) :
    (deleteDocument config plan documentId ⟨database, none⟩).1 = true ∧
        plan .beginImmediate = none ∧ Deletes plan ∧ plan .commit = none ∨
      (deleteDocument config plan documentId ⟨database, none⟩ = (false, ⟨database, none⟩) ∧
        (plan .beginImmediate ≠ none ∨ ¬Deletes plan ∨ plan .commit = some (.step true))) ∨
      ((∃ after, deleteDocument config plan documentId ⟨database, none⟩ =
          (false, ⟨database, some after⟩)) ∧
        plan .beginImmediate = none ∧ Deletes plan ∧
          ∃ fault, plan .commit = some fault ∧ fault ≠ .step true) := by
  have within : Within (deleteDocumentTx config plan documentId) := within_deleteTx
  rw [deleteDocument, if_neg named]
  rcases begin_cases plan database with ⟨begins, ran⟩ | ⟨refused, ran⟩
  · rw [andThen_ran ran]
    dsimp only
    cases succeeds : (deleteDocumentTx config plan documentId ⟨database, some database⟩).1 with
    | false =>
        right
        left
        rw [if_neg Bool.false_ne_true]
        refine ⟨congrArg (Prod.mk false) (rollback_within within database), .inr (.inl ?_)⟩
        intro deletes
        obtain ⟨after, done⟩ := (@deleteDocumentTx_runs config plan database database
          documentId).mpr deletes
        rw [done] at succeeds
        cases succeeds
    | true =>
        obtain ⟨after, done⟩ := (within database database).2 succeeds
        have deletes : Deletes plan := deleteDocumentTx_runs.mp ⟨after, done⟩
        rw [if_pos rfl, done]
        rcases commit_cases plan database after with ⟨commits, ended⟩ | ⟨planned, ended⟩ |
          ⟨fault, planned, open', ended⟩
        · left
          rw [ended]
          exact ⟨rfl, begins, deletes, commits⟩
        · right
          left
          exact ⟨ended, .inr (.inr planned)⟩
        · right
          right
          exact ⟨⟨after, ended⟩, begins, deletes, fault, planned, open'⟩
  · right
    left
    rw [andThen_failed (congrArg Prod.fst ran), ran]
    exact ⟨rfl, .inl refused⟩

theorem not_caught : ¬Caught config plan write database ↔
    (write.commit config database).isSome = true ∧ ∀ label ∈ write.statements config,
      ∀ fault, plan label = some fault → Missed write label fault := by
  unfold Caught
  rw [not_or, Option.isSome_iff_ne_none]
  push Not
  rfl

/-- A statement whose faults are handled has none, if only unhandled faults are left. -/
theorem planned_none (handled : ∀ fault, ¬Missed write label fault) :
    (∀ fault, plan label = some fault → Missed write label fault) ↔ plan label = none := by
  rw [Option.eq_none_iff_forall_ne_some]
  exact forall_congr' fun fault => imp_congr_right fun _ => iff_of_false (handled fault) id

theorem missed_fts {fault : Fault} :
    Missed write .deleteChunksFts fault ↔ fault = .prepare := by
  simp [Missed]

theorem deletes_iff : Deletes plan ↔
    (∀ fault, plan .deleteChunksFts = some fault → fault = .prepare) ∧
      plan .deleteChunks = none ∧ plan .deleteDocuments = none := by
  constructor
  · exact fun deletes => ⟨deletes.chunksFts, deletes.chunks, deletes.documents⟩
  · rintro ⟨fts, chunks, documents⟩
    exact ⟨fts, chunks, documents⟩

theorem chunkStatements_apart {ordinal : Nat} (member : label ∈ chunkStatements config ordinal) :
    label ≠ .deleteChunksFts := by
  unfold chunkStatements at member
  split_ifs at member
  · rcases List.mem_cons.mp member with rfl | member
    · exact Statement.noConfusion
    · rw [List.mem_singleton.mp member]
      exact Statement.noConfusion
  · rw [List.mem_singleton.mp member]
    exact Statement.noConfusion

theorem writtenStatements_apart (member : label ∈ writtenStatements config text target) :
    label ≠ .deleteChunksFts := by
  have loop : ∀ rounds ordinal rest, label ∈ loopStatements config (chunkTarget target) rounds
      ordinal rest → label ≠ .deleteChunksFts := by
    intro rounds
    induction rounds with
    | zero => exact fun _ _ absent => absurd absent List.not_mem_nil
    | succ rounds ih =>
        intro ordinal rest isLabel
        rw [loopStatements] at isLabel
        split_ifs at isLabel
        · exact absurd isLabel List.not_mem_nil
        · rcases List.mem_append.mp isLabel with here | later
          · exact chunkStatements_apart here
          · exact ih _ _ later
  unfold writtenStatements at member
  split_ifs at member
  · exact chunkStatements_apart member
  · exact loop _ _ _ member

theorem not_caught_upsertText (plain : textIsBinary text = false) :
    ¬Caught config plan (.upsertText document text target) database ↔
      plan .beginImmediate = none ∧ (upsertTx config plan document text target
        ⟨database, some database⟩).1 = true ∧ plan .commit = none := by
  have handled : ∀ {label}, label ≠ .deleteChunksFts → ∀ fault,
      ¬Missed (.upsertText document text target) label fault := by
    rintro label apart fault (⟨same, -⟩ | ⟨⟨_, same⟩, -⟩)
    · exact apart same
    · cases same
  have none : ∀ label, label ≠ .deleteChunksFts → ((∀ fault, plan label = some fault →
      Missed (.upsertText document text target) label fault) ↔ plan label = none) :=
    fun label apart => planned_none (handled apart)
  have written : (∀ label ∈ writtenStatements config text target, ∀ fault,
      plan label = some fault → Missed (.upsertText document text target) label fault) ↔
        ∀ label ∈ writtenStatements config text target, plan label = Option.none :=
    forall₂_congr fun label member => none label (writtenStatements_apart member)
  rw [not_caught, upsertTx_succeeds plain, deletes_iff]
  simp only [Write.statements, plain, if_neg Bool.false_ne_true, List.forall_mem_append,
    List.forall_mem_cons, List.not_mem_nil, false_implies, implies_true, and_true, missed_fts,
    written, none .beginImmediate (by decide), none .deleteChunks (by decide),
    none .deleteDocuments (by decide), none .insertDocument (by decide),
    none .commit (by decide), Write.commit]
  tauto

theorem not_caught_deleteDocument (named : documentId ≠ []) :
    ¬Caught config plan (.deleteDocument documentId) database ↔
      plan .beginImmediate = none ∧ Deletes plan ∧
        ∀ fault, plan .commit = some fault → fault ≠ .step true := by
  have none : ∀ label, label ≠ .deleteChunksFts → label ≠ .commit → ((∀ fault,
      plan label = some fault → Missed (.deleteDocument documentId) label fault) ↔
        plan label = none) := by
    intro label apart notCommit
    refine planned_none ?_
    rintro fault (⟨same, -⟩ | ⟨-, same, -⟩)
    · exact apart same
    · exact notCommit same
  have commits : ∀ fault, Missed (.deleteDocument documentId) .commit fault ↔
      fault ≠ .step true := by
    intro fault
    simp [Missed]
  rw [not_caught, deletes_iff]
  simp only [Write.statements, if_neg named, List.forall_mem_cons, List.not_mem_nil,
    false_implies, implies_true, and_true, missed_fts, commits,
    none .beginImmediate (by decide) (by decide), none .deleteChunks (by decide) (by decide),
    none .deleteDocuments (by decide) (by decide), Write.commit, Knowledge.deleteDocument,
    Option.isSome_some, true_and]
  tauto

/-- A call in which a statement fails leaves the connection as it was exactly if the call
handles one of the failures. -/
theorem clean_failure_iff :
    CleanFailure config plan write database ↔ Caught config plan write database := by
  cases write with
  | upsertText document text target =>
      rw [CleanFailure, Write.perform]
      cases plain : textIsBinary text with
      | true =>
          refine iff_of_true ?_ (.inl ?_)
          · rw [upsertText, plain]
            exact ⟨rfl, rfl⟩
          · rw [Write.commit, Knowledge.upsertText, plain]
            rfl
      | false =>
          have caught := @not_caught_upsertText config plan database document text target plain
          rcases @upsertText_outcome config plan database document text target plain with
            ⟨succeeds, all⟩ | ⟨clean, some⟩
          · refine iff_of_false (fun failed => ?_) (caught.mpr all)
            rw [succeeds] at failed
            cases failed.1
          · refine iff_of_true ?_ (not_not.mp (mt caught.mp some))
            rw [clean]
            exact ⟨rfl, rfl⟩
  | deleteDocument documentId =>
      rw [CleanFailure, Write.perform]
      by_cases named : documentId = []
      · refine iff_of_true ?_ (.inl ?_)
        · rw [deleteDocument, if_pos named]
          exact ⟨rfl, rfl⟩
        · rw [Write.commit, Knowledge.deleteDocument, if_pos named]
      · have caught := @not_caught_deleteDocument config plan database documentId named
        rcases @deleteDocument_outcome config plan database documentId named with
          ⟨succeeds, begins, deletes, commits⟩ | ⟨clean, some⟩ |
            ⟨⟨after, left⟩, begins, deletes, fault, planned, notRolled⟩
        · refine iff_of_false (fun failed => ?_) (caught.mpr ⟨begins, deletes, ?_⟩)
          · rw [succeeds] at failed
            cases failed.1
          · intro fault planned
            rw [commits] at planned
            cases planned
        · refine iff_of_true ?_ (not_not.mp (mt caught.mp ?_))
          · rw [clean]
            exact ⟨rfl, rfl⟩
          · rintro ⟨begins, deletes, commits⟩
            rcases some with refused | notDeleted | rolled
            · exact refused begins
            · exact notDeleted deletes
            · exact commits _ rolled rfl
        · refine iff_of_false (fun failed => ?_) (caught.mpr ⟨begins, deletes, ?_⟩)
          · rw [left] at failed
            cases failed.2
          · intro other same
            rw [planned] at same
            rw [← Option.some.inj same]
            exact notRolled

end Calls

/-- Every call in which a statement fails leaves the connection as it was, outside of a
transaction, exactly if the failure is one that the call handles. -/
theorem writes_fail_cleanly_iff :
    ∀ (config : Config) (plan : Plan) (write : Write) (database : Database),
      Fails config plan write database →
        (CleanFailure config plan write database ↔ Caught config plan write database) :=
  fun _ _ _ _ _ => clean_failure_iff

def failing (label : Statement) (fault : Fault) : Plan :=
  fun other => if other = label then some fault else none

theorem writes_fail_cleanly_sample : CleanFailure sampleConfig
    (failing .deleteChunks (.step false)) (.deleteDocument [97]) .empty := by
  have fails : ∃ label ∈ Write.statements sampleConfig (.deleteDocument [97]),
      failing .deleteChunks (.step false) label ≠ none := ⟨.deleteChunks, by decide, by decide⟩
  have handled : ¬Missed (.deleteDocument [97]) .deleteChunks (.step false) := by simp [Missed]
  exact (writes_fail_cleanly_iff sampleConfig (failing .deleteChunks (.step false))
    (.deleteDocument [97]) .empty (.inr fails)).mpr
      (.inr ⟨.deleteChunks, by decide, .step false, rfl, handled⟩)

def oneDocument : Database := ⟨[⟨[97], [97], [97], none, 0, 1, [97], none⟩], [], []⟩

/-- A deletion whose commit is refused leaves its transaction open, and the next deletion
cannot begin. -/
theorem delete_commit_busy :
    Fails sampleConfig (failing .commit (.step false)) (.deleteDocument [97]) oneDocument ∧
    deleteDocument sampleConfig (failing .commit (.step false)) [97] ⟨oneDocument, none⟩ =
      (false, ⟨oneDocument, some .empty⟩) ∧
    (deleteDocument sampleConfig (fun _ => none) [97] ⟨oneDocument, some .empty⟩).1 = false ∧
    (deleteDocument sampleConfig (fun _ => none) [97] ⟨oneDocument, none⟩).1 = true ∧
    ¬CleanFailure sampleConfig (failing .commit (.step false)) (.deleteDocument [97])
      oneDocument := by
  have left : deleteDocument sampleConfig (failing .commit (.step false)) [97]
      ⟨oneDocument, none⟩ = (false, ⟨oneDocument, some .empty⟩) := by decide +kernel
  refine ⟨.inr ⟨.commit, by decide, by decide⟩, left, by decide +kernel, by decide +kernel, ?_⟩
  intro clean
  have same := clean.2
  rw [Write.perform, left] at same
  cases same

end TurboAgent.Knowledge.Faults
