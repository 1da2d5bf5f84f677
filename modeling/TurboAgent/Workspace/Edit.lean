import TurboAgent.Workspace.Calls

/-!
# An edit is exact and atomic

An edit is completed exactly when it can be done and nothing fails on the way.  Otherwise the
workspace is as before, but for a staging file whose removal fails.  A file can be edited only if
all of it is a text within the limit for writing.
-/

namespace TurboAgent.Workspace

open Logic Runtime
open Function (update)

/-! ## Occurrences -/

/-- A text stands at a position of another one. -/
def OccursAt (pattern text : Bytes) (position : Nat) : Prop :=
  pattern <+: text.drop position

/-- A text that is not empty stands at a position of another one, and at no other. -/
structure OccursOnce (pattern text : Bytes) (position : Nat) : Prop where
  filled : pattern ≠ []
  here : OccursAt pattern text position
  only : ∀ other, OccursAt pattern text other → other = position

section

variable {pattern text : Bytes} {position : Nat}

theorem occursAt_succ (byte : UInt8) : OccursAt pattern (byte :: text) (position + 1) ↔
    OccursAt pattern text position := by
  rw [OccursAt, List.drop_succ_cons, OccursAt]

theorem occursAt_drop (start : Nat) : OccursAt pattern (text.drop start) position ↔
    OccursAt pattern text (start + position) := by
  rw [OccursAt, List.drop_drop, OccursAt]

theorem strstr_eq_none (filled : pattern ≠ []) :
    strstr pattern text = none ↔ ∀ position, ¬OccursAt pattern text position := by
  induction text with
  | nil =>
      rw [strstr, if_neg filled]
      refine iff_of_true rfl fun position occurs => filled ?_
      rw [OccursAt, List.drop_nil] at occurs
      exact List.prefix_nil.mp occurs
  | cons byte text ih =>
      rw [strstr]
      split
      next here =>
        exact iff_of_false (by simp) fun absent => absent 0 (List.isPrefixOf_iff_prefix.mp here)
      next elsewhere =>
        rw [Option.map_eq_none_iff, ih]
        constructor
        · intro absent position occurs
          cases position with
          | zero => exact elsewhere (List.isPrefixOf_iff_prefix.mpr occurs)
          | succ position => exact absent position ((occursAt_succ byte).mp occurs)
        · exact fun absent position occurs => absent (position + 1) ((occursAt_succ byte).mpr occurs)

theorem strstr_eq_some (found : strstr pattern text = some position) :
    OccursAt pattern text position ∧ ∀ other, OccursAt pattern text other → position ≤ other := by
  induction text generalizing position with
  | nil =>
      rw [strstr] at found
      split at found
      next empty =>
        cases found
        exact ⟨empty ▸ List.nil_prefix, fun other _ => Nat.zero_le other⟩
      next => cases found
  | cons byte text ih =>
      rw [strstr] at found
      split at found
      next here =>
        cases found
        exact ⟨List.isPrefixOf_iff_prefix.mp here, fun other _ => Nat.zero_le other⟩
      next elsewhere =>
        obtain ⟨earlier, there, rfl⟩ := Option.map_eq_some_iff.mp found
        obtain ⟨occurs, first⟩ := ih there
        refine ⟨(occursAt_succ byte).mpr occurs, fun other there => ?_⟩
        cases other with
        | zero => exact absurd (List.isPrefixOf_iff_prefix.mpr there) elsewhere
        | succ other => exact Nat.succ_le_succ (first other ((occursAt_succ byte).mp there))

/-- The check for a conflict leaves the one occurrence, overlapping ones counted. -/
theorem onlyMatch_eq_some : onlyMatch pattern text = some position ↔
    OccursOnce pattern text position := by
  unfold onlyMatch
  by_cases empty : pattern = []
  · rw [if_pos empty]
    exact iff_of_false (by simp) fun once => once.filled empty
  · rw [if_neg empty]
    cases found : strstr pattern text with
    | none =>
        refine iff_of_false (by simp) fun once => ?_
        exact (strstr_eq_none empty).mp found position once.here
    | some first =>
        obtain ⟨occurs, least⟩ := strstr_eq_some found
        simp only
        cases again : strstr pattern (text.drop (first + 1)) with
        | none =>
            simp only [Option.isSome_none, Bool.false_eq_true, if_false, Option.some.injEq]
            have later := (strstr_eq_none empty).mp again
            have only : ∀ other, OccursAt pattern text other → other = first := by
              intro other there
              refine Nat.le_antisymm (Nat.le_of_not_lt fun beyond => ?_) (least other there)
              refine later (other - (first + 1)) ((occursAt_drop (first + 1)).mpr ?_)
              rwa [Nat.add_sub_cancel' beyond]
            constructor
            · rintro rfl
              exact ⟨empty, occurs, only⟩
            · exact fun once => once.only first occurs
        | some second =>
            simp only [Option.isSome_some, if_true]
            refine iff_of_false (by simp) fun once => ?_
            have there := (occursAt_drop (first + 1)).mp (strstr_eq_some again).1
            have same := once.only _ there
            have same' := once.only _ occurs
            omega

theorem OccursOnce.within (once : OccursOnce pattern text position) :
    position + pattern.length ≤ text.length := by
  have filled := List.length_pos_of_ne_nil once.filled
  have short := once.here.length_le
  rw [List.length_drop] at short
  omega

end

/-! ## What is reported -/

def Reports (result : ToolStatus × Option Report) (status : String) : Prop :=
  result.1 = .ok ∧ result.2.map Report.status = some status

instance (result : ToolStatus × Option Report) (status : String) :
    Decidable (Reports result status) :=
  inferInstanceAs (Decidable (_ ∧ _))

variable {status : ToolStatus} {report : Report}

theorem reports_iff {text : String} :
    Reports (status, some report) text ↔ status = .ok ∧ report.status = text := by
  rw [Reports, Option.map_some, Option.some.injEq]

/-- What a call for a path comes to, where `edits` tells what the workspace is like if the edit is
carried out. -/
structure Ends (config : Config) (path : Bytes) (files : Bytes → Option FileNode)
    (edits : (Bytes → Option FileNode) → Prop) (result : ToolStatus × Option Report)
    (after : World) : Prop where
  sizes : after.wrapped = false
  done : Reports result "completed" → after.troubled = false ∧ edits after.files
  refused : ¬Reports result "completed" → after.troubled = true ∨ ∀ files', ¬edits files'
  unchanged : ¬Reports result "completed" → ¬Reports result "cleanup_failed" → after.files = files
  leftover : Reports result "cleanup_failed" → ∃ place node, files place = none ∧
    config.locate path ≠ some place ∧ after.files = update files place (some node)

section

variable {config : Config} {path : Bytes} {files : Bytes → Option FileNode}
  {edits edits' : (Bytes → Option FileNode) → Prop} {result : ToolStatus × Option Report}
  {world after : World}

theorem Ends.imp (ends : Ends config path files edits result after)
    (same : ∀ files, edits files ↔ edits' files) :
    Ends config path files edits' result after where
  sizes := ends.sizes
  done := fun reports => (ends.done reports).imp_right (same _).mp
  refused := fun reports => (ends.refused reports).imp_right fun none files => none files ∘ (same _).mpr
  unchanged := ends.unchanged
  leftover := ends.leftover

/-- A result that says nothing of a commit or of a cleanup. -/
def Silent (result : ToolStatus × Option Report) : Prop :=
  ¬Reports result "completed" ∧ ¬Reports result "cleanup_failed"

theorem Ends.silent (silent : Silent result) (sizes : after.wrapped = false)
    (unchanged : after.files = files)
    (refused : after.troubled = true ∨ ∀ files', ¬edits files') :
    Ends config path files edits result after where
  sizes
  done := fun reports => absurd reports silent.1
  refused := fun _ => refused
  unchanged := fun _ _ => unchanged
  leftover := fun reports => absurd reports silent.2

theorem silent_of_status {report : Option Report} (failed : status ≠ .ok) :
    Silent (status, report) :=
  ⟨fun reports => failed reports.1, fun reports => failed reports.1⟩

theorem silent_of_report (completed : report.status ≠ "completed")
    (cleanup : report.status ≠ "cleanup_failed") : Silent (.ok, some report) :=
  ⟨fun reports => completed (reports_iff.mp reports).2,
    fun reports => cleanup (reports_iff.mp reports).2⟩

theorem silent_notCommitted : Silent (.ok, some notCommitted) :=
  silent_of_report (by decide) (by decide)

theorem silent_rejected (summary : String) : Silent (.ok, some (rejected summary)) :=
  silent_of_report (by change "rejected" ≠ "completed"; decide)
    (by change "rejected" ≠ "cleanup_failed"; decide)

/-! ## The staging file -/

variable {place : Bytes} {node : FileNode}

theorem removed_files (absent : files place = none)
    (staging : world.files = update files place (some node)) :
    update world.files place none = files := by
  rw [staging, Function.update_idem, ← absent, Function.update_eq_self]

variable {temporary : Bytes}

theorem unlink_wp (located : config.locate temporary = some place) (absent : files place = none)
    (beside : config.locate path ≠ some place) (silent : Silent (status, some report))
    (staging : Staging files place node world) (troubled : world.troubled = true) :
    (machine config).wp () (do
      let unlinked ← unlinkFile temporary
      if unlinked = false then pure (.ok, some cleanupFailed) else pure (status, some report))
      (Ends config path files edits) world := by
  refine wp_unlinkFile ?_ fun other found => ?_
  · rw [if_pos rfl]
    refine ⟨staging.sizes, fun reports => ?_, fun _ => .inl (note_false_troubled _), fun _ other => ?_,
      fun _ => ⟨place, node, absent, beside, staging.files⟩⟩
    · exact absurd (reports_iff.mp reports).2 (by decide)
    · exact absurd (reports_iff.mpr ⟨rfl, rfl⟩) other
  · obtain rfl := Option.some.inj (located.symm.trans found)
    exact .silent silent staging.sizes (removed_files absent staging.files) (.inl troubled)

theorem cleanUp_wp {opened : Bool} (located : config.locate temporary = some place)
    (absent : files place = none) (beside : config.locate path ≠ some place)
    (silent : Silent (status, some report)) (staging : ∃ node, Staging files place node world)
    (troubled : world.troubled = true) (writing : opened = true → world.writer = some place) :
    (machine config).wp () (cleanUp temporary opened true status report)
      (Ends config path files edits) world := by
  obtain ⟨node, staging⟩ := staging
  unfold cleanUp
  cases opened with
  | false => exact unlink_wp located absent beside silent staging troubled
  | true =>
      rw [if_pos rfl]
      refine wp_closeWrite (fun content => ?_) ?_
      · exact unlink_wp located absent beside silent
          ⟨filled_files world _ (writing rfl) staging.files,
            (filled_wrapped world _).trans staging.sizes⟩ (note_false_troubled _)
      · exact unlink_wp located absent beside silent ⟨staging.files, staging.sizes⟩ troubled

def replacedBy (files : Bytes → Option FileNode) (place content : Bytes) (mode : Nat) :
    Bytes → Option FileNode :=
  update files place (some ⟨content, true, mode⟩)

variable {content : Bytes}

theorem stage_wp {mode : Nat} (located : config.locate path = some place)
    (present : files place = some node) (small : content.length < 2 ^ 64) (calm : world.Calm files) :
    (machine config).wp () (stage path temporary content mode)
      (Ends config path files (· = replacedBy files place content mode)) world := by
  unfold stage
  refine wp_checked (fun status interrupted => ?_) ?_
  · exact .silent (silent_of_status interrupted) calm.sizes calm.files (.inl (note_false_troubled _))
  · refine wp_createFile ?_ fun staged found absent => ?_
    · exact .silent silent_notCommitted calm.sizes calm.files (.inl (note_false_troubled _))
    · rw [if_neg (by decide)]
      rw [calm.files] at absent
      have beside : config.locate path ≠ some staged := by
        intro same
        obtain rfl := Option.some.inj (located.symm.trans same)
        exact absurd (present.symm.trans absent) (by simp)
      refine Machine.wp_bind (Machine.wp_mono (writeLoop_wp small (Nat.zero_le _)
        ⟨by rw [calm.files, List.take_zero], calm.sizes⟩ calm.untroubled rfl) ?_)
      intro written after writing
      obtain ⟨file, staging, whole⟩ := writing.staging
      have opened := writing.opened
      cases written with
      | none =>
          exact cleanUp_wp found absent beside silent_notCommitted ⟨_, staging⟩
            (writing.failed (by simp)) fun _ => opened
      | some status =>
          simp only
          split
          next interrupted =>
            exact cleanUp_wp found absent beside (silent_of_status interrupted) ⟨_, staging⟩
              (writing.failed fun same => interrupted (Option.some.inj same)) fun _ => opened
          next clear =>
            obtain rfl := not_not.mp clear
            obtain rfl := whole rfl
            have untroubled := writing.written rfl
            refine wp_closeWrite (fun other => ?_) ?_
            · refine cleanUp_wp found absent beside silent_notCommitted ?_ ?_
                fun same => absurd same Bool.false_ne_true
              · exact ⟨_, filled_files after _ opened staging.files,
                  (filled_wrapped after _).trans staging.sizes⟩
              · exact note_false_troubled _
            · rw [if_neg (by decide)]
              refine wp_checked (fun status interrupted => ?_) ?_
              · refine cleanUp_wp found absent beside (silent_of_status interrupted) ?_ ?_
                  fun same => absurd same Bool.false_ne_true
                · exact ⟨_, staging.files, staging.sizes⟩
                · exact note_false_troubled _
              · refine wp_renameFile ?_ fun old new moved source target there => ?_
                · refine cleanUp_wp found absent beside silent_notCommitted ?_ ?_
                    fun same => absurd same Bool.false_ne_true
                  · exact ⟨_, staging.files, staging.sizes⟩
                  · exact note_false_troubled _
                · obtain rfl := Option.some.inj (found.symm.trans source)
                  obtain rfl := Option.some.inj (located.symm.trans target)
                  change after.files staged = some moved at there
                  rw [staging.files, Function.update_self] at there
                  obtain rfl := Option.some.inj there
                  refine ⟨staging.sizes, fun _ => ⟨untroubled, ?_⟩, fun other => ?_, fun other => ?_,
                    fun reports => ?_⟩
                  · change update (update after.files staged none) place _ = _
                    rw [removed_files absent staging.files]
                    rfl
                  · exact absurd (reports_iff.mpr ⟨rfl, rfl⟩) other
                  · exact absurd (reports_iff.mpr ⟨rfl, rfl⟩) other
                  · exact absurd (reports_iff.mp reports).2 (by decide)

theorem workspacePublish_wp (located : config.locate path = some place)
    (present : files place = some node) (small : content.length < 2 ^ 64) (calm : world.Calm files) :
    (machine config).wp () (workspacePublish config path content)
      (Ends config path files fun files' =>
        (path ≠ [] ∧ path.length ≤ config.pathLimit ∧ node.regular = true) ∧
          files' = replacedBy files place content (node.mode &&& 0o777)) world := by
  unfold workspacePublish
  split
  next invalid =>
    refine .silent (silent_rejected _) calm.sizes calm.files (.inr fun files' possible => ?_)
    rcases invalid with empty | long
    · exact possible.1.1 empty
    · exact absurd possible.1.2.1 (Nat.not_le.mpr long)
  next valid =>
    rw [not_or, Nat.not_lt] at valid
    refine wp_statPath ?_ fun other found => ?_
    · exact .silent (silent_rejected _) calm.sizes calm.files (.inl (note_false_troubled _))
    · obtain rfl := Option.some.inj (located.symm.trans found)
      rw [calm.files, present]
      simp only
      cases regular : node.regular with
      | false =>
          exact .silent (silent_rejected _) calm.sizes calm.files
            (.inr fun files' possible => absurd possible.1.2.2 (by decide))
      | true =>
          rw [if_neg (by decide)]
          refine wp_newUuid fun uuid => ?_
          cases uuid with
          | none =>
              change Ends config path files _ (.error, none) (world.note false)
              exact .silent (silent_of_status error_ne_ok) calm.sizes calm.files
                (.inl (note_false_troubled _))
          | some uuid =>
              rw [Option.isSome_some, note_true]
              refine Machine.wp_mono (stage_wp located present small calm) fun result after ends => ?_
              exact ends.imp fun files' => ⟨fun same => ⟨⟨valid.1, valid.2, rfl⟩, same⟩, And.right⟩

/-! ## The edit -/

/-- What it takes to carry out an edit, and what the file is then. -/
structure Edits (config : Config) (request : EditRequest) (files : Bytes → Option FileNode)
    (place : Bytes) (node : FileNode) (position : Nat) : Prop where
  located : config.locate request.path = some place
  present : files place = some node
  named : request.path ≠ []
  short : request.path.length ≤ config.pathLimit
  regular : node.regular = true
  readable : Readable config node.content
  once : OccursOnce request.oldText node.content position
  fits : node.content.length - request.oldText.length + request.newText.length ≤
    config.maxWriteBytes

def replacement (content : Bytes) (request : EditRequest) (position : Nat) : Bytes :=
  content.take position ++ request.newText ++ content.drop (position + request.oldText.length)

def Edited (config : Config) (request : EditRequest) (files files' : Bytes → Option FileNode) :
    Prop :=
  ∃ place node position, Edits config request files place node position ∧
    files' = replacedBy files place (replacement node.content request position) (node.mode &&& 0o777)

theorem replacement_length {request : EditRequest} {position : Nat}
    (within : position + request.oldText.length ≤ content.length) :
    (replacement content request position).length =
      content.length - request.oldText.length + request.newText.length := by
  rw [replacement, List.length_append, List.length_append, List.length_take, List.length_drop]
  omega

theorem spliced_eq {request : EditRequest} {position tail : Nat}
    (all : tail = content.length - position - request.oldText.length) :
    spliced content request position tail = replacement content request position := by
  have rest : (content.drop (position + request.oldText.length)).take tail =
      content.drop (position + request.oldText.length) := by
    refine List.take_of_length_le ?_
    rw [List.length_drop]
    omega
  rw [spliced, rest, replacement]

theorem workspaceEdit_wp (request : EditRequest) (calm : world.Calm files) :
    (machine config).wp () (workspaceEdit config request)
      (Ends config request.path files (Edited config request files)) world := by
  have bounded := config.bounded
  unfold workspaceEdit
  refine Machine.wp_bind (Machine.wp_mono (workspaceRead_wp request.path calm) ?_)
  rintro ⟨status, original⟩ after reading
  -- A file that was not read for another reason than a failure cannot be edited.
  have refused : status ≠ .ok →
      after.troubled = true ∨ ∀ files', ¬Edited config request files files' := by
    intro failed
    refine (reading.refused failed).imp_right ?_
    rintro unreadable files' ⟨place, node, position, edits, -⟩
    exact unreadable place node edits.located edits.present edits.readable
  simp only
  split
  next failed =>
    subst failed
    exact .silent (silent_of_report (by decide) (by decide)) reading.sizes reading.unchanged
      (refused error_ne_ok)
  split
  next interrupted =>
    exact .silent (silent_of_status interrupted) reading.sizes reading.unchanged
      (refused interrupted)
  next clear =>
    obtain ⟨untroubled, place, node, located, present, readable, rfl⟩ :=
      reading.read (not_not.mp clear)
    -- Whatever edit is possible is one of this file.
    have same : ∀ {place' node' position}, Edits config request files place' node' position →
        place' = place ∧ node' = node := by
      intro place' node' position edits
      obtain rfl := Option.some.inj (located.symm.trans edits.located)
      exact ⟨rfl, Option.some.inj (edits.present.symm.trans present)⟩
    refine wp_checked (fun status interrupted => ?_) ?_
    · exact .silent (silent_of_status interrupted) reading.sizes reading.unchanged
        (.inl (note_false_troubled _))
    · cases found : onlyMatch request.oldText node.content with
      | none =>
          refine .silent (silent_of_report (by decide) (by decide)) reading.sizes
            reading.unchanged (.inr ?_)
          rintro files' ⟨place', node', position, edits, -⟩
          obtain ⟨rfl, rfl⟩ := same edits
          exact absurd (found.symm.trans (onlyMatch_eq_some.mpr edits.once)) (by simp)
      | some position =>
          have once := onlyMatch_eq_some.mp found
          have within := once.within
          have fit := readable.1
          have behind : sizeSub node.content.length position = node.content.length - position :=
            sizeSub_eq (by omega) (by omega)
          have total : sizeSub node.content.length request.oldText.length =
              node.content.length - request.oldText.length := sizeSub_eq (by omega) (by omega)
          simp only
          refine wp_sizes (by omega) ?_
          refine wp_sizes (by omega) ?_
          refine wp_sizes (by omega) ?_
          refine wp_sizes (by omega) ?_
          have room : sizeSub config.maxWriteBytes
              (sizeSub node.content.length request.oldText.length) =
              config.maxWriteBytes - (node.content.length - request.oldText.length) := by
            rw [total]
            exact sizeSub_eq (by omega) (by omega)
          rw [room]
          split
          next large =>
            refine .silent (silent_rejected _) reading.sizes reading.unchanged (.inr ?_)
            rintro files' ⟨place', node', position', edits, -⟩
            obtain ⟨rfl, rfl⟩ := same edits
            have fits := edits.fits
            omega
          next fits =>
            have tail : sizeSub (sizeSub node.content.length position) request.oldText.length =
                node.content.length - position - request.oldText.length := by
              rw [behind]
              exact sizeSub_eq (by omega) (by omega)
            rw [spliced_eq tail]
            have length := replacement_length within
            refine Machine.wp_mono (workspacePublish_wp located present (by omega)
              ⟨reading.unchanged, untroubled, reading.sizes⟩) fun result after ends => ?_
            refine ends.imp fun files' => ?_
            constructor
            · rintro ⟨⟨named, short, regular⟩, rfl⟩
              exact ⟨place, node, position, ⟨located, present, named, short, regular, readable, once,
                by omega⟩, rfl⟩
            · rintro ⟨place', node', position', edits, rfl⟩
              obtain ⟨rfl, rfl⟩ := same edits
              obtain rfl := edits.once.only position once.here
              exact ⟨⟨edits.named, edits.short, edits.regular⟩, rfl⟩

/-- The arguments are admitted, and the edit is carried out. -/
def Carried (config : Config) (request : EditRequest) (files files' : Bytes → Option FileNode) :
    Prop :=
  config.admits request = true ∧ Edited config request files files'

theorem workspaceInvoke_wp (request : EditRequest) (calm : world.Calm files) :
    (machine config).wp () (workspaceInvoke config request)
      (Ends config request.path files (Carried config request files)) world := by
  unfold workspaceInvoke
  refine wp_checked (fun status interrupted => ?_) ?_
  · exact .silent (silent_of_status interrupted) calm.sizes calm.files (.inl (note_false_troubled _))
  · cases admitted : config.admits request with
    | false =>
        exact .silent (silent_rejected _) calm.sizes calm.files
          (.inr fun files' carried => absurd (admitted.symm.trans carried.1) (by decide))
    | true =>
        rw [if_neg (by decide)]
        refine Machine.wp_bind (Machine.wp_mono (workspaceEdit_wp request calm) ?_)
        rintro ⟨status, report⟩ after ends
        -- A report that is dropped says nothing.
        have kept : ∀ text, Reports (status, if status = .ok then report else none) text ↔
            Reports (status, report) text := by
          intro text
          split
          next => exact Iff.rfl
          next failed =>
            exact iff_of_false (fun reports => failed reports.1) fun reports => failed reports.1
        have ends : Ends config request.path files (Carried config request files) (status, report)
            after := ends.imp fun files' => ⟨fun edited => ⟨admitted, edited⟩, And.right⟩
        exact ⟨ends.sizes, ends.done ∘ (kept _).mp, fun other => ends.refused (other ∘ (kept _).mpr),
          fun other other' => ends.unchanged (other ∘ (kept _).mpr) (other' ∘ (kept _).mpr),
          ends.leftover ∘ (kept _).mp⟩

end

/-! ## A file system in which nothing fails by itself -/

/-- The answers of a file system that does what it is asked if it can. -/
def serve (config : Config) : (op : Op) → World → Answer op × World
  | .control, world => (⟨.clear, false⟩, world)
  | .openRead path, world =>
      match (config.locate path).bind world.files with
      | none => (false, world.note false)
      | some node => (true, { world with reader := some node.content })
  | .read size, world =>
      match world.reader with
      | none => (none, world.note false)
      | some left =>
          if size = 0 then (none, world.note false)
          else (some (left.take size), { world with reader := some (left.drop size) })
  | .closeRead, world => (true, { world with reader := none })
  | .stat path, world =>
      match config.locate path with
      | none => (.refused, world.note false)
      | some place =>
          (match world.files place with
            | none => .missing
            | some node => .found node.regular node.mode, world)
  | .uuid, world => (some [48], world)
  | .createFile path mode, world =>
      match config.locate path with
      | none => (false, world.note false)
      | some place =>
          if world.files place = none then
            (true, { world with
              files := update world.files place (some ⟨[], true, mode⟩)
              writer := some place })
          else (false, world.note false)
  | .write bytes, world =>
      if bytes = [] then ((0 : Int), (world.filled id).note false)
      else ((bytes.length : Int), world.filled (· ++ bytes.take bytes.length))
  | .close, world => (true, { world with writer := none })
  | .rename source target, world =>
      match config.locate source, config.locate target with
      | some old, some new =>
          match world.files old with
          | none => (false, world.note false)
          | some node => (true, { world with
              files := update (update world.files old none) new (some node) })
      | _, _ => (false, world.note false)
  | .unlink path, world =>
      match config.locate path with
      | none => (false, world.note false)
      | some place => (true, { world with files := update world.files place none })
  | .sizes minuend subtrahend, world =>
      (⟨⟩, { world with wrapped := world.wrapped || decide (minuend < subtrahend) })

theorem serve_performs (config : Config) (op : Op) (world : World) :
    Performs config op world (serve config op world).1 (serve config op world).2 := by
  cases op with
  | control => exact (note_true world).symm
  | openRead path =>
      simp only [serve]
      split
      next => exact .inl ⟨rfl, rfl⟩
      next node found =>
        obtain ⟨place, located, present⟩ := Option.bind_eq_some_iff.mp found
        exact .inr ⟨rfl, place, node, located, present, rfl⟩
  | read size =>
      simp only [serve]
      split
      next => exact .inl ⟨rfl, rfl⟩
      next left opened =>
        split
        next => exact .inl ⟨rfl, rfl⟩
        next some_size =>
          refine .inr ⟨left.take size, left.drop size, rfl, ?_, List.length_take_le size left, ?_, rfl⟩
          · rw [opened, List.take_append_drop]
          · intro none
            rw [List.take_eq_nil_iff] at none
            rw [none.resolve_left some_size, List.drop_nil]
  | closeRead => exact (note_true _).symm
  | stat path =>
      simp only [serve]
      split
      next => exact .inl ⟨rfl, rfl⟩
      next place located => exact .inr ⟨place, located, rfl, rfl⟩
  | uuid => exact (note_true world).symm
  | createFile path mode =>
      simp only [serve]
      split
      next => exact .inl ⟨rfl, rfl⟩
      next place located =>
        split
        next absent => exact .inr ⟨rfl, place, located, absent, rfl⟩
        next => exact .inl ⟨rfl, rfl⟩
  | write bytes =>
      simp only [serve]
      split
      next => exact .inl ⟨rfl, id, rfl⟩
      next filled =>
        exact .inr ⟨by simpa using List.length_pos_of_ne_nil filled, by simp, by simp⟩
  | close => exact .inr ⟨rfl, rfl⟩
  | rename source target =>
      simp only [serve]
      split
      next old new located located' =>
        split
        next => exact .inl ⟨rfl, rfl⟩
        next node present => exact .inr ⟨rfl, old, new, node, located, located', present, rfl⟩
      next => exact .inl ⟨rfl, rfl⟩
  | unlink path =>
      simp only [serve]
      split
      next => exact .inl ⟨rfl, rfl⟩
      next place located => exact .inr ⟨rfl, place, located, rfl⟩
  | sizes minuend subtrahend => rfl

theorem serve_run (config : Config) (request : EditRequest) (world : World) :
    (machine config).Outcome () (workspaceInvoke config request) world
      ((workspaceInvoke config request).eval (serve config) world).1
      ((workspaceInvoke config request).eval (serve config) world).2 :=
  Machine.Outcome.of_eval (M := machine config) (serve config) (serve_performs config) _ world

/-- An edit is exact and atomic, whatever fails and whenever it is to end. -/
theorem workspaceInvoke_exact (config : Config) (request : EditRequest) (world after : World)
    (result : ToolStatus × Option Report) (untroubled : world.troubled = false)
    (sizes : world.wrapped = false)
    (run : (machine config).Outcome () (workspaceInvoke config request) world result after) :
    (Reports result "completed" ↔
      (∃ files, Carried config request world.files files) ∧ after.troubled = false) ∧
    (Reports result "completed" → Carried config request world.files after.files) ∧
    (¬Reports result "completed" → ∀ place, config.locate request.path = some place →
      after.files place = world.files place) ∧
    (¬Reports result "completed" → ¬Reports result "cleanup_failed" →
      after.files = world.files) ∧
    after.wrapped = false := by
  have ends := run.of_wp (workspaceInvoke_wp request ⟨rfl, untroubled, sizes⟩)
  refine ⟨⟨fun reports => ?_, fun possible => ?_⟩, fun reports => (ends.done reports).2,
    fun other place located => ?_, ends.unchanged, ends.sizes⟩
  · exact ⟨⟨_, (ends.done reports).2⟩, (ends.done reports).1⟩
  · by_contra other
    obtain ⟨⟨files, carried⟩, fine⟩ := possible
    rcases ends.refused other with troubled | none
    · exact absurd (fine.symm.trans troubled) Bool.false_ne_true
    · exact none files carried
  · by_cases left : Reports result "cleanup_failed"
    · obtain ⟨staging, node, -, beside, files⟩ := ends.leftover left
      have apart : place ≠ staging := fun same => beside (same ▸ located)
      rw [files, Function.update_of_ne apart]
    · rw [ends.unchanged other left]

/-- Texts of two bytes at most, at the places that their paths name. -/
def sampleConfig : Config where
  maxWriteBytes := 2
  pathLimit := 8
  utf8Valid := fun text => text.all fun byte => byte < 128
  locate := some
  bounded := by omega

/-- A workspace with one file, named `a`. -/
def sampleWorld (content : Bytes) : World where
  files := fun place => if place = [97] then some ⟨content, true, 0o600⟩ else none
  reader := none
  writer := none
  troubled := false
  wrapped := false

/-- Replace `bc` by nothing. -/
def sampleRequest : EditRequest := ⟨[97], [98, 99], []⟩

/-- The run of the sample, when no step fails. -/
def sampleEnd : (ToolStatus × Option Report) × World :=
  (workspaceInvoke sampleConfig sampleRequest).eval (serve sampleConfig) (sampleWorld [98, 99])

theorem workspaceInvoke_exact_sample : Reports sampleEnd.1 "completed" ∧
    Carried sampleConfig sampleRequest (sampleWorld [98, 99]).files sampleEnd.2.files ∧
    sampleEnd.2.wrapped = false := by
  have reports : Reports sampleEnd.1 "completed" := by decide +kernel
  obtain ⟨-, carried, -, -, sizes⟩ := workspaceInvoke_exact sampleConfig sampleRequest
    (sampleWorld [98, 99]) sampleEnd.2 sampleEnd.1 rfl rfl (serve_run _ _ _)
  exact ⟨reports, carried reports, sizes⟩

/-- The text to be replaced stands once in `abc` and the result `a` fits, but no run is completed:
the file is longer than what may be written. -/
theorem longText_refused : OccursOnce [98, 99] [97, 98, 99] 1 ∧
    (replacement [97, 98, 99] sampleRequest 1).length ≤ sampleConfig.maxWriteBytes ∧
    (∃ result after, (machine sampleConfig).Outcome () (workspaceInvoke sampleConfig sampleRequest)
      (sampleWorld [97, 98, 99]) result after) ∧
    ∀ result after, (machine sampleConfig).Outcome () (workspaceInvoke sampleConfig sampleRequest)
      (sampleWorld [97, 98, 99]) result after → ¬Reports result "completed" := by
  refine ⟨onlyMatch_eq_some.mp (by decide), by decide, ⟨_, _, serve_run _ _ _⟩, ?_⟩
  intro result after run reports
  have ends := run.of_wp (workspaceInvoke_wp sampleRequest ⟨rfl, rfl, rfl⟩)
  obtain ⟨-, place, node, position, edits, -⟩ := (ends.done reports).2
  obtain rfl : [97] = place := Option.some.inj edits.located
  obtain rfl : ⟨[97, 98, 99], true, 0o600⟩ = node := Option.some.inj edits.present
  exact absurd edits.readable.1 (by decide)

end TurboAgent.Workspace
