import TurboAgent.RuntimeStore.Refinement
import TurboAgent.SnapshotStore.Model

/-!
# The names of snapshot files

A store stands for a partial function from ids to texts.  The store in memory lists exactly the
ids that have a text.  The store in files does so up to the empty id: `.json` is too short for
the filter of the list, although `save` and `delete` take it.  An id whose file name or path is
too long for the system cannot be saved.
-/

namespace TurboAgent.SnapshotStore

open Logic.FileTree
open RuntimeStore (Reading Fresh isListed sampleSystem sampleRoot sampleReading)
open Function (update update_apply update_of_ne update_self)

/-! ## Contents -/

abbrev Contents := Id → Option CString

namespace Contents

def perform (contents : Contents) : Operation → Contents
  | .save snapshotId snapshotJson => update contents snapshotId (some snapshotJson)
  | .delete snapshotId => update contents snapshotId none

def accept (contents : Contents) (call : Operation × Bool) : Contents :=
  if call.2 then contents.perform call.1 else contents

end Contents

def contentsOf (operations : List Operation) : Contents :=
  operations.foldl Contents.perform fun _ => none

def acceptedOf (calls : List (Operation × Bool)) : Contents :=
  calls.foldl Contents.accept fun _ => none

/-- A list call gives exactly the ids that have a text, each once. -/
def Listed (answer : Option (List (Option Id))) (contents : Contents) : Prop :=
  ∃ listed, answer = some listed ∧ listed.Nodup ∧
    ∀ entry, entry ∈ listed ↔ ∃ snapshotId, entry = some snapshotId ∧ contents snapshotId ≠ none

def ListedAlike (left right : Option (List (Option Id))) : Prop :=
  ∃ listed listed', left = some listed ∧ right = some listed' ∧ listed.Perm listed'

section Answers

variable {answer answer' : Option (List (Option Id))} {contents contents' : Contents}

theorem Listed.iff_same (lists : Listed answer contents) :
    Listed answer contents' ↔
      ∀ snapshotId, contents snapshotId ≠ none ↔ contents' snapshotId ≠ none := by
  obtain ⟨listed, rfl, distinct, mem⟩ := lists
  constructor
  · rintro ⟨again, same, -, mem'⟩ snapshotId
    cases same
    have both := (mem (some snapshotId)).symm.trans (mem' (some snapshotId))
    simpa using both
  · intro same
    refine ⟨listed, rfl, distinct, fun entry => ?_⟩
    rw [mem]
    simp only [same]

theorem Listed.alike_iff (lists : Listed answer contents) (lists' : Listed answer' contents') :
    ListedAlike answer answer' ↔
      ∀ snapshotId, contents snapshotId ≠ none ↔ contents' snapshotId ≠ none := by
  rw [← lists.iff_same]
  obtain ⟨listed, rfl, distinct, mem⟩ := lists
  obtain ⟨listed', rfl, distinct', mem'⟩ := lists'
  constructor
  · rintro ⟨_, _, same, same', perm⟩
    cases same
    cases same'
    exact ⟨listed, rfl, distinct, fun entry => (perm.mem_iff).trans (mem' entry)⟩
  · rintro ⟨_, same, -, memAgain⟩
    cases same
    refine ⟨listed, listed', rfl, rfl, ?_⟩
    rw [List.perm_ext_iff_of_nodup distinct distinct']
    exact fun entry => (memAgain entry).trans (mem' entry).symm

end Answers

/-! ## The store in memory -/

section Memory

variable {records : List Record} {snapshotId : Id} {snapshotJson : CString}

theorem memoryLoad_cons (record : Record) (records : List Record) (snapshotId : Id) :
    memoryLoad (record :: records) snapshotId =
      if record.snapshotId = snapshotId then some record.snapshotJson
      else memoryLoad records snapshotId := by
  by_cases same : record.snapshotId = snapshotId <;> simp [memoryLoad, memoryFind, same]

theorem memoryLoad_eq_none :
    memoryLoad records snapshotId = none ↔ snapshotId ∉ records.map Record.snapshotId := by
  simp [memoryLoad, memoryFind]

theorem memoryFind_eq_none :
    memoryFind records snapshotId = none ↔ memoryLoad records snapshotId = none :=
  Option.map_eq_none_iff.symm

theorem replaceJson_ids (snapshotId : Id) (snapshotJson : CString) (records : List Record) :
    (replaceJson snapshotId snapshotJson records).map Record.snapshotId =
      records.map Record.snapshotId := by
  induction records with
  | nil => rfl
  | cons record records ih =>
      rw [replaceJson]
      split
      next => rfl
      next => rw [List.map_cons, List.map_cons, ih]

theorem memoryLoad_replaceJson (present : memoryLoad records snapshotId ≠ none) :
    memoryLoad (replaceJson snapshotId snapshotJson records) =
      update (memoryLoad records) snapshotId (some snapshotJson) := by
  funext other
  induction records with
  | nil => exact absurd rfl present
  | cons record records ih =>
      rw [replaceJson]
      by_cases here : record.snapshotId = snapshotId
      · rw [if_pos here, memoryLoad_cons, ← here]
        by_cases same : record.snapshotId = other
        · rw [if_pos same, same, update_self]
        · rw [if_neg same, update_of_ne (Ne.symm same), memoryLoad_cons, if_neg same]
      · rw [memoryLoad_cons, if_neg here] at present
        rw [if_neg here, memoryLoad_cons, ih present]
        by_cases same : record.snapshotId = other
        · have elsewhere : other ≠ snapshotId := same ▸ here
          rw [if_pos same, update_of_ne elsewhere, memoryLoad_cons, if_pos same]
        · rw [if_neg same, update_apply, update_apply, memoryLoad_cons,
            if_neg same]

theorem memoryLoad_save (snapshotId : Id) (snapshotJson : CString) (records : List Record) :
    memoryLoad (memorySave records snapshotId snapshotJson).1 =
      update (memoryLoad records) snapshotId (some snapshotJson) := by
  rw [memorySave]
  split
  next record found =>
    apply memoryLoad_replaceJson
    rw [memoryLoad, found]
    exact Option.some_ne_none _
  next =>
    funext other
    rw [memoryLoad_cons, update_apply]
    simp only [eq_comm]

theorem memoryLoad_eraseP (distinct : (records.map Record.snapshotId).Nodup) :
    memoryLoad (records.eraseP fun record => record.snapshotId = snapshotId) =
      update (memoryLoad records) snapshotId none := by
  funext other
  induction records with
  | nil => simp [memoryLoad, memoryFind, update_apply]
  | cons record records ih =>
      rw [List.map_cons, List.nodup_cons] at distinct
      rw [List.eraseP_cons]
      by_cases here : record.snapshotId = snapshotId
      · rw [decide_eq_true here, cond_true, ← here]
        by_cases same : other = record.snapshotId
        · rw [same, update_self]
          exact memoryLoad_eq_none.mpr distinct.1
        · rw [update_of_ne same, memoryLoad_cons, if_neg (Ne.symm same)]
      · rw [decide_eq_false here, cond_false, memoryLoad_cons, ih distinct.2]
        by_cases same : record.snapshotId = other
        · have elsewhere : other ≠ snapshotId := same ▸ here
          rw [if_pos same, update_of_ne elsewhere, memoryLoad_cons, if_pos same]
        · rw [if_neg same, update_apply, update_apply, memoryLoad_cons,
            if_neg same]

/-- A list of records stands for what it finds. -/
structure Keeps (records : List Record) (contents : Contents) : Prop where
  distinct : (records.map Record.snapshotId).Nodup
  finds : memoryLoad records = contents

theorem Keeps.perform {contents : Contents} (keeps : Keeps records contents)
    (operation : Operation) :
    Keeps (perform memoryStore records operation).1 (contents.perform operation) := by
  obtain ⟨distinct, rfl⟩ := keeps
  cases operation with
  | save snapshotId snapshotJson =>
      refine ⟨?_, memoryLoad_save snapshotId snapshotJson records⟩
      change ((memorySave records snapshotId snapshotJson).1.map Record.snapshotId).Nodup
      rw [memorySave]
      split
      next => rwa [replaceJson_ids]
      next missing =>
        have absent := memoryLoad_eq_none.mp (memoryFind_eq_none.mp missing)
        exact List.nodup_cons.mpr ⟨absent, distinct⟩
  | delete snapshotId =>
      change Keeps (memoryDelete records snapshotId).1 _
      rw [memoryDelete]
      split
      next =>
        exact ⟨distinct.sublist (List.eraseP_sublist.map _), memoryLoad_eraseP distinct⟩
      next missing =>
        have absent := memoryFind_eq_none.mp missing
        exact ⟨distinct, (Function.update_eq_self_iff.mpr absent.symm).symm⟩

theorem Keeps.run (operations : List Operation) :
    ∀ {records : List Record} {contents : Contents}, Keeps records contents →
      Keeps (run memoryStore records operations).1
        (operations.foldl Contents.perform contents) := by
  induction operations with
  | nil => exact fun keeps => keeps
  | cons operation operations ih => exact fun keeps => ih (keeps.perform operation)

theorem Keeps.listed {contents : Contents} (keeps : Keeps records contents) :
    Listed (memoryList records) contents := by
  have asMap : (records.map fun record => some record.snapshotId) =
      (records.map Record.snapshotId).map some := by
    rw [List.map_map]
    rfl
  refine ⟨_, rfl, ?_, ?_⟩
  · rw [asMap]
    exact keeps.distinct.map (Option.some_injective _)
  · intro entry
    rw [← keeps.finds]
    simp only [ne_eq, memoryLoad_eq_none, not_not, List.mem_map]
    constructor
    · rintro ⟨record, member, rfl⟩
      exact ⟨_, rfl, record, member, rfl⟩
    · rintro ⟨_, rfl, record, member, rfl⟩
      exact ⟨record, member, rfl⟩

end Memory

/-! ## Names of files -/

def emptyId : Id :=
  ⟨[], by simp⟩

theorem cText_val (snapshotId : Id) : cText snapshotId.val = snapshotId := by
  apply Subtype.ext
  rw [cText, List.takeWhile_eq_self_iff]
  intro byte member
  have nonzero : byte ≠ 0 := by
    rintro rfl
    exact snapshotId.property member
  exact decide_eq_true nonzero

theorem fileName_length (snapshotId : Id) :
    (fileName snapshotId).length = (hexEncode snapshotId.val).length + 5 := by
  rw [fileName, List.length_append]
  rfl

theorem take_fileName (snapshotId : Id) :
    (fileName snapshotId).take ((fileName snapshotId).length - 5) =
      hexEncode snapshotId.val := by
  rw [fileName_length, Nat.add_sub_cancel, fileName, List.take_left]

theorem hexDecode_fileName (snapshotId : Id) :
    hexDecode ((fileName snapshotId).take ((fileName snapshotId).length - 5)) =
      some snapshotId.val := by
  rw [take_fileName]
  exact Memory.hexDecode_hexEncode snapshotId.val

theorem fileName_injective : Function.Injective fileName := by
  intro left right same
  have decoded := hexDecode_fileName left
  rw [same, hexDecode_fileName] at decoded
  exact Subtype.ext (Option.some.inj decoded).symm

theorem hexEncode_length (text : Bytes) : (hexEncode text).length = 2 * text.length := by
  induction text with
  | nil => rfl
  | cons byte text ih =>
      have pair : (hexEncode (byte :: text)).length = 2 + (hexEncode text).length := by
        rw [hexEncode, Memory.hexEncode, List.flatMap_cons, List.length_append]
        rfl
      rw [pair, ih, List.length_cons]
      omega

variable {snapshotId : Id}

theorem isListed_fileName : isListed (fileName snapshotId) = true ↔ snapshotId ≠ emptyId := by
  have long : ¬(fileName snapshotId).length < 6 ↔ snapshotId ≠ emptyId := by
    have nonempty : snapshotId.val = [] ↔ snapshotId = emptyId :=
      ⟨fun empty => Subtype.ext empty, fun same => congrArg Subtype.val same⟩
    rw [fileName_length, hexEncode_length, ne_eq, ← nonempty, ← List.length_eq_zero_iff]
    omega
  have suffix : (asciiBytes ".json").isSuffixOf (fileName snapshotId) = true := by
    rw [List.isSuffixOf_iff_suffix]
    exact List.suffix_append _ _
  rw [isListed, suffix, Bool.and_true, Bool.not_eq_true', decide_eq_false_iff_not, long]

theorem fileListAppend_fileName (snapshotId : Id) :
    fileListAppend (fileName snapshotId) =
      some (if snapshotId = emptyId then [] else [some snapshotId]) := by
  rw [fileListAppend]
  by_cases same : snapshotId = emptyId
  · rw [if_pos same, if_neg (fun listed => isListed_fileName.mp listed same)]
  · rw [if_neg same, if_pos (isListed_fileName.mpr same), hexDecode_fileName, Option.map_some,
      cText_val]

theorem isName_fileName (snapshotId : Id) : IsName (fileName snapshotId) := by
  have long := fileName_length snapshotId
  refine ⟨?_, ?_, ?_, ?_⟩
  · intro empty
    rw [empty, List.length_nil] at long
    omega
  · rw [fileName, List.mem_append]
    rintro (inside | inside)
    · obtain ⟨value, small, isSlash⟩ := Memory.mem_hexEncode inside
      have code := congrArg UInt8.toNat isSlash
      rw [Memory.hexDigit_toNat small] at code
      have slashCode : slash.toNat = 47 := rfl
      split at code <;> omega
    · exact absurd inside (by decide)
  · intro isDot
    rw [isDot] at long
    exact absurd long (by simp [dot])
  · intro isDotdot
    rw [isDotdot] at long
    exact absurd long (by simp [dotdot])

/-! ## The store in files -/

/-- The file system can hold the file of an id. -/
structure Fits (system : System) (rootDir : Bytes) (snapshotId : Id) : Prop where
  short : (fileName snapshotId).length ≤ system.nameMax
  shortPath : (snapshotPath rootDir snapshotId).length < system.pathMax

instance (system : System) (rootDir : Bytes) : DecidablePred (Fits system rootDir) :=
  fun snapshotId => decidable_of_iff ((fileName snapshotId).length ≤ system.nameMax ∧
      (snapshotPath rootDir snapshotId).length < system.pathMax)
    ⟨fun both => ⟨both.1, both.2⟩, fun fits => ⟨fits.1, fits.2⟩⟩

def Contents.within (contents : Contents) (system : System) (rootDir : Bytes) : Contents :=
  fun snapshotId => if Fits system rootDir snapshotId then contents snapshotId else none

section Files

variable {system : System} {rootDir : Bytes} {place : Place} {disk : Disk CString}
  {contents : Contents} {snapshotId : Id}

theorem within_of_fits (fits : Fits system rootDir snapshotId) :
    contents.within system rootDir snapshotId = contents snapshotId :=
  if_pos fits

theorem within_update_of_fits (fits : Fits system rootDir snapshotId) (value : Option CString) :
    Contents.within (update contents snapshotId value) system rootDir =
      update (contents.within system rootDir) snapshotId value := by
  funext other
  by_cases same : other = snapshotId
  · rw [same, within_of_fits fits, update_self, update_self]
  · simp only [Contents.within, update_of_ne same]

theorem within_update_of_not_fits (long : ¬Fits system rootDir snapshotId)
    (value : Option CString) :
    Contents.within (update contents snapshotId value) system rootDir =
      contents.within system rootDir := by
  funext other
  rw [Contents.within, Contents.within]
  by_cases same : other = snapshotId
  · rw [same, if_neg long, if_neg long]
  · rw [update_of_ne same]

/-- The directory of snapshots has the files of a store and nothing else. -/
structure Holds (system : System) (rootDir : Bytes) (place : Place) (disk : Disk CString)
    (contents : Contents) : Prop where
  located : disk.locate system (snapshotDir rootDir) = .ok place
  directory : disk.node place = some .directory
  files : ∀ name node, disk.node (name :: place) = some node ↔
    ∃ snapshotId snapshotJson, contents snapshotId = some snapshotJson ∧
      fileName snapshotId = name ∧ node = .file snapshotJson

theorem Holds.node (holds : Holds system rootDir place disk contents) (snapshotId : Id) :
    disk.node (fileName snapshotId :: place) = (contents snapshotId).map Node.file := by
  ext node
  rw [holds.files, Option.map_eq_some_iff]
  constructor
  · rintro ⟨other, snapshotJson, found, same, rfl⟩
    cases fileName_injective same
    exact ⟨snapshotJson, found, rfl⟩
  · rintro ⟨snapshotJson, found, rfl⟩
    exact ⟨snapshotId, snapshotJson, found, rfl, rfl⟩

theorem Holds.locate (holds : Holds system rootDir place disk contents)
    (fits : Fits system rootDir snapshotId) :
    disk.locate system (snapshotPath rootDir snapshotId) = .ok (fileName snapshotId :: place) :=
  (Disk.resolves_of_locate holds.located holds.directory).locate (isName_fileName snapshotId)
    fits.short fits.shortPath

theorem fits_of_locate {there : Place}
    (located : disk.locate system (snapshotPath rootDir snapshotId) = .ok there) :
    Fits system rootDir snapshotId := by
  have nonempty : snapshotDir rootDir ≠ [] := below_ne_nil _ _
  obtain ⟨-, -, -, short⟩ :=
    Disk.resolves_of_locate_below (isName_fileName snapshotId) nonempty located
  have nonemptyPath : snapshotPath rootDir snapshotId ≠ [] := below_ne_nil _ _
  refine ⟨short, ?_⟩
  rw [Disk.locate, if_neg nonemptyPath] at located
  split at located
  next => cases located
  next shortPath => exact Nat.not_le.mp shortPath

theorem Holds.absent (holds : Holds system rootDir place disk contents) (snapshotId : Id) :
    disk.node (fileName snapshotId :: place) ≠ some .directory := by
  rw [holds.node]
  cases contents snapshotId <;> simp

theorem Holds.change {after : Disk CString} {value : Option CString}
    (holds : Holds system rootDir place disk contents) (grows : disk.Grows after)
    (node : ∀ other, after.node other =
      if other = fileName snapshotId :: place then value.map Node.file else disk.node other) :
    Holds system rootDir place after (update contents snapshotId value) := by
  refine ⟨grows.locate holds.located, grows place holds.directory, ?_⟩
  intro name there
  rw [node]
  split
  next here =>
    obtain ⟨rfl, -⟩ := List.cons.inj here
    rw [Option.map_eq_some_iff]
    constructor
    · rintro ⟨snapshotJson, rfl, rfl⟩
      exact ⟨snapshotId, snapshotJson, update_self _ _ _, rfl, rfl⟩
    · rintro ⟨other, snapshotJson, found, same, rfl⟩
      cases fileName_injective same
      rw [update_self] at found
      exact ⟨snapshotJson, found, rfl⟩
  next elsewhere =>
    rw [holds.files]
    apply exists_congr
    intro other
    apply exists_congr
    intro snapshotJson
    apply and_congr_left
    rintro ⟨rfl, -⟩
    have different : other ≠ snapshotId := by
      rintro rfl
      exact elsewhere rfl
    rw [update_of_ne different]

theorem Holds.save (holds : Holds system rootDir place disk contents)
    (fits : Fits system rootDir snapshotId) (snapshotJson : CString) :
    fileSave system rootDir disk snapshotId snapshotJson =
      (disk.set (fileName snapshotId :: place) (.file snapshotJson), true) := by
  rw [fileSave, Disk.write, holds.locate fits]
  dsimp only
  cases there : disk.node (fileName snapshotId :: place) with
  | none => rfl
  | some node =>
      cases node with
      | directory => exact absurd there (holds.absent snapshotId)
      | file content => rfl

theorem Holds.delete (holds : Holds system rootDir place disk contents)
    (fits : Fits system rootDir snapshotId) :
    fileDelete system rootDir disk snapshotId =
      if (contents snapshotId).isSome then (disk.erase (fileName snapshotId :: place), true)
      else (disk, false) := by
  rw [fileDelete, Disk.remove, holds.locate fits]
  dsimp only
  rw [holds.node]
  cases contents snapshotId <;> rfl

theorem refused (long : ¬Fits system rootDir snapshotId) (disk : Disk CString)
    (snapshotJson : CString) :
    fileSave system rootDir disk snapshotId snapshotJson = (disk, false) ∧
      fileDelete system rootDir disk snapshotId = (disk, false) := by
  rw [fileSave, fileDelete, Disk.write, Disk.remove]
  cases located : disk.locate system (snapshotPath rootDir snapshotId) with
  | ok there => exact absurd (fits_of_locate located) long
  | error error => exact ⟨rfl, rfl⟩

theorem Holds.perform (holds : Holds system rootDir place disk (contents.within system rootDir))
    (reading : Reading) (operation : Operation) :
    Holds system rootDir place (perform (fileStore system rootDir reading) disk operation).1
        ((contents.perform operation).within system rootDir) ∧
      (contents.within system rootDir).accept
          (operation, (perform (fileStore system rootDir reading) disk operation).2) =
        (contents.perform operation).within system rootDir := by
  cases operation with
  | save snapshotId snapshotJson =>
      change Holds _ _ _ (fileSave system rootDir disk snapshotId snapshotJson).1 _ ∧
        Contents.accept _ (_, (fileSave system rootDir disk snapshotId snapshotJson).2) = _
      rw [Contents.perform]
      by_cases fits : Fits system rootDir snapshotId
      · rw [holds.save fits, within_update_of_fits fits]
        refine ⟨holds.change (Disk.grows_set (holds.absent _) _) fun other => ?_, rfl⟩
        exact Disk.node_set (List.cons_ne_nil _ _) other
      · rw [(refused fits disk snapshotJson).1, within_update_of_not_fits fits]
        exact ⟨holds, rfl⟩
  | delete snapshotId =>
      change Holds _ _ _ (fileDelete system rootDir disk snapshotId).1 _ ∧
        Contents.accept _ (_, (fileDelete system rootDir disk snapshotId).2) = _
      rw [Contents.perform]
      by_cases fits : Fits system rootDir snapshotId
      · rw [holds.delete fits, within_update_of_fits fits]
        cases there : contents.within system rootDir snapshotId with
        | none =>
            rw [Function.update_eq_self_iff.mpr there.symm]
            exact ⟨holds, rfl⟩
        | some snapshotJson =>
            refine ⟨holds.change (Disk.grows_erase (holds.absent _)) fun other => ?_, rfl⟩
            exact Disk.node_erase (List.cons_ne_nil _ _) other
      · rw [(refused fits disk ⟨"", noNul_empty⟩).2, within_update_of_not_fits fits]
        exact ⟨holds, rfl⟩

theorem Holds.run (reading : Reading) (operations : List Operation) :
    ∀ {disk : Disk CString} {contents : Contents},
      Holds system rootDir place disk (contents.within system rootDir) →
      Holds system rootDir place (run (fileStore system rootDir reading) disk operations).1
          ((operations.foldl Contents.perform contents).within system rootDir) ∧
        (run (fileStore system rootDir reading) disk operations).2.foldl Contents.accept
            (contents.within system rootDir) =
          (operations.foldl Contents.perform contents).within system rootDir := by
  induction operations with
  | nil => exact fun holds => ⟨holds, rfl⟩
  | cons operation operations ih =>
      intro disk contents holds
      obtain ⟨after, accepted⟩ := holds.perform reading operation
      obtain ⟨last, all⟩ := ih after
      refine ⟨last, ?_⟩
      rw [SnapshotStore.run, List.foldl_cons, accepted]
      exact all

theorem Holds.entries (holds : Holds system rootDir place disk contents) :
    ∃ ids : List Id, disk.entries place = ids.map fileName ∧ ids.Nodup ∧
      ∀ snapshotId, snapshotId ∈ ids ↔ contents snapshotId ≠ none := by
  have named : disk.entries place ∈ Set.range (List.map fileName) := by
    rw [Set.range_list_map]
    intro name member
    obtain ⟨node, there⟩ := Disk.mem_entries.mp member
    obtain ⟨snapshotId, -, -, same, -⟩ := (holds.files name node).mp there
    exact ⟨snapshotId, same⟩
  obtain ⟨ids, isMap⟩ := named
  refine ⟨ids, isMap.symm, ?_, ?_⟩
  · have distinct := Disk.entries_nodup disk place
    rw [← isMap] at distinct
    exact distinct.of_map
  · intro snapshotId
    rw [← List.mem_map_of_injective fileName_injective, isMap, Disk.mem_entries, holds.node]
    cases contents snapshotId <;> simp

theorem mapM_fileListAppend (ids : List Id) :
    (ids.map fileName).mapM fileListAppend =
      some (ids.map fun snapshotId =>
        if snapshotId = emptyId then [] else [some snapshotId]) := by
  induction ids with
  | nil => rfl
  | cons snapshotId ids ih =>
      rw [List.map_cons, List.mapM_cons, fileListAppend_fileName, ih]
      rfl

theorem mem_flatten_append {ids : List Id} {entry : Option Id} :
    entry ∈ (ids.map fun snapshotId =>
        if snapshotId = emptyId then [] else [some snapshotId]).flatten ↔
      ∃ snapshotId ∈ ids, snapshotId ≠ emptyId ∧ entry = some snapshotId := by
  rw [List.mem_flatten]
  constructor
  · rintro ⟨_, member, inside⟩
    obtain ⟨snapshotId, isId, rfl⟩ := List.mem_map.mp member
    split at inside
    next => cases inside
    next nonempty => exact ⟨snapshotId, isId, nonempty, List.mem_singleton.mp inside⟩
  · rintro ⟨snapshotId, isId, nonempty, rfl⟩
    refine ⟨[some snapshotId], List.mem_map.mpr ⟨snapshotId, isId, if_neg nonempty⟩, ?_⟩
    exact List.mem_singleton_self _

theorem flatten_append_nodup {ids : List Id} (distinct : ids.Nodup) :
    (ids.map fun snapshotId =>
      if snapshotId = emptyId then [] else [some snapshotId]).flatten.Nodup := by
  induction ids with
  | nil => exact List.nodup_nil
  | cons snapshotId ids ih =>
      rw [List.nodup_cons] at distinct
      rw [List.map_cons, List.flatten_cons]
      split
      next => exact ih distinct.2
      rw [List.singleton_append, List.nodup_cons, mem_flatten_append]
      refine ⟨?_, ih distinct.2⟩
      rintro ⟨other, member, -, same⟩
      exact distinct.1 (Option.some.inj same ▸ member)

theorem Holds.listed (holds : Holds system rootDir place disk contents) (reading : Reading) :
    Listed (fileList system rootDir reading disk) (update contents emptyId none) := by
  obtain ⟨ids, isMap, distinct, mem⟩ := holds.entries
  have dots : (dot :: dotdot :: ids.map fileName).mapM fileListAppend =
      some ([] :: [] :: ids.map fun snapshotId =>
        if snapshotId = emptyId then [] else [some snapshotId]) := by
    rw [List.mapM_cons, List.mapM_cons, mapM_fileListAppend]
    rfl
  have ordered := Lists.mapM_perm (f := fileListAppend)
    (reading.perm (dot :: dotdot :: ids.map fileName))
  rw [dots] at ordered
  rw [fileList, Disk.readDirectory, holds.located]
  dsimp only
  rw [holds.directory, isMap]
  dsimp only
  cases found : (reading.order (dot :: dotdot :: ids.map fileName)).mapM fileListAppend with
  | none =>
      rw [found] at ordered
      cases ordered
  | some parts =>
      rw [found] at ordered
      obtain perm : parts.Perm _ := by
        cases ordered
        assumption
      have flat := perm.flatten
      rw [List.flatten_cons, List.flatten_cons, List.nil_append, List.nil_append] at flat
      refine ⟨_, rfl, flat.nodup_iff.mpr (flatten_append_nodup distinct), ?_⟩
      intro entry
      rw [flat.mem_iff, mem_flatten_append]
      constructor
      · rintro ⟨snapshotId, isId, nonempty, rfl⟩
        refine ⟨snapshotId, rfl, ?_⟩
        rw [update_of_ne nonempty]
        exact (mem snapshotId).mp isId
      · rintro ⟨snapshotId, rfl, present⟩
        have nonempty : snapshotId ≠ emptyId := by
          rintro rfl
          exact present (update_self _ _ _)
        rw [update_of_ne nonempty] at present
        exact ⟨snapshotId, (mem snapshotId).mpr present, nonempty, rfl⟩

end Files

/-! ## New stores -/

section Creation

variable {system : System} {rootDir : Bytes} {disk created : Disk CString}

theorem isName_snapshots : IsName (asciiBytes "snapshots") :=
  ⟨by decide, by decide, by decide, by decide⟩

/-- A store that was created with an empty root directory holds no snapshot. -/
theorem fileCreate_holds (fresh : Fresh system rootDir disk)
    (creates : fileCreate system rootDir disk = (created, true)) :
    ∃ place, Holds system rootDir place created fun _ => none := by
  obtain ⟨withRoot, rootMade, creates⟩ := RuntimeStore.ensureDirs_cons creates
  obtain ⟨withSnapshots, snapshotsMade, creates⟩ := RuntimeStore.ensureDirs_cons creates
  obtain rfl : withSnapshots = created := congrArg Prod.fst creates
  obtain ⟨place, located, grows, after⟩ := Disk.mkdir_cases (RuntimeStore.ensureDir_made rootMade)
  obtain ⟨there, found, growsAgain, last⟩ :=
    Disk.mkdir_cases (RuntimeStore.ensureDir_made snapshotsMade)
  have nonempty : rootDir ≠ [] := by
    rintro rfl
    cases rootMade
  obtain ⟨parent, resolves, rfl, -⟩ :=
    Disk.resolves_of_locate_below isName_snapshots nonempty found
  obtain rfl : place = parent := resolves.unique (grows.locate located)
  have empty : ∀ names, names ≠ [] → withRoot.node (names ++ place) = none := by
    intro names some
    rw [after, if_neg fun both => some (List.append_left_eq_self.mp both.1)]
    exact fresh place located names some
  have directory : withSnapshots.node (asciiBytes "snapshots" :: place) = some .directory := by
    rw [last, if_pos ⟨rfl, empty [asciiBytes "snapshots"] (List.cons_ne_nil _ _)⟩]
  refine ⟨asciiBytes "snapshots" :: place, growsAgain.locate found, directory, ?_⟩
  intro name node
  have absent := empty [name, asciiBytes "snapshots"] (List.cons_ne_nil _ _)
  rw [last, if_neg fun both => List.cons_ne_self _ _ both.1]
  rw [List.cons_append, List.singleton_append] at absent
  simp [absent]

end Creation

theorem within_none (system : System) (rootDir : Bytes) :
    Contents.within (fun _ => none) system rootDir = fun _ => none :=
  funext fun _ => ite_self _

theorem within_ne_none {contents : Contents} {system : System} {rootDir : Bytes} :
    contents.within system rootDir snapshotId ≠ none ↔
      Fits system rootDir snapshotId ∧ contents snapshotId ≠ none := by
  rw [Contents.within]
  split
  next fits => exact (and_iff_right fits).symm
  next long => exact iff_of_false (fun some => some rfl) fun both => long both.1

theorem listable_iff {contents : Contents} :
    update contents emptyId none snapshotId ≠ none ↔
      snapshotId ≠ emptyId ∧ contents snapshotId ≠ none := by
  rw [update_apply]
  split
  next empty => exact iff_of_false (fun some => some rfl) fun both => both.1 empty
  next nonempty => exact (and_iff_right nonempty).symm

/-- A name in hexadecimal digits tells its id, and the filter knows every name but that of the
empty id.  So after any calls on new stores the one in memory lists exactly the ids that are saved
and not deleted, and the one in files does so as well, unless the empty id is among them.  Both
list the same ids if no other id is too long for a file either. -/
theorem listedNames_exact (system : System) (rootDir : Bytes) {disk created : Disk CString}
    (fresh : Fresh system rootDir disk) (creates : fileCreate system rootDir disk = (created, true))
    (reading : Reading) (operations : List Operation) :
    (∀ snapshotId : Id, hexDecode (hexEncode snapshotId.val) = some snapshotId.val ∧
      (isListed (fileName snapshotId) = true ↔ snapshotId ≠ emptyId)) ∧
    Listed (memoryStore.list (run memoryStore [] operations).1) (contentsOf operations) ∧
    (Listed ((fileStore system rootDir reading).list
          (run (fileStore system rootDir reading) created operations).1)
        (acceptedOf (run (fileStore system rootDir reading) created operations).2) ↔
      ¬(contentsOf operations emptyId ≠ none ∧ Fits system rootDir emptyId)) ∧
    (ListedAlike
        ((fileStore system rootDir reading).list
          (run (fileStore system rootDir reading) created operations).1)
        (memoryStore.list (run memoryStore [] operations).1) ↔
      ∀ snapshotId, contentsOf operations snapshotId ≠ none →
        snapshotId ≠ emptyId ∧ Fits system rootDir snapshotId) := by
  obtain ⟨place, empty⟩ := fileCreate_holds fresh creates
  rw [← within_none system rootDir] at empty
  obtain ⟨holds, accepted⟩ := empty.run reading operations
  have none : Keeps [] fun _ => none := ⟨List.nodup_nil, rfl⟩
  have keeps := Keeps.run operations none
  have inFiles := holds.listed reading
  rw [within_none] at accepted
  refine ⟨fun snapshotId => ⟨Memory.hexDecode_hexEncode _, isListed_fileName⟩, keeps.listed, ?_, ?_⟩
  · rw [acceptedOf, accepted]
    refine inFiles.iff_same.trans ?_
    simp only [listable_iff, within_ne_none]
    constructor
    · rintro same ⟨present, fits⟩
      exact ((same emptyId).mpr ⟨fits, present⟩).1 rfl
    · rintro absent snapshotId
      constructor
      · exact And.right
      · rintro ⟨fits, present⟩
        refine ⟨?_, fits, present⟩
        rintro rfl
        exact absent ⟨present, fits⟩
  · refine (inFiles.alike_iff keeps.listed).trans ?_
    simp only [listable_iff, within_ne_none]
    constructor
    · intro same snapshotId present
      obtain ⟨nonempty, fits, -⟩ := (same snapshotId).mpr present
      exact ⟨nonempty, fits⟩
    · intro all snapshotId
      constructor
      · exact fun listed => listed.2.2
      · intro present
        obtain ⟨nonempty, fits⟩ := all snapshotId present
        exact ⟨nonempty, fits, present⟩

/-- The store that is created on an empty disk. -/
def sampleDisk : Disk CString :=
  (fileCreate sampleSystem sampleRoot ⟨∅⟩).1

theorem sampleDisk_created : fileCreate sampleSystem sampleRoot ⟨∅⟩ = (sampleDisk, true) :=
  Prod.ext rfl (by decide)

def sampleId : Id := ⟨asciiBytes "s1", by decide⟩

def sampleText : CString := ⟨"text", by decide⟩

/-- One id is saved twice, another one is deleted again. -/
def sampleOperations : List Operation :=
  [.save sampleId sampleText, .save ⟨asciiBytes "s2", by decide⟩ sampleText,
    .save sampleId ⟨"other", by decide⟩, .delete ⟨asciiBytes "s2", by decide⟩]

theorem listedNames_exact_sample :
    ListedAlike
      ((fileStore sampleSystem sampleRoot sampleReading).list
        (run (fileStore sampleSystem sampleRoot sampleReading) sampleDisk sampleOperations).1)
      (memoryStore.list (run memoryStore [] sampleOperations).1) := by
  obtain ⟨-, -, -, alike⟩ := listedNames_exact sampleSystem sampleRoot
    (RuntimeStore.fresh_empty sampleSystem sampleRoot) sampleDisk_created sampleReading
    sampleOperations
  rw [alike]
  intro snapshotId present
  have isSample : snapshotId = sampleId := by
    by_contra other
    simp [contentsOf, sampleOperations, Contents.perform, update_apply, other] at present
  rw [isSample]
  decide

/-- The empty id is saved in both stores, and only the one in memory lists it. -/
theorem emptyId_not_listed :
    Fresh sampleSystem sampleRoot ⟨∅⟩ ∧
    fileCreate sampleSystem sampleRoot ⟨∅⟩ = (sampleDisk, true) ∧
    (run (fileStore sampleSystem sampleRoot sampleReading) sampleDisk
      [.save emptyId sampleText]).2 = [(.save emptyId sampleText, true)] ∧
    (fileStore sampleSystem sampleRoot sampleReading).list
        (run (fileStore sampleSystem sampleRoot sampleReading) sampleDisk
          [.save emptyId sampleText]).1 = some [] ∧
    memoryStore.list (run memoryStore [] [.save emptyId sampleText]).1 = some [some emptyId] ∧
    ¬Listed ((fileStore sampleSystem sampleRoot sampleReading).list
        (run (fileStore sampleSystem sampleRoot sampleReading) sampleDisk
          [.save emptyId sampleText]).1)
      (acceptedOf (run (fileStore sampleSystem sampleRoot sampleReading) sampleDisk
        [.save emptyId sampleText]).2) := by
  have saved : (run (fileStore sampleSystem sampleRoot sampleReading) sampleDisk
      [.save emptyId sampleText]).2 = [(.save emptyId sampleText, true)] := by decide
  have files : (fileStore sampleSystem sampleRoot sampleReading).list
      (run (fileStore sampleSystem sampleRoot sampleReading) sampleDisk
        [.save emptyId sampleText]).1 = some [] := by decide
  refine ⟨RuntimeStore.fresh_empty _ _, sampleDisk_created, saved, files, by decide, ?_⟩
  rw [files, saved]
  rintro ⟨_, same, -, mem⟩
  cases same
  exact absurd ((mem (some emptyId)).mpr ⟨emptyId, rfl, by decide⟩) List.not_mem_nil

end TurboAgent.SnapshotStore
