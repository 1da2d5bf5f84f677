import TurboAgent.Logic.Lists
import TurboAgent.RuntimeStore.Model

/-!
# The store in files behaves as the store in memory

As long as a collection is a name that stands for an entry of a directory, and an id is a
non-empty text without a slash, the file of a record is its own: two records never share one,
and none is a directory that another record needs.  Then every call on a store in files that
started with an empty root directory has the answer of the store in memory, and lists differ
in their order at most.

Other names do not have the property: `..` and the slash lead to the files of other collections,
and the file of an empty id is passed over in lists.
-/

namespace TurboAgent.RuntimeStore

open Logic.FileTree
open Provider (JsonCodec)

/-! ## Names of records -/

/-- A collection that has a directory of its own. -/
structure IsCollection (system : System) (rootDir collection : Bytes) : Prop where
  isName : IsName collection
  short : collection.length ≤ system.nameMax
  shortPath : (joinPath rootDir collection).length < system.pathMax

/-- An id that has a file of its own in the directory of a collection. -/
structure IsId (system : System) (rootDir collection id : Bytes) : Prop where
  nonempty : id ≠ []
  plain : slash ∉ id
  short : (fileName id).length ≤ system.nameMax
  shortPath : (recordPath rootDir collection id).length < system.pathMax

/-- A call whose collection and id are parts of a path. -/
def Operation.Addressed (system : System) (rootDir : Bytes) : Operation → Prop
  | .put collection id _ =>
      IsCollection system rootDir collection ∧ IsId system rootDir collection id
  | .get collection id =>
      IsCollection system rootDir collection ∧ IsId system rootDir collection id
  | .list collection _ _ => IsCollection system rootDir collection

/-- Answers that differ in the order of their records at most. -/
inductive Answer.Agrees (codec : JsonCodec) : Answer → Answer → Prop where
  | status (status : Status) : Agrees codec (.status status) (.status status)
  | record (found : Except Status Json) : Agrees codec (.record found) (.record found)
  | failed : Agrees codec (.records none) (.records none)
  | records {left right : List Json} (perm : left.Perm right) :
      Agrees codec (.records (parseArray codec (codec.serialize (.array left))))
        (.records (parseArray codec (codec.serialize (.array right))))

theorem Answer.Agrees.eq_of_record {codec : JsonCodec} {left right : Except Status Json}
    (agrees : Answer.Agrees codec (.record left) (.record right)) : left = right := by
  cases agrees
  rfl

theorem joinPath_ne_nil (left right : Bytes) : joinPath left right ≠ [] :=
  below_ne_nil left right

theorem fileName_injective : Function.Injective fileName :=
  fun _ _ same => List.append_cancel_right same

theorem IsId.isName {system : System} {rootDir collection id : Bytes}
    (isId : IsId system rootDir collection id) : IsName (fileName id) := by
  have long : 2 < (fileName id).length := by
    rw [fileName, List.length_append]
    exact Nat.lt_add_left _ (by decide)
  refine ⟨?_, ?_, ?_, ?_⟩
  · intro empty
    rw [empty] at long
    exact absurd long (by decide)
  · rw [fileName, List.mem_append]
    rintro (inside | inside)
    · exact isId.plain inside
    · exact absurd inside (by decide)
  · intro isDot
    rw [isDot] at long
    exact absurd long (by decide)
  · intro isDotdot
    rw [isDotdot] at long
    exact absurd long (by decide)

theorem isListed_fileName {id : Bytes} (nonempty : id ≠ []) : isListed (fileName id) = true := by
  have long : ¬(fileName id).length < 6 := by
    have := List.length_pos_iff.mpr nonempty
    have extension : (asciiBytes ".json").length = 5 := rfl
    rw [fileName, List.length_append, extension]
    omega
  rw [isListed, decide_eq_false long, Bool.not_false, Bool.true_and, List.isSuffixOf_iff_suffix]
  exact List.suffix_append _ _

/-! ## The list of records -/

def Record.key (record : Record) : Bytes × Bytes :=
  (record.collection, record.id)

variable {record : Record}

theorem named_iff {collection id : Bytes} :
    record.named collection id = true ↔ record.key = (collection, id) := by
  rw [Record.named, Record.key, Bool.and_eq_true, decide_eq_true_eq, decide_eq_true_eq,
    Prod.mk.injEq]

section Puts

variable {records : List Record} {collection id : Bytes} {recordJson : CString}

theorem replaceJson_keys (collection id : Bytes) (recordJson : CString) (records : List Record) :
    (replaceJson collection id recordJson records).map Record.key = records.map Record.key := by
  induction records with
  | nil => rfl
  | cons record records ih =>
      rw [replaceJson]
      split
      next => rfl
      next => rw [List.map_cons, List.map_cons, ih]

theorem mem_replaceJson (distinct : (records.map Record.key).Nodup)
    (present : (collection, id) ∈ records.map Record.key) :
    record ∈ replaceJson collection id recordJson records ↔
      record = ⟨collection, id, recordJson⟩ ∨
        record ∈ records ∧ record.key ≠ (collection, id) := by
  induction records with
  | nil => cases present
  | cons first records ih =>
      rw [List.map_cons, List.nodup_cons] at distinct
      have others : ∀ other ∈ records, other.key ≠ first.key := by
        intro other member same
        exact distinct.1 (same ▸ List.mem_map_of_mem member)
      rw [replaceJson]
      split
      next named =>
        have key : first.key = (collection, id) := named_iff.mp named
        obtain ⟨rfl, rfl⟩ := Prod.mk.inj key
        rw [List.mem_cons]
        constructor
        · rintro (rfl | later)
          · exact .inl rfl
          · exact .inr ⟨List.mem_cons_of_mem _ later, others record later⟩
        · rintro (rfl | ⟨member, different⟩)
          · exact .inl rfl
          · rcases List.mem_cons.mp member with rfl | later
            · exact absurd rfl different
            · exact .inr later
      next unnamed =>
        have different : first.key ≠ (collection, id) := fun key => unnamed (named_iff.mpr key)
        have later : (collection, id) ∈ records.map Record.key := by
          rcases List.mem_cons.mp present with here | later
          · exact absurd here.symm different
          · exact later
        rw [List.mem_cons, ih distinct.2 later, List.mem_cons]
        constructor
        · rintro (rfl | rfl | ⟨member, other⟩)
          · exact .inr ⟨.inl rfl, different⟩
          · exact .inl rfl
          · exact .inr ⟨.inr member, other⟩
        · rintro (rfl | ⟨rfl | member, other⟩)
          · exact .inr (.inl rfl)
          · exact .inl rfl
          · exact .inr (.inr ⟨member, other⟩)

theorem any_named : records.any (·.named collection id) = true ↔
    (collection, id) ∈ records.map Record.key := by
  rw [List.any_eq_true, List.mem_map]
  simp only [named_iff]

theorem memoryPut_spec (distinct : (records.map Record.key).Nodup) (collection id : Bytes)
    (recordJson : CString) :
    (memoryPut records collection id recordJson).2 = .ok ∧
    ((memoryPut records collection id recordJson).1.map Record.key).Nodup ∧
    ∀ record, record ∈ (memoryPut records collection id recordJson).1 ↔
      record = ⟨collection, id, recordJson⟩ ∨
        record ∈ records ∧ record.key ≠ (collection, id) := by
  unfold memoryPut
  split
  next present =>
    rw [any_named] at present
    refine ⟨rfl, ?_, fun record => mem_replaceJson distinct present⟩
    rw [replaceJson_keys]
    exact distinct
  next absent =>
    rw [any_named] at absent
    refine ⟨rfl, List.nodup_cons.mpr ⟨absent, distinct⟩, ?_⟩
    intro record
    rw [List.mem_cons]
    apply or_congr Iff.rfl
    constructor
    · intro member
      exact ⟨member, fun key => absent (key ▸ List.mem_map_of_mem member)⟩
    · exact And.left

theorem memoryGet_of_mem (distinct : (records.map Record.key).Nodup) (member : record ∈ records) :
    memoryGet records record.collection record.id = .ok record.recordJson := by
  have found : records.find? (·.named record.collection record.id) = some record := by
    cases search : records.find? (·.named record.collection record.id) with
    | none =>
        have unnamed := List.find?_eq_none.mp search record member
        exact absurd (named_iff.mpr rfl) unnamed
    | some other =>
        have named : other.named record.collection record.id = true :=
          by
          simpa using List.find?_some search
        rw [List.inj_on_of_nodup_map distinct (List.mem_of_find?_eq_some search) member
          (named_iff.mp named)]
  rw [memoryGet, found]

theorem memoryGet_of_absent (absent : (collection, id) ∉ records.map Record.key) :
    memoryGet records collection id = .error .enoent := by
  have unnamed : records.find? (·.named collection id) = none := by
    rw [List.find?_eq_none]
    intro record member named
    exact absent (named_iff.mp named ▸ List.mem_map_of_mem member)
  rw [memoryGet, unnamed]

theorem memoryGet_put_ne (distinct : (records.map Record.key).Nodup) {other otherId : Bytes}
    (different : (other, otherId) ≠ (collection, id)) (recordJson : CString) :
    memoryGet (memoryPut records collection id recordJson).1 other otherId =
      memoryGet records other otherId := by
  obtain ⟨-, distinctAfter, mem⟩ := memoryPut_spec distinct collection id recordJson
  by_cases present : (other, otherId) ∈ records.map Record.key
  · obtain ⟨record, member, key⟩ := List.mem_map.mp present
    obtain ⟨rfl, rfl⟩ := Prod.mk.inj key
    rw [memoryGet_of_mem distinct member,
      memoryGet_of_mem distinctAfter ((mem record).mpr (.inr ⟨member, different⟩))]
  · rw [memoryGet_of_absent present, memoryGet_of_absent]
    intro after
    obtain ⟨record, member, key⟩ := List.mem_map.mp after
    rcases (mem record).mp member with rfl | ⟨old, -⟩
    · exact different key.symm
    · exact present (List.mem_map.mpr ⟨record, old, key⟩)

end Puts

/-! ## The relation between the stores -/

section Simulation

variable {system : System} {rootDir : Bytes} {place : Place}

/-- The files below a root directory are those of the records. -/
structure Holds (system : System) (rootDir : Bytes) (place : Place) (disk : Disk CString)
    (records : List Record) : Prop where
  root : disk.Resolves system rootDir place
  distinct : (records.map Record.key).Nodup
  addressed : ∀ record ∈ records, IsCollection system rootDir record.collection ∧
    IsId system rootDir record.collection record.id
  directories : ∀ collection node, disk.node (collection :: place) = some node →
    node = .directory
  kept : ∀ record ∈ records, disk.node (record.collection :: place) = some .directory
  files : ∀ collection name node, disk.node (name :: collection :: place) = some node ↔
    ∃ record ∈ records, record.collection = collection ∧ fileName record.id = name ∧
      node = .file record.recordJson

variable {disk : Disk CString} {records : List Record} {collection id : Bytes}

theorem file_ne_directory (name collection other : Bytes) (place : Place) :
    name :: collection :: place ≠ other :: place := by
  intro same
  exact List.cons_ne_self _ _ (List.cons.inj same).2

theorem ensureDir_made {made : Disk CString} {path : Bytes}
    (ensured : ensureDir system disk path = (made, true)) :
    disk.mkdir system path = .ok made ∨
      disk.mkdir system path = .error .eexist ∧ made = disk := by
  rw [ensureDir] at ensured
  split at ensured
  next => cases ensured
  split at ensured
  next done =>
    cases ensured
    exact .inl done
  next taken =>
    cases ensured
    exact .inr ⟨taken, rfl⟩
  next => cases ensured

theorem Holds.ensured {made : Disk CString} (holds : Holds system rootDir place disk records)
    (isName : IsName collection)
    (ensured : ensureDir system disk (joinPath rootDir collection) = (made, true)) :
    Holds system rootDir place made records ∧
      made.node (collection :: place) = some .directory := by
  obtain ⟨there, located, grows, after⟩ := Disk.mkdir_cases (ensureDir_made ensured)
  obtain ⟨parent, resolves, rfl, -⟩ :=
    Disk.resolves_of_locate_below isName holds.root.nonempty located
  obtain rfl : parent = place := by
    have walks := resolves.walks
    rw [holds.root.walks] at walks
    exact (Except.ok.inj walks).symm
  refine ⟨⟨holds.root.grows grows, holds.distinct, holds.addressed, ?_, ?_, ?_⟩, ?_⟩
  · intro other node there
    rw [after] at there
    split at there
    next => exact (Option.some.inj there).symm
    next => exact holds.directories other node there
  · intro record member
    exact grows _ (holds.kept record member)
  · intro other name node
    rw [after, if_neg fun both => file_ne_directory name other collection parent both.1]
    exact holds.files other name node
  · rw [after]
    split
    next => rfl
    next present =>
      cases taken : disk.node (collection :: parent) with
      | none => exact absurd ⟨rfl, taken⟩ present
      | some node => rw [holds.directories _ _ taken]

/-- The directory of a collection is made when the collection gets its first record. -/
theorem Holds.withCollection (holds : Holds system rootDir place disk records)
    (isCollection : IsCollection system rootDir collection) :
    ∃ made, ensureDir system disk (joinPath rootDir collection) = (made, true) ∧
      Holds system rootDir place made records ∧
      made.node (collection :: place) = some .directory := by
  have located : disk.locate system (joinPath rootDir collection) = .ok (collection :: place) :=
    holds.root.locate isCollection.isName isCollection.short isCollection.shortPath
  have ensures : ∃ made, ensureDir system disk (joinPath rootDir collection) = (made, true) := by
    rw [ensureDir, if_neg (joinPath_ne_nil _ _), Disk.mkdir, located]
    dsimp only
    cases disk.node (collection :: place) with
    | none => exact ⟨_, rfl⟩
    | some node => exact ⟨_, rfl⟩
  obtain ⟨made, ensures⟩ := ensures
  exact ⟨made, ensures, holds.ensured isCollection.isName ensures⟩

theorem Holds.write (holds : Holds system rootDir place disk records)
    (isCollection : IsCollection system rootDir collection)
    (isId : IsId system rootDir collection id)
    (directory : disk.node (collection :: place) = some .directory) (recordJson : CString) :
    ∃ written, disk.write system (recordPath rootDir collection id) recordJson = .ok written ∧
      Holds system rootDir place written (memoryPut records collection id recordJson).1 := by
  have resolves := holds.root.below isCollection.isName isCollection.short directory
  have located : disk.locate system (recordPath rootDir collection id) =
      .ok (fileName id :: collection :: place) :=
    resolves.locate isId.isName isId.short isId.shortPath
  have absent : disk.node (fileName id :: collection :: place) ≠ some .directory := by
    intro isDirectory
    obtain ⟨record, -, -, -, isFile⟩ := (holds.files _ _ _).mp isDirectory
    cases isFile
  have writes : disk.write system (recordPath rootDir collection id) recordJson =
      .ok (disk.set (fileName id :: collection :: place) (.file recordJson)) := by
    rw [Disk.write, located]
    dsimp only
    split
    next isDirectory => exact absurd isDirectory absent
    next => rfl
  have grows := Disk.grows_set absent (.file recordJson)
  have after : ∀ other,
      (disk.set (fileName id :: collection :: place) (.file recordJson)).node other =
        if other = fileName id :: collection :: place then some (.file recordJson)
        else disk.node other := Disk.node_set (List.cons_ne_nil _ _)
  obtain ⟨-, distinct, mem⟩ := memoryPut_spec holds.distinct collection id recordJson
  refine ⟨_, writes, ⟨holds.root.grows grows, distinct, ?_, ?_, ?_, ?_⟩⟩
  · intro record member
    rcases (mem record).mp member with rfl | ⟨old, -⟩
    · exact ⟨isCollection, isId⟩
    · exact holds.addressed record old
  · intro other node there
    rw [after, if_neg (file_ne_directory _ _ other place).symm] at there
    exact holds.directories other node there
  · intro record member
    rcases (mem record).mp member with rfl | ⟨old, -⟩
    · exact grows _ directory
    · exact grows _ (holds.kept record old)
  · intro other name node
    rw [after]
    split
    next same =>
      obtain ⟨rfl, rest⟩ := List.cons.inj same
      obtain ⟨rfl, -⟩ := List.cons.inj rest
      constructor
      · intro here
        exact ⟨_, (mem _).mpr (.inl rfl), rfl, rfl, (Option.some.inj here).symm⟩
      · rintro ⟨record, member, sameCollection, sameFile, rfl⟩
        rcases (mem record).mp member with isNew | ⟨-, different⟩
        · rw [isNew]
        · exact absurd (Prod.ext sameCollection (fileName_injective sameFile)) different
    next elsewhere =>
      rw [holds.files]
      apply exists_congr
      intro record
      rw [mem]
      constructor
      · rintro ⟨member, rfl, rfl, content⟩
        refine ⟨.inr ⟨member, ?_⟩, rfl, rfl, content⟩
        intro key
        obtain ⟨rfl, rfl⟩ := Prod.mk.inj key
        exact elsewhere rfl
      · rintro ⟨rfl | ⟨member, -⟩, rfl, rfl, content⟩
        · exact absurd rfl elsewhere
        · exact ⟨member, rfl, rfl, content⟩

theorem Holds.get (holds : Holds system rootDir place disk records)
    (isCollection : IsCollection system rootDir collection)
    (isId : IsId system rootDir collection id) :
    fileGet system rootDir disk collection id = memoryGet records collection id := by
  rw [fileGet, readTextFile, Disk.read]
  cases there : disk.node (collection :: place) with
  | none =>
      have absent : (collection, id) ∉ records.map Record.key := by
        intro member
        obtain ⟨record, inside, key⟩ := List.mem_map.mp member
        obtain ⟨rfl, -⟩ := Prod.mk.inj key
        have kept := holds.kept record inside
        rw [there] at kept
        cases kept
      have located : disk.locate system (recordPath rootDir collection id) = .error .enoent :=
        holds.root.locate_absent isCollection.isName isId.isName isCollection.short
          isId.shortPath there
      rw [located, memoryGet_of_absent absent]
  | some node =>
      cases holds.directories _ _ there
      have resolves := holds.root.below isCollection.isName isCollection.short there
      have located : disk.locate system (recordPath rootDir collection id) =
          .ok (fileName id :: collection :: place) :=
        resolves.locate isId.isName isId.short isId.shortPath
      rw [located]
      dsimp only
      cases file : disk.node (fileName id :: collection :: place) with
      | some node =>
          obtain ⟨record, member, rfl, sameFile, rfl⟩ := (holds.files _ _ _).mp file
          cases fileName_injective sameFile
          rw [memoryGet_of_mem holds.distinct member]
      | none =>
          have absent : (collection, id) ∉ records.map Record.key := by
            intro member
            obtain ⟨record, inside, key⟩ := List.mem_map.mp member
            obtain ⟨rfl, rfl⟩ := Prod.mk.inj key
            have isFile := (holds.files _ _ _).mpr ⟨record, inside, rfl, rfl, rfl⟩
            rw [file] at isFile
            cases isFile
          rw [memoryGet_of_absent absent]

/-- The listed names of a directory are the files of the records of its collection. -/
theorem Holds.listed (holds : Holds system rootDir place disk records) (reading : Reading)
    (collection : Bytes) :
    ((reading.order (dot :: dotdot :: disk.entries (collection :: place))).filter isListed).Perm
      ((records.filter fun record => record.collection = collection).map fun record =>
        fileName record.id) := by
  have dots : (dot :: dotdot :: disk.entries (collection :: place)).filter isListed =
      (disk.entries (collection :: place)).filter isListed := by
    rw [List.filter_cons_of_neg (by decide), List.filter_cons_of_neg (by decide)]
  have ordered := (reading.perm (dot :: dotdot :: disk.entries (collection :: place))).filter
    isListed
  rw [dots] at ordered
  apply ordered.trans
  have distinctFiles : ((records.filter fun record => record.collection = collection).map
      fun record => fileName record.id).Nodup := by
    apply List.Nodup.map_on _ (holds.distinct.of_map.filter _)
    intro left leftMem right rightMem sameFile
    obtain ⟨leftIn, leftHere⟩ := List.mem_filter.mp leftMem
    obtain ⟨rightIn, rightHere⟩ := List.mem_filter.mp rightMem
    rw [decide_eq_true_eq] at leftHere rightHere
    apply List.inj_on_of_nodup_map holds.distinct leftIn rightIn
    exact Prod.ext (leftHere.trans rightHere.symm) (fileName_injective sameFile)
  rw [List.perm_ext_iff_of_nodup ((Disk.entries_nodup disk _).filter _) distinctFiles]
  intro name
  rw [List.mem_filter, Disk.mem_entries, List.mem_map]
  constructor
  · rintro ⟨⟨node, there⟩, -⟩
    obtain ⟨record, member, sameCollection, sameFile, -⟩ := (holds.files _ _ _).mp there
    exact ⟨record, List.mem_filter.mpr ⟨member, by simpa using sameCollection⟩, sameFile⟩
  · rintro ⟨record, member, rfl⟩
    obtain ⟨inside, sameCollection⟩ := List.mem_filter.mp member
    rw [decide_eq_true_eq] at sameCollection
    have isFile := (holds.files _ _ _).mpr ⟨record, inside, sameCollection, rfl, rfl⟩
    exact ⟨⟨_, isFile⟩, isListed_fileName (holds.addressed record inside).2.nonempty⟩

theorem Holds.listAppend (holds : Holds system rootDir place disk records) (codec : JsonCodec)
    (member : record ∈ records) (filterKey filterValue : Option String) :
    fileListAppend system codec disk
        (joinPath (joinPath rootDir record.collection) (fileName record.id)) filterKey
        filterValue =
      listRecord codec filterKey filterValue record.recordJson := by
  obtain ⟨isCollection, isId⟩ := holds.addressed record member
  have found : readTextFile system disk (recordPath rootDir record.collection record.id) =
      .ok record.recordJson := by
    rw [← memoryGet_of_mem holds.distinct member, ← holds.get isCollection isId]
    rfl
  rw [fileListAppend]
  rw [recordPath] at found
  rw [found]

theorem Holds.list (holds : Holds system rootDir place disk records) (codec : JsonCodec)
    (reading : Reading) (isCollection : IsCollection system rootDir collection)
    (filterKey filterValue : Option String) :
    ∃ inFiles inMemory, Option.Rel List.Perm inFiles inMemory ∧
      fileList system rootDir codec reading disk collection filterKey filterValue =
        inFiles.map (listText codec) ∧
      memoryList codec records collection filterKey filterValue =
        inMemory.map (listText codec) := by
  have located : disk.locate system (joinPath rootDir collection) = .ok (collection :: place) :=
    holds.root.locate isCollection.isName isCollection.short isCollection.shortPath
  rw [fileList, Disk.readDirectory, located, memoryList]
  dsimp only
  cases there : disk.node (collection :: place) with
  | none =>
      have empty : (records.filter fun record => record.collection = collection) = [] := by
        rw [List.filter_eq_nil_iff]
        intro record member here
        have kept := holds.kept record member
        rw [of_decide_eq_true here, there] at kept
        cases kept
      rw [empty]
      exact ⟨some [], some [], .some (.refl []), rfl, rfl⟩
  | some node =>
      cases holds.directories _ _ there
      have perm := Lists.mapM_perm (f := fun name => fileListAppend system codec disk
        (joinPath (joinPath rootDir collection) name) filterKey filterValue)
        (holds.listed reading collection)
      refine ⟨_, _, perm, rfl, ?_⟩
      rw [List.mapM_map]
      congr 1
      apply Lists.mapM_congr
      intro record member
      obtain ⟨inside, here⟩ := List.mem_filter.mp member
      rw [Function.comp_apply, ← of_decide_eq_true here, holds.listAppend codec inside]

/-! ## Runs -/

theorem Holds.perform (holds : Holds system rootDir place disk records) (codec : JsonCodec)
    (reading : Reading) {operation : Operation} (addressed : operation.Addressed system rootDir) :
    Answer.Agrees codec
        (perform codec (fileStore system rootDir codec reading) disk operation).2
        (perform codec (memoryStore codec) records operation).2 ∧
      Holds system rootDir place
        (perform codec (fileStore system rootDir codec reading) disk operation).1
        (perform codec (memoryStore codec) records operation).1 := by
  cases operation with
  | put collection id record =>
      obtain ⟨isCollection, isId⟩ := addressed
      obtain ⟨made, ensured, holdsMade, directory⟩ := holds.withCollection isCollection
      obtain ⟨written, writes, after⟩ :=
        holdsMade.write isCollection isId directory (codec.serialize record)
      have put : filePut system rootDir disk collection id (codec.serialize record) =
          (written, .ok) := by
        rw [filePut, ensured]
        dsimp only
        rw [Bool.not_true, if_neg Bool.false_ne_true, writes]
      have status := (memoryPut_spec holds.distinct collection id (codec.serialize record)).1
      simp only [RuntimeStore.perform, putJson, fileStore, memoryStore, put, status]
      exact ⟨.status .ok, after⟩
  | get collection id =>
      have same := holds.get addressed.1 addressed.2
      simp only [RuntimeStore.perform, getJsonStatus, fileStore, memoryStore, same]
      exact ⟨.record _, holds⟩
  | list collection filterKey filterValue =>
      obtain ⟨inFiles, inMemory, perm, files, memory⟩ :=
        holds.list codec reading addressed filterKey filterValue
      simp only [RuntimeStore.perform, listJson, fileStore, memoryStore, files, memory]
      refine ⟨?_, holds⟩
      cases perm with
      | none => exact .failed
      | some perm => exact .records (perm.filterMap id)

theorem Holds.run (codec : JsonCodec) (calls : List (Reading × Operation)) :
    ∀ {disk : Disk CString} {records : List Record}, Holds system rootDir place disk records →
      (∀ call ∈ calls, call.2.Addressed system rootDir) →
      List.Forall₂ (Answer.Agrees codec)
          (run codec (fileStore system rootDir codec) disk calls).2
          (run codec (fun _ => memoryStore codec) records calls).2 ∧
        Holds system rootDir place (run codec (fileStore system rootDir codec) disk calls).1
          (run codec (fun _ => memoryStore codec) records calls).1 := by
  induction calls with
  | nil => exact fun holds _ => ⟨.nil, holds⟩
  | cons call calls ih =>
      intro disk records holds addressed
      rw [List.forall_mem_cons] at addressed
      obtain ⟨agrees, after⟩ := holds.perform codec call.1 addressed.1
      obtain ⟨rest, last⟩ := ih after addressed.2
      exact ⟨.cons agrees rest, last⟩

end Simulation

/-! ## New stores -/

def Fresh (system : System) (rootDir : Bytes) (disk : Disk CString) : Prop :=
  ∀ place, disk.locate system rootDir = .ok place →
    ∀ names, names ≠ [] → disk.node (names ++ place) = none

section Creation

variable {system : System} {rootDir : Bytes} {disk made created : Disk CString}

theorem isName_threads : IsName (asciiBytes "threads") :=
  ⟨by decide, by decide, by decide, by decide⟩

theorem isName_runs : IsName (asciiBytes "runs") :=
  ⟨by decide, by decide, by decide, by decide⟩

theorem isName_checkpoints : IsName (asciiBytes "checkpoints") :=
  ⟨by decide, by decide, by decide, by decide⟩

theorem ensureDirs_cons {path : Bytes} {paths : List Bytes}
    (ensured : ensureDirs system disk (path :: paths) = (created, true)) :
    ∃ made, ensureDir system disk path = (made, true) ∧
      ensureDirs system made paths = (created, true) := by
  rw [ensureDirs] at ensured
  split at ensured
  next done => exact ⟨_, Prod.ext rfl done, ensured⟩
  next failed => exact absurd (congrArg Prod.snd ensured) failed

theorem fileCreate_holds (fresh : Fresh system rootDir disk)
    (creates : fileCreate system rootDir disk = (created, true)) :
    ∃ place, Holds system rootDir place created [] := by
  obtain ⟨withRoot, rootMade, creates⟩ := ensureDirs_cons creates
  obtain ⟨withThreads, threadsMade, creates⟩ := ensureDirs_cons creates
  obtain ⟨withRuns, runsMade, creates⟩ := ensureDirs_cons creates
  obtain ⟨withCheckpoints, checkpointsMade, creates⟩ := ensureDirs_cons creates
  obtain rfl : withCheckpoints = created := congrArg Prod.fst creates
  obtain ⟨place, located, grows, after⟩ := Disk.mkdir_cases (ensureDir_made rootMade)
  obtain ⟨there, found, -, -⟩ := Disk.mkdir_cases (ensureDir_made threadsMade)
  have nonempty : rootDir ≠ [] := by
    rintro rfl
    cases rootMade
  obtain ⟨parent, resolves, -, -⟩ := Disk.resolves_of_locate_below isName_threads nonempty found
  obtain rfl : place = parent := resolves.unique (grows.locate located)
  have empty : ∀ names, names ≠ [] → withRoot.node (names ++ place) = none := by
    intro names some
    rw [after, if_neg fun both => some (List.append_left_eq_self.mp both.1)]
    exact fresh place located names some
  have holds : Holds system rootDir place withRoot [] := by
    refine ⟨resolves, List.nodup_nil, by simp, ?_, by simp, ?_⟩
    · intro collection node there
      have absent := empty [collection] (List.cons_ne_nil _ _)
      rw [List.singleton_append, there] at absent
      cases absent
    · intro collection name node
      have absent := empty [name, collection] (List.cons_ne_nil _ _)
      rw [List.cons_append, List.singleton_append] at absent
      simp [absent]
  exact ⟨place, (((holds.ensured isName_threads threadsMade).1.ensured isName_runs
    runsMade).1.ensured isName_checkpoints checkpointsMade).1⟩

end Creation

/-- A store in files that was created with an empty root directory answers every sequence of
calls as the store in memory does, and at no time does a `put` change what is read under
another collection or id. -/
theorem fileStore_refines (codec : JsonCodec) (system : System) (rootDir : Bytes)
    {disk created : Disk CString} (fresh : Fresh system rootDir disk)
    (creates : fileCreate system rootDir disk = (created, true))
    (calls : List (Reading × Operation))
    (addressed : ∀ call ∈ calls, call.2.Addressed system rootDir) :
    List.Forall₂ (Answer.Agrees codec) (run codec (fileStore system rootDir codec) created calls).2
        (run codec (fun _ => memoryStore codec) [] calls).2 ∧
      ∀ (reading : Reading) (collection id other otherId : Bytes) (record : Json),
        (Operation.put collection id record).Addressed system rootDir →
        (Operation.get other otherId).Addressed system rootDir →
        (other, otherId) ≠ (collection, id) →
        getJsonStatus codec (fileStore system rootDir codec reading)
            (putJson codec (fileStore system rootDir codec reading)
              (run codec (fileStore system rootDir codec) created calls).1 collection id record).1
            other otherId =
          getJsonStatus codec (fileStore system rootDir codec reading)
            (run codec (fileStore system rootDir codec) created calls).1 other otherId := by
  obtain ⟨place, empty⟩ := fileCreate_holds fresh creates
  obtain ⟨agree, holds⟩ := Holds.run codec calls empty addressed
  refine ⟨agree, ?_⟩
  intro reading collection id other otherId record written read different
  -- Both reads are those of the store in memory, where the records are apart.
  have before := holds.get read.1 read.2
  have after := ((holds.perform codec reading written).2).get read.1 read.2
  have apart := memoryGet_put_ne holds.distinct different (codec.serialize record)
  have same : (fileStore system rootDir codec reading).get
      (putJson codec (fileStore system rootDir codec reading)
        (run codec (fileStore system rootDir codec) created calls).1 collection id record).1
      other otherId =
    (fileStore system rootDir codec reading).get
      (run codec (fileStore system rootDir codec) created calls).1 other otherId :=
    after.trans (apart.trans before.symm)
  rw [getJsonStatus, getJsonStatus, same]

theorem fresh_empty (system : System) (rootDir : Bytes) : Fresh system rootDir ⟨∅⟩ := by
  intro place _ names some
  rw [Disk.node, if_neg fun both => some (List.append_eq_nil_iff.mp both).1]
  rfl

def sampleSystem : System := ⟨255, 4096, []⟩

def sampleRoot : Bytes := asciiBytes "/store"

def sampleCodec : JsonCodec :=
  Provider.knownCodec [.string "one", .string "two"]

/-- A directory that is read in the order in which it is kept. -/
def sampleReading : Reading := ⟨id, fun _ => .refl _⟩

def sampleCalls : List (Reading × Operation) :=
  [(sampleReading, .put (asciiBytes "threads") (asciiBytes "t") (.string "one")),
    (sampleReading, .put (asciiBytes "notes") (asciiBytes "..") (.string "two")),
    (sampleReading, .get (asciiBytes "notes") (asciiBytes "..")),
    (sampleReading, .list (asciiBytes "notes") none none)]

theorem sampleThread : IsCollection sampleSystem sampleRoot (asciiBytes "threads") ∧
    IsId sampleSystem sampleRoot (asciiBytes "threads") (asciiBytes "t") :=
  ⟨⟨⟨by decide, by decide, by decide, by decide⟩, by decide, by decide⟩,
    ⟨by decide, by decide, by decide, by decide⟩⟩

theorem sampleNote : IsCollection sampleSystem sampleRoot (asciiBytes "notes") ∧
    IsId sampleSystem sampleRoot (asciiBytes "notes") (asciiBytes "..") :=
  ⟨⟨⟨by decide, by decide, by decide, by decide⟩, by decide, by decide⟩,
    ⟨by decide, by decide, by decide, by decide⟩⟩

theorem sampleCalls_addressed :
    ∀ call ∈ sampleCalls, call.2.Addressed sampleSystem sampleRoot := by
  simp only [sampleCalls, List.forall_mem_cons]
  exact ⟨sampleThread, sampleNote, sampleNote, sampleNote.1, by simp⟩

/-- The store that is created on an empty disk. -/
def sampleDisk : Disk CString :=
  (fileCreate sampleSystem sampleRoot ⟨∅⟩).1

theorem sampleDisk_created : fileCreate sampleSystem sampleRoot ⟨∅⟩ = (sampleDisk, true) :=
  Prod.ext rfl (by decide)

theorem fileStore_refines_sample :
    List.Forall₂ (Answer.Agrees sampleCodec)
        (run sampleCodec (fileStore sampleSystem sampleRoot sampleCodec) sampleDisk sampleCalls).2
        (run sampleCodec (fun _ => memoryStore sampleCodec) [] sampleCalls).2 ∧
      getJsonStatus sampleCodec (fileStore sampleSystem sampleRoot sampleCodec sampleReading)
          (putJson sampleCodec (fileStore sampleSystem sampleRoot sampleCodec sampleReading)
            (run sampleCodec (fileStore sampleSystem sampleRoot sampleCodec) sampleDisk
              sampleCalls).1 (asciiBytes "notes") (asciiBytes "..") (.string "one")).1
          (asciiBytes "threads") (asciiBytes "t") =
        getJsonStatus sampleCodec (fileStore sampleSystem sampleRoot sampleCodec sampleReading)
          (run sampleCodec (fileStore sampleSystem sampleRoot sampleCodec) sampleDisk
            sampleCalls).1 (asciiBytes "threads") (asciiBytes "t") := by
  obtain ⟨agree, apart⟩ := fileStore_refines sampleCodec sampleSystem sampleRoot
    (fresh_empty sampleSystem sampleRoot) sampleDisk_created sampleCalls sampleCalls_addressed
  exact ⟨agree, apart sampleReading _ _ _ _ (.string "one") sampleNote sampleThread (by decide)⟩

/-- The id of a run that leads to the file of a thread. -/
def crossingCalls : List (Reading × Operation) :=
  [(sampleReading, .put (asciiBytes "threads") (asciiBytes "t") (.string "one")),
    (sampleReading, .put (asciiBytes "runs") (asciiBytes "../threads/t") (.string "two")),
    (sampleReading, .get (asciiBytes "threads") (asciiBytes "t"))]

/-- Without conditions on ids, a `put` changes what is read under another collection, which it
does not in memory. -/
theorem fileStore_crosses :
    Fresh sampleSystem sampleRoot ⟨∅⟩ ∧
    fileCreate sampleSystem sampleRoot ⟨∅⟩ = (sampleDisk, true) ∧
    (run sampleCodec (fileStore sampleSystem sampleRoot sampleCodec) sampleDisk
        crossingCalls).2 = [.status .ok, .status .ok, .record (.ok (.string "two"))] ∧
    (run sampleCodec (fun _ => memoryStore sampleCodec) [] crossingCalls).2 =
      [.status .ok, .status .ok, .record (.ok (.string "one"))] ∧
    ¬List.Forall₂ (Answer.Agrees sampleCodec)
      (run sampleCodec (fileStore sampleSystem sampleRoot sampleCodec) sampleDisk crossingCalls).2
      (run sampleCodec (fun _ => memoryStore sampleCodec) [] crossingCalls).2 := by
  have files : (run sampleCodec (fileStore sampleSystem sampleRoot sampleCodec) sampleDisk
      crossingCalls).2 = [.status .ok, .status .ok, .record (.ok (.string "two"))] := by decide
  have memory : (run sampleCodec (fun _ => memoryStore sampleCodec) [] crossingCalls).2 =
      [.status .ok, .status .ok, .record (.ok (.string "one"))] := by decide
  refine ⟨fresh_empty _ _, sampleDisk_created, files, memory, ?_⟩
  rw [files, memory]
  intro agree
  simp only [List.forall₂_cons] at agree
  exact absurd agree.2.2.1.eq_of_record (by decide)

end TurboAgent.RuntimeStore
