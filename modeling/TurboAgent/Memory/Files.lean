import TurboAgent.Memory.Model

/-!
# The file store and crashes

A record's file is named after its namespace and key in hexadecimal digits, and is written under
a temporary name first.  The directory of a file store and the list of a store in memory hold
the same records, and both answer alike, as long as no name is too long for the directory and no
crash leaves a temporary file behind: the reader takes every name for the name of a record.
-/

namespace TurboAgent.Memory

open FileStep (perform)

/-! ## Names -/

theorem hexDigit_toNat {value : Nat} (small : value < 16) :
    (hexDigit value).toNat = if value < 10 then 48 + value else 97 + (value - 10) := by
  rw [hexDigit, UInt8.toNat_ofNat', Nat.mod_eq_of_lt]
  split <;> omega

theorem hexValue_hexDigit {value : Nat} (small : value < 16) :
    hexValue (hexDigit value) = some value := by
  rw [hexValue, hexDigit_toNat small]
  by_cases digit : value < 10
  · rw [if_pos digit, if_pos (by omega)]
    congr 1
    omega
  · rw [if_neg digit, if_neg (by omega), if_pos (by omega)]
    congr 1
    omega

theorem hexDecode_hexEncode (name : Bytes) : hexDecode (hexEncode name) = some name := by
  induction name with
  | nil => rfl
  | cons byte name ih =>
      have small := byte.toNat_lt
      have pair : hexEncode (byte :: name) =
          hexDigit (byte.toNat / 16) :: hexDigit (byte.toNat % 16) :: hexEncode name := rfl
      rw [pair, hexDecode, hexValue_hexDigit (by omega), hexValue_hexDigit (by omega)]
      dsimp only
      rw [ih, Nat.div_add_mod', UInt8.ofNat_toNat]
      rfl

variable {name : Bytes} {byte : UInt8}

theorem mem_hexEncode (member : byte ∈ hexEncode name) : ∃ value < 16, byte = hexDigit value := by
  obtain ⟨source, -, digits⟩ := List.mem_flatMap.mp member
  have small := source.toNat_lt
  rcases List.mem_cons.mp digits with rfl | low
  · exact ⟨_, by omega, rfl⟩
  · exact ⟨_, Nat.mod_lt _ (by decide), List.mem_singleton.mp low⟩

theorem hexEncode_plain (member : byte ∈ hexEncode name) :
    byte ≠ asciiByte '.' ∧ byte ≠ asciiByte '_' := by
  obtain ⟨value, small, rfl⟩ := mem_hexEncode member
  have code := hexDigit_toNat small
  have dot : (asciiByte '.').toNat = 46 := by decide
  have underscore : (asciiByte '_').toNat = 95 := by decide
  constructor
  · intro same
    rw [same, dot] at code
    split at code <;> omega
  · intro same
    rw [same, underscore] at code
    split at code <;> omega

theorem lastDot_eq_none (plain : ∀ byte ∈ name, byte ≠ asciiByte '.') : lastDot name = none := by
  induction name with
  | nil => rfl
  | cons byte name ih =>
      obtain ⟨first, others⟩ := List.forall_mem_cons.mp plain
      rw [lastDot, ih others]
      dsimp only
      rw [if_neg first]

theorem lastDot_append {before after : Bytes} (plain : ∀ byte ∈ after, byte ≠ asciiByte '.') :
    lastDot (before ++ asciiByte '.' :: after) = some before.length := by
  induction before with
  | nil =>
      rw [List.nil_append, lastDot, lastDot_eq_none plain]
      rfl
  | cons byte before ih =>
      rw [List.cons_append, lastDot, ih]
      rfl

theorem separator_append {before after : Bytes} (plain : ∀ byte ∈ before, byte ≠ asciiByte '_') :
    separator (before ++ asciiByte '_' :: asciiByte '_' :: after) = some before.length := by
  induction before with
  | nil =>
      rw [List.nil_append, separator, if_pos ⟨rfl, rfl⟩]
      rfl
  | cons byte before ih =>
      obtain ⟨first, others⟩ := List.forall_mem_cons.mp plain
      rw [List.cons_append, separator, if_neg (fun both => first both.1), ih others]
      rfl

theorem parseName_recordName (memoryNamespace key : Bytes) :
    parseName (recordName memoryNamespace key) = some (memoryNamespace, key) := by
  have dotted : recordName memoryNamespace key =
      (hexEncode memoryNamespace ++ asciiByte '_' :: asciiByte '_' :: hexEncode key) ++
        asciiByte '.' :: asciiBytes "json" := by
    simp [recordName, asciiBytes]
  have separated : recordName memoryNamespace key =
      hexEncode memoryNamespace ++ asciiByte '_' :: asciiByte '_' ::
        (hexEncode key ++ asciiBytes ".json") := by
    simp [recordName, asciiBytes]
  have plain : ∀ byte ∈ asciiBytes "json", byte ≠ asciiByte '.' := by
    simp [asciiBytes, asciiByte]
  have extension : lastDot (recordName memoryNamespace key) =
      some ((hexEncode memoryNamespace).length + 2 + (hexEncode key).length) := by
    rw [dotted, lastDot_append plain, List.length_append, List.length_cons,
      List.length_cons]
    congr 1
    omega
  have place : separator (recordName memoryNamespace key) =
      some (hexEncode memoryNamespace).length := by
    rw [separated, separator_append fun byte member => (hexEncode_plain member).2]
  have first : (recordName memoryNamespace key).take (hexEncode memoryNamespace).length =
      hexEncode memoryNamespace := by
    rw [separated, List.take_left]
  have second : ((recordName memoryNamespace key).drop
      ((hexEncode memoryNamespace).length + 2)).take ((hexEncode memoryNamespace).length + 2 +
        (hexEncode key).length - ((hexEncode memoryNamespace).length + 2)) = hexEncode key := by
    rw [Nat.add_sub_cancel_left, separated, List.drop_length_add_append, List.drop_succ_cons,
      List.drop_succ_cons, List.drop_zero, List.take_left]
  rw [parseName, extension, place]
  dsimp only
  rw [if_neg (by omega), first, second, hexDecode_hexEncode, hexDecode_hexEncode]

variable {memoryNamespace key : Bytes}

theorem recordName_injective {memoryNamespace' key' : Bytes}
    (same : recordName memoryNamespace key = recordName memoryNamespace' key') :
    memoryNamespace = memoryNamespace' ∧ key = key' := by
  have parsed := parseName_recordName memoryNamespace key
  rw [same, parseName_recordName] at parsed
  cases parsed
  exact ⟨rfl, rfl⟩

/-! ## The directory and the list -/

def fileOf (record : Record) : Sigma fun _ : Bytes => Bytes :=
  ⟨recordName record.memoryNamespace record.key, record.valueJson⟩

/-- A directory has the files of a list of records, whose values are documents. -/
structure Holds (codec : Codec) (directory : Directory) (records : List Record) : Prop where
  files : directory.entries.Perm (records.map fileOf)
  parses : ∀ record ∈ records, (codec.parse record.valueJson).isSome = true

variable {codec : Codec} {directory : Directory} {records : List Record} {record : Record}

theorem fileOf_key :
    (fileOf record).1 = recordName memoryNamespace key ↔ record.named memoryNamespace key = true := by
  rw [Record.named, Bool.and_eq_true, beq_iff_eq, beq_iff_eq]
  constructor
  · exact recordName_injective
  · rintro ⟨rfl, rfl⟩
    rfl

theorem Holds.nodupKeys (holds : Holds codec directory records) :
    (records.map fileOf).NodupKeys :=
  (List.perm_nodupKeys holds.files).mp directory.nodupKeys

theorem findRecord_cons (record : Record) (records : List Record) (memoryNamespace key : Bytes) :
    findRecord (record :: records) memoryNamespace key =
      if record.named memoryNamespace key then some record
      else findRecord records memoryNamespace key := by
  rw [findRecord, List.find?_cons]
  cases record.named memoryNamespace key <;> rfl

theorem dlookup_files (records : List Record) (memoryNamespace key : Bytes) :
    (records.map fileOf).dlookup (recordName memoryNamespace key) =
      (findRecord records memoryNamespace key).map Record.valueJson := by
  induction records with
  | nil => rfl
  | cons record records ih =>
      by_cases named : record.named memoryNamespace key = true
      · have same := fileOf_key.mpr named
        rw [findRecord_cons, if_pos named, List.map_cons, ← same]
        exact List.dlookup_cons_eq _ _ _
      · have other : recordName memoryNamespace key ≠ (fileOf record).1 :=
          fun same => named (fileOf_key.mp same.symm)
        rw [findRecord_cons, if_neg named, List.map_cons, List.dlookup_cons_ne _ _ other]
        exact ih

theorem Holds.lookup (holds : Holds codec directory records) (memoryNamespace key : Bytes) :
    directory.lookup (recordName memoryNamespace key) =
      (findRecord records memoryNamespace key).map Record.valueJson := by
  rw [← dlookup_files, AList.lookup]
  exact List.perm_dlookup _ directory.nodupKeys holds.files

theorem findRecord_mem (found : findRecord records memoryNamespace key = some record) :
    record ∈ records ∧ record.named memoryNamespace key = true := by
  rw [findRecord] at found
  have named := List.find?_some found
  exact ⟨List.mem_of_find?_eq_some found, named⟩

theorem Holds.get (holds : Holds codec directory records) (memoryNamespace key : Bytes) :
    fileGet codec directory memoryNamespace key = memoryGet records memoryNamespace key := by
  rw [fileGet, holds.lookup, memoryGet]
  cases found : findRecord records memoryNamespace key with
  | none => rfl
  | some record =>
      have parses := holds.parses record (findRecord_mem found).1
      exact Option.filter_some_pos parses

theorem findRecord_isSome :
    (findRecord records memoryNamespace key).isSome = true ↔
      ∃ record ∈ records, record.named memoryNamespace key = true := by
  rw [findRecord, List.find?_isSome]

variable {valueJson : Bytes}

theorem replaceValue_files :
    ∀ records : List Record, (findRecord records memoryNamespace key).isSome = true →
      ((replaceValue memoryNamespace key valueJson records).map fileOf).Perm
        (⟨recordName memoryNamespace key, valueJson⟩ ::
          (records.map fileOf).kerase (recordName memoryNamespace key)) := by
  intro records
  induction records with
  | nil =>
      intro found
      cases found
  | cons record records ih =>
      intro found
      rw [replaceValue]
      by_cases named : record.named memoryNamespace key = true
      · have same := fileOf_key.mpr named
        rw [if_pos named, List.map_cons, List.map_cons, List.kerase_cons_eq same.symm]
        have file : fileOf { record with valueJson } =
            ⟨recordName memoryNamespace key, valueJson⟩ := by
          rw [← same]
          rfl
        rw [file]
      · have other : recordName memoryNamespace key ≠ (fileOf record).1 :=
          fun same => named (fileOf_key.mp same.symm)
        rw [if_neg named, List.map_cons, List.map_cons, List.kerase_cons_ne other]
        rw [findRecord_cons, if_neg named] at found
        exact ((ih found).cons _).trans (List.Perm.swap _ _ _)

theorem replaceValue_mem :
    ∀ records : List Record, record ∈ replaceValue memoryNamespace key valueJson records →
      record ∈ records ∨ record.valueJson = valueJson := by
  intro records
  induction records with
  | nil => exact fun member => .inl member
  | cons first records ih =>
      intro member
      rw [replaceValue] at member
      split at member
      next =>
        rcases List.mem_cons.mp member with rfl | rest
        · exact .inr rfl
        · exact .inl (List.mem_cons_of_mem _ rest)
      next =>
        rcases List.mem_cons.mp member with rfl | rest
        · exact .inl List.mem_cons_self
        · exact (ih rest).imp (List.mem_cons_of_mem _) id

theorem Holds.insert (holds : Holds codec directory records)
    (parses : (codec.parse valueJson).isSome = true) :
    Holds codec (directory.insert (recordName memoryNamespace key) valueJson)
      (putRecordIn records memoryNamespace key valueJson) := by
  have inserted : (directory.insert (recordName memoryNamespace key) valueJson).entries.Perm
      (⟨recordName memoryNamespace key, valueJson⟩ ::
        (records.map fileOf).kerase (recordName memoryNamespace key)) :=
    (List.Perm.kerase directory.nodupKeys holds.files).cons _
  rw [putRecordIn]
  split
  next found =>
    refine ⟨inserted.trans (replaceValue_files records found).symm, ?_⟩
    intro record member
    rcases replaceValue_mem records member with old | new
    · exact holds.parses record old
    · rw [new]
      exact parses
  next missing =>
    refine ⟨?_, ?_⟩
    · have absent : recordName memoryNamespace key ∉ (records.map fileOf).keys := by
        intro member
        obtain ⟨file, isFile, same⟩ := List.mem_map.mp member
        obtain ⟨record, isRecord, rfl⟩ := List.mem_map.mp isFile
        exact missing (findRecord_isSome.mpr ⟨record, isRecord, fileOf_key.mp same⟩)
      rw [List.kerase_of_notMem_keys absent] at inserted
      exact inserted
    · exact List.forall_mem_cons.mpr ⟨parses, holds.parses⟩

theorem Holds.erase (holds : Holds codec directory records) (memoryNamespace key : Bytes) :
    Holds codec (directory.erase (recordName memoryNamespace key))
      (records.eraseP fun record => record.named memoryNamespace key) := by
  refine ⟨?_, fun record member => holds.parses record (List.mem_of_mem_eraseP member)⟩
  have erased : (directory.erase (recordName memoryNamespace key)).entries.Perm
      ((records.map fileOf).kerase (recordName memoryNamespace key)) :=
    List.Perm.kerase directory.nodupKeys holds.files
  have same : ∀ records : List Record, (records.map fileOf).kerase (recordName memoryNamespace key) =
      (records.eraseP fun record => record.named memoryNamespace key).map fileOf := by
    intro records
    induction records with
    | nil => rfl
    | cons record records ih =>
        by_cases named : record.named memoryNamespace key = true
        · rw [List.map_cons, List.kerase_cons_eq (fileOf_key.mpr named).symm]
          simp only [List.eraseP_cons, named, cond_true]
        · have other : recordName memoryNamespace key ≠ (fileOf record).1 :=
            fun same => named (fileOf_key.mp same.symm)
          rw [List.map_cons, List.kerase_cons_ne other, ih]
          simp only [List.eraseP_cons, Bool.eq_false_iff.mpr named, cond_false, List.map_cons]
  rw [same] at erased
  exact erased

theorem Holds.mem (holds : Holds codec directory records) (memoryNamespace key : Bytes) :
    recordName memoryNamespace key ∈ directory ↔
      (findRecord records memoryNamespace key).isSome = true := by
  rw [← AList.lookup_isSome, holds.lookup, Option.isSome_map]

/-! ## Listing -/

theorem Record.eq_of_named (named : record.named memoryNamespace key = true) :
    record = ⟨memoryNamespace, key, record.valueJson⟩ := by
  rw [Record.named, Bool.and_eq_true, beq_iff_eq, beq_iff_eq] at named
  rw [← named.1, ← named.2]

theorem Holds.findRecord_of_mem (holds : Holds codec directory records) (member : record ∈ records) :
    findRecord records record.memoryNamespace record.key = some record := by
  have file : (⟨recordName record.memoryNamespace record.key, record.valueJson⟩ :
      Sigma fun _ : Bytes => Bytes) ∈ records.map fileOf := List.mem_map.mpr ⟨record, member, rfl⟩
  have value := (List.mem_dlookup_iff holds.nodupKeys).mpr file
  rw [dlookup_files] at value
  obtain ⟨found, isFound, sameValue⟩ := Option.map_eq_some_iff.mp value
  have isRecord := Record.eq_of_named (findRecord_mem isFound).2
  rw [isFound, isRecord, sameValue]

def listedFor (records : List Record) (namespacePrefix name : Bytes) : Option Record :=
  ((parseName name).bind fun pair => findRecord records pair.1 pair.2).filter fun record =>
    namespacePrefix.isPrefixOf record.memoryNamespace

theorem Holds.listNames (holds : Holds codec directory records) (namespacePrefix : Bytes) :
    ∀ names : List Bytes, (∀ name ∈ names, name = asciiBytes "." ∨ name = asciiBytes ".." ∨
        ∃ record ∈ records, name = recordName record.memoryNamespace record.key) →
      listNames codec directory namespacePrefix names =
        some (names.filterMap (listedFor records namespacePrefix)) := by
  intro names
  induction names with
  | nil => exact fun _ => rfl
  | cons name names ih =>
      intro known
      obtain ⟨first, others⟩ := List.forall_mem_cons.mp known
      rw [Memory.listNames]
      by_cases dot : name = asciiBytes "." ∨ name = asciiBytes ".."
      · have unlisted : listedFor records namespacePrefix name = none := by
          rcases dot with rfl | rfl <;> rfl
        rw [if_pos dot, List.filterMap_cons_none unlisted]
        exact ih others
      · rw [if_neg dot]
        rcases first with isDot | isDots | ⟨record, member, rfl⟩
        · exact absurd (.inl isDot) dot
        · exact absurd (.inr isDots) dot
        · have found := holds.findRecord_of_mem member
          have parses := holds.parses record member
          rw [parseName_recordName]
          dsimp only
          have listed : listedFor records namespacePrefix
              (recordName record.memoryNamespace record.key) =
                if namespacePrefix.isPrefixOf record.memoryNamespace then some record
                else none := by
            rw [listedFor, parseName_recordName, Option.bind_some, found, Option.filter_some]
          cases wanted : namespacePrefix.isPrefixOf record.memoryNamespace with
          | false =>
              rw [wanted, if_neg Bool.false_ne_true] at listed
              rw [Bool.not_false, if_pos rfl, List.filterMap_cons_none listed]
              exact ih others
          | true =>
              rw [wanted, if_pos rfl] at listed
              rw [Bool.not_true, if_neg Bool.false_ne_true, holds.lookup, found, Option.map_some,
                Option.filter_some, if_pos parses]
              dsimp only
              rw [ih others, List.filterMap_cons_some listed]
              rfl

theorem Holds.list (holds : Holds codec directory records) {order : List Bytes → List Bytes}
    (reads : ∀ names, (order names).Perm names) (namespacePrefix : Bytes) :
    ∃ listed, fileList codec order directory namespacePrefix = some listed ∧
      listed.Perm (memoryList records namespacePrefix) := by
  have keys : directory.keys.Perm ((records.map fileOf).map Sigma.fst) := holds.files.map _
  have known : ∀ name ∈ order (asciiBytes "." :: asciiBytes ".." :: directory.keys),
      name = asciiBytes "." ∨ name = asciiBytes ".." ∨
        ∃ record ∈ records, name = recordName record.memoryNamespace record.key := by
    intro name member
    have isName := (reads _).mem_iff.mp member
    rw [List.mem_cons, List.mem_cons] at isName
    refine isName.imp id (Or.imp id ?_)
    intro isKey
    obtain ⟨file, isFile, rfl⟩ := List.mem_map.mp (keys.mem_iff.mp isKey)
    obtain ⟨record, isRecord, rfl⟩ := List.mem_map.mp isFile
    exact ⟨record, isRecord, rfl⟩
  refine ⟨_, holds.listNames namespacePrefix _ known, ?_⟩
  have dots : (asciiBytes "." :: asciiBytes ".." :: directory.keys).filterMap
      (listedFor records namespacePrefix) =
        directory.keys.filterMap (listedFor records namespacePrefix) := rfl
  have each : ((records.map fileOf).map Sigma.fst).filterMap (listedFor records namespacePrefix) =
      memoryList records namespacePrefix := by
    rw [List.map_map, List.filterMap_map, memoryList, ← List.filterMap_eq_filter]
    apply List.filterMap_congr
    intro record member
    rw [Function.comp_apply, Function.comp_apply, fileOf, listedFor, parseName_recordName,
      Option.bind_some, holds.findRecord_of_mem member]
    rfl
  have filtered := (reads (asciiBytes "." :: asciiBytes ".." :: directory.keys)).filterMap
    (listedFor records namespacePrefix)
  have stored := keys.filterMap (listedFor records namespacePrefix)
  rw [dots] at filtered
  rw [each] at stored
  exact filtered.trans stored

/-! ## Temporary files -/

theorem hexDecode_append (name rest : Bytes) :
    hexDecode (hexEncode name ++ rest) = (hexDecode rest).map (name ++ ·) := by
  induction name with
  | nil =>
      rw [hexEncode, List.flatMap_nil, List.nil_append]
      cases hexDecode rest <;> rfl
  | cons byte name ih =>
      have small := byte.toNat_lt
      have pair : hexEncode (byte :: name) ++ rest = hexDigit (byte.toNat / 16) ::
          hexDigit (byte.toNat % 16) :: (hexEncode name ++ rest) := rfl
      rw [pair, hexDecode, hexValue_hexDigit (by omega), hexValue_hexDigit (by omega)]
      dsimp only
      rw [ih, Nat.div_add_mod', UInt8.ofNat_toNat, Option.map_map]
      rfl

variable {nonce : UInt64}

theorem hex16_plain (member : byte ∈ hex16 nonce) : byte ≠ asciiByte '.' := by
  obtain ⟨place, -, rfl⟩ := List.mem_map.mp member
  have code := hexDigit_toNat (Nat.mod_lt (nonce.toNat / 16 ^ (15 - place)) (by decide : 0 < 16))
  have dot : (asciiByte '.').toNat = 46 := by decide
  intro same
  rw [same, dot] at code
  split at code <;> omega

theorem parseName_tempName (memoryNamespace key : Bytes) (nonce : UInt64) :
    parseName (tempName (recordName memoryNamespace key) nonce) = none := by
  have dotted : tempName (recordName memoryNamespace key) nonce =
      (hexEncode memoryNamespace ++ asciiByte '_' :: asciiByte '_' ::
        (hexEncode key ++ asciiBytes ".json.tmp")) ++ asciiByte '.' :: hex16 nonce := by
    simp [tempName, recordName, asciiBytes]
  have separated : tempName (recordName memoryNamespace key) nonce =
      hexEncode memoryNamespace ++ asciiByte '_' :: asciiByte '_' ::
        ((hexEncode key ++ asciiBytes ".json.tmp") ++ asciiByte '.' :: hex16 nonce) := by
    rw [dotted]
    simp
  have extension : lastDot (tempName (recordName memoryNamespace key) nonce) =
      some ((hexEncode memoryNamespace).length + 2 +
        (hexEncode key ++ asciiBytes ".json.tmp").length) := by
    rw [dotted, lastDot_append fun byte member => hex16_plain member, List.length_append,
      List.length_cons, List.length_cons]
    congr 1
    omega
  have place : separator (tempName (recordName memoryNamespace key) nonce) =
      some (hexEncode memoryNamespace).length := by
    rw [separated, separator_append fun byte member => (hexEncode_plain member).2]
  have second : ((tempName (recordName memoryNamespace key) nonce).drop
      ((hexEncode memoryNamespace).length + 2)).take ((hexEncode memoryNamespace).length + 2 +
        (hexEncode key ++ asciiBytes ".json.tmp").length -
          ((hexEncode memoryNamespace).length + 2)) = hexEncode key ++ asciiBytes ".json.tmp" := by
    rw [Nat.add_sub_cancel_left, separated, List.drop_length_add_append, List.drop_succ_cons,
      List.drop_succ_cons, List.drop_zero, List.take_left]
  have undecoded : hexDecode (hexEncode key ++ asciiBytes ".json.tmp") = none := by
    rw [hexDecode_append]
    rfl
  rw [parseName, extension, place]
  dsimp only
  rw [if_neg (by omega), second, undecoded]
  cases hexDecode ((tempName (recordName memoryNamespace key) nonce).take
    (hexEncode memoryNamespace).length) <;> rfl

theorem Holds.tempName_absent (holds : Holds codec directory records)
    (memoryNamespace key : Bytes) (nonce : UInt64) :
    tempName (recordName memoryNamespace key) nonce ∉ directory := by
  intro member
  have keys : directory.keys.Perm ((records.map fileOf).map Sigma.fst) := holds.files.map _
  obtain ⟨file, isFile, same⟩ := List.mem_map.mp (keys.mem_iff.mp member)
  obtain ⟨record, -, rfl⟩ := List.mem_map.mp isFile
  have parsed := parseName_tempName memoryNamespace key nonce
  rw [← same, fileOf, parseName_recordName] at parsed
  cases parsed

theorem writeSteps_perform {content : Bytes} (absent : tempName name nonce ∉ directory) :
    (writeSteps name content nonce).foldl perform directory =
      directory.insert name content := by
  have created : tempName name nonce ∈ directory.insert (tempName name nonce) [] :=
    (AList.mem_insert directory).mpr (.inl rfl)
  have restored : (directory.insert (tempName name nonce) content).erase (tempName name nonce) =
      directory := by
    apply AList.ext
    have keys : tempName name nonce ∉ directory.entries.keys := absent
    show List.kerase (tempName name nonce) (⟨tempName name nonce, content⟩ ::
      List.kerase (tempName name nonce) directory.entries) = directory.entries
    rw [List.kerase_of_notMem_keys keys]
    exact List.kerase_cons_eq rfl
  have written : perform (directory.insert (tempName name nonce) [])
      (.write (tempName name nonce) content) = directory.insert (tempName name nonce) content := by
    rw [perform, if_pos created, AList.insert_insert]
  have renamed : perform (directory.insert (tempName name nonce) content)
      (.rename (tempName name nonce) name) = directory.insert name content := by
    rw [perform, AList.lookup_insert]
    dsimp only
    rw [restored]
  show perform (perform (perform (directory.insert (tempName name nonce)
    []) (.write (tempName name nonce) content)) (.fsync (tempName name nonce)))
      (.rename (tempName name nonce) name) = _
  rw [written]
  exact renamed

/-! ## Queries -/

def canonicalOf (codec : Codec) (record : Record) : Json :=
  makeCanonicalRecord codec record.memoryNamespace record.key record.valueJson

theorem canonicalRecords_eq (kind keyPrefix textSubstring : Bytes) (records : List Record) :
    canonicalRecords codec kind keyPrefix textSubstring records =
      if records.all fun record => validateCanonicalRecord (canonicalOf codec record) then
        some ((records.map (canonicalOf codec)).filter fun canonical =>
          matchesQuery canonical kind keyPrefix textSubstring)
      else none := by
  induction records with
  | nil => rfl
  | cons record records ih =>
      rw [canonicalRecords, ih, List.all_cons, List.map_cons, List.filter_cons]
      have same : makeCanonicalRecord codec record.memoryNamespace record.key record.valueJson =
          canonicalOf codec record := rfl
      rw [same]
      cases validateCanonicalRecord (canonicalOf codec record) with
      | false => simp
      | true =>
          cases matchesQuery (canonicalOf codec record) kind keyPrefix textSubstring with
          | false => simp
          | true =>
              simp only [Bool.not_true, Bool.false_eq_true, if_false, Bool.true_and, if_true]
              split <;> rfl

/-- Results that differ in their order at most. -/
def Alike {α : Type} (left right : Option (List α)) : Prop :=
  match left, right with
  | none, none => True
  | some left, some right => left.Perm right
  | _, _ => False

theorem listRecordsImpl_alike {left right : Option (List Record)} (alike : Alike left right)
    (kind keyPrefix textSubstring : Bytes) :
    Alike (listRecordsImpl (queryWithList codec left kind keyPrefix textSubstring))
      (listRecordsImpl (queryWithList codec right kind keyPrefix textSubstring)) := by
  match left, right, alike with
  | none, none, _ => exact trivial
  | some left, some right, (perm : left.Perm right) =>
      simp only [queryWithList, Option.bind_some, canonicalRecords_eq]
      rw [perm.all_eq]
      cases right.all fun record => validateCanonicalRecord (canonicalOf codec record) with
      | false => exact trivial
      | true =>
          rw [if_pos rfl, if_pos rfl, listRecordsImpl, listRecordsImpl, Option.filter_some,
            Option.filter_some]
          have canonical := (perm.map (canonicalOf codec)).filter fun canonical =>
            matchesQuery canonical kind keyPrefix textSubstring
          rw [canonical.all_eq]
          split
          next => exact canonical
          next => exact trivial

theorem Alike.filter {α : Type} {left right : Option (List α)} (alike : Alike left right)
    (keep : α → Bool) : Alike (left.map (List.filter keep)) (right.map (List.filter keep)) := by
  match left, right, alike with
  | none, none, _ => exact trivial
  | some left, some right, (perm : left.Perm right) => exact perm.filter keep

theorem queryRecords_alike {left right : Option (List Record)} (alike : Alike left right)
    (namespacePrefix kind keyPrefix textSubstring : Bytes) :
    Alike (queryRecords codec left namespacePrefix kind keyPrefix textSubstring)
      (queryRecords codec right namespacePrefix kind keyPrefix textSubstring) :=
  (listRecordsImpl_alike alike kind keyPrefix textSubstring).filter _

/-! ## Runs with crashes -/

/-- The operations of a store.  A `put` may be interrupted after some of its steps. -/
inductive Operation where
  | put (memoryNamespace key valueJson : Bytes) (nonce : UInt64) (crash : Option Nat)
  | get (memoryNamespace key : Bytes)
  | list (namespacePrefix : Bytes)
  | query (namespacePrefix kind keyPrefix textSubstring : Bytes)
  | delete (memoryNamespace key : Bytes)
  deriving DecidableEq

inductive Answer where
  | status (ok : Bool)
  | value (found : Option Bytes)
  | records (found : Option (List Record))
  | canonical (found : Option (List Json))
  | crashed
  deriving DecidableEq

/-- Answers that differ in the order of their records at most. -/
def Answer.Agrees : Answer → Answer → Prop
  | .records left, .records right => Alike left right
  | .canonical left, .canonical right => Alike left right
  | left, right => left = right

section Runs

variable (codec : Codec) (longest : Nat) (order : List Bytes → List Bytes)

def fileStep (directory : Directory) : Operation → Directory × Answer
  | .put memoryNamespace key valueJson nonce crash =>
      let steps := filePutSteps codec longest memoryNamespace key valueJson nonce
      match crash with
      | none => ((steps.getD []).foldl perform directory, .status steps.isSome)
      | some count => (((steps.getD []).take count).foldl perform directory, .crashed)
  | .get memoryNamespace key => (directory, .value (fileGet codec directory memoryNamespace key))
  | .list namespacePrefix =>
      (directory, .records (fileList codec order directory namespacePrefix))
  | .query namespacePrefix kind keyPrefix textSubstring =>
      (directory, .canonical (queryRecords codec
        (fileList codec order directory namespacePrefix) namespacePrefix kind keyPrefix
        textSubstring))
  | .delete memoryNamespace key =>
      let deleted := fileDelete directory memoryNamespace key
      (deleted.getD directory, .status deleted.isSome)

/-- One operation of the store in memory.  A `put` that is interrupted is applied or not. -/
def memoryStep (records : List Record) (applied : Bool) : Operation → List Record × Answer
  | .put memoryNamespace key valueJson _ crash =>
      let put := memoryPut codec records memoryNamespace key valueJson
      match crash with
      | none => (put.getD records, .status put.isSome)
      | some _ => (if applied then put.getD records else records, .crashed)
  | .get memoryNamespace key => (records, .value (memoryGet records memoryNamespace key))
  | .list namespacePrefix => (records, .records (some (memoryList records namespacePrefix)))
  | .query namespacePrefix kind keyPrefix textSubstring =>
      (records, .canonical (queryRecords codec (some (memoryList records namespacePrefix))
        namespacePrefix kind keyPrefix textSubstring))
  | .delete memoryNamespace key =>
      let deleted := memoryDelete records memoryNamespace key
      (deleted.getD records, .status deleted.isSome)

/-- The file store behaves as the store in memory, with every `put` that was interrupted applied
as a whole or not at all. -/
def Behaves (directory : Directory) (records : List Record) : List Operation → Prop
  | [] => True
  | operation :: operations =>
      ∃ applied, Answer.Agrees (fileStep codec longest order directory operation).2
          (memoryStep codec records applied operation).2 ∧
        Behaves (fileStep codec longest order directory operation).1
          (memoryStep codec records applied operation).1 operations

/-- The value and the temporary file of a `put` are not too long to be written. -/
def Writable (memoryNamespace key valueJson : Bytes) (nonce : UInt64) : Prop :=
  valueJson.length ≤ 2147483647 ∧ (tempName (recordName memoryNamespace key) nonce).length ≤ longest

/-- A `put` whose value can be written, and that does not leave its temporary file behind. -/
def Operation.Whole : Operation → Prop
  | .put memoryNamespace key valueJson nonce none =>
      putValid codec memoryNamespace key valueJson = true →
        Writable longest memoryNamespace key valueJson nonce
  | .put memoryNamespace key valueJson nonce (some count) =>
      (filePutSteps codec longest memoryNamespace key valueJson nonce).isSome = true →
        count = 0 ∨ 4 ≤ count
  | _ => True

variable {codec longest order}

theorem filePutSteps_eq (writable : putValid codec memoryNamespace key valueJson = true →
      Writable longest memoryNamespace key valueJson nonce) :
    filePutSteps codec longest memoryNamespace key valueJson nonce =
      if putValid codec memoryNamespace key valueJson then
        some (writeSteps (recordName memoryNamespace key) valueJson nonce)
      else none := by
  rw [filePutSteps]
  cases valid : putValid codec memoryNamespace key valueJson with
  | false => rfl
  | true =>
      obtain ⟨short, named⟩ := writable valid
      simp [Nat.not_lt.mpr short, Nat.not_lt.mpr named]

theorem filePutSteps_isSome
    (written : (filePutSteps codec longest memoryNamespace key valueJson nonce).isSome = true) :
    Writable longest memoryNamespace key valueJson nonce := by
  rw [filePutSteps] at written
  split at written
  next => cases written
  next writable =>
    rw [not_or, not_or] at writable
    exact ⟨Nat.not_lt.mp writable.2.1, Nat.not_lt.mp writable.2.2⟩

theorem Holds.put (holds : Holds codec directory records)
    (writable : putValid codec memoryNamespace key valueJson = true →
      Writable longest memoryNamespace key valueJson nonce) :
    Holds codec (((filePutSteps codec longest memoryNamespace key valueJson nonce).getD []).foldl
        perform directory)
      ((memoryPut codec records memoryNamespace key valueJson).getD records) ∧
    (filePutSteps codec longest memoryNamespace key valueJson nonce).isSome =
      (memoryPut codec records memoryNamespace key valueJson).isSome := by
  rw [filePutSteps_eq writable, memoryPut]
  cases valid : putValid codec memoryNamespace key valueJson with
  | false => exact ⟨holds, rfl⟩
  | true =>
      have parses : (codec.parse valueJson).isSome = true := by
        rw [putValid, Bool.and_eq_true] at valid
        exact valid.2
      rw [if_pos rfl, if_pos rfl, Option.getD_some, Option.getD_some,
        writeSteps_perform (holds.tempName_absent memoryNamespace key nonce)]
      exact ⟨holds.insert parses, rfl⟩

/-- A `put` that is interrupted before its first step or after its last one. -/
theorem Holds.crash (holds : Holds codec directory records) {count : Nat}
    (points : (filePutSteps codec longest memoryNamespace key valueJson nonce).isSome = true →
      count = 0 ∨ 4 ≤ count) :
    ∃ applied, Holds codec (((filePutSteps codec longest memoryNamespace key valueJson
        nonce).getD []).take count |>.foldl perform directory)
      (if applied = true then (memoryPut codec records memoryNamespace key valueJson).getD records
        else records) := by
  cases steps : filePutSteps codec longest memoryNamespace key valueJson nonce with
  | none =>
      refine ⟨false, ?_⟩
      rw [Option.getD_none, List.take_nil]
      exact holds
  | some list =>
      have written : (filePutSteps codec longest memoryNamespace key valueJson
          nonce).isSome = true := by
        rw [steps]
        rfl
      rcases points written with rfl | all
      · exact ⟨false, holds⟩
      · refine ⟨true, ?_⟩
        have writable : putValid codec memoryNamespace key valueJson = true →
            Writable longest memoryNamespace key valueJson nonce :=
          fun _ => filePutSteps_isSome written
        have after := (holds.put writable).1
        rw [steps] at after
        have length : list.length ≤ count := by
          rw [filePutSteps_eq writable] at steps
          split at steps
          next =>
            cases steps
            exact all
          next => cases steps
        rw [Option.getD_some, List.take_of_length_le length]
        exact after

theorem Holds.step (holds : Holds codec directory records)
    (reads : ∀ names, (order names).Perm names) {operation : Operation}
    (whole : operation.Whole codec longest) :
    ∃ applied, Answer.Agrees (fileStep codec longest order directory operation).2
        (memoryStep codec records applied operation).2 ∧
      Holds codec (fileStep codec longest order directory operation).1
        (memoryStep codec records applied operation).1 := by
  have alike : ∀ namespacePrefix, Alike (fileList codec order directory namespacePrefix)
      (some (memoryList records namespacePrefix)) := by
    intro namespacePrefix
    obtain ⟨listed, isListed, perm⟩ := holds.list reads namespacePrefix
    rw [isListed]
    exact perm
  cases operation with
  | put memoryNamespace key valueJson nonce crash =>
      cases crash with
      | none =>
          obtain ⟨after, status⟩ := holds.put whole
          exact ⟨false, congrArg Answer.status status, after⟩
      | some count =>
          obtain ⟨applied, after⟩ := holds.crash whole
          exact ⟨applied, rfl, after⟩
  | get memoryNamespace key =>
      exact ⟨false, congrArg Answer.value (holds.get memoryNamespace key), holds⟩
  | list namespacePrefix => exact ⟨false, alike namespacePrefix, holds⟩
  | query namespacePrefix kind keyPrefix textSubstring =>
      exact ⟨false, queryRecords_alike (alike namespacePrefix) _ _ _ _, holds⟩
  | delete memoryNamespace key =>
      refine ⟨false, ?_⟩
      simp only [fileStep, memoryStep, fileDelete, memoryDelete]
      by_cases found : (findRecord records memoryNamespace key).isSome = true
      · rw [if_pos found, if_pos ((holds.mem memoryNamespace key).mpr found)]
        exact ⟨rfl, holds.erase memoryNamespace key⟩
      · rw [if_neg found, if_neg fun member => found ((holds.mem memoryNamespace key).mp member)]
        exact ⟨rfl, holds⟩

theorem Holds.behaves (reads : ∀ names, (order names).Perm names) (operations : List Operation) :
    ∀ (directory : Directory) (records : List Record), Holds codec directory records →
      (∀ operation ∈ operations, operation.Whole codec longest) →
      Behaves codec longest order directory records operations := by
  induction operations with
  | nil => exact fun _ _ _ _ => trivial
  | cons operation operations ih =>
      intro directory records holds whole
      obtain ⟨first, others⟩ := List.forall_mem_cons.mp whole
      obtain ⟨applied, agrees, after⟩ := holds.step reads first
      exact ⟨applied, agrees, ih _ _ after others⟩

end Runs

theorem empty_holds (codec : Codec) : Holds codec ∅ [] :=
  ⟨List.Perm.refl _, by simp⟩

/-- A file store whose temporary files are never left behind behaves as the store in memory,
for every order in which the directory is read. -/
theorem fileStore_behaves (codec : Codec) (longest : Nat) (order : List Bytes → List Bytes)
    (reads : ∀ names, (order names).Perm names) (operations : List Operation)
    (whole : ∀ operation ∈ operations, operation.Whole codec longest) :
    Behaves codec longest order ∅ [] operations :=
  Holds.behaves reads operations _ _ (empty_holds codec) whole

def sampleCodec : Codec where
  parse value :=
    if value = asciiBytes "1" then some (.number 1 0)
    else if value = asciiBytes "[]" then some (.array []) else none
  serialize _ := asciiBytes "[]"

/-- The second `put` is interrupted after its last step. -/
def sampleOperations : List Operation :=
  [.put (asciiBytes "n") (asciiBytes "k") (asciiBytes "1") 7 none,
    .put (asciiBytes "n") (asciiBytes "k") (asciiBytes "[]") 8 (some 4),
    .list (asciiBytes "n"), .get (asciiBytes "n") (asciiBytes "k"),
    .delete (asciiBytes "n") (asciiBytes "k"), .query [] [] [] []]

theorem fileStore_behaves_sample :
    Behaves sampleCodec 255 List.reverse ∅ [] sampleOperations :=
  fileStore_behaves sampleCodec 255 List.reverse List.reverse_perm sampleOperations
    (by simp [sampleOperations, Operation.Whole, Writable, asciiBytes, tempName, recordName,
      hexEncode, hex16])

/-- A `put` that is interrupted before its rename makes every listing fail. -/
theorem fileStore_lists_temporary :
    ¬∀ (codec : Codec) (order : List Bytes → List Bytes), (∀ names, (order names).Perm names) →
      ∀ operations, Behaves codec 255 order ∅ [] operations := by
  intro behaves
  obtain ⟨applied, -, other, agrees, -⟩ := behaves sampleCodec id List.Perm.refl
    [.put (asciiBytes "n") (asciiBytes "k") (asciiBytes "1") 7 (some 3), .list []]
  have failed : (fileStep sampleCodec 255 id (fileStep sampleCodec 255 id ∅
      (.put (asciiBytes "n") (asciiBytes "k") (asciiBytes "1") 7 (some 3))).1 (.list [])).2 =
        .records none := by
    decide +kernel
  rw [failed] at agrees
  exact agrees

end TurboAgent.Memory
