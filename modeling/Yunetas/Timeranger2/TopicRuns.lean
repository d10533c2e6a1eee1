import Yunetas.Timeranger2.TopicOpening

/-!
# What an operation leaves of the files of a topic

On top of the files it opens an append writes at the end of two files, a flag writer replaces one
row by one with the same time, and a delete may zero a payload. Until its key is deleted a row
therefore stays where it was written, with its time, and every file of rows holds whole rows.
-/

namespace Yunetas.Timeranger2.OpenTopic

variable {home : OpenTopic}

/-! ## Rows of a file -/

theorem rowBytes_getElem? (bytes : List UInt8) (index position : Nat) :
    (rowBytes bytes index)[position]? =
      if position < md2RecordSize then bytes[index * md2RecordSize + position]? else none := by
  rw [rowBytes, List.getElem?_take]
  split
  · rw [List.getElem?_drop]
  · rfl

variable {bytes : List UInt8} {index : Nat} {bytes data : List UInt8} {tree : FileTree (List UInt8)}
  {file : Path} {files : TopicFiles}

theorem length_rowBytes :
    (rowBytes bytes index).length = md2RecordSize ↔ (index + 1) * md2RecordSize ≤ bytes.length := by
  have size : md2RecordSize = 32 := rfl
  rw [rowBytes, List.length_take, List.length_drop, size]
  omega

section

variable {position : Nat} (inside : position + data.length ≤ bytes.length)
include inside

open List

theorem overwrite_getElem? (index : Nat) :
    (overwrite bytes position data)[index]? =
      if position ≤ index ∧ index < position + data.length then data[index - position]?
      else bytes[index]? := by
  have start : (bytes.take position).length = position := by
    rw [length_take]
    omega
  have before : (bytes.take position ++ data).length = position + data.length := by
    rw [length_append, start]
  rw [overwrite]
  by_cases early : index < position + data.length
  · rw [getElem?_append_left (by omega)]
    by_cases low : position ≤ index
    · rw [if_pos ⟨low, early⟩, getElem?_append_right (by omega), start]
    · rw [if_neg (fun both => low both.1), getElem?_append_left (by omega),
        getElem?_take_of_lt (by omega)]
  · rw [if_neg (fun both => early both.2), getElem?_append_right (by omega), before,
      getElem?_drop]
    congr 1
    omega

theorem length_overwrite :
    (overwrite bytes position data).length = bytes.length := by
  rw [overwrite, length_append, length_append, length_take, length_drop]
  omega

end

theorem rowBytes_overwrite {row : Md2Record}
    (inside : (index + 1) * md2RecordSize ≤ bytes.length) (other : Nat) :
    rowBytes (overwrite bytes (index * md2RecordSize) (encodeRow row)) other =
      if other = index then encodeRow row else rowBytes bytes other := by
  have size : md2RecordSize = 32 := rfl
  have long := length_encodeRow row
  have fits : index * md2RecordSize + (encodeRow row).length ≤ bytes.length := by
    rw [long, ← Nat.succ_mul]
    exact inside
  apply List.ext_getElem?
  intro position
  rw [rowBytes_getElem?, overwrite_getElem? fits, long]
  by_cases within : position < md2RecordSize
  · rw [if_pos within]
    by_cases same : other = index
    · rw [same, if_pos rfl, if_pos (by omega), Nat.add_sub_cancel_left]
    · rw [if_neg same, if_neg, rowBytes_getElem?, if_pos within]
      rw [size] at within ⊢
      omega
  · rw [if_neg within]
    by_cases same : other = index
    · rw [if_pos same, List.getElem?_eq_none (by omega)]
    · rw [if_neg same, rowBytes_getElem?, if_neg within]

theorem rowBytes_append (inside : (index + 1) * md2RecordSize ≤ bytes.length) (more : List UInt8) :
    rowBytes (bytes ++ more) index = rowBytes bytes index := by
  have size : md2RecordSize = 32 := rfl
  apply List.ext_getElem?
  intro position
  rw [rowBytes_getElem?, rowBytes_getElem?]
  by_cases within : position < md2RecordSize
  · have early : index * md2RecordSize + position < bytes.length := by
      rw [size] at inside within ⊢
      omega
    rw [if_pos within, if_pos within, List.getElem?_append_left early]
  · rw [if_neg within, if_neg within]

theorem rowBytes_last (whole : md2RecordSize ∣ bytes.length) (long : data.length = md2RecordSize) :
    rowBytes (bytes ++ data) (bytes.length / md2RecordSize) = data := by
  have start : bytes.length / md2RecordSize * md2RecordSize = bytes.length :=
    Nat.div_mul_cancel whole
  rw [rowBytes, start, List.drop_left, ← long, List.take_length]

theorem fits_rowAt (bytes : List UInt8) (index : Nat) : (rowAt bytes index).Fits := by
  have word (part : List UInt8) : ofBigEndian (part.take 8) < 2 ^ 64 := by
    have eight : (part.take 8).length ≤ 8 := List.length_take_le 8 part
    calc ofBigEndian (part.take 8) < 256 ^ (part.take 8).length := ofBigEndian_lt _
      _ ≤ 256 ^ 8 := Nat.pow_le_pow_right (by decide) eight
      _ = 2 ^ 64 := by decide
  exact ⟨word _, word _⟩

theorem decodeRows_getElem? (inside : (index + 1) * md2RecordSize ≤ bytes.length) :
    (decodeRows bytes)[index]? = some (rowAt bytes index) := by
  have size : md2RecordSize = 32 := rfl
  have few : index < bytes.length / md2RecordSize := by
    rw [size] at inside ⊢
    omega
  rw [decodeRows, List.getElem?_map, chunks, List.getElem?_map, List.getElem?_range few]
  rfl

/-! ## Growth -/

/-- The rows of a file stay where they are, with their times. -/
def TimesKept (bytes longer : List UInt8) : Prop :=
  bytes.length ≤ longer.length ∧ ∀ index, (index + 1) * md2RecordSize ≤ bytes.length →
    (rowAt longer index).getTimeT = (rowAt bytes index).getTimeT

theorem TimesKept.refl (bytes : List UInt8) : TimesKept bytes bytes :=
  ⟨Nat.le_refl _, fun _ _ => rfl⟩

theorem TimesKept.trans {first second third : List UInt8} (left : TimesKept first second)
    (right : TimesKept second third) : TimesKept first third := by
  refine ⟨Nat.le_trans left.1 right.1, fun index inside => ?_⟩
  rw [right.2 index (Nat.le_trans inside left.1), left.2 index inside]

theorem TimesKept.append (bytes more : List UInt8) : TimesKept bytes (bytes ++ more) := by
  refine ⟨by rw [List.length_append]; omega, fun index inside => ?_⟩
  rw [rowAt, rowBytes_append inside, ← rowAt]

theorem TimesKept.rewrite {row : Md2Record}
    (inside : (index + 1) * md2RecordSize ≤ bytes.length) (fits : row.Fits)
    (time : row.getTimeT = (rowAt bytes index).getTimeT) :
    TimesKept bytes (overwrite bytes (index * md2RecordSize) (encodeRow row)) := by
  have size : md2RecordSize = 32 := rfl
  have long := length_encodeRow row
  refine ⟨?_, fun other _ => ?_⟩
  · have fits : index * md2RecordSize + (encodeRow row).length ≤ bytes.length := by
      rw [long]
      rw [size] at inside ⊢
      omega
    rw [length_overwrite fits]
  · rw [rowAt, rowBytes_overwrite inside]
    by_cases same : other = index
    · rw [if_pos same, decodeRow_encodeRow fits, time, same]
    · rw [if_neg same, ← rowAt]

/-- A file of rows holds whole ones. -/
def WholeRows (bytes : List UInt8) : Prop :=
  md2RecordSize ∣ bytes.length ∧ bytes.length ≤ maxFileSize

/-- What every operation but the removal of a key does to the files. -/
structure Grown (old new : FileTree (List UInt8)) : Prop where
  dirs : ∀ path, old.isDir path = true → new.isDir path = true
  rows : ∀ path bytes, RowFile path → old.fileAt path = some bytes →
    ∃ longer, new.fileAt path = some longer ∧ TimesKept bytes longer
  whole : ∀ path longer, RowFile path → new.fileAt path = some longer →
    WholeRows longer ∨ old.fileAt path = some longer

theorem Kept.grown {old new : FileTree (List UInt8)} (kept : Kept old new) : Grown old new where
  dirs := kept.dirs
  rows path bytes _ file := ⟨bytes, kept.files path bytes file, .refl bytes⟩
  whole path longer _ file := by
    rcases kept.fresh path longer file with before | empty
    · exact .inr before
    · rw [empty]
      exact .inl ⟨⟨0, rfl⟩, Nat.zero_le _⟩

theorem Grown.trans {first second third : FileTree (List UInt8)} (left : Grown first second)
    (right : Grown second third) : Grown first third where
  dirs path dir := right.dirs path (left.dirs path dir)
  rows path bytes rows file := by
    have ⟨longer, there, kept⟩ := left.rows path bytes rows file
    have ⟨longest, later, more⟩ := right.rows path longer rows there
    exact ⟨longest, later, kept.trans more⟩
  whole path longer rows file := by
    rcases right.whole path longer rows file with whole | before
    · exact .inl whole
    · exact left.whole path longer rows before

section

variable {path : Path} {bytes content : List UInt8} (there : tree.fileAt path = some bytes)
include there

open FileTree

theorem grown_write_json (payloads : ¬ RowFile path) :
    Grown tree (tree.write path content) where
  dirs _ dir := by
    refine isDir_write ?_ dir
    rw [fileAt_eq_some.1 there]
    nofun
  rows other old rows file := by
    have ne : other ≠ path := fun same => payloads (same ▸ rows)
    exact ⟨old, (fileAt_write_ne tree content ne).trans file, .refl old⟩
  whole other longer rows file := by
    have ne : other ≠ path := fun same => payloads (same ▸ rows)
    rw [fileAt_write_ne tree content ne] at file
    exact .inr file

theorem grown_write_md2 (kept : TimesKept bytes content)
    (whole : WholeRows content) : Grown tree (tree.write path content) where
  dirs _ dir := by
    refine isDir_write ?_ dir
    rw [fileAt_eq_some.1 there]
    nofun
  rows other old rows file := by
    by_cases same : other = path
    · rw [same, there] at file
      rw [same, ← Option.some.inj file]
      exact ⟨content, fileAt_write tree path content, kept⟩
    · exact ⟨old, (fileAt_write_ne tree content same).trans file, .refl old⟩
  whole other longer rows file := by
    by_cases same : other = path
    · rw [same, fileAt_write] at file
      rw [← Option.some.inj file]
      exact .inl whole
    · rw [fileAt_write_ne tree content same] at file
      exact .inr file

end

/-! ## Rows found to be rewritten -/

/-- What `get_md_record_for_wr` finds in a file that opens. -/
structure Found (home : OpenTopic) (tree : FileTree (List UInt8)) (key : String) (t rowid : UInt64)
    (located : Located) : Prop where
  opens : openFile tree (home.keyParts key) (home.fileName false t) = some located.file
  index : located.index * md2RecordSize = mdOffset rowid
  inside : (located.index + 1) * md2RecordSize ≤ (bytesAt tree located.file).length
  row : located.row = rowAt (bytesAt tree located.file) located.index
  time : located.row.getTimeT = t

theorem readRow_eq_some {t rowid : UInt64}
    {located : Located} : readRow tree file t rowid = some located ↔
      mdOffset rowid < 2 ^ 63 ∧ located.file = file ∧
        located.index = mdOffset rowid / md2RecordSize ∧
        (located.index + 1) * md2RecordSize ≤ (bytesAt tree file).length ∧
        located.row = rowAt (bytesAt tree file) located.index ∧ located.row.getTimeT = t := by
  unfold readRow
  dsimp only
  constructor
  · intro read
    split_ifs at read with negative short other
    have same := Option.some.inj read
    rw [← same]
    refine ⟨by omega, rfl, rfl, ?_, rfl, not_not.1 other⟩
    exact length_rowBytes.1 (not_not.1 short)
  · rintro ⟨positive, file_same, index_same, inside, row_same, time⟩
    have whole := length_rowBytes.2 inside
    rw [index_same] at whole row_same
    rw [row_same] at time
    rw [if_neg (by omega), if_neg (not_not.2 whole), if_neg (not_not.2 time), ← index_same, ← file_same]
    rw [← index_same, ← file_same] at row_same
    rw [← row_same]

theorem mdOffset_div (rowid : UInt64) :
    mdOffset rowid / md2RecordSize * md2RecordSize = mdOffset rowid := by
  have size : md2RecordSize = 32 := rfl
  unfold mdOffset
  rw [size]
  omega

theorem kept_getMdRecordForWr (tree : FileTree (List UInt8)) (key : String) (t rowid : UInt64) :
    Kept tree (home.getMdRecordForWr tree key t rowid).1 := by
  unfold getMdRecordForWr
  by_cases zero : rowid = 0
  · rw [if_pos zero]
    exact .refl tree
  · rw [if_neg zero]
    have kept := @kept_getTopicWrFd home tree key false t
    cases got : home.getTopicWrFd tree key false t with
    | mk new opened =>
      rw [got] at kept
      cases opened <;> exact kept

theorem getMdRecordForWr_found {tree : FileTree (List UInt8)} {key : String} {t rowid : UInt64}
    {located : Located} (got : (home.getMdRecordForWr tree key t rowid).2 = some located) :
    Found home (home.getMdRecordForWr tree key t rowid).1 key t rowid located := by
  unfold getMdRecordForWr at got ⊢
  by_cases zero : rowid = 0
  · rw [if_pos zero] at got
    cases got
  · rw [if_neg zero] at got ⊢
    have opens := @getTopicWrFd_opens home tree key false t
    cases gave : home.getTopicWrFd tree key false t with
    | mk new opened =>
      rw [gave] at got opens
      cases opened with
      | none => cases got
      | some file =>
        have file_opens := opens rfl
        have ⟨_, same, index, inside, row, time⟩ := readRow_eq_some.1 got
        rw [← same] at file_opens inside row
        refine ⟨file_opens, ?_, inside, row, time⟩
        rw [index, mdOffset_div]

theorem getMdRecordForWr_of_row {key : String} {t rowid : UInt64}
    (opened : openFile tree (home.keyParts key) (home.fileName false t) = some file)
    (positive : rowid ≠ 0) (inside : rowid.toNat * md2RecordSize ≤ (bytesAt tree file).length)
    (room : (bytesAt tree file).length ≤ maxFileSize)
    (time : (rowAt (bytesAt tree file) (rowid.toNat - 1)).getTimeT = t) :
    home.getMdRecordForWr tree key t rowid =
      (tree, some ⟨file, rowid.toNat - 1, rowAt (bytesAt tree file) (rowid.toNat - 1)⟩) := by
  have size : md2RecordSize = 32 := rfl
  have most : maxFileSize = 2 ^ 63 - 1 := rfl
  have nonzero : rowid.toNat ≠ 0 := fun same => positive (UInt64.toNat_inj.1 same)
  have offset : mdOffset rowid = (rowid.toNat - 1) * md2RecordSize := by
    apply Nat.mod_eq_of_lt
    rw [size] at inside ⊢
    omega
  have index : mdOffset rowid / md2RecordSize = rowid.toNat - 1 := by
    rw [offset]
    exact Nat.mul_div_cancel _ (by decide)
  have read : readRow tree file t rowid =
      some ⟨file, rowid.toNat - 1, rowAt (bytesAt tree file) (rowid.toNat - 1)⟩ := by
    rw [readRow_eq_some]
    refine ⟨?_, rfl, index.symm, ?_, rfl, time⟩
    · rw [offset, size]
      rw [size] at inside
      omega
    · dsimp only
      rw [size] at inside ⊢
      omega
  unfold getMdRecordForWr
  rw [if_neg positive, getTopicWrFd_of_open opened]
  dsimp only
  rw [read]

/-! ## Growth of the operations -/

/-- Every file of rows holds whole rows. -/
def AllWhole (tree : FileTree (List UInt8)) : Prop :=
  ∀ path bytes, RowFile path → tree.fileAt path = some bytes → WholeRows bytes

theorem AllWhole.grown {old new : FileTree (List UInt8)} (all : AllWhole old)
    (grown : Grown old new) : AllWhole new := by
  intro path longer rows file
  rcases grown.whole path longer rows file with whole | before
  · exact whole
  · exact all path longer rows before

theorem bytesAt_of_fileAt (there : tree.fileAt file = some bytes) : bytesAt tree file = bytes := by
  rw [bytesAt, there, Option.getD_some]

theorem fileAt_of_open {parts : List String} {name : String}
    (opened : openFile tree parts name = some file) :
    tree.fileAt file = some (bytesAt tree file) := by
  have ⟨dir, _, _, there⟩ := openFile_eq_some.1 opened
  have ⟨bytes, same⟩ := Option.isSome_iff_exists.1 there
  rw [bytesAt_of_fileAt same, same]

theorem rowFile_of_open {parts : List String} {t : UInt64}
    (opened : openFile tree parts (home.fileName false t) = some file) :
    RowFile file := by
  have ⟨dir, _, same, _⟩ := openFile_eq_some.1 opened
  rw [same]
  exact rowFile_md2 dir t

/-- A change of a row that leaves its time and its locator. -/
structure KeepsTime (change : Md2Record → Md2Record) : Prop where
  time : ∀ row, (change row).getTimeT = row.getTimeT
  fits : ∀ row : Md2Record, row.Fits → (change row).Fits

theorem keepsTime_userFlag (flag : Md2Record → UInt16) :
    KeepsTime fun row => row.setUserFlag (flag row) :=
  ⟨fun row => Md2Record.getTimeT_setUserFlag row (flag row), fun _ fits => fits⟩

theorem keepsTime_systemFlag (flag : Md2Record → UInt16) :
    KeepsTime fun row => row.setSystemFlag (flag row) :=
  ⟨fun _ => rfl, fun _ fits => fits⟩

theorem grown_rewriteMdToFile {key : String} {t rowid : UInt64}
    {located : Located} (all : AllWhole tree) (found : Found home tree key t rowid located)
    {change : Md2Record → Md2Record} (keeps : KeepsTime change) :
    Grown tree (home.rewriteMdToFile tree located (change located.row)).1 := by
  have long := length_encodeRow (change located.row)
  have there := fileAt_of_open found.opens
  have rows := rowFile_of_open found.opens
  have inside := found.inside
  unfold rewriteMdToFile
  by_cases master : home.master = true
  · rw [if_pos master]
    have fits : (change located.row).Fits := keeps.fits _ (found.row ▸ fits_rowAt _ _)
    have time : (change located.row).getTimeT =
        (rowAt (bytesAt tree located.file) located.index).getTimeT := by
      rw [keeps.time, found.row]
    apply grown_write_md2 there (TimesKept.rewrite inside fits time)
    have whole := all _ _ rows there
    unfold WholeRows
    rw [length_overwrite (by rw [long, ← Nat.succ_mul]; exact inside)]
    exact whole
  · rw [if_neg master]
    exact (Kept.refl tree).grown

theorem grown_rewriteRow {files : TopicFiles} (all : AllWhole files.tree) (key : String)
    (t rowid : UInt64) {change : Md2Record → Md2Record} (keeps : KeepsTime change) :
    Grown files.tree (home.rewriteRow files key t rowid change).1.tree := by
  have kept := @kept_getMdRecordForWr home files.tree (home.keyUsed key) t rowid
  have found := @getMdRecordForWr_found home files.tree (home.keyUsed key) t rowid
  unfold rewriteRow
  cases got : home.getMdRecordForWr files.tree (home.keyUsed key) t rowid with
  | mk tree opened =>
    rw [got] at kept found
    cases opened with
    | none => exact kept.grown
    | some located =>
      have here := grown_rewriteMdToFile (all.grown kept.grown) (found rfl) keeps
      exact kept.grown.trans here

theorem grown_wipePayload (tree : FileTree (List UInt8)) (key : String) (t : UInt64)
    (row : Md2Record) : Grown tree (home.wipePayload tree key t row).1 := by
  have kept := @kept_getTopicWrFd home tree key true t
  have opens := @getTopicWrFd_opens home tree key true t
  unfold wipePayload
  cases got : home.getTopicWrFd tree key true t with
  | mk new opened =>
    rw [got] at kept opens
    cases opened with
    | none => exact kept.grown
    | some file =>
      have file_opens := opens rfl
      have payloads : ¬ RowFile file := by
        have ⟨dir, _, same, _⟩ := openFile_eq_some.1 file_opens
        rw [same]
        exact not_rowFile_json dir t
      dsimp only
      split
      · exact kept.grown
      · exact kept.grown.trans (grown_write_json (fileAt_of_open file_opens) payloads)

theorem grown_deleteInstance {files : TopicFiles} (all : AllWhole files.tree) (key : String)
    (t rowid : UInt64) (zeroPayload : Bool) :
    Grown files.tree (home.deleteInstance files key t rowid zeroPayload).1.tree := by
  have same := (Kept.refl files.tree).grown
  have kept := @kept_getMdRecordForWr home files.tree (home.keyUsed key) t rowid
  have found := @getMdRecordForWr_found home files.tree (home.keyUsed key) t rowid
  unfold deleteInstance
  by_cases master : (!home.master) = true
  · rw [if_pos master]
    exact same
  · rw [if_neg master]
    by_cases refused : deleteRefuses (home.keyUsed key) = true
    · rw [if_pos refused]
      exact same
    · rw [if_neg refused]
      cases got : home.getMdRecordForWr files.tree (home.keyUsed key) t rowid with
      | mk tree opened =>
        rw [got] at kept found
        cases opened with
        | none => exact kept.grown
        | some located =>
          have dead := grown_rewriteMdToFile (all.grown kept.grown) (found rfl)
            (keepsTime_systemFlag fun row => row.getSystemFlag ||| sfDeletedInstance)
          have wiped := @grown_wipePayload home (home.rewriteMdToFile tree located
              (located.row.setSystemFlag (located.row.getSystemFlag ||| sfDeletedInstance))).1
            (home.keyUsed key) t located.row
          dsimp only
          split_ifs
          · exact kept.grown
          · exact kept.grown
          · exact kept.grown.trans (dead.trans wiped)
          · exact kept.grown.trans dead

/-! ## Appends -/

theorem writeAtEnd_eq_some {bytes data longer : List UInt8} :
    writeAtEnd bytes data = some longer ↔
      bytes.length + data.length ≤ maxFileSize ∧ longer = bytes ++ data := by
  unfold writeAtEnd
  by_cases room : bytes.length + data.length ≤ maxFileSize
  · rw [if_pos room]
    constructor
    · intro same
      exact ⟨room, (Option.some.inj same).symm⟩
    · rintro ⟨-, same⟩
      rw [same]
  · rw [if_neg room]
    constructor
    · intro same
      cases same
    · rintro ⟨fits, -⟩
      exact absurd fits room

/-- What an append that returned 0 wrote; `content` and `rows` are what its two files held. -/
structure Wrote (home : OpenTopic) (before after : TopicFiles) (record : Arguments)
    (reported : Reported) (dir : Path) (content rows : List UInt8) : Prop where
  key : keyOf home.topic record.pkey = some reported.key
  leads : after.tree.resolve [] (home.keyParts reported.key) = some dir
  data : after.tree.fileAt (dir ++ [home.fileName true record.time]) =
    some (content ++ (record.text ++ [0]))
  index : after.tree.fileAt (dir ++ [home.fileName false record.time]) =
    some (rows ++ encodeRow (home.rowOf record content.length))
  md : reported.md =
    (home.rowOf record content.length).decode (rows.length / md2RecordSize + 1)
  dataRoom : content.length + (record.text.length + 1) ≤ maxFileSize
  rowsRoom : rows.length + md2RecordSize ≤ maxFileSize
  old : before.tree.fileAt (dir ++ [home.fileName false record.time]) = some rows ∨ rows = []

theorem fits_rowOf (record : Arguments) {offset : Nat}
    (room : offset + (record.text.length + 1) ≤ maxFileSize) : (home.rowOf record offset).Fits := by
  have most : maxFileSize = 2 ^ 63 - 1 := rfl
  refine ⟨?_, ?_⟩
  · show offset < 2 ^ 64
    omega
  · show record.text.length + 1 < 2 ^ 64
    omega

theorem grown_appendRow {files : TopicFiles} (all : AllWhole files.tree) (key : String)
    (row : Md2Record) (time : UInt64) :
    Grown files.tree (home.appendRow files key row time).1.tree := by
  have long := length_encodeRow row
  have kept := @kept_getTopicWrFd home files.tree key false time
  have opens := @getTopicWrFd_opens home files.tree key false time
  unfold appendRow
  cases got : home.getTopicWrFd files.tree key false time with
  | mk tree opened =>
    rw [got] at kept opens
    cases opened with
    | none => exact kept.grown
    | some file =>
      have file_opens := opens rfl
      dsimp only
      cases wrote : writeAtEnd (bytesAt tree file) (encodeRow row) with
      | none => exact kept.grown
      | some longer =>
        have ⟨room, same⟩ := writeAtEnd_eq_some.1 wrote
        have there := fileAt_of_open file_opens
        have whole := all.grown kept.grown _ _ (rowFile_of_open file_opens) there
        apply kept.grown.trans
        apply grown_write_md2 there
        · rw [same]
          exact .append _ _
        · rw [same]
          refine ⟨?_, ?_⟩
          · rw [List.length_append, long]
            exact (Nat.dvd_add_right whole.1).2 ⟨1, rfl⟩
          · rw [List.length_append]
            exact room

theorem grown_appendRecord (all : AllWhole files.tree) (record : Arguments) :
    Grown files.tree (home.appendRecord files record).1.tree := by
  unfold appendRecord
  by_cases master : (!home.master) = true
  · rw [if_pos master]
    exact (Kept.refl files.tree).grown
  · rw [if_neg master]
    cases keyOf home.topic record.pkey with
    | none => exact (Kept.refl files.tree).grown
    | some key =>
      have kept := @kept_getTopicWrFd home files.tree key true record.time
      have opens := @getTopicWrFd_opens home files.tree key true record.time
      dsimp only
      cases got : home.getTopicWrFd files.tree key true record.time with
      | mk tree opened =>
        rw [got] at kept opens
        cases opened with
        | none => exact kept.grown
        | some file =>
          have file_opens := opens rfl
          have payloads : ¬ RowFile file := by
            have ⟨dir, _, same, _⟩ := openFile_eq_some.1 file_opens
            rw [same]
            exact not_rowFile_json dir record.time
          dsimp only
          cases writeAtEnd (bytesAt tree file) (record.text ++ [0]) with
          | none => exact kept.grown
          | some longer =>
            have written : Grown files.tree (tree.write file longer) :=
              kept.grown.trans (grown_write_json (fileAt_of_open file_opens) payloads)
            have ended := @grown_appendRow home { files with tree := tree.write file longer }
              (all.grown written) key (home.rowOf record (bytesAt tree file).length) record.time
            exact written.trans ended

theorem resolve_write {tree : FileTree (List UInt8)} {file : Path} {bytes content : List UInt8}
    (there : tree.fileAt file = some bytes) {parts : List String} {dir : Path}
    (leads : tree.resolve [] parts = some dir) :
    (tree.write file content).resolve [] parts = some dir := by
  refine FileTree.resolve_mono (fun path isDir => FileTree.isDir_write ?_ isDir) _ _ _ leads
  rw [FileTree.fileAt_eq_some.1 there]
  nofun

theorem appendRecord_wrote {record : Arguments} {reported : Reported}
    (accepted : (home.appendRecord files record).2 = some reported) :
    ∃ dir content rows,
      Wrote home files (home.appendRecord files record).1 record reported dir content rows := by
  unfold appendRecord at accepted ⊢
  by_cases master : (!home.master) = true
  · rw [if_pos master] at accepted
    cases accepted
  rw [if_neg master] at accepted ⊢
  cases named : keyOf home.topic record.pkey with
  | none =>
    rw [named] at accepted
    cases accepted
  | some key =>
  rw [named] at accepted
  dsimp only at accepted ⊢
  have kept := @kept_getTopicWrFd home files.tree key true record.time
  have opens := @getTopicWrFd_opens home files.tree key true record.time
  cases got : home.getTopicWrFd files.tree key true record.time with
  | mk tree opened =>
  rw [got] at kept opens accepted
  cases opened with
  | none => cases accepted
  | some data =>
  have data_opens := opens rfl
  dsimp only at accepted data_opens kept ⊢
  have ⟨dir, leads, data_path, _⟩ := openFile_eq_some.1 data_opens
  have data_there := fileAt_of_open data_opens
  generalize bytesAt tree data = content at accepted data_there ⊢
  cases wrote : writeAtEnd content (record.text ++ [0]) with
  | none =>
    rw [wrote] at accepted
    cases accepted
  | some longer =>
  rw [wrote] at accepted
  have ⟨room, ends⟩ := writeAtEnd_eq_some.1 wrote
  dsimp only at accepted ⊢
  have leads_written := @resolve_write _ _ _ longer data_there _ _ leads
  have data_written : (tree.write data longer).fileAt data = some longer :=
    FileTree.fileAt_write tree data longer
  have others : ∀ path bytes, RowFile path →
      (tree.write data longer).fileAt path = some bytes → files.tree.fileAt path = some bytes ∨
        bytes = [] := by
    intro path bytes rows file
    have ne : path ≠ data := by
      intro same
      rw [same, data_path] at rows
      exact not_rowFile_json dir record.time rows
    rw [FileTree.fileAt_write_ne _ _ ne] at file
    exact kept.fresh path bytes file
  generalize tree.write data longer = written at accepted leads_written data_written others ⊢
  have row_kept := @kept_getTopicWrFd home written key false record.time
  have row_opens := @getTopicWrFd_opens home written key false record.time
  unfold appendRow at accepted ⊢
  cases row_got : home.getTopicWrFd written key false record.time with
  | mk ready opened =>
  rw [row_got] at row_kept row_opens accepted
  cases opened with
  | none => cases accepted
  | some index =>
  have index_opens := row_opens rfl
  dsimp only at accepted index_opens row_kept ⊢
  have index_there := fileAt_of_open index_opens
  have leads_ready := FileTree.resolve_mono row_kept.dirs _ _ _ leads_written
  have index_path : index = dir ++ [home.fileName false record.time] := by
    have ⟨other, other_leads, path, _⟩ := openFile_eq_some.1 index_opens
    rw [path, Option.some.inj (other_leads.symm.trans leads_ready)]
  have rows_from := row_kept.fresh index _ index_there
  generalize bytesAt ready index = rows at accepted index_there rows_from ⊢
  cases row_wrote : writeAtEnd rows (encodeRow (home.rowOf record content.length)) with
  | none =>
    rw [row_wrote] at accepted
    cases accepted
  | some all_rows =>
  rw [row_wrote] at accepted
  have ⟨row_room, row_ends⟩ := writeAtEnd_eq_some.1 row_wrote
  have same := Option.some.inj accepted
  rw [← same]
  refine ⟨dir, content, rows, ?_⟩
  have long := length_encodeRow (home.rowOf record content.length)
  constructor
  · exact named
  · exact resolve_write index_there leads_ready
  · rw [← data_path, FileTree.fileAt_write_ne, row_kept.files _ _ data_written, ends]
    rw [data_path, index_path]
    exact json_ne_md2 dir dir record.time record.time
  · rw [← index_path, FileTree.fileAt_write, row_ends]
  · rfl
  · rw [List.length_append, List.length_singleton] at room
    exact room
  · rw [← long]
    exact row_room
  · rw [← index_path]
    rcases rows_from with there | empty
    · rcases others index rows (rowFile_of_open index_opens) there with before | empty
      · exact .inl before
      · exact .inr empty
    · exact .inr empty

/-! ## Steps -/

/-- An operation on a topic. -/
inductive FileOp where
  /-- `tranger2_append_record`. -/
  | append (record : Arguments)
  /-- `tranger2_write_user_flag`. -/
  | writeUserFlag (key : String) (t rowid : UInt64) (userFlag : UInt16)
  /-- `tranger2_set_user_flag`. -/
  | setUserFlag (key : String) (t rowid : UInt64) (mask : UInt16) (set : Bool)
  /-- `tranger2_set_system_flag`. -/
  | setSystemFlag (key : String) (t rowid : UInt64) (mask : UInt16) (set : Bool)
  /-- `tranger2_read_user_flag`. -/
  | readUserFlag (key : String) (t rowid : UInt64)
  /-- `tranger2_delete_instance`. -/
  | deleteInstance (key : String) (t rowid : UInt64) (zeroPayload : Bool)
  /-- `tranger2_delete_key`. -/
  | deleteKey (key : String)
  | reopen

/-- The files after an operation. -/
def step (home : OpenTopic) (files : TopicFiles) : FileOp → TopicFiles
  | .append record => (home.appendRecord files record).1
  | .writeUserFlag key t rowid userFlag => (home.writeUserFlag files key t rowid userFlag).1
  | .setUserFlag key t rowid mask set => (home.setUserFlag files key t rowid mask set).1
  | .setSystemFlag key t rowid mask set => (home.setSystemFlag files key t rowid mask set).1
  | .readUserFlag key t rowid => (home.readUserFlag files key t rowid).1
  | .deleteInstance key t rowid zeroPayload =>
    (home.deleteInstance files key t rowid zeroPayload).1
  | .deleteKey key => (home.deleteKey files key).1
  | .reopen => home.reopen files

theorem grown_step (all : AllWhole files.tree) {op : FileOp}
    (keeps : ∀ key, op ≠ .deleteKey key) : Grown files.tree (home.step files op).tree := by
  cases op with
  | append record => exact grown_appendRecord all record
  | writeUserFlag key t rowid userFlag =>
    exact grown_rewriteRow all key t rowid (keepsTime_userFlag fun _ => userFlag)
  | setUserFlag key t rowid mask set =>
    exact grown_rewriteRow all key t rowid
      (keepsTime_userFlag fun row => maskBits row.getUserFlag mask set)
  | setSystemFlag key t rowid mask set =>
    show Grown files.tree (home.setSystemFlag files key t rowid mask set).1.tree
    unfold setSystemFlag
    split
    · exact (Kept.refl files.tree).grown
    · exact grown_rewriteRow all key t rowid
        (keepsTime_systemFlag fun row => maskBits row.getSystemFlag mask set)
  | readUserFlag key t rowid =>
    have kept := @kept_getMdRecordForWr home files.tree (home.keyUsed key) t rowid
    show Grown files.tree (home.readUserFlag files key t rowid).1.tree
    unfold readUserFlag
    cases got : home.getMdRecordForWr files.tree (home.keyUsed key) t rowid with
    | mk tree opened =>
      rw [got] at kept
      cases opened <;> exact kept.grown
  | deleteInstance key t rowid zeroPayload => exact grown_deleteInstance all key t rowid zeroPayload
  | deleteKey key => exact absurd rfl (keeps key)
  | reopen => exact (Kept.refl files.tree).grown

theorem deleteKey_tree (files : TopicFiles) (key : String) :
    (home.deleteKey files key).1.tree = files.tree ∨ (home.deleteKey files key).1.tree =
        files.tree.removeTree (home.directory ++ ["keys", key]) := by
  unfold deleteKey
  by_cases master : (!home.master) = true
  · rw [if_pos master]
    exact .inl rfl
  · rw [if_neg master]
    by_cases refused : deleteRefuses key = true
    · rw [if_pos refused]
      exact .inl rfl
    · rw [if_neg refused]
      have plain := plainKey_of_not_refused (Bool.eq_false_iff.2 refused)
      cases resolved : files.tree.resolve [] (home.keyParts key) with
      | none => exact .inl rfl
      | some dir =>
        rw [← resolve_plain plain resolved]
        exact .inr rfl

theorem fileAt_removeTree {place path : Path}
    (file : (tree.removeTree place).fileAt path = some bytes) : tree.fileAt path = some bytes := by
  rw [FileTree.fileAt_eq_some] at file ⊢
  rw [FileTree.get?_removeTree] at file
  split at file
  · cases file
  · exact file

theorem AllWhole.step (all : AllWhole files.tree) (op : FileOp) :
    AllWhole (home.step files op).tree := by
  by_cases removes : ∃ key, op = .deleteKey key
  · have ⟨key, same⟩ := removes
    rw [same]
    rcases @deleteKey_tree home files key with kept | removed
    · show AllWhole (home.deleteKey files key).1.tree
      rw [kept]
      exact all
    · show AllWhole (home.deleteKey files key).1.tree
      rw [removed]
      intro path bytes rows file
      exact all path bytes rows (fileAt_removeTree file)
  · exact all.grown (grown_step all fun key same => removes ⟨key, same⟩)

theorem allWhole_created (home : OpenTopic) : AllWhole home.created.tree := by
  intro path bytes _ file
  unfold created at file
  rw [FileTree.fileAt_makePath] at file
  cases file

theorem allWhole_run (home : OpenTopic) (ops : List FileOp) :
    AllWhole (run home.step home.created ops).tree :=
  run_invariant _ (fun files : TopicFiles => AllWhole files.tree)
    (fun _ op all => AllWhole.step all op) (allWhole_created home) ops

/-- In every run on a topic the files of rows hold whole rows, and until a key is deleted the rows
stay where they are, with their times. -/
theorem rows_grow (home : OpenTopic) (ops more : List FileOp) :
    AllWhole (run home.step home.created ops).tree ∧
      ((∀ op ∈ more, ∀ key, op ≠ .deleteKey key) →
        Grown (run home.step home.created ops).tree
          (run home.step home.created (ops ++ more)).tree) := by
  have all := allWhole_run home ops
  refine ⟨all, fun keeps => ?_⟩
  rw [run_append]
  generalize run home.step home.created ops = files at all ⊢
  induction more generalizing files with
  | nil => exact (Kept.refl files.tree).grown
  | cons op rest ih =>
    have first := @grown_step home files all op (keeps op List.mem_cons_self)
    exact first.trans (ih (fun other among => keeps other (List.mem_cons_of_mem op among)) _
      (all.step op))

end Yunetas.Timeranger2.OpenTopic
