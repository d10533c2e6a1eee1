import Yunetas.Lib.Bytes
import Yunetas.Timeranger2.Iterator

/-!
# Writes that fail

On disk a row is 32 bytes, four words in big endian, and an append makes two writes, the payload
to the `.json` file and then the row to the `.md2` file, each at the end of its file. A write may
take any number of the bytes it is given, none included, and never passes the greatest offset of
a file. The append gives up after a short write and leaves what was written where it is.
-/

namespace Yunetas.Timeranger2

open List Dict

/-! ## Rows as bytes -/

/-- `sizeof(md2_record_t)`. -/
def md2RecordSize : Nat := 32

/-- A row as `tranger2_append_record` writes it: its words by `htonll`. -/
def encodeRow (row : Md2Record) : List UInt8 :=
  toBigEndian 8 row.t.toNat ++ (toBigEndian 8 row.tm.toNat ++
    (toBigEndian 8 row.offset ++ toBigEndian 8 row.size))

/-- A row as `read_md` reads it: its words by `ntohll`. -/
def decodeRow (bytes : List UInt8) : Md2Record :=
  { t := UInt64.ofNat (ofBigEndian (bytes.take 8))
    tm := UInt64.ofNat (ofBigEndian ((bytes.drop 8).take 8))
    offset := ofBigEndian ((bytes.drop 16).take 8)
    size := ofBigEndian ((bytes.drop 24).take 8) }

/-- The rows of a `.md2` file: those a reader can read whole. -/
def decodeRows (bytes : List UInt8) : List Md2Record := (chunks md2RecordSize bytes).map decodeRow

/-- The payload locator of a row fits its words. -/
def Md2Record.Fits (row : Md2Record) : Prop := row.offset < 2 ^ 64 ∧ row.size < 2 ^ 64

theorem length_encodeRow (row : Md2Record) : (encodeRow row).length = md2RecordSize := by
  simp [encodeRow, length_toBigEndian, md2RecordSize]

theorem decodeRow_encodeRow {row : Md2Record} (fits : row.Fits) :
    decodeRow (encodeRow row) = row := by
  have ⟨offsetFits, sizeFits⟩ := fits
  have word : (256 : Nat) ^ 8 = 2 ^ 64 := by decide
  have eight : ∀ number, (toBigEndian 8 number).length = 8 := length_toBigEndian 8
  have first : (encodeRow row).take 8 = toBigEndian 8 row.t.toNat := by
    rw [encodeRow, take_left' (eight _)]
  have second : ((encodeRow row).drop 8).take 8 = toBigEndian 8 row.tm.toNat := by
    rw [encodeRow, drop_left' (eight _), take_left' (eight _)]
  have third : ((encodeRow row).drop 16).take 8 = toBigEndian 8 row.offset := by
    rw [encodeRow, ← append_assoc, drop_left' (by simp), take_left' (eight _)]
  have fourth : ((encodeRow row).drop 24).take 8 = toBigEndian 8 row.size := by
    rw [encodeRow, ← append_assoc, ← append_assoc, drop_left' (by simp),
      take_of_length_le (by simp)]
  rw [decodeRow, first, second, third, fourth,
    ofBigEndian_toBigEndian (lt_of_lt_of_eq row.t.toNat_lt word.symm),
    ofBigEndian_toBigEndian (lt_of_lt_of_eq row.tm.toNat_lt word.symm),
    ofBigEndian_toBigEndian (lt_of_lt_of_eq offsetFits word.symm),
    ofBigEndian_toBigEndian (lt_of_lt_of_eq sizeFits word.symm), UInt64.ofNat_toNat,
    UInt64.ofNat_toNat]

theorem decodeRows_append {rows : List Md2Record} (fits : ∀ row ∈ rows, row.Fits)
    (rest : List UInt8) :
    decodeRows (rows.flatMap encodeRow ++ rest) = rows ++ decodeRows rest :=
  decode_chunks (by decide) (fun row _ => length_encodeRow row)
    (fun row among => decodeRow_encodeRow (fits row among)) rest

/-! ## The state -/

/-- The directory `keys/{key}/`, its files as bytes. -/
structure ByteDir where
  /-- Bytes of each `{file_id}.md2`. -/
  md2 : Dict String (List UInt8)
  /-- Bytes of each `{file_id}.json`. -/
  json : Dict String (List UInt8)

namespace ByteDir

/-- Bytes of a `.md2` file, none when there is no such file. -/
def md2Bytes (dir : ByteDir) (fileId : String) : List UInt8 := (dir.md2.get? fileId).getD []

/-- Bytes of a `.json` file, none when there is no such file. -/
def bytes (dir : ByteDir) (fileId : String) : List UInt8 := (dir.json.get? fileId).getD []

/-- The directory as its readers see it. -/
def keyDir (dir : ByteDir) : KeyDir := ⟨dir.md2.mapValues decodeRows, dir.json⟩

theorem rows_keyDir (dir : ByteDir) (fileId : String) :
    dir.keyDir.rows fileId = decodeRows (dir.md2Bytes fileId) := by
  rw [KeyDir.rows, keyDir, get?_mapValues, md2Bytes]
  cases dir.md2.get? fileId <;> rfl

theorem md2Bytes_extended (dir : ByteDir) (json : Dict String (List UInt8)) (file : String)
    (data : List UInt8) (other : String) :
    ∃ rest, (ByteDir.mk (dir.md2.set file (dir.md2Bytes file ++ data)) json).md2Bytes other =
      dir.md2Bytes other ++ rest := by
  by_cases here : other = file
  · refine ⟨data, ?_⟩
    rw [here, md2Bytes, get?_set_self, Option.getD_some]
  · refine ⟨[], ?_⟩
    simp [md2Bytes, get?_set_ne _ _ here]

end ByteDir

/-- A key in the master, its files as bytes. -/
structure ByteState where
  dir : ByteDir
  /-- `cache.{key}`. -/
  cache : KeyCache

/-- A key that was never written. -/
def ByteState.empty : ByteState := ⟨⟨.empty, .empty⟩, createCacheKey⟩

/-! ## Append -/

/-- The greatest offset of a file. -/
def maxFileSize : Nat := 2 ^ 63 - 1

/-- The bytes that a `write` at the end of a file takes, when the file system accepts some. -/
def writeLength (content data : List UInt8) (accepted : Nat) : Nat :=
  min (min accepted data.length) (maxFileSize - content.length)

/-- The file after a `write` at its end. -/
def writeEnd (content data : List UInt8) (accepted : Nat) : List UInt8 :=
  content ++ data.take (writeLength content data accepted)

section

variable {content data : List UInt8} {accepted : Nat}
  (whole : writeLength content data accepted = data.length)
include whole

theorem writeEnd_whole : writeEnd content data accepted = content ++ data := by
  rw [writeEnd, whole, take_length]

theorem writeLength_room (some_data : data ≠ []) : content.length + data.length ≤ maxFileSize := by
  have := length_pos_iff_ne_nil.2 some_data
  rw [writeLength] at whole
  omega

end

/-- What the file system accepts of the two writes of an append. -/
structure Writes where
  payload : Nat
  row : Nat
deriving DecidableEq, Repr

namespace ByteState

/-- `tranger2_append_record`: what it leaves, and what it returns when it returns 0. -/
def appendRecord (topic : Topic) (state : ByteState) (record : Append) (writes : Writes) :
    ByteState × Option Appended :=
  let file := topic.fileOf record.time
  let content := state.dir.bytes file
  let payload := record.text ++ [0]
  let dir : ByteDir :=
    { state.dir with json := state.dir.json.set file (writeEnd content payload writes.payload) }
  if writeLength content payload writes.payload ≠ payload.length then (⟨dir, state.cache⟩, none)
  else
    let row := record.row topic content.length
    let rows := state.dir.md2Bytes file
    let dir : ByteDir :=
      { dir with md2 := dir.md2.set file (writeEnd rows (encodeRow row) writes.row) }
    if writeLength rows (encodeRow row) writes.row ≠ md2RecordSize then
      (⟨dir, state.cache⟩, none)
    else
      let cache := updateNewRecordFromMem topic state.cache row
      (⟨dir, cache⟩,
        some ⟨cache.total.rows, row.decode (rows.length / md2RecordSize + 1), record.text⟩)

/-- What an append can do: stop after a short payload, stop after a short row, or write both. -/
theorem appendRecord_cases (topic : Topic) (state : ByteState) (record : Append) (writes : Writes) :
    let file := topic.fileOf record.time
    let content := state.dir.bytes file
    let payload := record.text ++ [0]
    let row := record.row topic content.length
    let rows := state.dir.md2Bytes file
    let json := state.dir.json.set file (writeEnd content payload writes.payload)
    (writeLength content payload writes.payload ≠ payload.length ∧
      state.appendRecord topic record writes = (⟨⟨state.dir.md2, json⟩, state.cache⟩, none)) ∨
    (writeLength content payload writes.payload = payload.length ∧
      writeLength rows (encodeRow row) writes.row ≠ md2RecordSize ∧
      state.appendRecord topic record writes =
        (⟨⟨state.dir.md2.set file (writeEnd rows (encodeRow row) writes.row), json⟩, state.cache⟩,
          none)) ∨
    (writeLength content payload writes.payload = payload.length ∧
      writeLength rows (encodeRow row) writes.row = md2RecordSize ∧
      state.appendRecord topic record writes = (⟨⟨state.dir.md2.set file (rows ++ encodeRow row),
            state.dir.json.set file (content ++ payload)⟩,
          updateNewRecordFromMem topic state.cache row⟩,
          some ⟨(updateNewRecordFromMem topic state.cache row).total.rows,
            row.decode (rows.length / md2RecordSize + 1), record.text⟩)) := by
  intro file content payload row rows json
  by_cases first : writeLength content payload writes.payload = payload.length
  · by_cases second : writeLength rows (encodeRow row) writes.row = md2RecordSize
    · refine Or.inr (Or.inr ⟨first, second, ?_⟩)
      have payloadEnd := writeEnd_whole first
      have rowEnd : writeEnd rows (encodeRow row) writes.row = rows ++ encodeRow row :=
        writeEnd_whole (second.trans (length_encodeRow row).symm)
      simp only [appendRecord]
      rw [if_neg (not_not.2 first), if_neg (not_not.2 second)]
      rw [← payloadEnd, ← rowEnd]
    · refine Or.inr (Or.inl ⟨first, second, ?_⟩)
      simp only [appendRecord]
      rw [if_neg (not_not.2 first), if_pos second]
  · refine Or.inl ⟨first, ?_⟩
    simp only [appendRecord]
    rw [if_pos first]

/-- The ids of the `.md2` files of a directory, sorted by name. -/
def sortedFiles (dir : ByteDir) : List String := dir.md2.keys.insertionSort fileNameLe

/-- `load_cache_cell_from_disk`: a file that does not end with a whole row has no cell. -/
def loadCacheCellFromDisk (fileId : String) (bytes : List UInt8) : Option Cell :=
  if bytes.length % md2RecordSize ≠ 0 then none
  else some (Timeranger2.loadCacheCellFromDisk fileId (decodeRows bytes))

/-- `load_key_cache_from_disk` with the totals that `find_keys_cb` adds. -/
def loadKeyCacheFromDisk (dir : ByteDir) : KeyCache :=
  let files := (sortedFiles dir).filterMap fun fileId =>
    loadCacheCellFromDisk fileId (dir.md2Bytes fileId)
  ⟨files, updateTotalsOfKeyCache files⟩

/-- Close the topic and open it again. -/
def reopen (state : ByteState) : ByteState :=
  { state with cache := loadKeyCacheFromDisk state.dir }

/-- The files as the readers of the state open them. -/
def rdFiles (state : ByteState) : RdFiles := state.dir.keyDir.rdFiles

end ByteState

end Yunetas.Timeranger2
