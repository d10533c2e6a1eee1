import Yunetas.Lib.Dict
import Yunetas.Timeranger2.Md2

/-!
# Files of a key

The directory `keys/{key}/` of a topic holds, for each file id, a `.md2` file of rows and a
`.json` file of payloads. The ids come from `get_file_id`, which formats the time of storage
with the mask of the topic. Readers go through `RdFiles`, the files as `get_topic_rd_fd` opens
them: for a process that keeps descriptors open they need not be the ones the directory names.
-/

namespace Yunetas.Timeranger2

open List Option

/-- What a topic fixes for the rows of all its keys. -/
structure Topic where
  /-- `system_flag` of the topic. -/
  systemFlag : UInt16
  /-- `get_file_id`: the file of a time in seconds, by the mask of the topic. -/
  fileId : Nat → String
  alive : systemFlag &&& sfDeletedInstance = 0

/-- The file a record stored at `t` goes to. -/
def Topic.fileOf (topic : Topic) (t : UInt64) : String :=
  topic.fileId (if topic.systemFlag &&& sfTMs ≠ 0 then t.toNat / 1000 else t.toNat)

/-- The directory `keys/{key}/`. -/
structure KeyDir where
  /-- Rows of each `{file_id}.md2`. -/
  md2 : Dict String (List Md2Record)
  /-- Bytes of each `{file_id}.json`. -/
  json : Dict String (List UInt8)

namespace KeyDir

/-- A directory with no file, or no directory. -/
def empty : KeyDir := ⟨.empty, .empty⟩

/-- Rows of a `.md2` file, none when there is no such file. -/
def rows (dir : KeyDir) (fileId : String) : List Md2Record := (dir.md2.get? fileId).getD []

/-- Bytes of a `.json` file, none when there is no such file. -/
def bytes (dir : KeyDir) (fileId : String) : List UInt8 := (dir.json.get? fileId).getD []

end KeyDir

/-- The files of a key as a reader opens them. -/
structure RdFiles where
  /-- Rows of the `.md2` file of an id, if it opens. -/
  md2 : String → Option (List Md2Record)
  /-- Bytes of the `.json` file of an id, if it opens. -/
  json : String → Option (List UInt8)

/-- A reader that opens the files the directory names. -/
def KeyDir.rdFiles (dir : KeyDir) : RdFiles := ⟨dir.md2.get?, dir.json.get?⟩

/-- `read_md`: the row of a file, `rowid` relative to 1. -/
def readMd (files : RdFiles) (fileId : String) (rowid : Int) : Option Md2RecordEx :=
  if rowid ≤ 0 then none
  else do
    let rows ← files.md2 fileId
    let row ← rows[(rowid - 1).toNat]?
    some (row.decode rowid.toNat)

/-- `read_record_content`, up to the parse: the text of the payload a row points to. A locator
outside the file is refused; the text stops at the first null, so a wiped payload is empty. -/
def readRecordContent (files : RdFiles) (fileId : String) (md : Md2RecordEx) :
    Option (List UInt8) := do
  let data ← files.json fileId
  if md.size = 0 ∨ md.offset > data.length ∨ md.size > data.length - md.offset then none
  else some (((data.drop md.offset).take md.size).takeWhile (· ≠ 0))

theorem readMd_of_get {files : RdFiles} {fileId : String} {rows : List Md2Record} {row : Md2Record}
    {position : Nat} (opened : files.md2 fileId = some rows) (found : rows[position]? = some row) :
    readMd files fileId ((position : Int) + 1) = some (row.decode (position + 1)) := by
  have positive : ¬ ((position : Int) + 1 ≤ 0) := by omega
  have index : ((position : Int) + 1 - 1).toNat = position := by omega
  have rowid : ((position : Int) + 1).toNat = position + 1 := by omega
  simp [readMd, if_neg positive, opened, rowid, found]

theorem readRecordContent_of_split {files : RdFiles} {fileId : String} {before after text :
    List UInt8} {md : Md2RecordEx}
    (opened : files.json fileId = some (before ++ (text ++ [0]) ++ after))
    (offset : md.offset = before.length) (size : md.size = text.length + 1)
    (noNul : 0 ∉ text) : readRecordContent files fileId md = some text := by
  have inside : ¬ (md.size = 0 ∨ md.offset > (before ++ (text ++ [0]) ++ after).length ∨
      md.size > (before ++ (text ++ [0]) ++ after).length - md.offset) := by
    simp only [length_append, length_singleton]
    omega
  have slice : ((before ++ (text ++ [0]) ++ after).drop md.offset).take md.size = text ++ [0] := by
    rw [offset, size, append_assoc, drop_left]
    have : text.length + 1 = (text ++ [0]).length := by simp
    rw [this, take_left]
  have stop : (text ++ [0]).takeWhile (fun byte => decide (byte ≠ 0)) = text := by
    rw [takeWhile_append_of_pos]
    · simp
    · intro byte inText
      simp only [ne_eq, decide_not, Bool.not_eq_eq_eq_not, Bool.not_true, decide_eq_false_iff_not]
      rintro rfl
      exact noNul inText
  simp only [readRecordContent, opened, bind_eq_bind, bind_some, if_neg inside, slice,
    stop]

end Yunetas.Timeranger2
