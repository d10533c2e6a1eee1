import Yunetas.Timeranger2.Cache
import Yunetas.Lib.Run

/-!
# Writing to a key

The state of one key in the master: its directory and its cache. An append writes the payload
at the end of the `.json` file, the row at the end of the `.md2` file and then widens the cache;
the flag writers and `tranger2_delete_instance` rewrite one row in place and leave the cache
alone; closing and opening again loads the cache from disk. The writes of this module succeed;
those that fail are the subject of a module of their own.
-/

namespace Yunetas.Timeranger2

/-- A key in the master. -/
structure KeyState where
  dir : KeyDir
  /-- `cache.{key}`. -/
  cache : KeyCache

/-- A key that was never written. -/
def KeyState.empty : KeyState := ⟨.empty, createCacheKey⟩

/-! ## Append -/

/-- The arguments of `tranger2_append_record`, with the clock and what the record yields: the
value of its time key and its text. -/
structure Append where
  /-- `__t__`, 0 to take the clock. -/
  t : UInt64
  /-- `time_in_seconds` or `time_in_milliseconds`. -/
  now : UInt64
  /-- The value under `tkey`, 0 when there is none. -/
  tm : UInt64
  userFlag : UInt16
  /-- `json_dumps` of the record. -/
  text : List UInt8
  t_lt : t.toNat < 2 ^ 44
  now_pos : 0 < now.toNat
  now_lt : now.toNat < 2 ^ 44
  noNul : 0 ∉ text

/-- The time a record is stored at. -/
def Append.time (record : Append) : UInt64 := if record.t = 0 then record.now else record.t

/-- The row written for a record whose payload starts at an offset. -/
def Append.row (topic : Topic) (record : Append) (offset : Nat) : Md2Record :=
  ((⟨record.time, record.tm, offset, record.text.length + 1⟩ : Md2Record).setUserFlag
    record.userFlag).setSystemFlag (topic.systemFlag &&& ~~~notInheritedMask)

/-- What an append returns and hands to the realtime lists. -/
structure Appended where
  /-- `g_rowid`: the global rowid. -/
  rowid : Int
  /-- `md_record_ex`. -/
  md : Md2RecordEx
  text : List UInt8

/-- `tranger2_append_record` on the files and the cache of the key. -/
def appendRecord (topic : Topic) (state : KeyState) (record : Append) : KeyState × Appended :=
  let file := topic.fileOf record.time
  let content := state.dir.bytes file
  let rows := state.dir.rows file
  let row := record.row topic content.length
  let dir : KeyDir :=
    { json := state.dir.json.set file (content ++ (record.text ++ [0]))
      md2 := state.dir.md2.set file (rows ++ [row]) }
  let cache := updateNewRecordFromMem topic state.cache row
  (⟨dir, cache⟩, ⟨cache.total.rows, row.decode (rows.length + 1), record.text⟩)

/-! ## Rewriting a row -/

/-- `get_md_record_for_wr`: the row of a file, with its index. The file is created when it is
missing, and the byte offset of the row wraps at 64 bits. -/
def getMdRecordForWr (topic : Topic) (dir : KeyDir) (t rowid : UInt64) :
    KeyDir × Option (Nat × Md2Record) :=
  if rowid = 0 then (dir, none)
  else
    let file := topic.fileOf t
    let rows := dir.rows file
    let dir : KeyDir := { dir with md2 := dir.md2.set file rows }
    let offset := (rowid.toNat - 1) * 32 % 2 ^ 64
    if 2 ^ 63 ≤ offset then (dir, none)
    else
      match rows[offset / 32]? with
      | some row => if row.getTimeT = t then (dir, some (offset / 32, row)) else (dir, none)
      | none => (dir, none)

/-- `rewrite_md_to_file`. -/
def rewriteMdToFile (dir : KeyDir) (file : String) (index : Nat) (row : Md2Record) : KeyDir :=
  { dir with md2 := dir.md2.set file ((dir.rows file).set index row) }

/-- The shape the flag writers share: load a row, change its flags, write it back. -/
def rewriteRow (topic : Topic) (state : KeyState) (t rowid : UInt64)
    (change : Md2Record → Md2Record) : KeyState × Int :=
  match getMdRecordForWr topic state.dir t rowid with
  | (dir, none) => ({ state with dir := dir }, -1)
  | (dir, some (index, row)) =>
    ({ state with dir := rewriteMdToFile dir (topic.fileOf t) index (change row) }, 0)

/-- `tranger2_write_user_flag`. -/
def writeUserFlag (topic : Topic) (state : KeyState) (t rowid : UInt64) (userFlag : UInt16) :
    KeyState × Int :=
  rewriteRow topic state t rowid fun row => row.setUserFlag userFlag

/-- Set or reset the bits of a mask. -/
def maskBits (flag mask : UInt16) (set : Bool) : UInt16 :=
  if set then flag ||| mask else flag &&& ~~~mask

/-- `tranger2_set_user_flag`. -/
def setUserFlag (topic : Topic) (state : KeyState) (t rowid : UInt64) (mask : UInt16)
    (set : Bool) : KeyState × Int :=
  rewriteRow topic state t rowid fun row => row.setUserFlag (maskBits row.getUserFlag mask set)

/-- `tranger2_set_system_flag`: only `sf_immutable_record` may be written. -/
def setSystemFlag (topic : Topic) (state : KeyState) (t rowid : UInt64) (mask : UInt16)
    (set : Bool) : KeyState × Int :=
  if mask &&& ~~~sfImmutableRecord ≠ 0 then (state, -1)
  else
    rewriteRow topic state t rowid fun row =>
      row.setSystemFlag (maskBits row.getSystemFlag mask set)

/-- The payload wipe of `tranger2_delete_instance`: `none` when the locator is refused. The
file is opened to write, so it is created when it is missing. -/
def zeroBytes (dir : KeyDir) (file : String) (offset size : Nat) : KeyDir × Int :=
  let content := dir.bytes file
  let dir : KeyDir := { dir with json := dir.json.set file content }
  if offset > content.length ∨ size > content.length - offset then (dir, -1)
  else
    let wiped := content.take offset ++ List.replicate size 0 ++ content.drop (offset + size)
    ({ dir with json := dir.json.set file wiped }, 0)

/-- `tranger2_delete_instance` on the files of the key. -/
def deleteInstance (topic : Topic) (state : KeyState) (t rowid : UInt64) (zeroPayload : Bool) :
    KeyState × Int :=
  match getMdRecordForWr topic state.dir t rowid with
  | (dir, none) => ({ state with dir := dir }, -1)
  | (dir, some (index, row)) =>
    let state := { state with dir := dir }
    if row.getSystemFlag &&& sfImmutableRecord ≠ 0 then (state, -1)
    else if row.getSystemFlag &&& sfDeletedInstance ≠ 0 then (state, 0)
    else
      let dead := row.setSystemFlag (row.getSystemFlag ||| sfDeletedInstance)
      let dir := rewriteMdToFile dir (topic.fileOf t) index dead
      if zeroPayload ∧ row.size > 0 then
        let (dir, result) := zeroBytes dir (topic.fileOf t) row.offset row.size
        ({ state with dir := dir }, result)
      else ({ state with dir := dir }, 0)

/-! ## Runs -/

/-- Close the topic and open it again: the files stay, the cache is loaded from them. -/
def reopen (state : KeyState) : KeyState := { state with cache := loadKeyCacheFromDisk state.dir }

/-- An operation of the master on one key. -/
inductive KeyOp where
  /-- `tranger2_append_record`. -/
  | append (record : Append)
  /-- `tranger2_write_user_flag`. -/
  | writeUserFlag (t rowid : UInt64) (userFlag : UInt16)
  /-- `tranger2_set_user_flag`. -/
  | setUserFlag (t rowid : UInt64) (mask : UInt16) (set : Bool)
  /-- `tranger2_set_system_flag`. -/
  | setSystemFlag (t rowid : UInt64) (mask : UInt16) (set : Bool)
  /-- `tranger2_delete_instance`. -/
  | deleteInstance (t rowid : UInt64) (zeroPayload : Bool)
  | reopen

/-- The state after an operation. -/
def KeyState.step (topic : Topic) (state : KeyState) : KeyOp → KeyState
  | .append record => (appendRecord topic state record).1
  | .writeUserFlag t rowid userFlag => (Timeranger2.writeUserFlag topic state t rowid userFlag).1
  | .setUserFlag t rowid mask set => (Timeranger2.setUserFlag topic state t rowid mask set).1
  | .setSystemFlag t rowid mask set => (Timeranger2.setSystemFlag topic state t rowid mask set).1
  | .deleteInstance t rowid zeroPayload =>
    (Timeranger2.deleteInstance topic state t rowid zeroPayload).1
  | .reopen => Timeranger2.reopen state

/-! ## A sample topic -/

/-- `%Y-%m-%d` on the first days of the epoch. -/
def dayFileId (seconds : Nat) : String :=
  if seconds < 86400 then "1970-01-01"
  else if seconds < 172800 then "1970-01-02"
  else "1970-01-03"

/-- A topic with a file a day and keys of type string. -/
def dayTopic : Topic := ⟨sfStringKey, dayFileId, by decide⟩

/-- A record `{}` stored at a time, with a time of message and a user flag. -/
def sampleRecord (t tm : UInt64) (userFlag : UInt16) (t_lt : t.toNat < 2 ^ 44 := by decide) :
    Append :=
  { t := t, now := 1, tm := tm, userFlag := userFlag, text := [123, 125], t_lt := t_lt
    now_pos := by decide, now_lt := by decide, noNul := by decide }

end Yunetas.Timeranger2
