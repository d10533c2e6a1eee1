import Yunetas.Lib.FileTree
import Yunetas.Timeranger2.Wipe

/-!
# A topic on disk

The directory of a topic holds `keys/{key}/{file_id}.md2` and `keys/{key}/{file_id}.json` for each
of its keys. Whoever writes to a row goes through `get_topic_wr_fd`, which opens the file of a key
and a time and, in the master, makes the file and the directory of the key when they are missing;
the key is taken as it comes, a path in itself. A write at the end of a file is taken whole, or
refused past the greatest offset; those cut short are the subject of a module of their own. The
cache of the topic changes with an append and when the topic is opened.
-/

namespace Yunetas.Timeranger2

/-- A topic as a process opened it. -/
structure OpenTopic where
  topic : Topic
  /-- `directory`, as the names from the root. -/
  directory : Path
  /-- `master` of the tranger. -/
  master : Bool
  spelled : ∀ name ∈ directory, EntryName name

/-- What a process works on: the files of the machine and `topic.cache`. -/
structure TopicFiles where
  tree : FileTree (List UInt8)
  /-- `cache`, by key. -/
  cache : Dict String KeyCache

/-- `create_topic`: the directory of the topic, with no key. -/
def OpenTopic.created (home : OpenTopic) : TopicFiles :=
  ⟨FileTree.makePath Dict.empty [] (home.directory ++ ["keys"]), .empty⟩

namespace OpenTopic

variable (home : OpenTopic)

/-! ## Files -/

/-- `get_t_filename`. -/
def fileName (forData : Bool) (t : UInt64) : String :=
  home.topic.fileOf t ++ if forData then ".json" else ".md2"

/-- The names of `{directory}/keys/{key}`. -/
def keyParts (key : String) : List String := home.directory ++ "keys" :: pathParts key

/-- `open` of a file that is there. -/
def openFile (tree : FileTree (List UInt8)) (parts : List String) (name : String) : Option Path :=
  match tree.resolve [] parts with
  | none => none
  | some dir => if (tree.fileAt (dir ++ [name])).isSome then some (dir ++ [name]) else none

/-- `create_file` in the master: what `mkrdir` returns is only logged. -/
def createFile (tree : FileTree (List UInt8)) (key name : String) :
    FileTree (List UInt8) × Option Path :=
  let parts := home.keyParts key
  let tree := if (tree.resolve [] parts).isSome then tree else tree.makePath [] parts
  match tree.resolve [] parts with
  | none => (tree, none)
  | some dir =>
    match tree.newFile dir name [] with
    | none => (tree, none)
    | some made => (made, some (dir ++ [name]))

/-- `get_topic_wr_fd`: the file of a key and a time, made when it is missing. -/
def getTopicWrFd (tree : FileTree (List UInt8)) (key : String) (forData : Bool) (t : UInt64) :
    FileTree (List UInt8) × Option Path :=
  match openFile tree (home.keyParts key) (home.fileName forData t) with
  | some file => (tree, some file)
  | none =>
    if home.master then home.createFile tree key (home.fileName forData t) else (tree, none)

/-- The bytes of an open file. -/
def bytesAt (tree : FileTree (List UInt8)) (file : Path) : List UInt8 := (tree.fileAt file).getD []

/-- The files of a key as its readers open them. -/
def rdFiles (tree : FileTree (List UInt8)) (key : String) : RdFiles where
  md2 fileId :=
    (openFile tree (home.keyParts key) (fileId ++ ".md2")).map fun file =>
      decodeRows (bytesAt tree file)
  json fileId := (openFile tree (home.keyParts key) (fileId ++ ".json")).map (bytesAt tree)

/-- `key = "__rowid__"` in a topic keyed by rowid. -/
def keyUsed (key : String) : String := deleteKey home.topic key

/-! ## Rows -/

/-- The 32 bytes of a row of a file. -/
def rowBytes (bytes : List UInt8) (index : Nat) : List UInt8 :=
  (bytes.drop (index * md2RecordSize)).take md2RecordSize

/-- A row of a file. -/
def rowAt (bytes : List UInt8) (index : Nat) : Md2Record := decodeRow (rowBytes bytes index)

/-- `(off_t) ((i_rowid-1) * sizeof(md2_record_t))`, before its sign. -/
def mdOffset (rowid : UInt64) : Nat := (rowid.toNat - 1) * md2RecordSize % 2 ^ 64

/-- Where a row is and what it holds. -/
structure Located where
  /-- The `.md2` file. -/
  file : Path
  index : Nat
  row : Md2Record

/-- `get_md_record_for_wr` behind its descriptor: the row of a rowid, if its time is the one given.
A negative offset is refused by `lseek`. -/
def readRow (tree : FileTree (List UInt8)) (file : Path) (t rowid : UInt64) : Option Located :=
  let index := mdOffset rowid / md2RecordSize
  let bytes := bytesAt tree file
  if 2 ^ 63 ≤ mdOffset rowid then none
  else if (rowBytes bytes index).length ≠ md2RecordSize then none
  else if (rowAt bytes index).getTimeT ≠ t then none
  else some ⟨file, index, rowAt bytes index⟩

/-- `get_md_record_for_wr`: the row of a key, a time and a rowid, its file made when it is
missing. -/
def getMdRecordForWr (tree : FileTree (List UInt8)) (key : String) (t rowid : UInt64) :
    FileTree (List UInt8) × Option Located :=
  if rowid = 0 then (tree, none)
  else
    match home.getTopicWrFd tree key false t with
    | (tree, none) => (tree, none)
    | (tree, some file) => (tree, readRow tree file t rowid)

/-- Some bytes of a file replaced by others. -/
def overwrite (bytes : List UInt8) (position : Nat) (data : List UInt8) : List UInt8 :=
  bytes.take position ++ data ++ bytes.drop (position + data.length)

/-- `rewrite_md_to_file`: a process that is not the master has its descriptor to read only. -/
def rewriteMdToFile (tree : FileTree (List UInt8)) (located : Located) (row : Md2Record) :
    FileTree (List UInt8) × Int :=
  if home.master then
    (tree.write located.file
      (overwrite (bytesAt tree located.file) (located.index * md2RecordSize) (encodeRow row)), 0)
  else (tree, -1)

/-- The shape the flag writers share: load a row, change its flags, write it back. -/
def rewriteRow (files : TopicFiles) (key : String) (t rowid : UInt64)
    (change : Md2Record → Md2Record) : TopicFiles × Int :=
  match home.getMdRecordForWr files.tree (home.keyUsed key) t rowid with
  | (tree, none) => ({ files with tree := tree }, -1)
  | (tree, some located) =>
    let (tree, result) := home.rewriteMdToFile tree located (change located.row)
    ({ files with tree := tree }, result)

/-- `tranger2_write_user_flag`. -/
def writeUserFlag (files : TopicFiles) (key : String) (t rowid : UInt64) (userFlag : UInt16) :
    TopicFiles × Int :=
  home.rewriteRow files key t rowid fun row => row.setUserFlag userFlag

/-- `tranger2_set_user_flag`. -/
def setUserFlag (files : TopicFiles) (key : String) (t rowid : UInt64) (mask : UInt16)
    (set : Bool) : TopicFiles × Int :=
  home.rewriteRow files key t rowid fun row => row.setUserFlag (maskBits row.getUserFlag mask set)

/-- `tranger2_set_system_flag`: only `sf_immutable_record` may be written. -/
def setSystemFlag (files : TopicFiles) (key : String) (t rowid : UInt64) (mask : UInt16)
    (set : Bool) : TopicFiles × Int :=
  if mask &&& ~~~sfImmutableRecord ≠ 0 then (files, -1)
  else
    home.rewriteRow files key t rowid fun row =>
      row.setSystemFlag (maskBits row.getSystemFlag mask set)

/-- `tranger2_read_user_flag`; what it cannot read is `(uint16_t)-1`. -/
def readUserFlag (files : TopicFiles) (key : String) (t rowid : UInt64) : TopicFiles × UInt16 :=
  match home.getMdRecordForWr files.tree (home.keyUsed key) t rowid with
  | (tree, none) => ({ files with tree := tree }, 0xFFFF)
  | (tree, some located) => ({ files with tree := tree }, located.row.getUserFlag)

/-- The payload wipe of `tranger2_delete_instance`: a locator out of the file is refused. -/
def wipePayload (tree : FileTree (List UInt8)) (key : String) (t : UInt64) (row : Md2Record) :
    FileTree (List UInt8) × Int :=
  match home.getTopicWrFd tree key true t with
  | (tree, none) => (tree, -1)
  | (tree, some file) =>
    let bytes := bytesAt tree file
    if row.offset > bytes.length ∨ row.size > bytes.length - row.offset then (tree, -1)
    else (tree.write file (zeroed bytes row.offset row.size), 0)

/-- `tranger2_delete_instance`. -/
def deleteInstance (files : TopicFiles) (key : String) (t rowid : UInt64) (zeroPayload : Bool) :
    TopicFiles × Int :=
  if !home.master then (files, -1)
  else if deleteRefuses (home.keyUsed key) then (files, -1)
  else
    match home.getMdRecordForWr files.tree (home.keyUsed key) t rowid with
    | (tree, none) => ({ files with tree := tree }, -1)
    | (tree, some located) =>
      let flag := located.row.getSystemFlag
      if flag &&& sfImmutableRecord ≠ 0 then ({ files with tree := tree }, -1)
      else if flag &&& sfDeletedInstance ≠ 0 then ({ files with tree := tree }, 0)
      else
        let dead := located.row.setSystemFlag (flag ||| sfDeletedInstance)
        let (tree, _) := home.rewriteMdToFile tree located dead
        if zeroPayload ∧ located.row.size > 0 then
          let (tree, result) := home.wipePayload tree (home.keyUsed key) t located.row
          ({ files with tree := tree }, result)
        else ({ files with tree := tree }, 0)

/-! ## Records -/

/-- The value of a record under the time key of its topic. -/
inductive TkeyValue where
  /-- A JSON string: what `approxidate` makes of it. -/
  | string (seconds : Nat)
  | integer (value : Int)
  | other
deriving DecidableEq, Repr

/-- The time a record gives under its time key; without one it is 0. -/
def tkeyTime (value : TkeyValue) : Int :=
  match value with
  | .string seconds => if home.topic.systemFlag &&& sfTmMs ≠ 0 then seconds * 1000 else seconds
  | .integer value => value
  | .other => 0

/-- The arguments of `tranger2_append_record`, with the clock and what the record yields. -/
structure Arguments where
  /-- `__t__`, 0 to take the clock. -/
  t : UInt64
  /-- `time_in_seconds` or `time_in_milliseconds`. -/
  now : UInt64
  /-- The value under `pkey`. -/
  pkey : PkeyValue
  /-- The value under `tkey`. -/
  tkey : TkeyValue
  userFlag : UInt16
  /-- `json_dumps` of the record. -/
  text : List UInt8

/-- The time a record is stored at. -/
def Arguments.time (record : Arguments) : UInt64 := if record.t = 0 then record.now else record.t

/-- The row written for a record whose payload starts at an offset. -/
def rowOf (record : Arguments) (offset : Nat) : Md2Record :=
  ((⟨record.time, UInt64.ofInt (home.tkeyTime record.tkey), offset, record.text.length + 1⟩ :
    Md2Record).setUserFlag record.userFlag).setSystemFlag
      (home.topic.systemFlag &&& ~~~notInheritedMask)

/-- A write at the end of a file. -/
def writeAtEnd (bytes data : List UInt8) : Option (List UInt8) :=
  if bytes.length + data.length ≤ maxFileSize then some (bytes ++ data) else none

/-- What an append that returns 0 leaves to its caller. -/
structure Reported where
  key : String
  rowid : Int
  /-- `md_record_ex`. -/
  md : Md2RecordEx
deriving DecidableEq, Repr

/-- `cache.{key}`. -/
def TopicFiles.keyCache (files : TopicFiles) (key : String) : KeyCache :=
  (files.cache.get? key).getD createCacheKey

/-- The end of `tranger2_append_record`: the row goes to the end of its file. -/
def appendRow (files : TopicFiles) (key : String) (row : Md2Record) (time : UInt64) :
    TopicFiles × Option Reported :=
  match home.getTopicWrFd files.tree key false time with
  | (tree, none) => ({ files with tree := tree }, none)
  | (tree, some file) =>
    let rows := bytesAt tree file
    match writeAtEnd rows (encodeRow row) with
    | none => ({ files with tree := tree }, none)
    | some longer =>
      let cache := updateNewRecordFromMem home.topic (TopicFiles.keyCache files key) row
      (⟨tree.write file longer, files.cache.set key cache⟩,
        some ⟨key, cache.total.rows, row.decode (rows.length / md2RecordSize + 1)⟩)

/-- `tranger2_append_record`. -/
def appendRecord (files : TopicFiles) (record : Arguments) : TopicFiles × Option Reported :=
  if !home.master then (files, none)
  else
    match keyOf home.topic record.pkey with
    | none => (files, none)
    | some key =>
      match home.getTopicWrFd files.tree key true record.time with
      | (tree, none) => ({ files with tree := tree }, none)
      | (tree, some file) =>
        let content := bytesAt tree file
        match writeAtEnd content (record.text ++ [0]) with
        | none => ({ files with tree := tree }, none)
        | some longer =>
          home.appendRow { files with tree := tree.write file longer } key
            (home.rowOf record content.length) record.time

/-- `tranger2_delete_key`: what is not a directory is only reported. -/
def deleteKey (files : TopicFiles) (key : String) : TopicFiles × Int :=
  if !home.master then (files, -1)
  else if deleteRefuses key then (files, -1)
  else
    let tree :=
      match files.tree.resolve [] (home.keyParts key) with
      | some dir => files.tree.removeTree dir
      | none => files.tree
    (⟨tree, files.cache.erase key⟩, 0)

/-! ## The cache -/

/-- `tranger2_list_keys`. -/
def listKeys (files : TopicFiles) : List String := files.cache.keys

/-- The id of a `.md2` file. -/
def md2Id (name : String) : Option String :=
  let chars := name.toList
  if chars.drop (chars.length - 4) = ".md2".toList then
    some (String.ofList (chars.take (chars.length - 4)))
  else none

/-- `load_key_cache_from_disk` on the directory of a key. -/
def loadKeyCache (tree : FileTree (List UInt8)) (key : String) : KeyCache :=
  let files := (tree.filesIn (home.directory ++ ["keys", key])).filterMap fun file =>
    (md2Id file.1).map fun fileId => (fileId, file.2)
  let dir : ByteDir := ⟨files.foldl (fun dict file => dict.set file.1 file.2) .empty, .empty⟩
  ByteState.loadKeyCacheFromDisk dir

/-- `build_topic_cache_from_disk`: the directories in `keys/`, sorted by name. -/
def buildTopicCacheFromDisk (tree : FileTree (List UInt8)) : Dict String KeyCache :=
  ((tree.subdirs (home.directory ++ ["keys"])).insertionSort (· ≤ ·)).foldl
    (fun cache key => cache.set key (home.loadKeyCache tree key)) .empty

/-- Close the topic and open it again. -/
def reopen (files : TopicFiles) : TopicFiles :=
  { files with cache := home.buildTopicCacheFromDisk files.tree }

/-! ## A sample topic -/

/-- A topic with a file a day, opened by its master. -/
def sample : OpenTopic := ⟨dayTopic, ["topic"], true, by decide⟩

/-- A record `{}` of the key `a`, stored at a time. -/
def sampleArguments (t : UInt64) (tkey : TkeyValue) (userFlag : UInt16) : Arguments :=
  { t := t, now := 1, pkey := .string "a", tkey := tkey, userFlag := userFlag, text := [123, 125] }

end OpenTopic

end Yunetas.Timeranger2
