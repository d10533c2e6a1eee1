import Mathlib
import Yunetas.Timeranger2.TopicRuns

/-!
# Writers of flags touch one row and one field

An append returns where its row is: a key, a time and a position in the file of that time. The
writers of flags go back to that row in any later state, until the key is deleted. They find it
as long as the time returned, which is the one given cut to 44 bits, belongs to the file of the
time given; then they change the flags they are asked to change, and no other byte of any file of
rows.
-/

namespace Yunetas.Timeranger2.OpenTopic

variable {home : OpenTopic}

/-! ## Histories -/

/-- A row an append wrote, and the locator it returned. -/
structure Logged where
  key : String
  file : Path
  /-- `md_record_ex`. -/
  md : Md2RecordEx
deriving DecidableEq, Repr

namespace Logged

/-- `__t__` of the locator. -/
def t (entry : Logged) : UInt64 := UInt64.ofNat entry.md.t

/-- `i_rowid` of the locator. -/
def rowid (entry : Logged) : UInt64 := UInt64.ofNat entry.md.rowid

/-- The position of the row. -/
def index (entry : Logged) : Nat := entry.md.rowid - 1

end Logged

/-- A topic with the rows that were appended to the keys it still has. -/
structure History where
  files : TopicFiles
  log : List Logged

/-- A new topic. -/
def History.created (home : OpenTopic) : History := ⟨home.created, []⟩

/-- The history after an operation. -/
def History.step (home : OpenTopic) (history : History) (op : FileOp) : History where
  files := home.step history.files op
  log :=
    match op with
    | .append record =>
      match (home.appendRecord history.files record).2 with
      | none => history.log
      | some reported =>
        history.log ++ [⟨reported.key,
          home.directory ++ ["keys", reported.key] ++ [home.fileName false record.time], reported.md⟩]
    | .deleteKey key => history.log.filter fun entry => entry.key ≠ key
    | _ => history.log

/-! ## Property -/

/-- The locator a writer of flags is given. -/
def target : FileOp → Option (String × UInt64 × UInt64)
  | .writeUserFlag key t rowid _ => some (key, t, rowid)
  | .setUserFlag key t rowid _ _ => some (key, t, rowid)
  | .setSystemFlag key t rowid _ _ => some (key, t, rowid)
  | .deleteInstance key t rowid _ => some (key, t, rowid)
  | _ => none

/-- The user flag and the system flag a writer should leave in a row. A mask with another bit than
the one of an immutable record is refused, and so is the delete of an immutable record. -/
def flagsAfter (op : FileOp) (row : Md2Record) : UInt16 × UInt16 :=
  match op with
  | .writeUserFlag _ _ _ userFlag => (userFlag, row.getSystemFlag)
  | .setUserFlag _ _ _ mask set => (maskBits row.getUserFlag mask set, row.getSystemFlag)
  | .setSystemFlag _ _ _ mask set =>
    (row.getUserFlag, if mask &&& ~~~sfImmutableRecord ≠ 0 then row.getSystemFlag
      else maskBits row.getSystemFlag mask set)
  | .deleteInstance _ _ _ _ =>
    (row.getUserFlag, if row.getSystemFlag &&& sfImmutableRecord ≠ 0 then row.getSystemFlag
      else row.getSystemFlag ||| sfDeletedInstance)
  | _ => (row.getUserFlag, row.getSystemFlag)

/-- A delete that wipes the payload. -/
def wipes : FileOp → Bool
  | .deleteInstance _ _ _ zeroPayload => zeroPayload
  | _ => false

/-- The file of a row before and after a writer of its flags, and all the rest. -/
structure OneField (home : OpenTopic) (before after : TopicFiles) (op : FileOp) (entry : Logged)
    (old new : List UInt8) : Prop where
  stood : before.tree.fileAt entry.file = some old
  stands : after.tree.fileAt entry.file = some new
  length : new.length = old.length
  others : ∀ other, other ≠ entry.index → rowBytes new other = rowBytes old other
  time : (rowAt new entry.index).getTimeT = (rowAt old entry.index).getTimeT
  tm : (rowAt new entry.index).getTimeTm = (rowAt old entry.index).getTimeTm
  locator : (rowAt new entry.index).offset = (rowAt old entry.index).offset ∧
    (rowAt new entry.index).size = (rowAt old entry.index).size
  userFlag : (rowAt new entry.index).getUserFlag = (flagsAfter op (rowAt old entry.index)).1
  systemFlag : (rowAt new entry.index).getSystemFlag = (flagsAfter op (rowAt old entry.index)).2
  files : ∀ path, path ≠ entry.file →
    after.tree.get? path = before.tree.get? path ∨
      wipes op = true ∧
        path = home.directory ++ ["keys", entry.key] ++ [home.fileName true entry.t]
  cache : after.cache = before.cache
  read : (home.readUserFlag after entry.key entry.t entry.rowid).2 =
    (flagsAfter op (rowAt old entry.index)).1

/-- A writer of flags that is given the locator of a row touches the field it is asked for. -/
def TouchesOneField (home : OpenTopic) (history : History) (op : FileOp) : Prop :=
  ∀ entry ∈ history.log, target op = some (entry.key, entry.t, entry.rowid) →
    ∃ old new, OneField home history.files (home.step history.files op) op entry old new

/-- A time given to an append belongs to the same file when it is cut to 44 bits. -/
def CutKeepsFile (home : OpenTopic) (op : FileOp) : Prop :=
  ∀ record, op = .append record →
    home.topic.fileOf record.time = home.topic.fileOf (wordTime record.time)

/-! ## Rows that stand -/

/-- The row of a locator is there. -/
structure Standing (home : OpenTopic) (tree : FileTree (List UInt8)) (entry : Logged) : Prop where
  master : home.master = true
  plain : PlainKey entry.key
  keyUsed : home.keyUsed entry.key = entry.key
  accepted : deleteRefuses entry.key = false
  leads : tree.resolve [] (home.keyParts entry.key) = some (home.directory ++ ["keys", entry.key])
  file : entry.file = home.directory ++ ["keys", entry.key] ++ [home.fileName false entry.t]
  row : ∃ bytes, tree.fileAt entry.file = some bytes ∧
    entry.rowid.toNat * md2RecordSize ≤ bytes.length ∧
      (rowAt bytes entry.index).getTimeT = entry.t
  positive : entry.rowid ≠ 0
  index : entry.index = entry.rowid.toNat - 1

variable {tree : FileTree (List UInt8)} {entry : Logged} {op : FileOp}

theorem Standing.opens (standing : Standing home tree entry) :
    openFile tree (home.keyParts entry.key) (home.fileName false entry.t) = some entry.file := by
  rw [openFile_eq_some]
  have ⟨bytes, there, _⟩ := standing.row
  refine ⟨_, standing.leads, standing.file, ?_⟩
  rw [there]
  rfl

theorem Standing.found (standing : Standing home tree entry) (all : AllWhole tree) :
    home.getMdRecordForWr tree (home.keyUsed entry.key) entry.t entry.rowid =
      (tree, some ⟨entry.file, entry.index, rowAt (bytesAt tree entry.file) entry.index⟩) := by
  have ⟨bytes, there, inside, time⟩ := standing.row
  have same := bytesAt_of_fileAt there
  have whole := all _ _ (rowFile_of_open standing.opens) there
  have at_index := standing.index
  rw [standing.keyUsed, at_index]
  apply getMdRecordForWr_of_row standing.opens standing.positive
  · rw [same]
    exact inside
  · rw [same]
    exact whole.2
  · rw [same, ← at_index]
    exact time

theorem Standing.grown {old new : FileTree (List UInt8)}
    (standing : Standing home old entry) (grown : Grown old new) : Standing home new entry := by
  have ⟨bytes, there, inside, time⟩ := standing.row
  have ⟨longer, later, kept⟩ := grown.rows _ _ (rowFile_of_open standing.opens) there
  refine { standing with leads := ?_, row := ?_ }
  · exact FileTree.resolve_mono grown.dirs _ _ _ standing.leads
  · refine ⟨longer, later, Nat.le_trans inside kept.1, ?_⟩
    have reaches : (entry.index + 1) * md2RecordSize ≤ bytes.length := by
      have positive : entry.rowid.toNat ≠ 0 := fun same =>
        standing.positive (UInt64.toNat_inj.1 same)
      rw [standing.index, Nat.sub_add_cancel (Nat.pos_of_ne_zero positive)]
      exact inside
    rw [kept.2 _ reaches, time]

theorem Standing.deleteKey {files : TopicFiles} {key : String}
    (standing : Standing home files.tree entry) (other : entry.key ≠ key) :
    Standing home (home.deleteKey files key).1.tree entry := by
  rcases @deleteKey_tree home files key with same | removed
  · rw [same]
    exact standing
  rw [removed]
  -- neither the directory of the key nor a directory on the way to it is below the removed one
  have kept (path : Path) (below : path <+: home.directory ++ ["keys", entry.key] ++
      [home.fileName false entry.t]) :
      (files.tree.removeTree (home.directory ++ ["keys", key])).get? path =
        files.tree.get? path := by
    rw [FileTree.get?_removeTree, if_neg]
    intro above
    have first := List.isPrefixOf_iff_prefix.1 above
    have whole := first.trans below
    rw [List.append_assoc, List.prefix_append_right_inj] at whole
    have ⟨rest, spelled⟩ := whole
    have names := (List.cons.inj spelled).2
    exact other (List.cons.inj names).1.symm
  have ⟨bytes, there, inside, time⟩ := standing.row
  refine { standing with leads := ?_, row := ?_ }
  · have leads := standing.leads
    apply FileTree.resolve_kept (entryName_keyParts standing.plain) _ leads
    intro path onWay isDir
    rw [List.nil_append, keyParts_plain standing.plain] at onWay
    by_cases root : path = []
    · rw [root]
      rfl
    · rw [FileTree.isDir_iff _ root] at isDir ⊢
      rw [kept path (onWay.trans (List.prefix_append _ _))]
      exact isDir
  · refine ⟨bytes, ?_, inside, time⟩
    rw [FileTree.fileAt_eq_some] at there ⊢
    rw [kept _ (standing.file ▸ List.prefix_refl _)]
    exact there

/-- The rows of the log stand. -/
structure AllStand (home : OpenTopic) (history : History) : Prop where
  whole : AllWhole history.files.tree
  rows : ∀ entry ∈ history.log, Standing home history.files.tree entry

theorem Wrote.row_time {files after : TopicFiles} {record : Arguments} {reported : Reported}
    {dir : Path} {content rows : List UInt8}
    (wrote : Wrote home files after record reported dir content rows) :
    UInt64.ofNat reported.md.t = wordTime record.time := by
  rw [wrote.md]
  show UInt64.ofNat (((Md2Record.setUserFlag _ _).setSystemFlag _).getTimeT).toNat = _
  rw [Md2Record.getTimeT_setSystemFlag, Md2Record.getTimeT_setUserFlag, UInt64.ofNat_toNat]
  rfl

/-- The row of an append stands, when its time belongs to the same file cut to 44 bits. -/
theorem standing_appended {files : TopicFiles} {record : Arguments} {reported : Reported}
    (all : AllWhole files.tree) (master : home.master = true)
    (accepted : (home.appendRecord files record).2 = some reported)
    (cut : home.topic.fileOf record.time = home.topic.fileOf (wordTime record.time)) :
    Standing home (home.appendRecord files record).1.tree
      ⟨reported.key, home.directory ++ ["keys", reported.key] ++ [home.fileName false record.time],
        reported.md⟩ := by
  have ⟨dir, content, rows, wrote⟩ := appendRecord_wrote accepted
  have notRefused := not_refused_of_keyOf wrote.key
  have plain := plainKey_of_not_refused notRefused
  have here := resolve_plain plain wrote.leads
  have time := wrote.row_time
  have size : md2RecordSize = 32 := rfl
  have most : maxFileSize = 2 ^ 63 - 1 := rfl
  have long := length_encodeRow (home.rowOf record content.length)
  have whole : md2RecordSize ∣ rows.length := by
    rcases wrote.old with there | empty
    · exact (all _ _ (rowFile_md2 dir record.time) there).1
    · rw [empty]
      exact ⟨0, rfl⟩
  have start : rows.length / md2RecordSize * md2RecordSize = rows.length := Nat.div_mul_cancel whole
  have room := wrote.rowsRoom
  have rowid : reported.md.rowid = rows.length / md2RecordSize + 1 := by
    rw [wrote.md]
    rfl
  have word : (UInt64.ofNat reported.md.rowid).toNat = rows.length / md2RecordSize + 1 := by
    rw [rowid, UInt64.toNat_ofNat']
    apply Nat.mod_eq_of_lt
    rw [size] at start ⊢
    omega
  have index : reported.md.rowid - 1 = rows.length / md2RecordSize := by
    rw [rowid, Nat.add_sub_cancel]
  have row : rowAt (rows ++ encodeRow (home.rowOf record content.length)) (reported.md.rowid - 1) =
      home.rowOf record content.length := by
    rw [index, rowAt, rowBytes_last whole long, decodeRow_encodeRow (fits_rowOf record wrote.dataRoom)]
  have name : home.fileName false (UInt64.ofNat reported.md.t) = home.fileName false record.time := by
    rw [time, fileName, fileName, ← cut]
  constructor
  · exact master
  · exact plain
  · exact keyUsed_of_keyOf wrote.key
  · exact notRefused
  · rw [← here]
    exact wrote.leads
  · show _ = _ ++ [home.fileName false (UInt64.ofNat reported.md.t)]
    rw [name]
  · refine ⟨_, here ▸ wrote.index, ?_, ?_⟩
    · show (UInt64.ofNat reported.md.rowid).toNat * md2RecordSize ≤ _
      rw [word, List.length_append, long, Nat.succ_mul, start]
    · show (rowAt _ (reported.md.rowid - 1)).getTimeT = UInt64.ofNat reported.md.t
      rw [row, time]
      show ((Md2Record.setUserFlag _ _).setSystemFlag _).getTimeT = _
      rw [Md2Record.getTimeT_setSystemFlag, Md2Record.getTimeT_setUserFlag]
      rfl
  · intro zero
    have none_left : (UInt64.ofNat reported.md.rowid).toNat = 0 := congrArg UInt64.toNat zero
    omega
  · show reported.md.rowid - 1 = (UInt64.ofNat reported.md.rowid).toNat - 1
    rw [word, rowid]

theorem master_of_accepted {files : TopicFiles} {record : Arguments} {reported : Reported}
    (accepted : (home.appendRecord files record).2 = some reported) : home.master = true := by
  unfold appendRecord at accepted
  by_cases master : home.master = true
  · exact master
  · rw [Bool.not_eq_true] at master
    rw [master] at accepted
    cases accepted

theorem AllStand.step {history : History} (all : AllStand home history)
    (cut : CutKeepsFile home op) : AllStand home (history.step home op) := by
  refine ⟨all.whole.step op, ?_⟩
  have grows (keeps : ∀ key, op ≠ .deleteKey key) : ∀ entry ∈ history.log,
      Standing home (home.step history.files op).tree entry := fun entry among =>
    (all.rows entry among).grown (grown_step all.whole keeps)
  cases op with
  | append record =>
    have old := grows (by intro key; nofun)
    intro entry among
    cases accepted : (home.appendRecord history.files record).2 with
    | none =>
      unfold History.step at among
      dsimp only at among
      rw [accepted] at among
      exact old entry among
    | some reported =>
      unfold History.step at among
      dsimp only at among
      rw [accepted] at among
      rcases List.mem_append.1 among with before | new
      · exact old entry before
      · rw [List.mem_singleton.1 new]
        exact standing_appended all.whole (master_of_accepted accepted) accepted (cut record rfl)
  | deleteKey key =>
    intro entry among
    have kept := List.mem_filter.1 among
    exact (all.rows entry kept.1).deleteKey (by simpa using kept.2)
  | writeUserFlag key t rowid userFlag => exact grows (by intro other; nofun)
  | setUserFlag key t rowid mask set => exact grows (by intro other; nofun)
  | setSystemFlag key t rowid mask set => exact grows (by intro other; nofun)
  | readUserFlag key t rowid => exact grows (by intro other; nofun)
  | deleteInstance key t rowid zeroPayload => exact grows (by intro other; nofun)
  | reopen => exact grows (by intro other; nofun)

/-! ## Writers of flags -/

/-- A row with the flags that a writer should leave, and nothing else changed. -/
structure Flagged (op : FileOp) (row changed : Md2Record) : Prop where
  time : changed.getTimeT = row.getTimeT
  tm : changed.getTimeTm = row.getTimeTm
  locator : changed.offset = row.offset ∧ changed.size = row.size
  userFlag : changed.getUserFlag = (flagsAfter op row).1
  systemFlag : changed.getSystemFlag = (flagsAfter op row).2

variable {files : TopicFiles} {entry : Logged}

open FileTree

section

variable (standing : Standing home files.tree entry)
include standing

theorem Standing.readUserFlag (all : AllWhole files.tree) :
    (home.readUserFlag files entry.key entry.t entry.rowid).2 =
      (rowAt (bytesAt files.tree entry.file) entry.index).getUserFlag := by
  unfold OpenTopic.readUserFlag
  rw [standing.found all]

theorem Standing.rewriteRow (all : AllWhole files.tree) (change : Md2Record → Md2Record) :
    home.rewriteRow files entry.key entry.t entry.rowid change = ({ files with
          tree := files.tree.write entry.file (overwrite (bytesAt files.tree entry.file)
            (entry.index * md2RecordSize)
            (encodeRow (change (rowAt (bytesAt files.tree entry.file) entry.index)))) }, 0) := by
  unfold OpenTopic.rewriteRow rewriteMdToFile
  rw [standing.found all]
  dsimp only
  rw [if_pos standing.master]

theorem Standing.inside :
    (entry.index + 1) * md2RecordSize ≤ (bytesAt files.tree entry.file).length := by
  have ⟨bytes, there, inside, _⟩ := standing.row
  have positive : entry.rowid.toNat ≠ 0 := fun same => standing.positive (UInt64.toNat_inj.1 same)
  rw [bytesAt_of_fileAt there, standing.index, Nat.sub_add_cancel (Nat.pos_of_ne_zero positive)]
  exact inside

theorem Standing.fileAt : files.tree.fileAt entry.file = some (bytesAt files.tree entry.file) :=
  fileAt_of_open standing.opens

theorem oneField_same (all : AllWhole files.tree)
    (flagged : Flagged op (rowAt (bytesAt files.tree entry.file) entry.index)
      (rowAt (bytesAt files.tree entry.file) entry.index)) :
    OneField home files files op entry (bytesAt files.tree entry.file)
      (bytesAt files.tree entry.file) where
  stood := standing.fileAt
  stands := standing.fileAt
  length := rfl
  others _ _ := rfl
  time := flagged.time
  tm := flagged.tm
  locator := flagged.locator
  userFlag := flagged.userFlag
  systemFlag := flagged.systemFlag
  files _ _ := .inl rfl
  cache := rfl
  read := by rw [standing.readUserFlag all, flagged.userFlag]

end

theorem oneField_rewritten {after : TopicFiles} {changed : Md2Record}
    (standing : Standing home files.tree entry) (stands : Standing home after.tree entry)
    (all : AllWhole after.tree) (fits : changed.Fits)
    (flagged : Flagged op (rowAt (bytesAt files.tree entry.file) entry.index) changed)
    (written : after.tree.fileAt entry.file = some (overwrite (bytesAt files.tree entry.file)
      (entry.index * md2RecordSize) (encodeRow changed)))
    (rest : ∀ path, path ≠ entry.file → after.tree.get? path = files.tree.get? path ∨
      wipes op = true ∧
        path = home.directory ++ ["keys", entry.key] ++ [home.fileName true entry.t])
    (cache : after.cache = files.cache) :
    ∃ old new, OneField home files after op entry old new := by
  have inside := standing.inside
  have long := length_encodeRow changed
  have row : rowAt (overwrite (bytesAt files.tree entry.file) (entry.index * md2RecordSize)
      (encodeRow changed)) entry.index = changed := by
    rw [rowAt, rowBytes_overwrite inside, if_pos rfl, decodeRow_encodeRow fits]
  refine ⟨_, _, ⟨standing.fileAt, written, ?_, ?_, ?_, ?_, ?_, ?_, ?_, rest, cache, ?_⟩⟩
  · rw [length_overwrite (by rw [long, ← Nat.succ_mul]; exact inside)]
  · intro other ne
    rw [rowBytes_overwrite inside, if_neg ne]
  · rw [row]
    exact flagged.time
  · rw [row]
    exact flagged.tm
  · rw [row]
    exact flagged.locator
  · rw [row]
    exact flagged.userFlag
  · rw [row]
    exact flagged.systemFlag
  · rw [stands.readUserFlag all, bytesAt_of_fileAt written, row]
    exact flagged.userFlag

theorem oneField_rewriteRow {change : Md2Record → Md2Record}
    (standing : Standing home files.tree entry) (all : AllWhole files.tree)
    (keeps : KeepsTime change) (flagged : ∀ row, Flagged op row (change row)) :
    ∃ old new, OneField home files
      (home.rewriteRow files entry.key entry.t entry.rowid change).1 op entry old new := by
  have grown := @grown_rewriteRow home files all entry.key entry.t entry.rowid _ keeps
  have stands := standing.grown grown
  have all_after := all.grown grown
  rw [standing.rewriteRow all] at stands all_after ⊢
  apply oneField_rewritten standing stands all_after
    (keeps.fits _ (fits_rowAt _ _)) (flagged _) (fileAt_write _ _ _) _ rfl
  intro path ne
  exact .inl (get?_write_ne _ _ ne)

theorem flagged_userFlag {flag : Md2Record → UInt16}
    (asked : ∀ row, flagsAfter op row = (flag row, row.getSystemFlag)) (row : Md2Record) :
    Flagged op row (row.setUserFlag (flag row)) := by
  refine ⟨Md2Record.getTimeT_setUserFlag row _, rfl, ⟨rfl, rfl⟩, ?_, ?_⟩
  · rw [asked, Md2Record.getUserFlag_setUserFlag]
  · rw [asked]
    rfl

theorem flagged_systemFlag {row : Md2Record} {flag : UInt16}
    (asked : flagsAfter op row = (row.getUserFlag, flag)) :
    Flagged op row (row.setSystemFlag flag) := by
  refine ⟨rfl, Md2Record.getTimeTm_setSystemFlag row _, ⟨rfl, rfl⟩, ?_, ?_⟩
  · rw [asked]
    rfl
  · rw [asked, Md2Record.getSystemFlag_setSystemFlag]

theorem flagged_same {row : Md2Record}
    (asked : flagsAfter op row = (row.getUserFlag, row.getSystemFlag)) : Flagged op row row := by
  refine ⟨rfl, rfl, ⟨rfl, rfl⟩, ?_, ?_⟩
  · rw [asked]
  · rw [asked]

theorem tombstone_twice {flag : UInt16} (dead : flag &&& sfDeletedInstance ≠ 0) :
    flag ||| sfDeletedInstance = flag := by
  have bit : sfDeletedInstance.toNat = 2 ^ 10 := by decide
  have set : flag.toNat.testBit 10 = true := by
    by_contra clear
    rw [Bool.not_eq_true] at clear
    apply dead
    apply UInt16.toNat_inj.1
    rw [UInt16.toNat_and, bit, Nat.and_two_pow, clear]
    rfl
  apply UInt16.toNat_inj.1
  rw [UInt16.toNat_or, bit]
  apply Nat.eq_of_testBit_eq
  intro index
  rw [Nat.testBit_or, Nat.testBit_two_pow]
  by_cases here : 10 = index
  · rw [← here, set]
    rfl
  · simp [here]

theorem wipePayload_get? {key : String} {dir path : Path}
    {t : UInt64} (leads : tree.resolve [] (home.keyParts key) = some dir)
    (other : path ≠ dir ++ [home.fileName true t]) (row : Md2Record) :
    (home.wipePayload tree key t row).1.get? path = tree.get? path := by
  have kept := @kept_getTopicWrFd home tree key true t
  have opens := @getTopicWrFd_opens home tree key true t
  have same := @getTopicWrFd_get? home tree key dir path true t leads other
  unfold wipePayload
  cases got : home.getTopicWrFd tree key true t with
  | mk new opened =>
    rw [got] at kept opens same
    cases opened with
    | none => exact same
    | some file =>
      have ⟨place, place_leads, spelled, _⟩ := openFile_eq_some.1 (opens rfl)
      have here : place = dir :=
        Option.some.inj (place_leads.symm.trans (resolve_mono kept.dirs _ _ _ leads))
      have ne : path ≠ file := by
        rw [spelled, here]
        exact other
      dsimp only
      split
      · exact same
      · rw [get?_write_ne _ _ ne]
        exact same

section

variable (standing : Standing home files.tree entry) (all : AllWhole files.tree)
include standing all

theorem oneField_deleteInstance (zeroPayload : Bool) :
    ∃ old new, OneField home files
      (home.deleteInstance files entry.key entry.t entry.rowid zeroPayload).1
      (.deleteInstance entry.key entry.t entry.rowid zeroPayload) entry old new := by
  have grown := @grown_deleteInstance home files all entry.key entry.t entry.rowid zeroPayload
  have stands := standing.grown grown
  have all_after := all.grown grown
  have asked (row : Md2Record) :
      flagsAfter (.deleteInstance entry.key entry.t entry.rowid zeroPayload) row =
        (row.getUserFlag, if row.getSystemFlag &&& sfImmutableRecord ≠ 0 then row.getSystemFlag
          else row.getSystemFlag ||| sfDeletedInstance) := rfl
  have accepted : deleteRefuses (home.keyUsed entry.key) = false := by
    rw [standing.keyUsed]
    exact standing.accepted
  unfold OpenTopic.deleteInstance at stands all_after ⊢
  simp only [standing.master, accepted, standing.found all, Bool.not_true, Bool.false_eq_true,
    ↓reduceIte] at stands all_after ⊢
  by_cases immutable : (rowAt (bytesAt files.tree entry.file) entry.index).getSystemFlag &&&
      sfImmutableRecord ≠ 0
  · rw [if_pos immutable]
    refine ⟨_, _, oneField_same standing all (flagged_same ?_)⟩
    rw [asked, if_pos immutable]
  rw [if_neg immutable] at stands all_after ⊢
  by_cases dead : (rowAt (bytesAt files.tree entry.file) entry.index).getSystemFlag &&&
      sfDeletedInstance ≠ 0
  · rw [if_pos dead]
    refine ⟨_, _, oneField_same standing all (flagged_same ?_)⟩
    rw [asked, if_neg immutable, tombstone_twice dead]
  rw [if_neg dead] at stands all_after ⊢
  have flagged : Flagged (.deleteInstance entry.key entry.t entry.rowid zeroPayload)
      (rowAt (bytesAt files.tree entry.file) entry.index)
      ((rowAt (bytesAt files.tree entry.file) entry.index).setSystemFlag
        ((rowAt (bytesAt files.tree entry.file) entry.index).getSystemFlag |||
          sfDeletedInstance)) := by
    apply flagged_systemFlag
    rw [asked, if_neg immutable]
  have fits : ((rowAt (bytesAt files.tree entry.file) entry.index).setSystemFlag
      ((rowAt (bytesAt files.tree entry.file) entry.index).getSystemFlag |||
        sfDeletedInstance)).Fits := fits_rowAt _ _
  unfold rewriteMdToFile at stands all_after ⊢
  simp only [standing.master, ↓reduceIte] at stands all_after ⊢
  by_cases wipe : zeroPayload = true ∧ 0 < (rowAt (bytesAt files.tree entry.file) entry.index).size
  · rw [if_pos wipe] at stands all_after ⊢
    have notJson : entry.file ≠ home.directory ++ ["keys", entry.key] ++
        [home.fileName true entry.t] := by
      rw [standing.file]
      exact (json_ne_md2 _ _ entry.t entry.t).symm
    have leads := @resolve_write _ _ _ (overwrite (bytesAt files.tree entry.file)
      (entry.index * md2RecordSize) (encodeRow
        ((rowAt (bytesAt files.tree entry.file) entry.index).setSystemFlag
          ((rowAt (bytesAt files.tree entry.file) entry.index).getSystemFlag |||
            sfDeletedInstance)))) standing.fileAt _ _ standing.leads
    rw [standing.keyUsed] at stands all_after ⊢
    apply oneField_rewritten standing stands all_after fits flagged
    · rw [fileAt_eq_some]
      rw [wipePayload_get? leads notJson, ← fileAt_eq_some, fileAt_write]
    · intro path ne
      by_cases payload : path = home.directory ++ ["keys", entry.key] ++
          [home.fileName true entry.t]
      · exact .inr ⟨wipe.1, payload⟩
      · left
        rw [wipePayload_get? leads payload, get?_write_ne _ _ ne]
    · rfl
  · rw [if_neg wipe] at stands all_after ⊢
    apply oneField_rewritten standing stands all_after fits flagged
      (fileAt_write _ _ _) _ rfl
    intro path ne
    exact .inl (get?_write_ne _ _ ne)

theorem oneField_step (aimed : target op = some (entry.key, entry.t, entry.rowid)) :
    ∃ old new, OneField home files (home.step files op) op entry old new := by
  cases op with
  | writeUserFlag key t rowid userFlag =>
    cases aimed
    exact oneField_rewriteRow standing all (keepsTime_userFlag _) (flagged_userFlag fun _ => rfl)
  | setUserFlag key t rowid mask set =>
    cases aimed
    exact oneField_rewriteRow standing all (keepsTime_userFlag _) (flagged_userFlag fun _ => rfl)
  | setSystemFlag key t rowid mask set =>
    cases aimed
    show ∃ old new, OneField home files
      (home.setSystemFlag files entry.key entry.t entry.rowid mask set).1 _ entry old new
    unfold setSystemFlag
    have asked (row : Md2Record) :
        flagsAfter (.setSystemFlag entry.key entry.t entry.rowid mask set) row =
          (row.getUserFlag, if mask &&& ~~~sfImmutableRecord ≠ 0 then row.getSystemFlag
            else maskBits row.getSystemFlag mask set) := rfl
    by_cases refused : mask &&& ~~~sfImmutableRecord ≠ 0
    · rw [if_pos refused]
      refine ⟨_, _, oneField_same standing all (flagged_same ?_)⟩
      rw [asked, if_pos refused]
    · rw [if_neg refused]
      apply oneField_rewriteRow standing all (keepsTime_systemFlag _)
      intro row
      apply flagged_systemFlag
      rw [asked, if_neg refused]
  | deleteInstance key t rowid zeroPayload =>
    cases aimed
    exact oneField_deleteInstance standing all zeroPayload
  | append record => cases aimed
  | readUserFlag key t rowid => cases aimed
  | deleteKey key => cases aimed
  | reopen => cases aimed

end

/-! ## Main result -/

/-- In every run whose appends are given times that belong to the same file cut to 44 bits, a writer
of flags that is given the locator of a row touches one field of that row alone. -/
theorem flag_writers_touch_one_field (home : OpenTopic) (ops : List FileOp)
    (cut : ∀ op ∈ ops, CutKeepsFile home op) :
    AllSteps (History.step home) (TouchesOneField home) (History.created home) ops := by
  have start : AllStand home (History.created home) :=
    ⟨allWhole_created home, fun _ among => absurd among List.not_mem_nil⟩
  exact AllSteps.strengthen (History.step home)
    (fun _ _ all fits => all.step fits)
    (fun _ _ all _ entry among aimed => oneField_step (all.rows entry among) all.whole aimed)
    start (AllSteps.of_mem (History.step home) cut _)

/-- A record of the first day, marked. -/
theorem flag_writers_touch_one_field_first : AllSteps (History.step sample) (TouchesOneField sample)
    (History.created sample) [.append (sampleArguments 7 .other 0), .writeUserFlag "a" 7 1 9] := by
  apply flag_writers_touch_one_field
  intro op among record same
  rcases List.mem_cons.1 among with first | rest
  · rw [same] at first
    rw [FileOp.append.inj first]
    decide
  · rw [List.mem_singleton.1 rest] at same
    cases same

/-- A record stored at a time of 45 bits gets the locator of another row of its key: marking it
marks the other one. -/
theorem long_time_marks_another : ¬ AllSteps (History.step sample) (TouchesOneField sample)
    (History.created sample)
    [.append (sampleArguments 5 .other 0), .append (sampleArguments (2 ^ 44 + 5) .other 0),
      .writeUserFlag "a" 5 1 9] := by
  intro all
  obtain ⟨old, new, one⟩ := all.2.2.1
    ⟨"a", ["topic", "keys", "a", "1970-01-03.md2"], ⟨5, 0, 0, 3, 1, 0, 1⟩⟩ (by decide) rfl
  have unmarked : ((sample.step (run (History.step sample) (History.created sample)
      [.append (sampleArguments 5 .other 0), .append (sampleArguments (2 ^ 44 + 5) .other 0)]).files
      (.writeUserFlag "a" 5 1 9)).tree.fileAt ["topic", "keys", "a", "1970-01-03.md2"]).map
        (fun bytes => (rowAt bytes 0).getUserFlag) = some 0 := by
    decide
  have stands := one.stands
  have asked : (rowAt new 0).getUserFlag = 9 := one.userFlag
  simp only [run_cons, run_nil] at unmarked
  rw [stands, Option.map_some, asked] at unmarked
  exact absurd unmarked (by decide)

end Yunetas.Timeranger2.OpenTopic
