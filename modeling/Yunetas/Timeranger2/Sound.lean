import Yunetas.Timeranger2.Reads

/-!
# What a run keeps

Whatever the master does to a key, its directory only extends: a row stays where it is with its
times and its payload locator, and a tombstone stays. The cache stays sound: no cell counts more
rows than its file holds, and the total counts the rows of the cells. Both hold in every state
of a run, whatever the order of the files.
-/

namespace Yunetas.Timeranger2

open List Option

/-! ## The directory -/

theorem rows_set (dir : KeyDir) (file : String) (rows : List Md2Record)
    (json : Dict String (List UInt8)) (fileId : String) :
    KeyDir.rows ⟨dir.md2.set file rows, json⟩ fileId =
      if fileId = file then rows else dir.rows fileId := by
  rw [KeyDir.rows, Dict.get?_set]
  split <;> rfl

/-- A row carries the tombstone. -/
def Md2Record.Deleted (row : Md2Record) : Prop := row.getSystemFlag &&& sfDeletedInstance ≠ 0

instance (row : Md2Record) : Decidable row.Deleted := inferInstanceAs (Decidable (_ ≠ _))

theorem isDeletedInstance_decode (row : Md2Record) (rowid : Nat) :
    isDeletedInstance (row.decode rowid) = true ↔ row.Deleted := by
  simp [isDeletedInstance, Md2Record.decode, Md2Record.Deleted]

/-- How a row may change: its times, its locator and its tombstone stay. -/
structure RowKept (old new : Md2Record) : Prop where
  t : new.getTimeT = old.getTimeT
  tm : new.getTimeTm = old.getTimeTm
  offset : new.offset = old.offset
  size : new.size = old.size
  deleted : old.Deleted → new.Deleted

theorem RowKept.refl (row : Md2Record) : RowKept row row := ⟨rfl, rfl, rfl, rfl, id⟩

theorem RowKept.trans {first second third : Md2Record} (left : RowKept first second)
    (right : RowKept second third) : RowKept first third :=
  ⟨right.t.trans left.t, right.tm.trans left.tm, right.offset.trans left.offset,
    right.size.trans left.size, fun dead => right.deleted (left.deleted dead)⟩

/-- A directory that extends another holds each of its rows, at its place. -/
def Extends (old new : KeyDir) : Prop :=
  ∀ (file : String) (index : Nat) (row : Md2Record), (old.rows file)[index]? = some row →
    ∃ row', (new.rows file)[index]? = some row' ∧ RowKept row row'

theorem Extends.refl (dir : KeyDir) : Extends dir dir :=
  fun _ _ row stored => ⟨row, stored, RowKept.refl row⟩

theorem Extends.trans {first second third : KeyDir} (left : Extends first second)
    (right : Extends second third) : Extends first third := by
  intro file index row stored
  have ⟨row', stored', kept⟩ := left file index row stored
  have ⟨row'', stored'', kept'⟩ := right file index row' stored'
  exact ⟨row'', stored'', kept.trans kept'⟩

theorem Extends.length_le {old new : KeyDir} (grows : Extends old new) (file : String) :
    (old.rows file).length ≤ (new.rows file).length := by
  by_contra shorter
  have inside : (new.rows file).length < (old.rows file).length := by omega
  have ⟨row', stored, _⟩ := grows file _ _ (getElem?_eq_getElem inside)
  have ⟨bound, _⟩ := List.getElem?_eq_some_iff.1 stored
  omega

theorem extends_of_append (dir : KeyDir) (file : String) (added : List Md2Record)
    (json : Dict String (List UInt8)) :
    Extends dir ⟨dir.md2.set file (dir.rows file ++ added), json⟩ := by
  intro fileId index row stored
  refine ⟨row, ?_, RowKept.refl row⟩
  rw [rows_set]
  split
  · rename_i same
    subst same
    have ⟨bound, _⟩ := List.getElem?_eq_some_iff.1 stored
    rw [getElem?_append_left bound, stored]
  · exact stored

/-- A directory whose files keep their length and whose rows keep what `RowKept` says. -/
structure Rewritten (old new : KeyDir) : Prop where
  grows : Extends old new
  lengths : ∀ file, (new.rows file).length = (old.rows file).length

theorem Rewritten.trans {first second third : KeyDir} (left : Rewritten first second)
    (right : Rewritten second third) : Rewritten first third :=
  ⟨left.grows.trans right.grows, fun file => (right.lengths file).trans (left.lengths file)⟩

theorem Rewritten.of_rows {old new : KeyDir} (same : ∀ file, new.rows file = old.rows file) :
    Rewritten old new :=
  ⟨fun file index row stored => ⟨row, by rw [same]; exact stored, RowKept.refl row⟩,
    fun file => by rw [same]⟩

theorem rewritten_of_rewrite {dir : KeyDir} {file : String} {index : Nat} {row new : Md2Record}
    (stored : (dir.rows file)[index]? = some row) (kept : RowKept row new) :
    Rewritten dir (rewriteMdToFile dir file index new) := by
  refine ⟨fun fileId position other there => ?_, fun fileId => ?_⟩
  · rw [rewriteMdToFile, rows_set]
    split
    · rename_i same
      subst same
      by_cases here : index = position
      · subst here
        have ⟨bound, _⟩ := List.getElem?_eq_some_iff.1 stored
        obtain rfl : row = other := Option.some.inj (stored.symm.trans there)
        exact ⟨new, getElem?_set_self bound, kept⟩
      · exact ⟨other, by rw [getElem?_set_ne here, there], RowKept.refl other⟩
    · exact ⟨other, there, RowKept.refl other⟩
  · rw [rewriteMdToFile, rows_set]
    split
    · rename_i same
      rw [length_set, same]
    · rfl

/-! ## The flag writers -/

theorem deleted_iff_bit (flag : UInt16) :
    flag &&& sfDeletedInstance ≠ 0 ↔ flag.toNat.testBit 10 = true := by
  have mask : sfDeletedInstance.toNat = 2 ^ 10 := by decide
  have value : (flag &&& sfDeletedInstance).toNat = (flag.toNat.testBit 10).toNat * 2 ^ 10 := by
    rw [UInt16.toNat_and, mask, Nat.and_two_pow]
  constructor
  · intro nonzero
    by_contra clear
    rw [Bool.not_eq_true] at clear
    exact nonzero (UInt16.toNat_inj.1 (by rw [value, clear]; rfl))
  · intro set zero
    rw [zero, set] at value
    exact absurd value (by decide)

theorem deleted_or {flag mask : UInt16} (dead : flag &&& sfDeletedInstance ≠ 0) :
    (flag ||| mask) &&& sfDeletedInstance ≠ 0 := by
  rw [deleted_iff_bit] at dead ⊢
  rw [UInt16.toNat_or, Nat.testBit_or, dead, Bool.true_or]

theorem deleted_maskBits {flag mask : UInt16} {set : Bool}
    (writable : mask &&& ~~~sfImmutableRecord = 0) (dead : flag &&& sfDeletedInstance ≠ 0) :
    maskBits flag mask set &&& sfDeletedInstance ≠ 0 := by
  rw [maskBits]
  split
  · exact deleted_or dead
  · have clear : mask.toNat.testBit 10 = false := by
      have bit : (mask &&& ~~~sfImmutableRecord).toNat.testBit 10 = false := by
        rw [writable]
        rfl
      have immutable : (~~~sfImmutableRecord).toNat.testBit 10 = true := by decide
      rwa [UInt16.toNat_and, Nat.testBit_and, immutable, Bool.and_true] at bit
    have complement : (~~~mask).toNat.testBit 10 = true := by
      have : (~~~mask).toNat = 2 ^ 16 - (mask.toNat + 1) := by
        rw [UInt16.toNat_not]
        have := mask.toNat_lt
        simp only [UInt16.size]
        omega
      rw [this, Nat.testBit_two_pow_sub_succ mask.toNat_lt, clear]
      rfl
    rw [deleted_iff_bit] at dead ⊢
    rw [UInt16.toNat_and, Nat.testBit_and, dead, complement]
    rfl

/-- The row that is loaded to be rewritten is stored under its time, and loading it changes no
row. -/
theorem getMdRecordForWr_spec {topic : Topic} {dir dir' : KeyDir} {t rowid : UInt64}
    {found : Option (Nat × Md2Record)}
    (loaded : getMdRecordForWr topic dir t rowid = (dir', found)) :
    (∀ file, dir'.rows file = dir.rows file) ∧ ∀ index row, found = some (index, row) →
      (dir.rows (topic.fileOf t))[index]? = some row ∧ row.getTimeT = t := by
  have created : ∀ file, KeyDir.rows ⟨dir.md2.set (topic.fileOf t) (dir.rows (topic.fileOf t)),
      dir.json⟩ file = dir.rows file := by
    intro file
    rw [rows_set]
    split
    · rename_i same
      rw [same]
    · rfl
  simp only [getMdRecordForWr] at loaded
  split_ifs at loaded
  · obtain ⟨rfl, rfl⟩ := Prod.mk.inj loaded
    exact ⟨fun _ => rfl, fun _ _ h => absurd h (by simp)⟩
  · obtain ⟨rfl, rfl⟩ := Prod.mk.inj loaded
    exact ⟨created, fun _ _ h => absurd h (by simp)⟩
  · split at loaded
    · rename_i row stored
      split_ifs at loaded with same
      · obtain ⟨rfl, rfl⟩ := Prod.mk.inj loaded
        refine ⟨created, fun index other found => ?_⟩
        obtain ⟨rfl, rfl⟩ := Prod.mk.inj (some.inj found)
        exact ⟨stored, same⟩
      · obtain ⟨rfl, rfl⟩ := Prod.mk.inj loaded
        exact ⟨created, fun _ _ h => absurd h (by simp)⟩
    · obtain ⟨rfl, rfl⟩ := Prod.mk.inj loaded
      exact ⟨created, fun _ _ h => absurd h (by simp)⟩

theorem rewriteRow_rewritten (topic : Topic) (state : KeyState) (t rowid : UInt64)
    {change : Md2Record → Md2Record} (keeps : ∀ row, RowKept row (change row)) :
    Rewritten state.dir (rewriteRow topic state t rowid change).1.dir ∧
      (rewriteRow topic state t rowid change).1.cache = state.cache := by
  cases loaded : getMdRecordForWr topic state.dir t rowid with
  | mk dir found =>
    have ⟨same, spec⟩ := getMdRecordForWr_spec loaded
    cases found with
    | none =>
      simp only [rewriteRow, loaded]
      exact ⟨Rewritten.of_rows same, trivial⟩
    | some pair =>
      have ⟨index, row⟩ := pair
      have ⟨stored, _⟩ := spec index row rfl
      simp only [rewriteRow, loaded]
      rw [← same] at stored
      exact ⟨(Rewritten.of_rows same).trans (rewritten_of_rewrite stored (keeps row)), trivial⟩

theorem zeroBytes_rows (dir : KeyDir) (file : String) (offset size : Nat) (fileId : String) :
    (zeroBytes dir file offset size).1.rows fileId = dir.rows fileId := by
  simp only [zeroBytes]
  split_ifs <;> rfl

section

variable (topic : Topic) (state : KeyState)
include topic state

theorem deleteInstance_rewritten (t rowid : UInt64) (zeroPayload : Bool) :
    Rewritten state.dir (deleteInstance topic state t rowid zeroPayload).1.dir ∧
      (deleteInstance topic state t rowid zeroPayload).1.cache = state.cache := by
  cases loaded : getMdRecordForWr topic state.dir t rowid with
  | mk dir found =>
    have ⟨same, spec⟩ := getMdRecordForWr_spec loaded
    have unchanged := Rewritten.of_rows same
    cases found with
    | none =>
      simp only [deleteInstance, loaded]
      exact ⟨unchanged, trivial⟩
    | some pair =>
      have ⟨index, row⟩ := pair
      have ⟨stored, _⟩ := spec index row rfl
      rw [← same] at stored
      have dies : RowKept row (row.setSystemFlag (row.getSystemFlag ||| sfDeletedInstance)) := by
        refine ⟨rfl, by simp, rfl, rfl, fun dead => ?_⟩
        rw [Md2Record.Deleted, Md2Record.getSystemFlag_setSystemFlag]
        exact deleted_or dead
      have written := unchanged.trans (rewritten_of_rewrite stored dies)
      simp only [deleteInstance, loaded]
      split_ifs
      · exact ⟨unchanged, rfl⟩
      · exact ⟨unchanged, rfl⟩
      · exact ⟨written.trans (Rewritten.of_rows (zeroBytes_rows _ _ _ _)), rfl⟩
      · exact ⟨written, rfl⟩

theorem appendRecord_extends (record : Append) :
    Extends state.dir (appendRecord topic state record).1.dir :=
  extends_of_append state.dir _ _ _

/-- What an operation other than an append and a reopening does: it rewrites the directory and
leaves the cache. -/
theorem step_cases (op : KeyOp) :
    (∃ record, op = .append record) ∨ op = .reopen ∨
      (Rewritten state.dir (state.step topic op).dir ∧
        (state.step topic op).cache = state.cache) := by
  cases op with
  | append record => exact Or.inl ⟨record, rfl⟩
  | reopen => exact Or.inr (Or.inl rfl)
  | writeUserFlag t rowid userFlag =>
    exact Or.inr (Or.inr (rewriteRow_rewritten topic state t rowid fun row =>
      ⟨by simp, rfl, rfl, rfl, id⟩))
  | setUserFlag t rowid mask set =>
    exact Or.inr (Or.inr (rewriteRow_rewritten topic state t rowid fun row =>
      ⟨by simp, rfl, rfl, rfl, id⟩))
  | setSystemFlag t rowid mask set =>
    refine Or.inr (Or.inr ?_)
    simp only [KeyState.step, setSystemFlag]
    split_ifs with refused
    · exact ⟨Rewritten.of_rows fun _ => rfl, rfl⟩
    · refine rewriteRow_rewritten topic state t rowid fun row => ⟨rfl, by simp, rfl, rfl, fun dead => ?_⟩
      rw [Md2Record.Deleted, Md2Record.getSystemFlag_setSystemFlag]
      exact deleted_maskBits (not_not.1 refused) dead
  | deleteInstance t rowid zeroPayload =>
    exact Or.inr (Or.inr (deleteInstance_rewritten topic state t rowid zeroPayload))

theorem step_extends (op : KeyOp) : Extends state.dir (state.step topic op).dir := by
  rcases step_cases topic state op with ⟨record, rfl⟩ | rfl | ⟨rewritten, -⟩
  · exact appendRecord_extends topic state record
  · exact Extends.refl _
  · exact rewritten.grows

theorem run_extends (ops : List KeyOp) :
    Extends state.dir (run (KeyState.step topic) state ops).dir :=
  run_invariant (KeyState.step topic) (fun later => Extends state.dir later.dir)
    (fun later op grown => grown.trans (step_extends topic later op)) (Extends.refl _) ops

end

/-! ## The row of a record -/

/-- The time of message that a row keeps. -/
def Append.storedTm (record : Append) : Nat := (wordTime record.tm).toNat

section

variable (topic : Topic) (record : Append) (offset : Nat)

open Md2Record

theorem Append.time_lt : record.time.toNat < 2 ^ 44 := by
  rw [Append.time]
  split
  · exact record.now_lt
  · exact record.t_lt

theorem Append.time_pos : 0 < record.time.toNat := by
  rw [Append.time]
  split
  · exact record.now_pos
  · rename_i given
    by_contra zero
    exact given (UInt64.toNat_inj.1 (by simpa using zero))

@[simp] theorem row_getTimeT : (record.row topic offset).getTimeT = record.time := by
  simp only [Append.row, getTimeT_setSystemFlag, getTimeT_setUserFlag]
  exact wordTime_of_lt record.time_lt

@[simp] theorem row_getTimeTm : (record.row topic offset).getTimeTm.toNat = record.storedTm := by
  simp only [Append.row, getTimeTm_setSystemFlag, getTimeTm_setUserFlag]
  rfl

theorem Append.storedTm_lt : record.storedTm < 2 ^ 44 := wordTime_lt record.tm

theorem row_alive (rowid : Nat) :
    isDeletedInstance ((record.row topic offset).decode rowid) = false := by
  have flag : (record.row topic offset).getSystemFlag =
      topic.systemFlag &&& ~~~notInheritedMask := by
    simp [Append.row, getSystemFlag_setSystemFlag]
  rw [Bool.eq_false_iff, ne_eq, isDeletedInstance_decode, Md2Record.Deleted, flag, not_not,
    UInt16.and_assoc, UInt16.and_comm (~~~notInheritedMask), ← UInt16.and_assoc, topic.alive]
  decide

theorem updateCacheCell_first (file : String) :
    updateCacheCell none file (record.row topic offset) .add 1 =
      ⟨file, record.time.toNat, record.time.toNat, record.storedTm, record.storedTm, 1⟩ := by
  have timeT := record.time_lt
  have timeTm := record.storedTm_lt
  simp only [updateCacheCell, row_getTimeT, row_getTimeTm, getD_none, unsetTime,
    Cell.mk.injEq, true_and, Nat.zero_max, Nat.zero_add, and_true]
  omega

theorem updateCacheCell_next (cell : Cell) (file : String) :
    updateCacheCell (some cell) file (record.row topic offset) .add 1 =
      ⟨cell.id, min cell.frT record.time.toNat, max cell.toT record.time.toNat,
        min cell.frTm record.storedTm, max cell.toTm record.storedTm, cell.rows + 1⟩ := by
  simp [updateCacheCell, row_getTimeT, row_getTimeTm]

end

/-! ## The cache -/

/-- No cell counts more rows than its file holds, every row is in a file with a cell, and the
total counts the rows of the cells. -/
structure Sound (state : KeyState) : Prop where
  held : ∀ cell ∈ state.cache.files, cell.rows ≤ (state.dir.rows cell.id).length
  covered : ∀ file, state.dir.rows file ≠ [] → ∃ cell ∈ state.cache.files, cell.id = file
  counted : state.cache.total.rows = rowsOf state.cache.files

theorem Sound.empty : Sound KeyState.empty :=
  ⟨fun _ among => absurd among not_mem_nil, fun _ filled => absurd rfl filled, rfl⟩

theorem fileOf_row (topic : Topic) (record : Append) (offset : Nat) :
    topic.fileId (if (record.row topic offset).getSystemFlag &&& sfTMs ≠ 0 then
        (record.row topic offset).getTimeT.toNat / 1000
      else (record.row topic offset).getTimeT.toNat) = topic.fileOf record.time := by
  have time : (record.row topic offset).getTimeT = record.time := by
    have small : record.time.toNat < 2 ^ 44 := by
      rw [Append.time]
      split
      · exact record.now_lt
      · exact record.t_lt
    simp only [Append.row, Md2Record.getTimeT_setSystemFlag, Md2Record.getTimeT_setUserFlag]
    exact wordTime_of_lt small
  have inherited : topic.systemFlag &&& ~~~notInheritedMask &&& sfTMs =
      topic.systemFlag &&& sfTMs := by
    rw [UInt16.and_assoc]
    congr 1
  have flag : (record.row topic offset).getSystemFlag =
      topic.systemFlag &&& ~~~notInheritedMask := by
    simp [Append.row, Md2Record.getSystemFlag_setSystemFlag]
  rw [time, flag, inherited, Topic.fileOf]

/-- What an append does to the cache: it widens the last cell when it is the one of the file,
and adds a cell when it is not. -/
theorem updateNewRecordFromMem_cases (topic : Topic) (cache : KeyCache) (record : Append)
    (offset : Nat) :
    (∃ before cell, cache.files = before ++ [cell] ∧ cell.id = topic.fileOf record.time ∧
      getLastCacheCell cache (topic.fileOf record.time) = some cell ∧
      updateNewRecordFromMem topic cache (record.row topic offset) =
        let wider := updateCacheCell (some cell) cell.id (record.row topic offset) .add 1
        ⟨before ++ [wider], updateTotalsOfKeyCache2 cache.total wider 1⟩) ∨
    (getLastCacheCell cache (topic.fileOf record.time) = none ∧
      updateNewRecordFromMem topic cache (record.row topic offset) =
        let added := updateCacheCell none (topic.fileOf record.time)
          (record.row topic offset) .add 1
        ⟨cache.files ++ [added], updateTotalsOfKeyCache2 cache.total added 1⟩) := by
  have file := fileOf_row topic record offset
  rcases eq_nil_or_concat cache.files with none | ⟨before, cell, split⟩
  · refine Or.inr ⟨by simp only [getLastCacheCell, none, getLast?_nil], ?_⟩
    simp only [updateNewRecordFromMem, file, getLastCacheCell, none, getLast?_nil]
  · rw [concat_eq_append] at split
    by_cases same : cell.id = topic.fileOf record.time
    · have found : getLastCacheCell cache (topic.fileOf record.time) = some cell := by
        simp [getLastCacheCell, split, same]
      refine Or.inl ⟨before, cell, split, same, found, ?_⟩
      simp only [updateNewRecordFromMem, file, found, split, same, dropLast_concat]
    · have absent : getLastCacheCell cache (topic.fileOf record.time) = none := by
        simp [getLastCacheCell, split, same]
      exact Or.inr ⟨absent, by simp only [updateNewRecordFromMem, file, absent]⟩

@[simp] theorem updateCacheCell_id (cell : Cell) (fileId : String) (row : Md2Record)
    (operation : CellOperation) (rows : Nat) :
    (updateCacheCell (some cell) fileId row operation rows).id = cell.id := rfl

variable (fileId : String)

@[simp] theorem updateCacheCell_none_id (row : Md2Record)
    (operation : CellOperation) (rows : Nat) :
    (updateCacheCell none fileId row operation rows).id = fileId := rfl

@[simp] theorem updateCacheCell_add_rows (cell : Cell) (fileId : String) (row : Md2Record)
    (rows : Nat) :
    (updateCacheCell (some cell) fileId row .add rows).rows = cell.rows + rows := rfl

@[simp] theorem updateCacheCell_none_add_rows (row : Md2Record) (rows : Nat) :
    (updateCacheCell none fileId row .add rows).rows = rows := by
  simp [updateCacheCell]

@[simp] theorem updateTotalsOfKeyCache2_rows (total : Total) (cell : Cell) (rowsAdded : Int) :
    (updateTotalsOfKeyCache2 total cell rowsAdded).rows = total.rows + rowsAdded := rfl

theorem appendRecord_rows (topic : Topic) (state : KeyState) (record : Append) (fileId : String) :
    (appendRecord topic state record).1.dir.rows fileId =
      if fileId = topic.fileOf record.time then
        state.dir.rows (topic.fileOf record.time) ++
          [record.row topic (state.dir.bytes (topic.fileOf record.time)).length]
      else state.dir.rows fileId :=
  rows_set _ _ _ _ _

theorem Sound.append {topic : Topic} {state : KeyState} (sound : Sound state) (record : Append) :
    Sound (appendRecord topic state record).1 := by
  have grows := appendRecord_extends topic state record
  have written : ((appendRecord topic state record).1.dir.rows (topic.fileOf record.time)).length =
      (state.dir.rows (topic.fileOf record.time)).length + 1 := by
    rw [appendRecord_rows, if_pos rfl, length_append, length_singleton]
  have older : ∀ cell ∈ state.cache.files,
      cell.rows ≤ ((appendRecord topic state record).1.dir.rows cell.id).length :=
    fun cell among => le_trans (sound.held cell among) (grows.length_le cell.id)
  have coveredOther : ∀ file, file ≠ topic.fileOf record.time →
      (appendRecord topic state record).1.dir.rows file ≠ [] →
      ∃ cell ∈ state.cache.files, cell.id = file := by
    intro file other filled
    rw [appendRecord_rows, if_neg other] at filled
    exact sound.covered file filled
  rcases updateNewRecordFromMem_cases topic state.cache record
    (state.dir.bytes (topic.fileOf record.time)).length with
    ⟨before, cell, split, same, -, updated⟩ | ⟨-, updated⟩
  · have held := sound.held cell (by rw [split]; simp)
    refine ⟨fun other among => ?_, fun file filled => ?_, ?_⟩
    · simp only [appendRecord, updated, mem_append, mem_singleton] at among
      rcases among with inBefore | rfl
      · exact older other (by rw [split]; exact mem_append_left _ inBefore)
      · rw [updateCacheCell_id, updateCacheCell_add_rows, same, written, ← same]
        omega
    · simp only [appendRecord, updated, mem_append, mem_singleton]
      by_cases here : file = topic.fileOf record.time
      · exact ⟨_, Or.inr rfl, by rw [updateCacheCell_id, same, here]⟩
      · obtain ⟨other, among, rfl⟩ := coveredOther file here filled
        rw [split, mem_append, mem_singleton] at among
        rcases among with inBefore | rfl
        · exact ⟨other, Or.inl inBefore, rfl⟩
        · exact absurd same here
    · have counted := sound.counted
      rw [split, rowsOf_append, rowsOf_cons] at counted
      simp only [appendRecord, updated, updateTotalsOfKeyCache2_rows, rowsOf_append, rowsOf_cons,
        rowsOf_nil, updateCacheCell_add_rows, counted]
      omega
  · refine ⟨fun other among => ?_, fun file filled => ?_, ?_⟩
    · simp only [appendRecord, updated, mem_append, mem_singleton] at among
      rcases among with inBefore | rfl
      · exact older other inBefore
      · rw [updateCacheCell_none_id, updateCacheCell_none_add_rows, written]
        omega
    · simp only [appendRecord, updated, mem_append, mem_singleton]
      by_cases here : file = topic.fileOf record.time
      · exact ⟨_, Or.inr rfl, by rw [updateCacheCell_none_id, here]⟩
      · have ⟨other, among, same⟩ := coveredOther file here filled
        exact ⟨other, Or.inl among, same⟩
    · simp only [appendRecord, updated, updateTotalsOfKeyCache2_rows, rowsOf_append, rowsOf_cons,
        rowsOf_nil, updateCacheCell_none_add_rows, sound.counted]
      omega

@[simp] theorem loadCacheCellFromDisk_rows (rows : List Md2Record) :
    (loadCacheCellFromDisk fileId rows).rows = rows.length := rfl

@[simp] theorem loadCacheCellFromDisk_id (rows : List Md2Record) :
    (loadCacheCellFromDisk fileId rows).id = fileId := rfl

theorem updateTotalsOfKeyCache_rows (files : List Cell) :
    (updateTotalsOfKeyCache files).rows = rowsOf files := by
  have fold : ∀ (total : Total),
      (files.foldl (fun total cell => { total.cover cell with rows := total.rows + cell.rows })
        total).rows = total.rows + rowsOf files := by
    induction files with
    | nil => intro total; simp
    | cons cell rest ih =>
      intro total
      rw [foldl_cons, ih, rowsOf_cons]
      push_cast
      omega
  rw [updateTotalsOfKeyCache, fold, Int.zero_add]

theorem Sound.reopen (state : KeyState) : Sound (reopen state) := by
  refine ⟨fun cell among => ?_, fun file filled => ?_, updateTotalsOfKeyCache_rows _⟩
  · obtain ⟨fileId, -, rfl⟩ := mem_map.1 among
    exact le_rfl
  · have listed : file ∈ sortedFiles state.dir := by
      rw [sortedFiles, mem_insertionSort, Dict.mem_keys]
      by_contra absent
      rw [Bool.not_eq_true, isSome_eq_false_iff, isNone_iff_eq_none] at absent
      exact filled (by
        show (state.dir.md2.get? file).getD [] = []
        rw [absent]
        rfl)
    exact ⟨_, mem_map.2 ⟨file, listed, rfl⟩, rfl⟩

theorem Sound.step {topic : Topic} {state : KeyState} (sound : Sound state) (op : KeyOp) :
    Sound (state.step topic op) := by
  rcases step_cases topic state op with ⟨record, rfl⟩ | rfl | ⟨rewritten, same⟩
  · exact sound.append record
  · exact Sound.reopen state
  · refine ⟨fun cell among => ?_, fun file filled => ?_, ?_⟩
    · rw [same] at among
      rw [rewritten.lengths]
      exact sound.held cell among
    · rw [same]
      rw [← length_pos_iff_ne_nil, rewritten.lengths, length_pos_iff_ne_nil] at filled
      exact sound.covered file filled
    · rw [same]
      exact sound.counted

theorem Sound.run (topic : Topic) (ops : List KeyOp) :
    Sound (run (KeyState.step topic) KeyState.empty ops) :=
  run_invariant (KeyState.step topic) Sound (fun _ op sound => sound.step op) Sound.empty ops

end Yunetas.Timeranger2
