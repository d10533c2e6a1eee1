import Yunetas.Lib.Marked
import Yunetas.TrQueue.Queue
import Yunetas.Timeranger2.Placed
import Yunetas.Timeranger2.Unfiltered

/-!
# A key in one file

With the mask `queue` all the rows of the key are in one file, so the cache has one cell at most,
a row of the file is a row of the key, and a load from a hint delivers the marked rows from there
on: nothing is pruned.
-/

namespace Yunetas.TrQueue

open List Bool

open Timeranger2

/-- The row of a pending message. -/
def isPending (row : Md2Record) : Bool := row.getUserFlag &&& trqMsgPending = trqMsgPending

/-- The rows of the queue. -/
def queueRows (store : KeyState) : List Md2Record := store.dir.rows "queue"

/-- The one cell of the cache, for some rows. -/
structure OneCell (cache : KeyCache) (count : Nat) : Prop where
  total : cache.total.rows = count
  cells : count = 0 ∧ cache.files = [] ∨ 0 < count ∧ ∃ cell, cache.files = [cell] ∧
    cell.id = "queue" ∧ cell.rows = count ∧ cache.total.Covers cache.files

/-- All the rows of the key are in the file `queue`, and the cache has them. -/
structure OneFile (store : KeyState) : Prop where
  named : ∀ file rows, store.dir.md2.get? file = some rows → file = "queue" ∧ rows ≠ []
  short : (queueRows store).length ≤ maxRows
  alive : ∀ row ∈ queueRows store, row.getSystemFlag &&& sfDeletedInstance = 0
  cell : OneCell store.cache (queueRows store).length

theorem queueFileId_small {seconds : Nat} (small : seconds < 2 ^ 44) :
    queueFileId seconds = "queue" := by
  have accepted : seconds ≤ 67768036191676799 := by omega
  simp [queueFileId, gmtimeAccepts, accepted]

theorem fileOf_small (flags : QueueFlags) {t : UInt64} (small : t.toNat < 2 ^ 44) :
    (queueTopic flags).fileOf t = "queue" := by
  apply queueFileId_small
  split <;> omega

theorem covers_singleton (total : Total) (cell : Cell) (rows : Int) :
    ({ total.cover cell with rows := rows } : Total).Covers [cell] := by
  constructor
  all_goals
    intro other among
    rw [mem_singleton.1 among]
    simp only [Total.cover]
    omega

theorem OneCell.append (flags : QueueFlags) {cache : KeyCache} {count : Nat}
    (one : OneCell cache count) (row : Md2Record) :
    OneCell (updateNewRecordFromMem (queueTopic flags) cache row) (count + 1) := by
  have file : (queueTopic flags).fileId
      (if row.getSystemFlag &&& sfTMs ≠ 0 then row.getTimeT.toNat / 1000
        else row.getTimeT.toNat) = "queue" := by
    have small := wordTime_lt row.t
    apply queueFileId_small
    rw [Md2Record.getTimeT]
    split
    · exact lt_of_le_of_lt (Nat.div_le_self _ _) small
    · exact small
  rcases one.cells with ⟨nothing, noCell⟩ | ⟨filled, cell, files, named, rows, -⟩
  · have updated : updateNewRecordFromMem (queueTopic flags) cache row =
        let added := updateCacheCell none "queue" row .add 1
        ⟨[added], updateTotalsOfKeyCache2 cache.total added 1⟩ := by
      simp only [updateNewRecordFromMem, file, getLastCacheCell, noCell, getLast?_nil,
        nil_append]
    rw [updated]
    refine ⟨?_, .inr ⟨Nat.succ_pos _, _, rfl, rfl, ?_, covers_singleton _ _ _⟩⟩
    · rw [updateTotalsOfKeyCache2_rows, one.total]
      rfl
    · rw [updateCacheCell_none_add_rows, nothing]
  · have updated : updateNewRecordFromMem (queueTopic flags) cache row =
        let wider := updateCacheCell (some cell) "queue" row .add 1
        ⟨[wider], updateTotalsOfKeyCache2 cache.total wider 1⟩ := by
      simp only [updateNewRecordFromMem, file, getLastCacheCell, files, named,
        getLast?_singleton, ↓reduceIte, dropLast_singleton, nil_append]
    rw [updated]
    refine ⟨?_, .inr ⟨Nat.succ_pos _, _, rfl, ?_, ?_, covers_singleton _ _ _⟩⟩
    · rw [updateTotalsOfKeyCache2_rows, one.total]
      rfl
    · rw [updateCacheCell_id, named]
    · rw [updateCacheCell_add_rows, rows]

theorem OneFile.empty : OneFile KeyState.empty where
  named file rows found := by cases found
  short := Nat.zero_le _
  alive row among := absurd among not_mem_nil
  cell := ⟨rfl, .inl ⟨rfl, rfl⟩⟩

theorem row_alive (flags : QueueFlags) (message : Message) (offset : Nat) :
    (message.row (queueTopic flags) offset).getSystemFlag &&& sfDeletedInstance = 0 := by
  have inherited : (queueTopic flags).systemFlag &&& ~~~notInheritedMask &&& sfDeletedInstance =
      (queueTopic flags).systemFlag &&& sfDeletedInstance := by
    rw [UInt16.and_assoc]
    congr 1
  rw [Message.row, Md2Record.getSystemFlag_setSystemFlag, inherited]
  exact flags.alive

namespace OneFile

variable {flags : QueueFlags} {store : KeyState}

theorem named_set (one : OneFile store) {rows : List Md2Record} (filled : rows ≠ [])
    (json : Dict String (List UInt8)) (file : String) (found : List Md2Record)
    (there : (⟨store.dir.md2.set "queue" rows, json⟩ : KeyDir).md2.get? file = some found) :
    file = "queue" ∧ found ≠ [] := by
  rw [Dict.get?_set] at there
  split at there
  · rename_i here
    rw [← Option.some.inj there]
    exact ⟨here, filled⟩
  · exact one.named file found there

theorem append (one : OneFile store) (message : Message)
    (accepted : (queueTopic flags).fileOf message.time = "queue")
    (room : (queueRows store).length < maxRows) :
    ∃ next, appendRecord (queueTopic flags) store message =
        (next, some ((message.row (queueTopic flags) (store.dir.bytes "queue").length).decode
          ((queueRows store).length + 1))) ∧
      OneFile next ∧
      queueRows next = queueRows store ++
        [message.row (queueTopic flags) (store.dir.bytes "queue").length] ∧
      next.dir.json = store.dir.json.set "queue"
        (store.dir.bytes "queue" ++ (message.text ++ [0])) := by
  have fits : ¬ maxRows ≤ (store.dir.rows "queue").length := Nat.not_le_of_lt room
  let row := message.row (queueTopic flags) (store.dir.bytes "queue").length
  let next : KeyState :=
    ⟨{ json := store.dir.json.set "queue" (store.dir.bytes "queue" ++ (message.text ++ [0]))
       md2 := store.dir.md2.set "queue" (store.dir.rows "queue" ++ [row]) },
      updateNewRecordFromMem (queueTopic flags) store.cache row⟩
  have rows : queueRows next = queueRows store ++ [row] := by
    show KeyDir.rows _ _ = _
    rw [rows_set, if_pos rfl]
    rfl
  refine ⟨next, ?_, ?_, rows, rfl⟩
  · unfold appendRecord
    simp only [accepted, fits, ↓reduceIte]
    rfl
  · constructor
    · exact one.named_set (by simp) _
    · rw [rows, length_append, length_singleton]
      exact room
    · intro other among
      rw [rows, mem_append, mem_singleton] at among
      rcases among with old | new
      · exact one.alive other old
      · rw [new]
        exact row_alive flags message _
    · rw [rows, length_append, length_singleton]
      exact one.cell.append flags row

theorem sortedFiles_eq (one : OneFile store) :
    sortedFiles store.dir = if queueRows store = [] then [] else ["queue"] := by
  have all : ∀ file ∈ sortedFiles store.dir, file = "queue" := by
    intro file among
    rw [sortedFiles, mem_insertionSort, Dict.mem_keys, Option.isSome_iff_exists] at among
    obtain ⟨rows, found⟩ := among
    exact (one.named file rows found).1
  have nodup : (sortedFiles store.dir).Nodup :=
    (perm_insertionSort fileNameLe _).nodup_iff.2 store.dir.md2.keys_nodup
  have present : "queue" ∈ sortedFiles store.dir ↔ queueRows store ≠ [] := by
    rw [sortedFiles, mem_insertionSort, Dict.mem_keys, queueRows, KeyDir.rows]
    cases found : store.dir.md2.get? "queue" with
    | none => simp
    | some rows => simpa using (one.named _ rows found).2
  cases files : sortedFiles store.dir with
  | nil =>
    rw [files] at present
    have empty : queueRows store = [] := by
      by_contra filled
      exact absurd (present.2 filled) not_mem_nil
    rw [if_pos empty]
  | cons file rest =>
    rw [files] at all nodup present
    have here : file = "queue" := all file mem_cons_self
    subst here
    rw [if_neg (present.1 mem_cons_self)]
    cases rest with
    | nil => rfl
    | cons other rest =>
      have again : other = "queue" := all other (by simp)
      rw [again] at nodup
      simp at nodup

theorem reopen (one : OneFile store) : OneFile (reopen store) where
  named := one.named
  short := one.short
  alive := one.alive
  cell := by
    show OneCell (loadKeyCacheFromDisk store.dir) (queueRows store).length
    unfold loadKeyCacheFromDisk
    rw [one.sortedFiles_eq]
    by_cases empty : queueRows store = []
    · rw [if_pos empty, empty]
      exact ⟨rfl, .inl ⟨rfl, rfl⟩⟩
    · rw [if_neg empty]
      refine ⟨?_, .inr ⟨length_pos_iff.2 empty, _, rfl, rfl, rfl, ?_⟩⟩
      · rw [map_singleton, updateTotalsOfKeyCache_rows]
        rfl
      · exact covers_singleton _ _ _

theorem setUserFlag (flags : QueueFlags) (one : OneFile store) {rowid : Nat} {row : Md2Record}
    (stored : (queueRows store)[rowid]? = some row) (mask : UInt16) (set : Bool) :
    let next := (Timeranger2.setUserFlag (queueTopic flags) store
      (UInt64.ofNat row.getTimeT.toNat) (UInt64.ofNat (rowid + 1)) mask set).1
    OneFile next ∧ next.dir.json = store.dir.json ∧ queueRows next = (queueRows store).set rowid
        (row.setUserFlag (maskBits row.getUserFlag mask set)) := by
  have ⟨inside, _⟩ := List.getElem?_eq_some_iff.1 stored
  have short := one.short
  unfold maxRows at short
  have time : UInt64.ofNat row.getTimeT.toNat = row.getTimeT := UInt64.ofNat_toNat
  have file : (queueTopic flags).fileOf row.getTimeT = "queue" :=
    fileOf_small flags (wordTime_lt row.t)
  have number : (UInt64.ofNat (rowid + 1)).toNat = rowid + 1 := by
    rw [UInt64.toNat_ofNat']
    omega
  have positive : UInt64.ofNat (rowid + 1) ≠ 0 := by
    intro zero
    rw [zero] at number
    simp at number
  have offset : (rowid + 1 - 1) * 32 % 2 ^ 64 = rowid * 32 := by omega
  have below : ¬ 2 ^ 63 ≤ rowid * 32 := by omega
  have index : rowid * 32 / 32 = rowid := by omega
  let dir : KeyDir := { store.dir with md2 := store.dir.md2.set "queue" (queueRows store) }
  have found : getMdRecordForWr (queueTopic flags) store.dir row.getTimeT
      (UInt64.ofNat (rowid + 1)) = (dir, some (rowid, row)) := by
    unfold getMdRecordForWr
    rw [if_neg positive]
    simp only [file, number, offset, below, index, ↓reduceIte]
    rw [show (store.dir.rows "queue")[rowid]? = some row from stored]
    simp only [↓reduceIte]
    rfl
  have same : dir.rows "queue" = queueRows store := by
    rw [rows_set, if_pos rfl]
  let flagged := row.setUserFlag (maskBits row.getUserFlag mask set)
  let next : KeyState := { store with dir := rewriteMdToFile dir "queue" rowid flagged }
  have changed : (Timeranger2.setUserFlag (queueTopic flags) store
      (UInt64.ofNat row.getTimeT.toNat) (UInt64.ofNat (rowid + 1)) mask set).1 = next := by
    unfold Timeranger2.setUserFlag rewriteRow
    rw [time, found]
    simp only [file]
    rfl
  have rows : queueRows next = (queueRows store).set rowid flagged := by
    show KeyDir.rows ⟨dir.md2.set "queue" _, _⟩ "queue" = _
    rw [rows_set, if_pos rfl, same]
  rw [changed]
  refine ⟨⟨?_, ?_, ?_, ?_⟩, rfl, rows⟩
  · intro name others there
    have filled : queueRows store ≠ [] := ne_nil_of_length_pos (by omega)
    change (dir.md2.set "queue" _).get? name = some others at there
    rw [Dict.get?_set] at there
    split at there
    · rename_i here
      refine ⟨here, ?_⟩
      rw [← Option.some.inj there, same]
      exact ne_nil_of_length_pos (by rw [length_set]; omega)
    · exact one.named_set filled _ name others there
  · rw [rows, length_set]
    exact one.short
  · intro other among
    rw [rows] at among
    rcases mem_or_eq_of_mem_set among with old | new
    · exact one.alive other old
    · rw [new, Md2Record.getSystemFlag_setUserFlag]
      exact one.alive row (mem_of_getElem? stored)
  · rw [rows, length_set]
    exact one.cell

end OneFile

/-! ## Loading -/

variable {cond : MatchCond}

/-- Conditions on a first rowid and on the flag only: a row from there on is decided by its flag,
and it does not end a walk. -/
theorem matchMetadata_from {fromRowid : Nat} {totalRows rowid : Int}
    {md : Md2RecordEx} (start : cond.fromRowid = fromRowid)
    (noTimes : cond.toRowid = 0 ∧ cond.fromT = 0 ∧ cond.toT = 0 ∧ cond.fromTm = 0 ∧ cond.toTm = 0)
    (first : 1 ≤ rowid ∧ (fromRowid : Int) ≤ rowid) (last : rowid ≤ totalRows) :
    matchMetadata cond totalRows rowid md = ⟨matchUserFlag cond md.userFlag, false⟩ := by
  have ⟨toRowid, fromT, toT, fromTm, toTm⟩ := noTimes
  have lower : ∃ low, adjustFromRowid (fromRowid : Int) totalRows = some low ∧ low ≤ rowid := by
    unfold adjustFromRowid
    by_cases zero : (fromRowid : Int) = 0
    · exact ⟨1, by rw [if_pos zero], first.1⟩
    · refine ⟨fromRowid, ?_, first.2⟩
      rw [if_neg zero, if_pos (by omega), if_neg (by omega)]
  have ⟨low, adjusted, below⟩ := lower
  have notBelow : ¬ (low ≠ 0 ∧ rowid < low) := by omega
  have notAbove : ¬ (totalRows ≠ 0 ∧ rowid > totalRows) := by omega
  unfold matchMetadata
  rw [start, adjusted, toRowid]
  simp [fromT, toT, fromTm, toTm, adjustToRowid, ↓reduceIte, notBelow, notAbove]

theorem keeps_pending {fromRowid : Nat} {totalRows : Int} {found : Found} {row : Md2Record}
    {rowid : Nat} (decoded : found.md = row.decode rowid)
    (alive : row.getSystemFlag &&& sfDeletedInstance = 0) (small : fromRowid ≤ maxRows)
    (first : 1 ≤ found.rowid ∧ (fromRowid : Int) ≤ found.rowid)
    (last : found.rowid ≤ totalRows) :
    keeps (pendingFrom fromRowid) totalRows found = isPending row ∧
      stops (pendingFrom fromRowid) totalRows found = false := by
  unfold maxRows at small
  have start : (pendingFrom fromRowid).fromRowid = fromRowid :=
    (pendingFrom_fromRowid fromRowid).trans (jsonInt_of_lt (by omega))
  have result : matchMetadata (pendingFrom fromRowid) totalRows found.rowid found.md =
      ⟨matchUserFlag (pendingFrom fromRowid) found.md.userFlag, false⟩ :=
    matchMetadata_from start (pendingFrom_fields fromRowid).1 first last
  rw [matchUserFlag_pendingFrom] at result
  have live : isDeletedInstance found.md = false := by
    rw [decoded]
    simp [isDeletedInstance, Md2Record.decode, alive]
  constructor
  · rw [keeps, live, result, decoded]
    rfl
  · rw [stops, result]
    exact and_false _

/-- Conditions on no times. -/
structure Untimed (cond : MatchCond) : Prop where
  fromT : cond.fromT = 0
  toT : cond.toT = 0
  fromTm : cond.fromTm = 0
  toTm : cond.toTm = 0
  forward : cond.backward = false

theorem getSegments_cell {cache : KeyCache} {cell : Cell} {first last : Int}
    (untimed : Untimed cond) (files : cache.files = [cell]) (total : cache.total.rows = cell.rows)
    (covers : cache.total.Covers cache.files)
    (firstEq : adjustFromRowid cond.fromRowid cell.rows = some first)
    (lastEq : adjustToRowid cond.toRowid cell.rows = some last)
    (ordered : 1 ≤ first ∧ first ≤ last ∧ last ≤ cell.rows) :
    getSegments cond cache = [⟨cell, 1, cell.rows⟩] := by
  rw [files] at covers
  have frT := covers.frT cell mem_cons_self
  have toT' := covers.toT cell mem_cons_self
  have frTm := covers.frTm cell mem_cons_self
  have toTm' := covers.toTm cell mem_cons_self
  have some_rows : ¬ (cell.rows : Int) = 0 := by omega
  have upward : ¬ last < first := by omega
  have bounds : adjustBounds cond cache.total = some ⟨first, last, cache.total.frT,
      cache.total.toT, cache.total.frTm, cache.total.toTm⟩ := by
    unfold adjustBounds
    rw [untimed.fromT, untimed.toT, untimed.fromTm, untimed.toTm, total, if_neg some_rows, firstEq,
      lastEq]
    simp [adjustFromTime, adjustToTime, ↓reduceIte, upward]
  unfold getSegments
  rw [bounds, untimed.forward, files]
  have length : (1 : Int) + cell.rows - 1 = cell.rows := by omega
  simp only [false_eq_true, ↓reduceIte, forwardSegments, length, Segment.beginsPast,
    Segment.overlaps]
  rw [if_neg (by rw [decide_eq_true_eq]; omega), if_pos (by rw [decide_eq_true_eq]; omega)]
  rfl

theorem walk_cell {totalRows first : Int} {cell : Cell} {files : RdFiles}
    (untimed : Untimed cond) (total : totalRows = cell.rows)
    (firstEq : adjustFromRowid cond.fromRowid cell.rows = some first)
    (inside : 1 ≤ first ∧ first ≤ cell.rows) (held : cell.rows ≤ (files.rows cell.id).length) :
    walk files cond totalRows [⟨cell, 1, cell.rows⟩] =
      scan (keeps cond totalRows) (stops cond totalRows)
        ((segmentRows files ⟨cell, 1, cell.rows⟩).drop (first - 1).toNat) := by
  have readable : Segment.Readable files ⟨cell, 1, cell.rows⟩ :=
    ⟨by show (cell.rows : Int) = 1 + cell.rows - 1; omega, Int.le_refl 1, held⟩
  have begins : forwardStart cond.fromRowid totalRows ⟨cell, 1, cell.rows⟩ = some first := by
    rw [total]
    exact firstEq
  have within : ¬ first > cell.rows := by omega
  have start : firstSegmentRow [⟨cell, 1, cell.rows⟩] totalRows cond = some (0, first) := by
    unfold firstSegmentRow
    rw [untimed.forward]
    simp [↓reduceIte, forwardFirst, begins, within, untimed.fromT, untimed.fromTm]
  rw [walk_eq fun segment among => by rw [mem_singleton.1 among]; exact readable]
  rw [visited, untimed.forward, start]
  simp only [false_eq_true, ↓reduceIte, visitUp, getElem?_cons_zero, rowsUp,
    drop_succ_cons, drop_zero, runUp, flatMap_nil, append_nil]
  rw [if_pos inside]

/-- A numbered row of the file, as a walk finds it. -/
def foundAt (entry : Md2Record × Nat) : Found := ⟨entry.2, "queue", entry.1.decode entry.2⟩

theorem segmentRows_queue {store : KeyState} {cell : Cell} (named : cell.id = "queue")
    (rows : cell.rows = (queueRows store).length) :
    segmentRows store.dir.rdFiles ⟨cell, 1, cell.rows⟩ =
      ((queueRows store).zipIdx 1).map foundAt := by
  have whole : (store.dir.rows "queue").take cell.rows = queueRows store := by
    rw [rows]
    exact take_length
  rw [segmentRows, rows_rdFiles, named, whole, zipIdx_succ, map_map]
  apply map_congr_left
  intro entry _
  have number : (1 : Int) + (entry.2 : Int) = ((entry.2 + 1 : Nat) : Int) := by omega
  show (⟨1 + (entry.2 : Int), "queue", entry.1.decode (entry.2 + 1)⟩ : Found) = _
  rw [number]
  rfl

/-- The delivery of a row to `load_record_callback`. -/
def pendingDelivery (entry : Md2Record × Nat) : Delivery :=
  { rowid := entry.2
    md := { entry.1.decode entry.2 with
      systemFlag := (entry.1.decode entry.2).systemFlag ||| sfLoadingFromDisk }
    content := none }

theorem OneFile.loadIterator_eq {store : KeyState} (one : OneFile store) {fromRowid : Nat}
    (inside : fromRowid ≤ (queueRows store).length) :
    loadIterator store.dir.rdFiles (pendingFrom fromRowid) store.cache =
      (marked isPending (1 + (fromRowid - 1)) ((queueRows store).drop (fromRowid - 1))).map
        pendingDelivery := by
  have small : fromRowid ≤ maxRows := le_trans inside one.short
  rcases one.cell.cells with ⟨nothing, noCell⟩ | ⟨filled, cell, files, named, rows, covers⟩
  · have empty : queueRows store = [] := length_eq_zero_iff.1 nothing
    have segments : getSegments (pendingFrom fromRowid) store.cache = [] := by
      have total := one.cell.total
      rw [nothing] at total
      simp [getSegments, adjustBounds, total]
    rw [empty, drop_nil]
    unfold loadIterator
    rw [segments]
    rfl
  · let segment : Segment := ⟨cell, 1, cell.rows⟩
    have total := one.cell.total
    rw [← rows] at total
    unfold maxRows at small
    have start : (pendingFrom fromRowid).fromRowid = fromRowid :=
      (pendingFrom_fromRowid fromRowid).trans (jsonInt_of_lt (by omega))
    obtain ⟨noTimes, forward, onlyMd⟩ := pendingFrom_fields fromRowid
    have untimed : Untimed (pendingFrom fromRowid) :=
      ⟨noTimes.2.1, noTimes.2.2.1, noTimes.2.2.2.1, noTimes.2.2.2.2, forward⟩
    have firstEq : adjustFromRowid (pendingFrom fromRowid).fromRowid cell.rows =
        some ((1 + (fromRowid - 1) : Nat) : Int) := by
      rw [start]
      unfold adjustFromRowid
      by_cases zero : (fromRowid : Int) = 0
      · rw [if_pos zero]
        exact congrArg some (by show (1 : Int) = _; omega)
      · rw [if_neg zero, if_pos (by omega), if_neg (by omega)]
        exact congrArg some (by omega)
    have lastEq : adjustToRowid (pendingFrom fromRowid).toRowid cell.rows = some cell.rows := by
      rw [noTimes.1]
      rfl
    have segments : getSegments (pendingFrom fromRowid) store.cache = [segment] :=
      getSegments_cell untimed files total covers firstEq lastEq (by omega)
    have held : segmentRows store.dir.rdFiles segment =
        ((queueRows store).zipIdx 1).map foundAt := segmentRows_queue named rows
    have picked : walk store.dir.rdFiles (pendingFrom fromRowid) store.cache.total.rows [segment] =
        (marked isPending (1 + (fromRowid - 1)) ((queueRows store).drop (fromRowid - 1))).map
          foundAt := by
      have kept : cell.rows ≤ (store.dir.rdFiles.rows cell.id).length := by
        rw [rows_rdFiles, named, rows]
        exact Nat.le_refl _
      have position : (((1 + (fromRowid - 1) : Nat) : Int) - 1).toNat = fromRowid - 1 := by omega
      rw [walk_cell untimed total firstEq (by omega) kept, position, held, ← map_drop, drop_zipIdx]
      have each : ∀ entry ∈ ((queueRows store).drop (fromRowid - 1)).zipIdx (1 + (fromRowid - 1)),
          keeps (pendingFrom fromRowid) store.cache.total.rows (foundAt entry) = isPending entry.1 ∧
            stops (pendingFrom fromRowid) store.cache.total.rows (foundAt entry) = false := by
        intro entry among
        obtain ⟨low, stored⟩ := mem_zipIdx_iff_le_and_getElem?_sub.1 among
        rw [getElem?_drop] at stored
        obtain ⟨bound, _⟩ := List.getElem?_eq_some_iff.1 stored
        refine keeps_pending rfl (one.alive _ (mem_of_getElem? stored)) (le_trans inside
          one.short) ?_ ?_
        · show (1 : Int) ≤ (entry.2 : Int) ∧ (fromRowid : Int) ≤ (entry.2 : Int)
          omega
        · show (entry.2 : Int) ≤ store.cache.total.rows
          rw [total]
          omega
      have same : (((queueRows store).drop (fromRowid - 1)).zipIdx (1 + (fromRowid - 1))).filter
          (keeps (pendingFrom fromRowid) store.cache.total.rows ∘ foundAt) =
          marked isPending (1 + (fromRowid - 1)) ((queueRows store).drop (fromRowid - 1)) :=
        filter_congr fun entry among => (each entry among).1
      rw [scan_of_unstopped, filter_map, same]
      · intro found among
        obtain ⟨entry, numbered, rfl⟩ := mem_map.1 among
        exact (each entry numbered).2
    unfold loadIterator
    rw [segments, picked, onlyMd, map_map]
    rfl

theorem rowidWithin_iff {totalRows rowid : Int} (low : 1 ≤ rowid) (high : rowid ≤ totalRows) :
    RowidWithin cond totalRows rowid ↔ ∃ first last,
      adjustFromRowid cond.fromRowid totalRows = some first ∧
      adjustToRowid cond.toRowid totalRows = some last ∧ first ≤ rowid ∧ rowid ≤ last := by
  rcases @adjustFromRowid_spec cond.fromRowid totalRows rowid low high with
    ⟨first, firstEq, -, firstIff⟩ | ⟨firstEq, past⟩
  · rcases @adjustToRowid_spec cond.toRowid totalRows rowid low high with
      ⟨last, lastEq, -, lastIff⟩ | ⟨lastEq, negative, before⟩
    · rw [firstEq, lastEq]
      constructor
      · intro within
        exact ⟨first, last, rfl, rfl, firstIff.2 ⟨within.1, within.2.1⟩,
          lastIff.2 ⟨within.2.2.1, within.2.2.2⟩⟩
      · intro between
        have ⟨low, high, firstSame, lastSame, above, below⟩ := between
        rw [← Option.some.inj firstSame] at above
        rw [← Option.some.inj lastSame] at below
        have lower := firstIff.1 above
        have upper := lastIff.1 below
        exact ⟨lower.1, lower.2, upper.1, upper.2⟩
    · rw [lastEq]
      apply iff_of_false
      · intro within
        have upper := within.2.2.2 negative
        omega
      · intro between
        have ⟨_, _, _, absent, _⟩ := between
        cases absent
  · rw [firstEq]
    apply iff_of_false
    · intro within
      have lower := within.1 (by omega)
      omega
    · intro between
      have ⟨_, _, absent, _⟩ := between
      cases absent

theorem keeps_range {fromRowid toRowid : Int64} {totalRows : Int} {entry : Md2Record × Nat}
    (alive : entry.1.getSystemFlag &&& sfDeletedInstance = 0)
    (inside : 1 ≤ (entry.2 : Int) ∧ (entry.2 : Int) ≤ totalRows) :
    keeps (rangeOf fromRowid toRowid) totalRows (foundAt entry) = true ↔
      RowidWithin (rangeOf fromRowid toRowid) totalRows entry.2 := by
  have live : isDeletedInstance (foundAt entry).md = false := by
    simp [isDeletedInstance, foundAt, Md2Record.decode, alive]
  have matched : _ ↔ _ := matched_iff (rangeOf fromRowid toRowid) inside.1 inside.2
    (decode_t_lt entry.1 entry.2) (decode_tm_lt entry.1 entry.2) (Int.le_refl 0) (Int.le_refl 0)
  have anyFlag (flag : UInt16) : FlagSatisfied (rangeOf fromRowid toRowid) flag := by
    have zero : asUInt16 0 = 0 := by decide
    simp [FlagSatisfied, rangeOf, zero]
  have anyTime (value : Int) : Within 0 0 value :=
    ⟨fun given => absurd rfl given, fun given => absurd rfl given⟩
  rw [keeps, live, Bool.not_false, Bool.true_and]
  constructor
  · intro picked
    exact (matched.1 picked).1.1
  · intro within
    exact matched.2 ⟨⟨within, anyTime _, anyTime _, anyFlag _⟩, Int.le_refl 0, Int.le_refl 0⟩

theorem OneFile.mem_walk_range {store : KeyState} (one : OneFile store)
    (fromRowid toRowid : Int64) (found : Found) :
    found ∈ walk store.dir.rdFiles (rangeOf fromRowid toRowid) store.cache.total.rows
        (getSegments (rangeOf fromRowid toRowid) store.cache) ↔
      ∃ entry ∈ (queueRows store).zipIdx 1, found = foundAt entry ∧
        RowidWithin (rangeOf fromRowid toRowid) (queueRows store).length entry.2 := by
  have inside (entry : Md2Record × Nat) (among : entry ∈ (queueRows store).zipIdx 1) :
      1 ≤ (entry.2 : Int) ∧ (entry.2 : Int) ≤ (queueRows store).length ∧
        entry.1 ∈ queueRows store := by
    have stored := mem_zipIdx_iff_le_and_getElem?_sub.1 among
    have bound := (List.getElem?_eq_some_iff.1 stored.2).1
    exact ⟨by omega, by omega, mem_of_getElem? stored.2⟩
  have nowhere (empty : getSegments (rangeOf fromRowid toRowid) store.cache = [])
      (none_within : ∀ entry ∈ (queueRows store).zipIdx 1,
        ¬ RowidWithin (rangeOf fromRowid toRowid) (queueRows store).length entry.2) :
      found ∈ walk store.dir.rdFiles (rangeOf fromRowid toRowid) store.cache.total.rows
          (getSegments (rangeOf fromRowid toRowid) store.cache) ↔
        ∃ entry ∈ (queueRows store).zipIdx 1, found = foundAt entry ∧
          RowidWithin (rangeOf fromRowid toRowid) (queueRows store).length entry.2 := by
    rw [empty]
    apply iff_of_false not_mem_nil
    intro among
    obtain ⟨entry, listed, _, within⟩ := among
    exact none_within entry listed within
  rcases one.cell.cells with ⟨nothing, noCell⟩ | ⟨filled, cell, files, named, rows, covers⟩
  · apply nowhere
    · have total := one.cell.total
      rw [nothing] at total
      simp [getSegments, adjustBounds, total]
    · intro entry among
      have bounds := inside entry among
      omega
  · have total : store.cache.total.rows = cell.rows := by rw [one.cell.total, rows]
    have untimed : Untimed (rangeOf fromRowid toRowid) := ⟨rfl, rfl, rfl, rfl, rfl⟩
    have unbounded (none_between : ∀ first last,
        adjustFromRowid (rangeOf fromRowid toRowid).fromRowid cell.rows = some first →
        adjustToRowid (rangeOf fromRowid toRowid).toRowid cell.rows = some last → last < first) :
        getSegments (rangeOf fromRowid toRowid) store.cache = [] ∧
          ∀ entry ∈ (queueRows store).zipIdx 1,
            ¬ RowidWithin (rangeOf fromRowid toRowid) (queueRows store).length entry.2 := by
      constructor
      · unfold getSegments adjustBounds
        rw [total]
        cases firstEq : adjustFromRowid (rangeOf fromRowid toRowid).fromRowid cell.rows with
        | none => simp
        | some first =>
          cases lastEq : adjustToRowid (rangeOf fromRowid toRowid).toRowid cell.rows with
          | none => simp
          | some last => simp [none_between first last firstEq lastEq]
      · intro entry among within
        have bounds := inside entry among
        obtain ⟨first, last, firstEq, lastEq, between⟩ :=
          (rowidWithin_iff bounds.1 bounds.2.1).1 within
        rw [← rows] at firstEq lastEq
        have crossed := none_between first last firstEq lastEq
        omega
    by_cases crossing : ∃ first last,
        adjustFromRowid (rangeOf fromRowid toRowid).fromRowid cell.rows = some first ∧
        adjustToRowid (rangeOf fromRowid toRowid).toRowid cell.rows = some last ∧ first ≤ last
    · obtain ⟨first, last, firstEq, lastEq, ordered⟩ := crossing
      have ends : 1 ≤ first ∧ last ≤ cell.rows := by
        constructor
        · unfold adjustFromRowid at firstEq
          split_ifs at firstEq <;> simp only [Option.some.injEq] at firstEq <;> omega
        · unfold adjustToRowid at lastEq
          split_ifs at lastEq <;> simp only [Option.some.injEq] at lastEq <;> omega
      have kept : cell.rows ≤ (store.dir.rdFiles.rows cell.id).length := by
        rw [rows_rdFiles, named, rows]
        exact Nat.le_refl _
      have picked (entry : Md2Record × Nat) (among : entry ∈ (queueRows store).zipIdx 1) :
          keeps (rangeOf fromRowid toRowid) store.cache.total.rows (foundAt entry) = true ↔
            RowidWithin (rangeOf fromRowid toRowid) (queueRows store).length entry.2 := by
        have bounds := inside entry among
        rw [total, rows]
        exact keeps_range (one.alive _ bounds.2.2) ⟨bounds.1, bounds.2.1⟩
      have between (entry : Md2Record × Nat) (among : entry ∈ (queueRows store).zipIdx 1) :
          RowidWithin (rangeOf fromRowid toRowid) (queueRows store).length entry.2 ↔
            first ≤ entry.2 ∧ entry.2 ≤ last := by
        have bounds := inside entry among
        rw [rowidWithin_iff bounds.1 bounds.2.1, ← rows, firstEq, lastEq]
        constructor
        · intro within
          obtain ⟨low, high, firstSame, lastSame, between⟩ := within
          rw [← Option.some.inj firstSame, ← Option.some.inj lastSame] at between
          exact between
        · intro between
          exact ⟨first, last, rfl, rfl, between⟩
      have sorted := @segmentRows_ascending store.dir.rdFiles ⟨cell, 1, cell.rows⟩
      rw [getSegments_cell untimed files total covers firstEq lastEq ⟨ends.1, ordered, ends.2⟩,
        walk_cell untimed total firstEq ⟨ends.1, by omega⟩ kept,
        mem_scan (sorted.sublist (drop_sublist _ _)) (fun element _ => keeps_of_stops),
        segmentRows_queue named rows, ← map_drop, drop_zipIdx]
      have listed (entry : Md2Record × Nat) : entry ∈ ((queueRows store).drop
          (first - 1).toNat).zipIdx (1 + (first - 1).toNat) ↔
          entry ∈ (queueRows store).zipIdx 1 ∧ first ≤ entry.2 := by
        rw [mem_zipIdx_iff_le_and_getElem?_sub, mem_zipIdx_iff_le_and_getElem?_sub,
          getElem?_drop]
        constructor
        · intro there
          have place : (first - 1).toNat + (entry.2 - (1 + (first - 1).toNat)) = entry.2 - 1 := by
            omega
          rw [place] at there
          exact ⟨⟨by omega, there.2⟩, by omega⟩
        · intro there
          have place : (first - 1).toNat + (entry.2 - (1 + (first - 1).toNat)) = entry.2 - 1 := by
            omega
          rw [place]
          exact ⟨by omega, there.1.2⟩
      constructor
      · intro scanned
        obtain ⟨entry, there, rfl⟩ := mem_map.1 scanned.1
        have among := ((listed entry).1 there).1
        exact ⟨entry, among, rfl, (picked entry among).1 scanned.2.1⟩
      · intro ranged
        obtain ⟨entry, among, rfl, within⟩ := ranged
        have range := (between entry among).1 within
        refine ⟨mem_map_of_mem ((listed entry).2 ⟨among, range.1⟩),
          (picked entry among).2 within, ?_⟩
        intro other there before
        obtain ⟨earlier, listedEarlier, rfl⟩ := mem_map.1 there
        have first := (listed earlier).1 listedEarlier
        have order : (earlier.2 : Int) < entry.2 := before
        have ranged := (picked earlier first.1).2 ((between earlier first.1).2 ⟨first.2, by omega⟩)
        by_contra stopped
        rw [not_eq_false] at stopped
        rw [keeps_of_stops stopped] at ranged
        cases ranged
    · have crossed := unbounded fun first last firstEq lastEq => by
        by_contra ordered
        exact crossing ⟨first, last, firstEq, lastEq, by omega⟩
      exact nowhere crossed.1 crossed.2

end Yunetas.TrQueue
