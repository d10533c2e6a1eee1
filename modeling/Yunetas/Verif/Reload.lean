import Yunetas.Timeranger2.Topic
import Yunetas.Verif.ExactlyOnce

/-!
# The cache in memory and the cache on disk

Appends maintain the cells and the totals row by row; opening a topic rebuilds them from the
first and last rows of its files, sorted by name. For any sequence of appends the two are equal
exactly when the files were written in the order of their names, the times of every file lie
between those of its first and last rows, and a time of message 0, which the totals in memory
take for unset, was either never stored or stored in the last file.
-/

namespace Yunetas.Timeranger2

open List Option

/-! ## What appends leave -/

/-- The records of a file. -/
def recordsOfFile (topic : Topic) (records : List Append) (file : String) : List Append :=
  records.filter fun record => topic.fileOf record.time = file

/-- The stored times of some records. -/
def timesOf (records : List Append) : List Nat := records.map fun record => record.time.toNat

/-- The stored times of message of some records. -/
def tmsOf (records : List Append) : List Nat := records.map Append.storedTm

/-- The cell whose ranges are those of all its records. -/
def hullCell (file : String) (records : List Append) : Cell :=
  ⟨file, lowest unsetTime (timesOf records), highest (timesOf records),
    lowest unsetTime (tmsOf records), highest (tmsOf records), records.length⟩

theorem hull_snoc (file : String) (records : List Append) (record : Append) :
    hullCell file (records ++ [record]) =
      let hull := hullCell file records
      ⟨hull.id, min hull.frT record.time.toNat, max hull.toT record.time.toNat,
        min hull.frTm record.storedTm, max hull.toTm record.storedTm, hull.rows + 1⟩ := by
  simp [hullCell, timesOf, tmsOf, lowest, highest]

/-- A key after its records. -/
def written (topic : Topic) (records : List Append) : KeyState :=
  KeyState.empty.appendAll topic records

section

variable (topic : Topic) (records : List Append)
include topic records

theorem written_snoc (record : Append) :
    written topic (records ++ [record]) = (appendRecord topic (written topic records) record).1 := by
  simp [written, KeyState.appendAll]

theorem recordsOfFile_snoc (record : Append) (file : String) :
    recordsOfFile topic (records ++ [record]) file =
      if topic.fileOf record.time = file then recordsOfFile topic records file ++ [record]
      else recordsOfFile topic records file := by
  rw [recordsOfFile, filter_append]
  by_cases here : topic.fileOf record.time = file <;> simp [recordsOfFile, here]

theorem written_rows (file : String) :
    ((written topic records).dir.rows file).map (fun row => (row.getTimeT.toNat,
        row.getTimeTm.toNat)) =
      (recordsOfFile topic records file).map fun record =>
        (record.time.toNat, record.storedTm) := by
  induction records using List.reverseRecOn with
  | nil => rfl
  | append_singleton records record ih =>
    rw [written_snoc, appendRecord_rows, recordsOfFile_snoc]
    by_cases here : topic.fileOf record.time = file
    · rw [if_pos here.symm, if_pos here, map_append, map_append, here, ih]
      simp
    · rw [if_neg (Ne.symm here), if_neg here, ih]

theorem written_keys (file : String) :
    file ∈ (written topic records).dir.md2.keys ↔ recordsOfFile topic records file ≠ [] := by
  induction records using List.reverseRecOn with
  | nil => simp [written, KeyState.appendAll, KeyState.empty, KeyDir.empty, recordsOfFile]
  | append_singleton records record ih =>
    rw [written_snoc, appendRecord_keys, ih, recordsOfFile_snoc]
    by_cases here : topic.fileOf record.time = file
    · simp [here]
    · simp [here, Ne.symm here]

theorem written_cells_snoc (record : Append) :
    (∃ before cell, (written topic records).cache.files = before ++ [cell] ∧
      cell.id = topic.fileOf record.time ∧
      (written topic (records ++ [record])).cache =
        let wider : Cell := ⟨cell.id, min cell.frT record.time.toNat,
          max cell.toT record.time.toNat, min cell.frTm record.storedTm,
          max cell.toTm record.storedTm, cell.rows + 1⟩
        ⟨before ++ [wider], updateTotalsOfKeyCache2 (written topic records).cache.total wider 1⟩) ∨
    (getLastCacheCell (written topic records).cache (topic.fileOf record.time) = none ∧
      (written topic (records ++ [record])).cache =
        let added := hullCell (topic.fileOf record.time) [record]
        ⟨(written topic records).cache.files ++ [added],
          updateTotalsOfKeyCache2 (written topic records).cache.total added 1⟩) := by
  have first : hullCell (topic.fileOf record.time) [record] =
      ⟨topic.fileOf record.time, record.time.toNat, record.time.toNat, record.storedTm,
        record.storedTm, 1⟩ := by
    have timeLt := record.time_lt
    have tmLt := record.storedTm_lt
    simp only [hullCell, timesOf, tmsOf, lowest, highest, unsetTime, map_cons, map_nil,
      foldl_cons, foldl_nil, length_singleton, Cell.mk.injEq, true_and, and_true]
    omega
  rw [written_snoc]
  rcases updateNewRecordFromMem_cases topic (written topic records).cache record
    ((written topic records).dir.bytes (topic.fileOf record.time)).length with
    ⟨before, cell, split, same, -, updated⟩ | ⟨none, updated⟩
  · rw [updateCacheCell_next] at updated
    exact Or.inl ⟨before, cell, split, same, updated⟩
  · rw [updateCacheCell_first, ← first] at updated
    exact Or.inr ⟨none, updated⟩

theorem written_ids (file : String) :
    file ∈ (written topic records).cache.files.map Cell.id ↔
      ∃ record ∈ records, topic.fileOf record.time = file := by
  induction records using List.reverseRecOn with
  | nil => simp [written, KeyState.appendAll, KeyState.empty, createCacheKey]
  | append_singleton records record ih =>
    have appended : (∃ other ∈ records ++ [record], topic.fileOf other.time = file) ↔
        (∃ other ∈ records, topic.fileOf other.time = file) ∨ topic.fileOf record.time = file := by
      simp
    rw [appended, ← ih]
    rcases written_cells_snoc topic records record with ⟨before, cell, split, same, updated⟩ |
      ⟨-, updated⟩
    · rw [updated, split]
      simp only [map_append, map_cons, map_nil, mem_append, mem_singleton, same]
      constructor
      · exact fun inside => Or.inl inside
      · rintro (inside | rfl)
        · exact inside
        · exact Or.inr rfl
    · rw [updated]
      simp [map_append, map_cons, map_nil, mem_append, hullCell, eq_comm]

end

/-! ## Files in the order of their names -/

/-- The files were written in the order of their names: none was gone back to. -/
def InOrder (topic : Topic) (records : List Append) : Prop :=
  records.Pairwise fun earlier later =>
    fileNameLe (topic.fileOf earlier.time) (topic.fileOf later.time)

variable {topic : Topic} {records : List Append}

theorem inOrder_snoc {record : Append} :
    InOrder topic (records ++ [record]) ↔ InOrder topic records ∧
      ∀ other ∈ records, fileNameLe (topic.fileOf other.time) (topic.fileOf record.time) := by
  simp [InOrder, pairwise_append]

/-- The cells in memory are in the strict order of the files exactly when the records are. -/
theorem ids_ordered_iff (topic : Topic) (records : List Append) :
    ((written topic records).cache.files.map Cell.id).Pairwise fileNameLt ↔
      InOrder topic records := by
  induction records using List.reverseRecOn with
  | nil => simp [written, KeyState.appendAll, KeyState.empty, createCacheKey, InOrder]
  | append_singleton records record ih =>
    rw [inOrder_snoc, ← ih]
    have listed : ∀ other ∈ records, topic.fileOf other.time ∈
        (written topic records).cache.files.map Cell.id := fun other among =>
      (written_ids topic records _).2 ⟨other, among, rfl⟩
    rcases written_cells_snoc topic records record with ⟨before, cell, split, same, updated⟩ |
      ⟨none, updated⟩
    · have ids : (written topic (records ++ [record])).cache.files.map Cell.id =
          (written topic records).cache.files.map Cell.id := by
        rw [updated, split]
        simp
      rw [ids]
      constructor
      · intro ordered
        refine ⟨ordered, fun other among => ?_⟩
        have inside := listed other among
        rw [split, map_append, mem_append] at inside
        rw [split, map_append, pairwise_append] at ordered
        rcases inside with inBefore | isLast
        · rw [← same]
          exact (ordered.2.2 _ inBefore _ (by simp)).1
        · rw [map_cons, map_nil, mem_singleton, same] at isLast
          rw [isLast]
          exact (fileNameLe_total _ _).elim id id
      · exact fun ordered => ordered.1
    · have ids : (written topic (records ++ [record])).cache.files.map Cell.id =
          (written topic records).cache.files.map Cell.id ++ [topic.fileOf record.time] := by
        rw [updated]
        simp [hullCell]
      rw [ids, pairwise_append]
      constructor
      · rintro ⟨ordered, -, below⟩
        exact ⟨ordered, fun other among => (below _ (listed other among) _ (by simp)).1⟩
      · rintro ⟨ordered, below⟩
        refine ⟨ordered, pairwise_singleton _ _, fun file among file' isNew => ?_⟩
        rw [mem_singleton] at isNew
        subst isNew
        obtain ⟨other, inRecords, rfl⟩ := (written_ids topic records file).1 among
        refine ⟨below other inRecords, fun here => ?_⟩
        rcases eq_nil_or_concat (written topic records).cache.files with empty |
          ⟨before, last, split⟩
        · rw [empty] at among
          exact absurd among not_mem_nil
        · rw [concat_eq_append] at split
          simp only [getLastCacheCell, split, getLast?_concat] at none
          have differ : last.id ≠ topic.fileOf record.time := by
            intro same
            rw [if_pos same] at none
            exact absurd none (by simp)
          rw [split, map_append, pairwise_append] at ordered
          rw [split, map_append, mem_append] at among
          rcases among with inBefore | isLast
          · have later := ordered.2.2 _ inBefore last.id (by simp)
            have lastIn : last.id ∈ (written topic records).cache.files.map Cell.id := by
              rw [split]
              simp
            obtain ⟨lastRecord, lastAmong, lastFile⟩ := (written_ids topic records _).1 lastIn
            have high := below lastRecord lastAmong
            rw [lastFile] at high
            rw [here] at later
            exact later.2 (fileNameLe_antisymm later.1 high)
          · rw [map_cons, map_nil, mem_singleton, here] at isLast
            exact differ isLast.symm

theorem written_hull (ordered : InOrder topic records) :
    ∀ cell ∈ (written topic records).cache.files,
      cell = hullCell cell.id (recordsOfFile topic records cell.id) := by
  induction records using List.reverseRecOn with
  | nil => exact fun cell among => absurd among not_mem_nil
  | append_singleton records record ih =>
    have ids := (ids_ordered_iff topic (records ++ [record])).2 ordered
    have earlier := ih (inOrder_snoc.1 ordered).1
    rcases written_cells_snoc topic records record with ⟨before, cell, split, same, updated⟩ |
      ⟨-, updated⟩
    · rw [updated] at ids ⊢
      simp only [map_append, map_cons, map_nil, pairwise_append] at ids
      intro other among
      rcases mem_append.1 among with inBefore | isWider
      · have differ : topic.fileOf record.time ≠ other.id := by
          rw [← same]
          exact (ids.2.2 _ (mem_map_of_mem inBefore) _ mem_cons_self).2.symm
        rw [recordsOfFile_snoc, if_neg differ]
        exact earlier other (by rw [split]; exact mem_append_left _ inBefore)
      · have hull := earlier cell (by rw [split]; simp)
        rw [mem_singleton.1 isWider]
        rw [recordsOfFile_snoc, if_pos same.symm]
        rw [hull_snoc, ← hull]
    · rw [updated] at ids ⊢
      simp only [map_append, map_cons, map_nil, pairwise_append] at ids
      have fresh : topic.fileOf record.time ∉ (written topic records).cache.files.map Cell.id :=
        fun among => (ids.2.2 _ among _ mem_cons_self).2 rfl
      intro other among
      rcases mem_append.1 among with older | isAdded
      · have differ : topic.fileOf record.time ≠ other.id := fun here =>
          fresh (here ▸ mem_map_of_mem older)
        rw [recordsOfFile_snoc, if_neg differ]
        exact earlier other older
      · rw [mem_singleton.1 isAdded]
        have none : recordsOfFile topic records (topic.fileOf record.time) = [] := by
          rw [recordsOfFile, filter_eq_nil_iff]
          intro old inRecords here
          exact fresh ((written_ids topic records _).2 ⟨old, inRecords, of_decide_eq_true here⟩)
        show _ = hullCell (topic.fileOf record.time)
          (recordsOfFile topic (records ++ [record]) (topic.fileOf record.time))
        rw [recordsOfFile_snoc, if_pos rfl, none]
        rfl

/-! ## The totals in memory -/

theorem written_ranges (topic : Topic) (records : List Append) :
    ∀ cell ∈ (written topic records).cache.files,
      0 < cell.frT ∧ cell.frT ≤ cell.toT ∧ cell.frTm ≤ cell.toTm ∧ cell.frT < 2 ^ 44 ∧
        cell.frTm < 2 ^ 44 := by
  induction records using List.reverseRecOn with
  | nil => exact fun cell among => absurd among not_mem_nil
  | append_singleton records record ih =>
    have timePos := record.time_pos
    have timeLt := record.time_lt
    have tmLt := record.storedTm_lt
    rcases written_cells_snoc topic records record with ⟨before, cell, split, -, updated⟩ |
      ⟨-, updated⟩
    · rw [updated]
      intro other among
      rcases mem_append.1 among with inBefore | isWider
      · exact ih other (by rw [split]; exact mem_append_left _ inBefore)
      · have range := ih cell (by rw [split]; simp)
        rw [mem_singleton.1 isWider]
        dsimp only
        omega
    · rw [updated]
      intro other among
      rcases mem_append.1 among with older | isAdded
      · exact ih other older
      · rw [mem_singleton.1 isAdded]
        simp only [hullCell, timesOf, tmsOf, lowest, highest, unsetTime, map_cons,
          map_nil, foldl_cons, foldl_nil]
        omega

theorem updateTotalsOfKeyCache_concat (files : List Cell) (cell : Cell) :
    updateTotalsOfKeyCache (files ++ [cell]) = { (updateTotalsOfKeyCache files).cover cell with
        rows := (updateTotalsOfKeyCache files).rows + cell.rows } := by
  rw [updateTotalsOfKeyCache, foldl_append]
  rfl

/-- The totals kept in memory are those of the cells, the start of the message times apart: it is
the one of the cells while none of them begins at 0, and 0 just when the last one does. -/
structure TotalsOf (cache : KeyCache) : Prop where
  frT : cache.total.frT = (updateTotalsOfKeyCache cache.files).frT
  toT : cache.total.toT = (updateTotalsOfKeyCache cache.files).toT
  toTm : cache.total.toTm = (updateTotalsOfKeyCache cache.files).toTm
  rows : cache.total.rows = (updateTotalsOfKeyCache cache.files).rows
  /-- `fr_tm` when no cell begins at 0. -/
  frTm : (∀ cell ∈ cache.files, cell.frTm ≠ 0) →
    cache.total.frTm = (updateTotalsOfKeyCache cache.files).frTm
  /-- `fr_tm` at 0. -/
  zero : cache.total.frTm = 0 ↔ ∃ last, cache.files.getLast? = some last ∧ last.frTm = 0

theorem totalsOf_first {cell : Cell} (pos : 0 < cell.frT) (range : cell.frT ≤ cell.toT)
    (rangeTm : cell.frTm ≤ cell.toTm) (small : cell.frT < 2 ^ 44) (smallTm : cell.frTm < 2 ^ 44)
    (rows : cell.rows = 1) :
    TotalsOf ⟨[cell], updateTotalsOfKeyCache2 createCacheKey.total cell 1⟩ := by
  have totals : updateTotalsOfKeyCache [cell] = ⟨cell.frT, cell.toT, cell.frTm, cell.toTm, 1⟩ := by
    simp only [updateTotalsOfKeyCache, foldl_cons, foldl_nil, Total.cover, unsetTime,
      Total.mk.injEq]
    omega
  have total := updateTotalsOfKeyCache2_eq createCacheKey.total 1 range rangeTm small smallTm
  simp only [createCacheKey, if_true, Nat.zero_max, Int.zero_add] at total
  simp only [createCacheKey, total]
  constructor
  all_goals simp [totals]

/-- The totals after a cell changed, at the end of the cells: the totals of the other cells with
it are those of the cells. -/
theorem totalsOf_changed {before : List Cell} (old : Option Cell) {total : Total} {cell : Cell}
    (totals : TotalsOf ⟨before ++ old.toList, total⟩) (some_cells : before ++ old.toList ≠ [])
    (ranges : ∀ other ∈ before ++ old.toList, 0 < other.frT ∧ other.frT ≤ other.toT ∧
      other.frTm ≤ other.toTm ∧ other.frT < 2 ^ 44 ∧ other.frTm < 2 ^ 44)
    (range : 0 < cell.frT ∧ cell.frT ≤ cell.toT ∧ cell.frTm ≤ cell.toTm ∧ cell.frT < 2 ^ 44 ∧
      cell.frTm < 2 ^ 44)
    (wider : ∀ other, old = some other → cell.frT ≤ other.frT ∧ other.toT ≤ cell.toT ∧
      cell.frTm ≤ other.frTm ∧ other.toTm ≤ cell.toTm)
    (rows : cell.rows = (old.map Cell.rows).getD 0 + 1) :
    TotalsOf ⟨before ++ [cell], updateTotalsOfKeyCache2 total cell 1⟩ := by
  have changed := updateTotalsOfKeyCache2_eq total 1 range.2.1 range.2.2.1 range.2.2.2.1
    range.2.2.2.2
  have positive : 0 < total.frT := by
    have begins := totals.frT
    rw [updateTotalsOfKeyCache_eq] at begins
    dsimp only at begins
    rw [begins]
    rcases (lowest_spec unsetTime _).2.2 with unset | one
    · rw [unset]
      exact Nat.zero_lt_succ _
    · obtain ⟨other, among, ends⟩ := mem_flatMap.1 one
      have otherRange := ranges other among
      simp only [mem_cons, not_mem_nil, or_false] at ends
      omega
  have frT := totals.frT
  have toT := totals.toT
  have toTm := totals.toTm
  have count := totals.rows
  have frTm := totals.frTm
  have zero := totals.zero
  rw [if_neg (by omega)] at changed
  rw [changed]
  cases old with
  | none =>
    simp only [toList_none, append_nil] at *
    refine ⟨?_, ?_, ?_, ?_, fun positiveTm => ?_, ?_⟩
    all_goals simp only [updateTotalsOfKeyCache_concat, Total.cover]
    · omega
    · omega
    · omega
    · simp at rows
      omega
    · have start := frTm fun other among => positiveTm other (mem_append_left _ among)
      have unset : ¬ total.frTm = 0 := fun unset => by
        obtain ⟨last, isLast, atZero⟩ := zero.1 unset
        exact positiveTm last (mem_append_left _ (mem_of_getLast? isLast)) atZero
      rw [if_neg unset]
      omega
    · rw [getLast?_concat]
      simp only [some.injEq, exists_eq_left']
      split_ifs <;> omega
  | some other =>
    have widened := wider other rfl
    have otherRange := ranges other (by simp)
    simp only [toList_some, updateTotalsOfKeyCache_concat, Total.cover,
      getLast?_concat, some.injEq, exists_eq_left'] at *
    refine ⟨?_, ?_, ?_, ?_, fun positiveTm => ?_, ?_⟩
    all_goals simp only [updateTotalsOfKeyCache_concat, Total.cover]
    · omega
    · omega
    · omega
    · simp at rows
      omega
    · have positiveCell := positiveTm cell (by simp)
      have start := frTm fun one among => by
        rcases mem_append.1 among with inBefore | isOther
        · exact positiveTm one (mem_append_left _ inBefore)
        · rw [mem_singleton.1 isOther]
          omega
      rw [if_neg (by omega)]
      omega
    · simp only [getLast?_concat, some.injEq, exists_eq_left']
      split_ifs <;> omega

theorem written_totals (topic : Topic) (some_records : records ≠ []) :
    TotalsOf (written topic records).cache := by
  induction records using List.reverseRecOn with
  | nil => exact absurd rfl some_records
  | append_singleton records record ih =>
    have ranges := written_ranges topic records
    have newRanges := written_ranges topic (records ++ [record])
    rcases written_cells_snoc topic records record with ⟨before, cell, split, -, updated⟩ |
      ⟨-, updated⟩
    · have some_before : records ≠ [] := by
        rintro rfl
        exact absurd split (by simp [written, KeyState.appendAll, KeyState.empty, createCacheKey])
      have totals := ih some_before
      rw [updated] at newRanges ⊢
      refine totalsOf_changed (some cell) ?_ (by simp) ?_ (newRanges _ (by simp)) ?_ rfl
      · rw [toList_some, ← split]
        exact totals
      · rw [toList_some, ← split]
        exact ranges
      · rintro other isOld
        obtain rfl := some.inj isOld
        dsimp only
        omega
    · rw [updated] at newRanges ⊢
      have range := newRanges (hullCell (topic.fileOf record.time) [record]) (by simp)
      rcases eq_or_ne records [] with rfl | some_before
      · exact totalsOf_first range.1 range.2.1 range.2.2.1 range.2.2.2.1 range.2.2.2.2 rfl
      · refine totalsOf_changed none ?_ ?_ ?_ range ?_ rfl
        · rw [toList_none, append_nil]
          exact ih some_before
        · obtain ⟨other, among⟩ := exists_mem_of_ne_nil records some_before
          have listed := (written_ids topic records _).2 ⟨other, among, rfl⟩
          rw [toList_none, append_nil]
          rintro none
          rw [none] at listed
          exact absurd listed not_mem_nil
        · rw [toList_none, append_nil]
          exact ranges
        · exact fun other isOld => absurd isOld (by simp)

/-! ## The cache on disk -/

/-- The first and last records of a file bound the times of all of them. -/
def EndsBound (records : List Append) : Prop :=
  ∀ first ∈ records.head?, ∀ last ∈ records.getLast?, ∀ record ∈ records,
    min first.time.toNat last.time.toNat ≤ record.time.toNat ∧
      record.time.toNat ≤ max first.time.toNat last.time.toNat ∧
      min first.storedTm last.storedTm ≤ record.storedTm ∧
      record.storedTm ≤ max first.storedTm last.storedTm

theorem range_eq_iff {times : List Nat} {first last : Nat} (inFirst : first ∈ times)
    (inLast : last ∈ times) (small : ∀ time ∈ times, time < 2 ^ 44) :
    (lowest unsetTime times = min first last ∧ highest times = max first last) ↔
      ∀ time ∈ times, min first last ≤ time ∧ time ≤ max first last := by
  have ⟨below, _, one⟩ := lowest_spec unsetTime times
  have ⟨above, top⟩ := highest_spec times
  have belowFirst := below first inFirst
  have belowLast := below last inLast
  have aboveFirst := above first inFirst
  have aboveLast := above last inLast
  have firstSmall := small first inFirst
  constructor
  · rintro ⟨low, high⟩ time among
    rw [← low, ← high]
    exact ⟨below time among, above time among⟩
  · intro bounded
    constructor
    · rcases one with unset | among
      · rw [unset, unsetTime] at belowFirst
        omega
      · have bound := bounded _ among
        omega
    · rcases top with zero | among
      · omega
      · have bound := bounded _ among
        omega

theorem written_ends {file : String}
    {first last : Append} (isFirst : (recordsOfFile topic records file).head? = some first)
    (isLast : (recordsOfFile topic records file).getLast? = some last) :
    loadCacheCellFromDisk file ((written topic records).dir.rows file) =
      ⟨file, min first.time.toNat last.time.toNat, max first.time.toNat last.time.toNat,
        min first.storedTm last.storedTm, max first.storedTm last.storedTm,
        (recordsOfFile topic records file).length⟩ := by
  have rows := written_rows topic records file
  have filled : (written topic records).dir.rows file ≠ [] := by
    intro none
    rw [none, map_nil] at rows
    rw [map_eq_nil_iff.1 rows.symm] at isFirst
    exact absurd isFirst (by simp)
  have heads := congrArg List.head? rows
  have lasts := congrArg List.getLast? rows
  have lengths := congrArg List.length rows
  rw [head?_map, head?_map, isFirst, head?_eq_some_head filled] at heads
  rw [getLast?_map, getLast?_map, isLast, getLast?_eq_some_getLast filled] at lasts
  simp only [map_some, some.injEq, Prod.mk.injEq] at heads lasts
  rw [length_map, length_map] at lengths
  rw [loadCacheCellFromDisk_eq file filled, heads.1, heads.2, lasts.1, lasts.2, lengths]

/-- The cell in memory of a file is the one on disk exactly when the first and last records of
the file bound the others. -/
theorem hull_eq_load_iff {file : String} (some_records : recordsOfFile topic records file ≠ []) :
    hullCell file (recordsOfFile topic records file) =
        loadCacheCellFromDisk file ((written topic records).dir.rows file) ↔
      EndsBound (recordsOfFile topic records file) := by
  have isFirst := head?_eq_some_head some_records
  have isLast := getLast?_eq_some_getLast some_records
  have headIn := head_mem some_records
  have lastIn := getLast_mem some_records
  rw [written_ends isFirst isLast, EndsBound, isFirst, isLast]
  generalize (recordsOfFile topic records file).head some_records = first at *
  generalize (recordsOfFile topic records file).getLast some_records = last at *
  have times := range_eq_iff
    (mem_map_of_mem headIn) (mem_map_of_mem lastIn) fun time among => by
      obtain ⟨record, -, rfl⟩ := mem_map.1 among
      exact record.time_lt
  have tms := range_eq_iff
    (mem_map_of_mem headIn) (mem_map_of_mem lastIn) fun time among => by
      obtain ⟨record, -, rfl⟩ := mem_map.1 among
      exact record.storedTm_lt
  simp only [List.forall_mem_map] at times tms
  simp only [hullCell, timesOf, tmsOf, Cell.mk.injEq, true_and, and_true, mem_def,
    some.injEq, forall_eq']
  constructor
  · rintro ⟨lowT, highT, lowTm, highTm⟩ record among
    have bound := times.1 ⟨lowT, highT⟩ record among
    have boundTm := tms.1 ⟨lowTm, highTm⟩ record among
    exact ⟨bound.1, bound.2, boundTm.1, boundTm.2⟩
  · intro bounded
    have ⟨lowT, highT⟩ := times.2 fun record among =>
      ⟨(bounded record among).1, (bounded record among).2.1⟩
    have ⟨lowTm, highTm⟩ := tms.2 fun record among =>
      ⟨(bounded record among).2.2.1, (bounded record among).2.2.2⟩
    exact ⟨lowT, highT, lowTm, highTm⟩

/-! ## Memory and disk -/

/-- The records that leave in memory what is on disk. -/
structure ReloadSafe (topic : Topic) (records : List Append) : Prop where
  inOrder : InOrder topic records
  ends : ∀ file, EndsBound (recordsOfFile topic records file)
  zero : ∀ last ∈ records.getLast?, (∃ record ∈ records, record.storedTm = 0) →
    ∃ record ∈ records, topic.fileOf record.time = topic.fileOf last.time ∧ record.storedTm = 0

theorem loadKeyCacheFromDisk_ids (dir : KeyDir) :
    (loadKeyCacheFromDisk dir).files.map Cell.id = sortedFiles dir := by
  rw [loadKeyCacheFromDisk, List.map_map]
  exact map_id'' (fun _ => rfl) _

theorem written_files (ordered : InOrder topic records) :
    (written topic records).cache.files = (sortedFiles (written topic records).dir).map fun file =>
      hullCell file (recordsOfFile topic records file) := by
  have ids : (written topic records).cache.files.map Cell.id =
      sortedFiles (written topic records).dir := by
    refine ordered_ext ((ids_ordered_iff topic records).2 ordered) (sortedFiles_ordered _)
      fun file => ?_
    rw [written_ids, mem_sortedFiles, written_keys, recordsOfFile, ne_eq, List.filter_eq_nil_iff]
    simp
  rw [← ids, List.map_map]
  conv_lhs => rw [← map_id (written topic records).cache.files]
  exact map_congr_left (written_hull ordered)

theorem files_eq_iff (topic : Topic) (records : List Append) :
    (written topic records).cache.files = (loadKeyCacheFromDisk (written topic records).dir).files ↔
      InOrder topic records ∧ ∀ file, EndsBound (recordsOfFile topic records file) := by
  have bounded : InOrder topic records → ((written topic records).cache.files =
      (loadKeyCacheFromDisk (written topic records).dir).files ↔
      ∀ file, EndsBound (recordsOfFile topic records file)) := by
    intro ordered
    rw [written_files ordered, loadKeyCacheFromDisk, map_inj_left]
    refine forall_congr' fun file => ?_
    rw [mem_sortedFiles, written_keys]
    constructor
    · intro same
      rcases eq_or_ne (recordsOfFile topic records file) [] with none | some_records
      · rw [none]
        exact fun first isFirst => absurd isFirst (by simp)
      · exact (hull_eq_load_iff some_records).1 (same some_records)
    · exact fun bound some_records => (hull_eq_load_iff some_records).2 bound
  constructor
  · intro same
    have ordered : InOrder topic records := by
      rw [← ids_ordered_iff, same, loadKeyCacheFromDisk_ids]
      exact sortedFiles_ordered _
    exact ⟨ordered, (bounded ordered).1 same⟩
  · rintro ⟨ordered, ends⟩
    exact (bounded ordered).2 ends

theorem hull_frTm_eq_zero (file : String) (records : List Append) :
    (hullCell file records).frTm = 0 ↔ ∃ record ∈ records, record.storedTm = 0 := by
  obtain ⟨below, _, one⟩ := lowest_spec unsetTime (tmsOf records)
  constructor
  · intro zero
    rw [hullCell] at zero
    dsimp only at zero
    rw [zero] at one
    rcases one with unset | among
    · exact absurd unset (by simp [unsetTime])
    · obtain ⟨record, inRecords, isZero⟩ := mem_map.1 among
      exact ⟨record, inRecords, isZero⟩
  · rintro ⟨record, inRecords, isZero⟩
    have low := below _ (mem_map_of_mem inRecords)
    rw [isZero] at low
    exact Nat.le_zero.1 low

theorem written_last {last : Append} (isLast : records.getLast? = some last) :
    ∃ cell, (written topic records).cache.files.getLast? = some cell ∧
      cell.id = topic.fileOf last.time := by
  obtain ⟨before, rfl⟩ : ∃ before, records = before ++ [last] :=
    getLast?_eq_some_iff.1 isLast
  rcases written_cells_snoc topic before last with ⟨others, cell, -, same, updated⟩ | ⟨-, updated⟩
  · rw [updated]
    exact ⟨_, getLast?_concat, same⟩
  · rw [updated]
    exact ⟨_, getLast?_concat, rfl⟩

/-- The totals in memory are those of the cells exactly when a start at 0 is one of the last
cell. -/
theorem totals_eq_iff {cache : KeyCache} (totals : TotalsOf cache) :
    cache.total = updateTotalsOfKeyCache cache.files ↔ ((∃ cell ∈ cache.files, cell.frTm = 0) →
        ∃ last, cache.files.getLast? = some last ∧ last.frTm = 0) := by
  have zero : (∃ cell ∈ cache.files, cell.frTm = 0) →
      (updateTotalsOfKeyCache cache.files).frTm = 0 := by
    rintro ⟨cell, among, atZero⟩
    rw [updateTotalsOfKeyCache_eq]
    have low := (lowest_spec unsetTime (cache.files.flatMap fun cell => [cell.frTm, cell.toTm])).1
      cell.frTm (mem_flatMap.2 ⟨cell, among, by simp⟩)
    dsimp only
    omega
  rw [← totals.zero]
  constructor
  · intro same some_zero
    rw [same]
    exact zero some_zero
  · intro last_zero
    have frTm : cache.total.frTm = (updateTotalsOfKeyCache cache.files).frTm := by
      by_cases some_zero : ∃ cell ∈ cache.files, cell.frTm = 0
      · rw [last_zero some_zero, zero some_zero]
      · exact totals.frTm fun cell among atZero => some_zero ⟨cell, among, atZero⟩
    have parts : ∀ left right : Total, left.frT = right.frT → left.toT = right.toT →
        left.frTm = right.frTm → left.toTm = right.toTm → left.rows = right.rows →
        left = right := by
      rintro ⟨⟩ ⟨⟩ rfl rfl rfl rfl rfl
      rfl
    exact parts _ _ totals.frT totals.toT frTm totals.toTm totals.rows

theorem written_zero_iff {last : Append}
    (ordered : InOrder topic records) (isLast : records.getLast? = some last) :
    ((∃ cell ∈ (written topic records).cache.files, cell.frTm = 0) ↔
        ∃ record ∈ records, record.storedTm = 0) ∧
      ((∃ cell, (written topic records).cache.files.getLast? = some cell ∧ cell.frTm = 0) ↔
        ∃ record ∈ records, topic.fileOf record.time = topic.fileOf last.time ∧
          record.storedTm = 0) := by
  have hull := written_hull ordered
  have inFile : ∀ file, (∃ record ∈ recordsOfFile topic records file, record.storedTm = 0) ↔
      ∃ record ∈ records, topic.fileOf record.time = file ∧ record.storedTm = 0 := by
    intro file
    simp [recordsOfFile, mem_filter, decide_eq_true_eq, and_assoc]
  constructor
  · constructor
    · rintro ⟨cell, among, atZero⟩
      rw [hull cell among, hull_frTm_eq_zero, inFile] at atZero
      obtain ⟨record, inRecords, -, isZero⟩ := atZero
      exact ⟨record, inRecords, isZero⟩
    · rintro ⟨record, inRecords, isZero⟩
      obtain ⟨cell, among, same⟩ := mem_map.1
        ((written_ids topic records _).2 ⟨record, inRecords, rfl⟩)
      refine ⟨cell, among, ?_⟩
      rw [hull cell among, hull_frTm_eq_zero, inFile]
      exact ⟨record, inRecords, same.symm, isZero⟩
  · obtain ⟨cell, lastCell, same⟩ := written_last isLast
    rw [lastCell]
    simp only [some.injEq, exists_eq_left']
    rw [hull cell (mem_of_getLast? lastCell), hull_frTm_eq_zero, inFile, same]

theorem written_eq_iff (topic : Topic) (some_records : records ≠ []) :
    (written topic records).cache = loadKeyCacheFromDisk (written topic records).dir ↔
      ReloadSafe topic records := by
  have isLast := getLast?_eq_some_getLast some_records
  have totals := totals_eq_iff (written_totals topic some_records)
  have loaded : (loadKeyCacheFromDisk (written topic records).dir).total =
      updateTotalsOfKeyCache (loadKeyCacheFromDisk (written topic records).dir).files := rfl
  constructor
  · intro same
    have files := congrArg KeyCache.files same
    have ⟨ordered, ends⟩ := (files_eq_iff topic records).1 files
    refine ⟨ordered, ends, fun last among some_zero => ?_⟩
    have zeros := written_zero_iff ordered among
    refine zeros.2.1 (totals.1 ?_ (zeros.1.2 some_zero))
    rw [files, ← loaded, same]
  · intro safe
    have files := (files_eq_iff topic records).2 ⟨safe.inOrder, safe.ends⟩
    have zeros := written_zero_iff safe.inOrder isLast
    have total := totals.2 fun some_zero =>
      zeros.2.2 (safe.zero _ isLast (zeros.1.1 some_zero))
    have parts : ∀ left right : KeyCache, left.files = right.files → left.total = right.total →
        left = right := by
      rintro ⟨⟩ ⟨⟩ rfl rfl
      rfl
    refine parts _ _ files ?_
    rw [total, loaded, files]

end Yunetas.Timeranger2
