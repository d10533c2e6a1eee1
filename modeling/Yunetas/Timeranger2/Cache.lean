import Mathlib.Algebra.Order.Ring.Int
import Mathlib.Data.List.Sort
import Mathlib.Data.String.Basic
import Yunetas.Timeranger2.Disk

/-!
# The cache of a key

`topic.cache.{key}` keeps one cell for each file, with the range of its times and its rows, and
the totals of all of them. It is filled in two ways: an append widens the last cell row by row,
and opening a topic reads the first and the last row of every file. Times are kept unsigned, as
both ways compute them; the value `(uint64_t)-1` of an unset start survives only while a key has
no row, and readers stop there.
-/

namespace Yunetas.Timeranger2

open List

/-- A cell of `cache.{key}.files`. -/
structure Cell where
  id : String
  frT : Nat
  toT : Nat
  frTm : Nat
  toTm : Nat
  rows : Nat
deriving DecidableEq, Repr

/-- `cache.{key}.total`. -/
structure Total where
  frT : Nat
  toT : Nat
  frTm : Nat
  toTm : Nat
  rows : Int
deriving DecidableEq, Repr

/-- `cache.{key}`. -/
structure KeyCache where
  files : List Cell
  total : Total
deriving DecidableEq, Repr

/-- `(uint64_t)(-1)`: the start of a range nothing was added to. -/
def unsetTime : Nat := 2 ^ 64 - 1

/-- `create_cache_key`: the totals are an empty object, so each of them reads 0. -/
def createCacheKey : KeyCache := ⟨[], ⟨0, 0, 0, 0, 0⟩⟩

/-- `get_last_cache_cell`: the last cell, if it is the one of the file. -/
def getLastCacheCell (cache : KeyCache) (fileId : String) : Option Cell :=
  match cache.files.getLast? with
  | some cell => if cell.id = fileId then some cell else none
  | none => none

/-- The `operation` of `update_cache_cell`. -/
inductive CellOperation where
  /-- `0`: set the rows. -/
  | set
  /-- `+1`: add to the rows. -/
  | add
deriving DecidableEq, Repr

/-- `update_cache_cell`: widen the ranges with a row, and set or add to the count of rows. -/
def updateCacheCell (fileCache : Option Cell) (fileId : String) (row : Md2Record)
    (operation : CellOperation) (rows : Nat) : Cell :=
  let old := fileCache.getD ⟨fileId, unsetTime, 0, unsetTime, 0, 0⟩
  { id := old.id
    frT := min old.frT row.getTimeT.toNat
    toT := max old.toT row.getTimeT.toNat
    frTm := min old.frTm row.getTimeTm.toNat
    toTm := max old.toTm row.getTimeTm.toNat
    rows := match operation with
      | .set => rows
      | .add => old.rows + rows }

/-- The row `memset` to 0 that stands for the first and last rows of an empty file. -/
def zeroRow : Md2Record := ⟨0, 0, 0, 0⟩

/-- `load_first_and_last_record_md`, on a file of whole rows. -/
def loadFirstAndLastRecordMd (rows : List Md2Record) : Md2Record × Md2Record × Nat :=
  (rows.head?.getD zeroRow, rows.getLast?.getD zeroRow, rows.length)

/-- `load_cache_cell_from_disk`. -/
def loadCacheCellFromDisk (fileId : String) (rows : List Md2Record) : Cell :=
  let (first, last, fileRows) := loadFirstAndLastRecordMd rows
  let cell := updateCacheCell none fileId first .set 1
  updateCacheCell (some cell) fileId last .set fileRows

/-- The order of `dir_array_sort` on the names of the files, extension included. -/
def fileNameLe (left right : String) : Prop := left ++ ".md2" ≤ right ++ ".md2"

instance : DecidableRel fileNameLe := fun _ _ => inferInstanceAs (Decidable (_ ≤ _))

/-- The ids of the `.md2` files of a directory, sorted by name. -/
def sortedFiles (dir : KeyDir) : List String := dir.md2.keys.insertionSort fileNameLe

/-- One step of the totals: widen them with both ends of the ranges of a cell. -/
def Total.cover (total : Total) (cell : Cell) : Total :=
  { total with
    frT := min (min total.frT cell.frT) cell.toT
    toT := max (max total.toT cell.frT) cell.toT
    frTm := min (min total.frTm cell.frTm) cell.toTm
    toTm := max (max total.toTm cell.frTm) cell.toTm }

/-- `update_totals_of_key_cache`: the totals of loaded cells. -/
def updateTotalsOfKeyCache (files : List Cell) : Total :=
  files.foldl (fun total cell => { total.cover cell with rows := total.rows + cell.rows })
    ⟨unsetTime, 0, unsetTime, 0, 0⟩

/-- `update_totals_of_key_cache2`: the totals after a cell changed. A start of 0 counts as
unset. -/
def updateTotalsOfKeyCache2 (total : Total) (cell : Cell) (rowsAdded : Int) : Total :=
  let start : Total :=
    { total with
      frT := if total.frT = 0 then unsetTime else total.frT
      frTm := if total.frTm = 0 then unsetTime else total.frTm }
  { start.cover cell with rows := total.rows + rowsAdded }

/-- `load_key_cache_from_disk` with the totals that `find_keys_cb` adds. -/
def loadKeyCacheFromDisk (dir : KeyDir) : KeyCache :=
  let files := (sortedFiles dir).map fun fileId => loadCacheCellFromDisk fileId (dir.rows fileId)
  ⟨files, updateTotalsOfKeyCache files⟩

/-- `update_new_record_from_mem`: only the last cell is looked at; a record of any other file
gets a cell at the end, whether or not an earlier cell has that file. -/
def updateNewRecordFromMem (topic : Topic) (cache : KeyCache) (row : Md2Record) : KeyCache :=
  let t := row.getTimeT.toNat
  let fileId := topic.fileId (if row.getSystemFlag &&& sfTMs ≠ 0 then t / 1000 else t)
  match getLastCacheCell cache fileId with
  | some cell =>
    let cell := updateCacheCell (some cell) fileId row .add 1
    ⟨cache.files.dropLast ++ [cell], updateTotalsOfKeyCache2 cache.total cell 1⟩
  | none =>
    let cell := updateCacheCell none fileId row .add 1
    ⟨cache.files ++ [cell], updateTotalsOfKeyCache2 cache.total cell 1⟩

/-! ## The totals of loaded cells -/

/-- The least of some times, or a start below them all. -/
def lowest (start : Nat) (times : List Nat) : Nat := times.foldl min start

/-- The greatest of some times. -/
def highest (times : List Nat) : Nat := times.foldl max 0

theorem lowest_spec (start : Nat) (times : List Nat) :
    (∀ time ∈ times, lowest start times ≤ time) ∧ lowest start times ≤ start ∧
      (lowest start times = start ∨ lowest start times ∈ times) := by
  induction times generalizing start with
  | nil => exact ⟨fun _ among => absurd among not_mem_nil, Nat.le_refl _, Or.inl rfl⟩
  | cons time rest ih =>
    have ⟨below, least, one⟩ := ih (min start time)
    have unfolded : lowest start (time :: rest) = lowest (min start time) rest := rfl
    rw [unfolded]
    refine ⟨fun other among => ?_, by omega, ?_⟩
    · rcases mem_cons.1 among with rfl | inRest
      · omega
      · exact below other inRest
    · rcases one with same | inRest
      · rcases Nat.le_total start time with low | high
        · exact Or.inl (by omega)
        · refine Or.inr (mem_cons.2 (Or.inl ?_))
          omega
      · exact Or.inr (mem_cons_of_mem _ inRest)

theorem highest_spec (times : List Nat) :
    (∀ time ∈ times, time ≤ highest times) ∧ (highest times = 0 ∨ highest times ∈ times) := by
  have fold : ∀ start : Nat, (∀ time ∈ times, time ≤ times.foldl max start) ∧
      start ≤ times.foldl max start ∧
      (times.foldl max start = start ∨ times.foldl max start ∈ times) := by
    induction times with
    | nil =>
      exact fun _ => ⟨fun _ among => absurd among not_mem_nil, Nat.le_refl _, Or.inl rfl⟩
    | cons time rest ih =>
      intro start
      have ⟨above, most, one⟩ := ih (max start time)
      rw [foldl_cons]
      refine ⟨fun other among => ?_, by omega, ?_⟩
      · rcases mem_cons.1 among with rfl | inRest
        · omega
        · exact above other inRest
      · rcases one with same | inRest
        · rcases Nat.le_total time start with low | high
          · exact Or.inl (by omega)
          · refine Or.inr (mem_cons.2 (Or.inl ?_))
            omega
        · exact Or.inr (mem_cons_of_mem _ inRest)
  exact ⟨(fold 0).1, (fold 0).2.2⟩

theorem updateTotalsOfKeyCache_eq (files : List Cell) :
    updateTotalsOfKeyCache files =
      ⟨lowest unsetTime (files.flatMap fun cell => [cell.frT, cell.toT]),
        highest (files.flatMap fun cell => [cell.frT, cell.toT]),
        lowest unsetTime (files.flatMap fun cell => [cell.frTm, cell.toTm]),
        highest (files.flatMap fun cell => [cell.frTm, cell.toTm]),
        (files.map fun cell => (cell.rows : Int)).sum⟩ := by
  have fold : ∀ total : Total,
      files.foldl (fun total cell => { total.cover cell with rows := total.rows + cell.rows }) total =
        ⟨lowest total.frT (files.flatMap fun cell => [cell.frT, cell.toT]),
          (files.flatMap fun cell => [cell.frT, cell.toT]).foldl max total.toT,
          lowest total.frTm (files.flatMap fun cell => [cell.frTm, cell.toTm]),
          (files.flatMap fun cell => [cell.frTm, cell.toTm]).foldl max total.toTm,
          total.rows + (files.map fun cell => (cell.rows : Int)).sum⟩ := by
    induction files with
    | nil => intro total; simp [lowest]
    | cons cell rest ih =>
      intro total
      rw [foldl_cons, ih]
      simp [lowest, Total.cover, Int.add_assoc]
  rw [updateTotalsOfKeyCache, fold]
  simp [highest]

/-! ## The order of the files -/

section

open String

theorem fileNameLe_total (left right : String) : fileNameLe left right ∨ fileNameLe right left :=
  le_total _ _

theorem fileNameLe_trans {first second third : String} (left : fileNameLe first second)
    (right : fileNameLe second third) : fileNameLe first third :=
  le_trans left right

theorem fileNameLe_antisymm {left right : String} (low : fileNameLe left right)
    (high : fileNameLe right left) : left = right :=
  (append_left_inj ".md2").1 (le_antisymm low high)

/-- Strictly before, in the order of the names. -/
def fileNameLt (left right : String) : Prop := fileNameLe left right ∧ left ≠ right

instance : DecidableRel fileNameLt := fun _ _ => inferInstanceAs (Decidable (_ ∧ _))

theorem insertionSort_ordered {files : List String} (distinct : files.Nodup) :
    (files.insertionSort fileNameLe).Pairwise fileNameLt := by
  have total : Std.Total fileNameLe := ⟨fileNameLe_total⟩
  have trans : IsTrans String fileNameLe := ⟨fun _ _ _ => fileNameLe_trans⟩
  have sorted : (files.insertionSort fileNameLe).Pairwise fileNameLe :=
    pairwise_insertionSort fileNameLe _
  exact sorted.and ((perm_insertionSort fileNameLe files).nodup_iff.2 distinct)

theorem sortedFiles_ordered (dir : KeyDir) : (sortedFiles dir).Pairwise fileNameLt :=
  insertionSort_ordered dir.md2.keys_nodup

theorem ordered_ext {left right : List String} (leftOrdered : left.Pairwise fileNameLt)
    (rightOrdered : right.Pairwise fileNameLt) (same : ∀ file, file ∈ left ↔ file ∈ right) :
    left = right := by
  have antisymm : Std.Antisymm fileNameLt :=
    ⟨fun a b low high => absurd (fileNameLe_antisymm low.1 high.1) low.2⟩
  have irrefl : Std.Irrefl fileNameLt := ⟨fun _ lt => lt.2 rfl⟩
  exact leftOrdered.eq_of_mem_iff rightOrdered fun {file} => same file

end

end Yunetas.Timeranger2
