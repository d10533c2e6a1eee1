import Yunetas.Timeranger2.Numbering

/-!
# How the rows of a key grow

A file only gains rows at its end, so a segment picked earlier reads the same rows later. An
append adds one row after those the cells number, whatever cell it goes to.
-/

namespace Yunetas.Timeranger2

open List Option

/-! ## Readers of a file that grew -/

theorem segmentRows_grown {old new : RdFiles} {segment : Segment} {added : List Md2Record}
    (held : segment.cell.rows ≤ (old.rows segment.cell.id).length)
    (grown : new.rows segment.cell.id = old.rows segment.cell.id ++ added) :
    segmentRows new segment = segmentRows old segment := by
  rw [segmentRows, segmentRows, grown, take_append_of_le_length held]

theorem readMd_eq (files : RdFiles) (fileId : String) (rowid : Int) :
    readMd files fileId rowid =
      if rowid ≤ 0 then none
      else ((files.rows fileId)[(rowid - 1).toNat]?).map fun row => row.decode rowid.toNat := by
  rw [readMd, RdFiles.rows]
  split
  · rfl
  · cases files.md2 fileId with
    | none => simp
    | some rows =>
      simp only [bind_eq_bind, bind_some, getD_some]
      cases rows[(rowid - 1).toNat]? <;> rfl

theorem getMdByRowid_grown {old new : RdFiles} {segment : Segment} {added : List Md2Record}
    (readable : segment.Readable old)
    (grown : new.rows segment.cell.id = old.rows segment.cell.id ++ added) (rowid : Int) :
    getMdByRowid new segment rowid = getMdByRowid old segment rowid := by
  by_cases range : segment.firstRow ≤ rowid ∧ rowid ≤ segment.lastRow
  · have ⟨closed, _, held⟩ := readable
    have inside : (rowid - segment.firstRow + 1 - 1).toNat <
        (old.rows segment.cell.id).length := by omega
    simp only [getMdByRowid, readMd_eq, grown, getElem?_append_left inside]
  · rw [getMdByRowid_out range, getMdByRowid_out range]

theorem walk_grown {old new : RdFiles} {segments : List Segment}
    (readable : ∀ segment ∈ segments, segment.Readable old)
    (grown : ∀ file, ∃ added, new.rows file = old.rows file ++ added) (cond : MatchCond)
    (totalRows : Int) : walk new cond totalRows segments = walk old cond totalRows segments := by
  have turn : ∀ (turns : Nat) (position : Option (Nat × Int)),
      walkRows new cond totalRows segments turns position =
        walkRows old cond totalRows segments turns position := by
    intro turns
    induction turns with
    | zero => intro position; cases position <;> rfl
    | succ turns ih =>
      intro position
      cases position with
      | none => rfl
      | some position =>
        obtain ⟨index, rowid⟩ := position
        cases there : segments[index]? with
        | none => simp [walkRows, there]
        | some segment =>
          obtain ⟨added, rows⟩ := grown segment.cell.id
          have same := getMdByRowid_grown (readable segment (mem_of_getElem? there)) rows rowid
          simp [walkRows, there, same, ih]
  exact turn _ _

theorem mem_segmentRows_of_read {files : RdFiles} {segment : Segment} {rowid : Int}
    {md : Md2RecordEx} (readable : segment.Readable files)
    (read : getMdByRowid files segment rowid = some md) :
    ⟨rowid, segment.cell.id, md⟩ ∈ segmentRows files segment := by
  by_cases range : segment.firstRow ≤ rowid ∧ rowid ≤ segment.lastRow
  · have ⟨found, there, sameRowid, sameId, sameRead⟩ := segmentRows_rowid readable range
    rw [read] at sameRead
    rw [← sameRowid, ← sameId, some.inj sameRead]
    exact mem_of_getElem? there
  · rw [getMdByRowid_out range] at read
    exact absurd read (by simp)

/-! ## The row of an append -/

theorem segmentRows_widened {files : RdFiles} {cell wider : Cell} (first last last' : Int)
    (same : wider.id = cell.id) (more : wider.rows = cell.rows + 1)
    (held : cell.rows < (files.rows cell.id).length) :
    ∃ found, segmentRows files ⟨wider, first, last'⟩ =
      segmentRows files ⟨cell, first, last⟩ ++ [found] ∧ found.rowid = first + cell.rows := by
  refine ⟨⟨first + (cell.rows : Int), cell.id,
    ((files.rows cell.id)[cell.rows]).decode (cell.rows + 1)⟩, ?_, rfl⟩
  simp only [segmentRows, same, more, take_add_one, getElem?_eq_getElem held,
    toList_some, zipIdx_append, map_append, zipIdx_singleton, map_cons,
    map_nil, length_take, Nat.zero_add, Nat.min_eq_left (le_of_lt held)]

theorem cacheRows_append (topic : Topic) {state : KeyState} (sound : Sound state)
    (record : Append) :
    ∃ found, cacheRows (appendRecord topic state record).1.dir.rdFiles
        (appendRecord topic state record).1.cache.files =
      cacheRows state.dir.rdFiles state.cache.files ++ [found] ∧
        found.rowid = state.cache.total.rows + 1 := by
  have grown : ∀ file, ∃ added, (appendRecord topic state record).1.dir.rdFiles.rows file =
      state.dir.rdFiles.rows file ++ added := by
    intro file
    rw [rows_rdFiles, rows_rdFiles, appendRecord_rows]
    split
    · rename_i same
      rw [same]
      exact ⟨_, rfl⟩
    · exact ⟨[], (append_nil _).symm⟩
  have earlier : ∀ cells, (∀ cell ∈ cells, cell ∈ state.cache.files) →
      (placeCells 1 cells).flatMap (segmentRows (appendRecord topic state record).1.dir.rdFiles) =
        (placeCells 1 cells).flatMap (segmentRows state.dir.rdFiles) := by
    intro cells inside
    refine flatMap_congr fun segment among => ?_
    obtain ⟨added, rows⟩ := grown segment.cell.id
    exact segmentRows_grown (sound.held _ (inside _ (mem_placeCells among).1)) rows
  have counted := sound.counted
  rcases updateNewRecordFromMem_cases topic state.cache record
    (state.dir.bytes (topic.fileOf record.time)).length with
    ⟨before, cell, split, same, -, updated⟩ | ⟨-, updated⟩
  · have cache : (appendRecord topic state record).1.cache = _ := updated
    have inCells : cell ∈ state.cache.files := by simp [split]
    obtain ⟨added, rows⟩ := grown cell.id
    have longer : cell.rows < ((appendRecord topic state record).1.dir.rdFiles.rows cell.id).length := by
      have held := sound.held cell inCells
      rw [rows_rdFiles, appendRecord_rows, if_pos same, length_append, ← same]
      simp only [length_singleton]
      omega
    have more : (updateCacheCell (some cell) cell.id (record.row topic
        (state.dir.bytes (topic.fileOf record.time)).length) .add 1).rows = cell.rows + 1 := rfl
    have same : (updateCacheCell (some cell) cell.id (record.row topic
        (state.dir.bytes (topic.fileOf record.time)).length) .add 1).id = cell.id := rfl
    obtain ⟨found, widened, number⟩ := segmentRows_widened (1 + rowsOf before)
      (1 + rowsOf before + cell.rows - 1) (1 + rowsOf before + (cell.rows + 1 : Nat) - 1) same more
      longer
    refine ⟨found, ?_, ?_⟩
    · rw [cache, split, cacheRows, cacheRows, placeCells_append, placeCells_append,
        flatMap_append, flatMap_append,
        earlier before fun other among => by rw [split]; exact mem_append_left _ among]
      simp only [placeCells, flatMap_cons, flatMap_nil, append_nil, updateCacheCell_add_rows]
      rw [widened, segmentRows_grown (sound.held cell inCells) rows, append_assoc]
    · rw [number, counted, split, rowsOf_append, rowsOf_cons, rowsOf_nil]
      push_cast
      omega
  · have cache : (appendRecord topic state record).1.cache = _ := updated
    have longer : 0 < ((appendRecord topic state record).1.dir.rdFiles.rows
        (topic.fileOf record.time)).length := by
      rw [rows_rdFiles, appendRecord_rows, if_pos rfl, length_append]
      simp
    have same : (updateCacheCell none (topic.fileOf record.time) (record.row topic
        (state.dir.bytes (topic.fileOf record.time)).length) .add 1).id =
        (⟨topic.fileOf record.time, 0, 0, 0, 0, 0⟩ : Cell).id := rfl
    obtain ⟨found, widened, number⟩ := segmentRows_widened (1 + rowsOf state.cache.files) 0
      (1 + rowsOf state.cache.files + (1 : Nat) - 1) same
      (updateCacheCell_none_add_rows _ _ 1) longer
    refine ⟨found, ?_, ?_⟩
    · rw [cache, cacheRows, cacheRows, placeCells_append, flatMap_append,
        earlier _ fun other among => among]
      simp only [placeCells, flatMap_cons, flatMap_nil, append_nil, updateCacheCell_none_add_rows]
      rw [widened]
      rfl
    · rw [number, counted]
      dsimp only
      omega

theorem appendRecord_total (topic : Topic) (state : KeyState) (record : Append) :
    (appendRecord topic state record).1.cache.total.rows = state.cache.total.rows + 1 := by
  rcases updateNewRecordFromMem_cases topic state.cache record
    (state.dir.bytes (topic.fileOf record.time)).length with ⟨_, _, -, -, -, updated⟩ | ⟨-, updated⟩
  · rw [show (appendRecord topic state record).1.cache = _ from updated]
    rfl
  · rw [show (appendRecord topic state record).1.cache = _ from updated]
    rfl

end Yunetas.Timeranger2
