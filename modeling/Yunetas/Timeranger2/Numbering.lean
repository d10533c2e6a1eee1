import Mathlib.Data.List.Dedup
import Yunetas.Timeranger2.Sound

/-!
# The rows of a key, numbered

Two numberings meet here. The cells number the rows as the readers do, a cell counting the rows
it believes its file has. The key numbers them as it should: every file once, in the order its
first cell gives it, with all its rows. They agree when the cells partition the rows; a file
with two cells makes them differ.
-/

namespace Yunetas.Timeranger2

open List Option

/-! ## Numbered cells -/

variable {cells : List Cell} {files : RdFiles} {segments : List Segment}

theorem placeCells_split {first : Int} {before after : List Segment}
    {segment : Segment} (split : placeCells first cells = before ++ segment :: after) :
    ∃ cellsBefore cellsAfter, cells = cellsBefore ++ segment.cell :: cellsAfter ∧
      segment.firstRow = first + rowsOf cellsBefore ∧
      segment.lastRow = segment.firstRow + segment.cell.rows - 1 := by
  induction cells generalizing first before with
  | nil => simp [placeCells] at split
  | cons cell rest ih =>
    cases before with
    | nil =>
      obtain ⟨rfl, -⟩ := cons.inj split
      exact ⟨[], rest, rfl, by simp, rfl⟩
    | cons head before =>
      obtain ⟨_, later⟩ := cons.inj split
      obtain ⟨cellsBefore, cellsAfter, rfl, firstRow, lastRow⟩ := ih later
      refine ⟨cell :: cellsBefore, cellsAfter, rfl, ?_, lastRow⟩
      rw [firstRow, rowsOf_cons]
      omega

theorem mem_placeCells {first : Int} {segment : Segment}
    (among : segment ∈ placeCells first cells) :
    segment.cell ∈ cells ∧ first ≤ segment.firstRow ∧
      segment.lastRow = segment.firstRow + segment.cell.rows - 1 ∧
      segment.lastRow < first + rowsOf cells := by
  have ⟨before, after, split⟩ := append_of_mem among
  obtain ⟨cellsBefore, cellsAfter, rfl, firstRow, lastRow⟩ := placeCells_split split
  rw [rowsOf_append, rowsOf_cons]
  refine ⟨mem_append_right _ mem_cons_self, ?_, lastRow, ?_⟩ <;> omega

theorem placeCells_cells (first : Int) (cells : List Cell) :
    (placeCells first cells).map Segment.cell = cells := by
  induction cells generalizing first with
  | nil => rfl
  | cons cell rest ih => rw [placeCells, map_cons, ih]

theorem placeCells_ordered (first : Int) (cells : List Cell) :
    (placeCells first cells).Pairwise fun left right => left.lastRow < right.firstRow := by
  induction cells generalizing first with
  | nil => exact List.Pairwise.nil
  | cons cell rest ih =>
    refine pairwise_cons.2 ⟨fun other among => ?_, ih _⟩
    have ⟨_, low, _⟩ := mem_placeCells among
    dsimp only
    omega

theorem placeCells_readable (files : RdFiles)
    (held : ∀ cell ∈ cells, cell.rows ≤ (files.rows cell.id).length) :
    ∀ segment ∈ placeCells 1 cells, segment.Readable files := by
  intro segment among
  have ⟨member, low, closed, _⟩ := mem_placeCells among
  exact ⟨closed, low, held segment.cell member⟩

theorem flatMap_ascending (readable : ∀ segment ∈ segments, segment.Readable files)
    (ordered : segments.Pairwise fun left right => left.lastRow < right.firstRow) :
    Ascending Found.rowid (segments.flatMap (segmentRows files)) := by
  unfold Ascending
  rw [pairwise_flatMap]
  refine ⟨fun segment _ => segmentRows_ascending, ordered.imp_of_mem ?_⟩
  intro left right inLeft inRight order found leftRow other rightRow
  have high := (rowid_range_of_mem (readable left inLeft) leftRow).2
  have low := (rowid_range_of_mem (readable right inRight) rightRow).1
  omega

theorem segmentOfRowid_of_mem {segment : Segment}
    {found : Found} (readable : ∀ segment ∈ segments, segment.Readable files)
    (ordered : segments.Pairwise fun left right => left.lastRow < right.firstRow)
    (among : segment ∈ segments) (inside : found ∈ segmentRows files segment) :
    segmentOfRowid segments found.rowid = some segment := by
  have ⟨low, high⟩ := rowid_range_of_mem (readable segment among) inside
  obtain ⟨before, after, rfl⟩ := append_of_mem among
  rw [segmentOfRowid, find?_append]
  have none : before.find? (fun segment => decide (found.rowid ≥ segment.firstRow ∧
      found.rowid ≤ segment.lastRow)) = none := by
    rw [find?_eq_none]
    intro other inBefore within
    have order := (pairwise_append.1 ordered).2.2 other inBefore segment mem_cons_self
    have := of_decide_eq_true within
    omega
  rw [none, none_or, find?_cons_of_pos]
  exact decide_eq_true ⟨low, high⟩

theorem indexedRow_of_mem {found : Found} (readable : ∀ segment ∈ segments, segment.Readable files)
    (ordered : segments.Pairwise fun left right => left.lastRow < right.firstRow)
    (inside : found ∈ segments.flatMap (segmentRows files)) :
    indexedRow files segments found.rowid = some found := by
  have ⟨segment, among, row⟩ := mem_flatMap.1 inside
  have here := readable segment among
  have ⟨position, there⟩ := mem_iff_getElem?.1 row
  have ⟨_, _, sameId, _⟩ := segmentRows_at there
  simp [indexedRow, segmentOfRowid_of_mem readable ordered among row, getMdByRowid_of_mem here row,
    ← sameId]

/-! ## The two numberings -/

/-- The rows as the cells number them. -/
def cacheRows (files : RdFiles) (cells : List Cell) : List Found :=
  (placeCells 1 cells).flatMap (segmentRows files)

/-- The files of the cells, each once, in the order of their first cells. -/
def keyFiles (cells : List Cell) : List String := (cells.map Cell.id).reverse.dedup.reverse

/-- A cell that counts all the rows of a file. -/
def wholeCell (files : RdFiles) (file : String) : Cell :=
  ⟨file, 0, 0, 0, 0, (files.rows file).length⟩

/-- The rows of the key: every row of every file once, numbered from 1. -/
def keyRows (files : RdFiles) (cells : List Cell) : List Found :=
  cacheRows files ((keyFiles cells).map (wholeCell files))

theorem mem_keyFiles (cells : List Cell) (file : String) :
    file ∈ keyFiles cells ↔ ∃ cell ∈ cells, cell.id = file := by
  simp [keyFiles]

theorem keyRows_ascending (files : RdFiles) (cells : List Cell) :
    Ascending Found.rowid (keyRows files cells) := by
  refine flatMap_ascending (placeCells_readable _ fun cell among => ?_) (placeCells_ordered 1 _)
  obtain ⟨file, -, rfl⟩ := mem_map.1 among
  exact le_rfl

theorem cacheRows_ascending (held : ∀ cell ∈ cells, cell.rows ≤ (files.rows cell.id).length) :
    Ascending Found.rowid (cacheRows files cells) :=
  flatMap_ascending (placeCells_readable files held) (placeCells_ordered 1 cells)

theorem cacheRows_congr (files : RdFiles) {left right : List Cell}
    (same : left.map (fun cell => (cell.id, cell.rows)) =
      right.map (fun cell => (cell.id, cell.rows))) :
    cacheRows files left = cacheRows files right := by
  have shifted : ∀ first : Int, (placeCells first left).flatMap (segmentRows files) =
      (placeCells first right).flatMap (segmentRows files) := by
    induction left generalizing right with
    | nil =>
      intro first
      rw [map_nil, eq_comm, map_eq_nil_iff] at same
      rw [same]
    | cons cell rest ih =>
      intro first
      cases right with
      | nil => simp at same
      | cons other others =>
        rw [map_cons, map_cons, List.cons.injEq, Prod.mk.injEq] at same
        have ⟨⟨sameId, sameRows⟩, later⟩ := same
        simp [placeCells, segmentRows, sameId, sameRows, ih later]
  exact shifted 1

/-- Cells that partition the rows: no file has two of them and each counts its whole file. -/
structure Partitions (files : RdFiles) (cells : List Cell) : Prop where
  distinct : (cells.map Cell.id).Nodup
  counts : ∀ cell ∈ cells, cell.rows = (files.rows cell.id).length

/-! ## The segments of a query -/

/-- Cells the forward and the backward loop reach, with their ranges meeting the conditions. -/
theorem mem_getSegments {cond : MatchCond} {cache : KeyCache}
    (counted : cache.total.rows = rowsOf cache.files) (segment : Segment) :
    segment ∈ getSegments cond cache ↔ ∃ bounds before after,
      adjustBounds cond cache.total = some bounds ∧
      placeCells 1 cache.files = before ++ segment :: after ∧
      segment.overlaps bounds = true ∧
      if cond.backward then ∀ other ∈ after, other.endsBefore bounds = false
      else ∀ other ∈ before, other.beginsPast bounds = false := by
  have pastOut : ∀ bounds, segment.overlaps bounds = true → segment.beginsPast bounds = false := by
    intro bounds meets
    simp only [Segment.overlaps, decide_eq_true_eq] at meets
    simp only [Segment.beginsPast, decide_eq_false_iff_not]
    omega
  have beforeOut : ∀ bounds, segment.overlaps bounds = true →
      segment.endsBefore bounds = false := by
    intro bounds meets
    simp only [Segment.overlaps, decide_eq_true_eq] at meets
    simp only [Segment.endsBefore, decide_eq_false_iff_not]
    omega
  rw [getSegments]
  cases adjusted : adjustBounds cond cache.total with
  | none => simp
  | some bounds =>
    cases direction : cond.backward with
    | false =>
      simp only [Bool.false_eq_true, if_false, forwardSegments_eq, mem_filter,
        mem_takeWhile_iff_split]
      constructor
      · rintro ⟨⟨before, after, split, -, reach⟩, meets⟩
        exact ⟨bounds, before, after, rfl, split, meets, fun other among => by
          simpa using reach other among⟩
      · rintro ⟨bounds', before, after, same, split, meets, reach⟩
        obtain rfl := some.inj same
        exact ⟨⟨before, after, split, by simp [pastOut bounds meets], fun other among => by
          simp [reach other among]⟩, meets⟩
    | true =>
      simp only [if_true, counted, backwardSegments_eq, append_nil, mem_reverse,
        mem_filter, mem_takeWhile_iff_split]
      constructor
      · rintro ⟨⟨before, after, split, -, reach⟩, meets⟩
        refine ⟨bounds, after.reverse, before.reverse, rfl, ?_, meets, fun other among => ?_⟩
        · rw [← reverse_inj, split]
          simp
        · simpa using reach other (mem_reverse.1 among)
      · rintro ⟨bounds', before, after, same, split, meets, reach⟩
        obtain rfl := some.inj same
        refine ⟨⟨after.reverse, before.reverse, ?_, by simp [beforeOut bounds meets],
          fun other among => ?_⟩, meets⟩
        · rw [split]
          simp
        · simp [reach other (mem_reverse.1 among)]

theorem getSegments_sublist {cond : MatchCond} {cache : KeyCache}
    (counted : cache.total.rows = rowsOf cache.files) :
    (getSegments cond cache).Sublist (placeCells 1 cache.files) := by
  rw [getSegments]
  split
  · exact nil_sublist _
  · split
    · rw [counted, backwardSegments_eq, append_nil]
      have part := (filter_sublist (p := Segment.overlaps ‹_›)).trans
        (takeWhile_sublist (l := (placeCells 1 cache.files).reverse)
          (fun segment => !segment.endsBefore ‹_›))
      simpa using part.reverse
    · rw [forwardSegments_eq]
      exact filter_sublist.trans (takeWhile_sublist _)

section

variable {state : KeyState}

theorem Sound.readable (sound : Sound state) (cond : MatchCond) :
    ∀ segment ∈ getSegments cond state.cache, segment.Readable state.dir.rdFiles :=
  fun segment among => placeCells_readable state.dir.rdFiles sound.held segment
    ((getSegments_sublist sound.counted).subset among)

theorem Sound.ordered (sound : Sound state) (cond : MatchCond) :
    (getSegments cond state.cache).Pairwise fun left right => left.lastRow < right.firstRow :=
  (placeCells_ordered 1 state.cache.files).sublist (getSegments_sublist sound.counted)

theorem Sound.rowid_range (sound : Sound state) {segment : Segment} {found : Found}
    (numbered : segment ∈ placeCells 1 state.cache.files)
    (inside : found ∈ segmentRows state.dir.rdFiles segment) :
    1 ≤ found.rowid ∧ found.rowid ≤ state.cache.total.rows := by
  have readable := placeCells_readable state.dir.rdFiles sound.held segment numbered
  have ⟨low, high⟩ := rowid_range_of_mem readable inside
  have ⟨_, first, _, last⟩ := mem_placeCells numbered
  have := sound.counted
  omega

theorem segmentRows_small {files : RdFiles} {segment : Segment} {found : Found}
    (inside : found ∈ segmentRows files segment) : found.md.t < 2 ^ 44 ∧ found.md.tm < 2 ^ 44 := by
  have ⟨position, there⟩ := mem_iff_getElem?.1 inside
  have ⟨_, _, _, row, _, md⟩ := segmentRows_at there
  rw [md]
  exact ⟨decode_t_lt row _, decode_tm_lt row _⟩

end

end Yunetas.Timeranger2
