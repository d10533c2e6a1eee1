import Mathlib.Data.List.Perm.Basic
import Yunetas.Timeranger2.Numbering

/-!
# Unfiltered iteration

A query without conditions still goes through the totals of the key: their ends become its
bounds. It visits every row, in either direction, when the totals cover the ranges of all the
cells and no cell is empty; a cell that the totals do not cover is dropped with all its rows.
-/

namespace Yunetas.Timeranger2

open List Bool

/-- The query without conditions. -/
def everything (backward : Bool) : MatchCond := { backward := backward }

/-- The totals meet the ranges of every cell. -/
structure Total.Covers (total : Total) (cells : List Cell) : Prop where
  frT : ∀ cell ∈ cells, total.frT ≤ cell.toT
  toT : ∀ cell ∈ cells, cell.frT ≤ total.toT
  frTm : ∀ cell ∈ cells, total.frTm ≤ cell.toTm
  toTm : ∀ cell ∈ cells, cell.frTm ≤ total.toTm

variable (backward : Bool)

theorem adjustBounds_everything {total : Total} (filled : 0 < total.rows) :
    adjustBounds (everything backward) total =
      some ⟨1, total.rows, total.frT, total.toT, total.frTm, total.toTm⟩ := by
  have some_rows : ¬ total.rows = 0 := by omega
  have ordered : ¬ total.rows < 1 := by omega
  simp [adjustBounds, everything, adjustFromRowid, adjustToRowid, adjustFromTime, adjustToTime,
    some_rows, ordered]

variable {cells : List Cell}

theorem overlaps_everything {total : Total} (covers : total.Covers cells)
    (counted : total.rows = rowsOf cells) (filled : ∀ cell ∈ cells, 0 < cell.rows)
    {segment : Segment} (among : segment ∈ placeCells 1 cells) :
    segment.overlaps ⟨1, total.rows, total.frT, total.toT, total.frTm, total.toTm⟩ = true := by
  have ⟨member, low, closed, high⟩ := mem_placeCells among
  have rows := filled segment.cell member
  have frT := covers.frT segment.cell member
  have toT := covers.toT segment.cell member
  have frTm := covers.frTm segment.cell member
  have toTm := covers.toTm segment.cell member
  simp only [Segment.overlaps, decide_eq_true_eq]
  omega

theorem getSegments_everything {cache : KeyCache}
    (covers : cache.total.Covers cache.files) (counted : cache.total.rows = rowsOf cache.files)
    (filled : ∀ cell ∈ cache.files, 0 < cell.rows) :
    getSegments (everything backward) cache = placeCells 1 cache.files := by
  cases cells : cache.files with
  | nil =>
    have none : adjustBounds (everything backward) cache.total = none := by
      rw [cells, rowsOf_nil] at counted
      simp [adjustBounds, counted]
    rw [getSegments, none]
    rfl
  | cons cell rest =>
    have rows := filled cell (by simp [cells])
    have total : 0 < cache.total.rows := by
      rw [counted, cells, rowsOf_cons]
      omega
    have meets : ∀ segment ∈ placeCells 1 cache.files, segment.overlaps _ = true :=
      fun segment among => overlaps_everything covers counted filled among
    rw [getSegments, adjustBounds_everything backward total]
    dsimp only [everything]
    cases backward with
    | true =>
      simp only [if_true]
      rw [counted, backwardSegments_eq, append_nil, ← counted,
        takeWhile_eq_self_iff.2, filter_eq_self.2, reverse_reverse, cells]
      · exact fun segment among => meets segment (mem_reverse.1 among)
      · intro segment among
        have := meets segment (mem_reverse.1 among)
        simp only [Segment.overlaps, decide_eq_true_eq] at this
        simp only [Segment.endsBefore, not_eq_true', decide_eq_false_iff_not]
        omega
    | false =>
      simp only [false_eq_true, if_false]
      rw [forwardSegments_eq, takeWhile_eq_self_iff.2, filter_eq_self.2, cells]
      · exact meets
      · intro segment among
        have := meets segment among
        simp only [Segment.overlaps, decide_eq_true_eq] at this
        simp only [Segment.beginsPast, not_eq_true', decide_eq_false_iff_not]
        omega

theorem runUp_placeCells (first : Int) (filled : ∀ cell ∈ cells, 0 < cell.rows) :
    runUp first (placeCells first cells) = placeCells first cells := by
  induction cells generalizing first with
  | nil => rfl
  | cons cell rest ih =>
    have rows := filled cell mem_cons_self
    have next : first + (cell.rows : Int) - 1 + 1 = first + cell.rows := by omega
    rw [placeCells, runUp, if_pos ⟨rfl, rows⟩]
    rw [next, ih _ fun other among => filled other (mem_cons_of_mem cell among)]

theorem runDown_placeCells (filled : ∀ cell ∈ cells, 0 < cell.rows) :
    runDown (rowsOf cells) (placeCells 1 cells).reverse = (placeCells 1 cells).reverse := by
  induction cells using List.reverseRecOn with
  | nil => rfl
  | append_singleton rest cell ih =>
    have rows := filled cell (mem_append_right _ mem_cons_self)
    have last : (1 : Int) + rowsOf rest + cell.rows - 1 = rowsOf (rest ++ [cell]) := by
      rw [rowsOf_append, rowsOf_cons, rowsOf_nil]
      omega
    have below : (1 : Int) + rowsOf rest - 1 = rowsOf rest := by omega
    rw [placeCells_append]
    simp only [placeCells, reverse_append, reverse_cons, reverse_nil, nil_append, singleton_append]
    rw [runDown, if_pos ⟨last, rows⟩]
    rw [below, ih fun other among => filled other (mem_append_left _ among)]

section

variable {totalRows : Int} {found : Found} (low : 1 ≤ found.rowid) (high : found.rowid ≤ totalRows)
include low high

theorem stops_everything : stops (everything backward) totalRows found = false := by
  have inside : ¬ found.rowid < 1 := by omega
  have below : ¬ totalRows < found.rowid := by omega
  simp [stops, matchMetadata, everything, adjustFromRowid, adjustToRowid, inside, below]

theorem keeps_everything :
    keeps (everything backward) totalRows found = !isDeletedInstance found.md := by
  have inside : ¬ found.rowid < 1 := by omega
  have below : ¬ totalRows < found.rowid := by omega
  simp [keeps, matchMetadata, everything, adjustFromRowid, adjustToRowid, inside, below,
    matchUserFlag, asUInt16]

end

theorem scan_of_unstopped {α : Type} {keep stop : α → Bool} {list : List α}
    (unstopped : ∀ element ∈ list, stop element = false) :
    scan keep stop list = list.filter keep := by
  rw [scan_eq_filter fun element among ends => by simp [unstopped element among] at ends,
    takeWhile_eq_self_iff.2 fun element among => by simp [unstopped element among]]

/-- The rows of the query without conditions, in the order of its direction. -/
def inDirection {α : Type} (backward : Bool) (rows : List α) : List α :=
  if backward then rows.reverse else rows

/-- The walk without conditions visits every row of filled cells that the totals cover. -/
theorem visited_everything {files : RdFiles}
    (totalRows : Int) (held : ∀ cell ∈ cells, cell.rows ≤ (files.rows cell.id).length)
    (filled : ∀ cell ∈ cells, 0 < cell.rows) :
    visited files (everything backward) totalRows (placeCells 1 cells) =
      inDirection backward (cacheRows files cells) := by
  have readable := placeCells_readable files held
  cases backward with
  | false =>
    cases cells with
    | nil => rfl
    | cons cell rest =>
      have rows := filled cell mem_cons_self
      have start : firstSegmentRow (placeCells 1 (cell :: rest)) totalRows (everything false) =
          some (0, 1) := by
        simp [firstSegmentRow, everything, placeCells, forwardFirst, forwardStart]
        omega
      have there : (placeCells 1 (cell :: rest))[0]? = some ⟨cell, 1, 1 + cell.rows - 1⟩ := rfl
      have enter := visitUp_enter there (readable _ mem_cons_self)
      simp only [visited, everything, false_eq_true, if_false, inDirection]
      rw [show firstSegmentRow (placeCells 1 (cell :: rest)) totalRows
        { backward := false } = some (0, 1) from start]
      rw [enter, drop_zero, runUp_placeCells 1 filled, cacheRows]
  | true =>
    rcases eq_nil_or_concat cells with rfl | ⟨rest, cell, rfl⟩
    · rfl
    · rw [concat_eq_append] at held filled readable ⊢
      have rows := filled cell (by simp)
      have place : placeCells 1 (rest ++ [cell]) =
          placeCells 1 rest ++ [⟨cell, 1 + rowsOf rest, 1 + rowsOf rest + cell.rows - 1⟩] :=
        placeCells_append 1 rest [cell]
      have size : (placeCells 1 rest).length + 1 = (placeCells 1 (rest ++ [cell])).length := by
        rw [place, length_append, length_singleton]
      have there : (placeCells 1 (rest ++ [cell]))[(placeCells 1 rest).length]? =
          some ⟨cell, 1 + rowsOf rest, 1 + rowsOf rest + cell.rows - 1⟩ := by
        rw [place, List.getElem?_concat_length]
      have inside : ¬ (1 : Int) + rowsOf rest + cell.rows - 1 < 1 + rowsOf rest := by omega
      have start : firstSegmentRow (placeCells 1 (rest ++ [cell])) totalRows (everything true) =
          some ((placeCells 1 rest).length, (1 : Int) + rowsOf rest + cell.rows - 1) := by
        simp [firstSegmentRow, everything, place, zipIdx_append, backwardFirst, backwardStart,
          inside]
      have enter := visitDown_enter there (readable _ (mem_of_getElem? there))
      have last : (1 : Int) + rowsOf rest + cell.rows - 1 = rowsOf (rest ++ [cell]) := by
        rw [rowsOf_append, rowsOf_cons, rowsOf_nil]
        omega
      simp only [visited, everything, if_true, inDirection]
      rw [show firstSegmentRow (placeCells 1 (rest ++ [cell])) totalRows { backward := true } = _
        from start, enter, size, take_length, last, runDown_placeCells filled, cacheRows]
      rw [reverse_flatMap]
      rfl

end Yunetas.Timeranger2
