import Mathlib.Data.List.Induction
import Yunetas.Lib.Scan
import Yunetas.Timeranger2.Cache
import Yunetas.Timeranger2.MatchCond

/-!
# Segments of a query

`get_segments` picks the cells a query has to read. It adjusts the conditions to the totals of
the key, then goes through the cells in the direction of the query: it stops at the first cell
past the conditions and keeps those whose ranges meet them. Both loops number the rows as they
go, and the numbering is the same: the cells in order, their rows one after the other from 1.
-/

namespace Yunetas.Timeranger2

open List

/-- A segment: a cell with the global rowids of its first and last rows. -/
structure Segment where
  cell : Cell
  firstRow : Int
  lastRow : Int
deriving DecidableEq, Repr

/-- The conditions adjusted to the totals. -/
structure Bounds where
  fromRowid : Int
  toRowid : Int
  fromT : Int
  toT : Int
  fromTm : Int
  toTm : Int
deriving DecidableEq, Repr

/-- The adjustment of `from_t` and `from_tm` to the range of the key. -/
def adjustFromTime (fromTime totalFrom totalTo : Int) : Option Int :=
  if fromTime = 0 then some totalFrom
  else if fromTime > totalTo then none
  else if fromTime < totalFrom then some totalFrom
  else some fromTime

/-- The adjustment of `to_t` and `to_tm` to the range of the key. -/
def adjustToTime (toTime totalFrom totalTo : Int) : Option Int :=
  if toTime = 0 then some totalTo
  else if toTime > totalTo then some totalTo
  else if toTime < totalFrom then none
  else some toTime

/-- The first half of `get_segments`: the adjusted conditions, `none` where it returns with no
segment. -/
def adjustBounds (cond : MatchCond) (total : Total) : Option Bounds := do
  if total.rows = 0 then none
  else
    let fromRowid ← adjustFromRowid cond.fromRowid total.rows
    let toRowid ← adjustToRowid cond.toRowid total.rows
    if toRowid < fromRowid then none
    else
      let fromT ← adjustFromTime cond.fromT total.frT total.toT
      let toT ← adjustToTime cond.toT total.frT total.toT
      let fromTm ← adjustFromTime cond.fromTm total.frTm total.toTm
      let toTm ← adjustToTime cond.toTm total.frTm total.toTm
      some ⟨fromRowid, toRowid, fromT, toT, fromTm, toTm⟩

/-- `*prealtime`: the realtime half of the conditions, when `get_segments` gets to its end. -/
def isRealtime (cond : MatchCond) (total : Total) : Bool :=
  (adjustBounds cond total).isSome && decide (cond.toRowid = 0 ∧ cond.toT = 0 ∧ cond.toTm = 0)

/-- The forward loop stops here: the segment begins past the conditions. -/
def Segment.beginsPast (bounds : Bounds) (segment : Segment) : Bool :=
  segment.firstRow > bounds.toRowid ∨ segment.cell.frT > bounds.toT ∨
    segment.cell.frTm > bounds.toTm

/-- The backward loop stops here: the segment ends before the conditions. -/
def Segment.endsBefore (bounds : Bounds) (segment : Segment) : Bool :=
  segment.lastRow < bounds.fromRowid ∨ segment.cell.toT < bounds.fromT ∨
    segment.cell.toTm < bounds.fromTm

/-- The ranges of the segment meet the conditions. -/
def Segment.overlaps (bounds : Bounds) (segment : Segment) : Bool :=
  segment.firstRow ≤ bounds.toRowid ∧ segment.lastRow ≥ bounds.fromRowid ∧
    segment.cell.frT ≤ bounds.toT ∧ segment.cell.toT ≥ bounds.fromT ∧
    segment.cell.frTm ≤ bounds.toTm ∧ segment.cell.toTm ≥ bounds.fromTm

/-- The forward loop of `get_segments`. -/
def forwardSegments (bounds : Bounds) (partialRows : Int) : List Cell → List Segment
  | [] => []
  | cell :: rest =>
    let segment : Segment := ⟨cell, partialRows, partialRows + cell.rows - 1⟩
    if segment.beginsPast bounds then []
    else
      (if segment.overlaps bounds then [segment] else []) ++
        forwardSegments bounds (partialRows + cell.rows) rest

/-- The backward loop of `get_segments` over the cells from the last one down. Each segment is
inserted at the front. -/
def backwardSegments (bounds : Bounds) (partialRows : Int) (segments : List Segment) :
    List Cell → List Segment
  | [] => segments
  | cell :: rest =>
    let segment : Segment := ⟨cell, partialRows - cell.rows + 1, partialRows⟩
    if segment.endsBefore bounds then segments
    else
      backwardSegments bounds (partialRows - cell.rows)
        (if segment.overlaps bounds then segment :: segments else segments) rest

/-- `get_segments`. -/
def getSegments (cond : MatchCond) (cache : KeyCache) : List Segment :=
  match adjustBounds cond cache.total with
  | none => []
  | some bounds =>
    if cond.backward then backwardSegments bounds cache.total.rows [] cache.files.reverse
    else forwardSegments bounds 1 cache.files

/-! ## The numbering of the rows -/

/-- The cells numbered from a first row. -/
def placeCells (first : Int) : List Cell → List Segment
  | [] => []
  | cell :: rest => ⟨cell, first, first + cell.rows - 1⟩ :: placeCells (first + cell.rows) rest

/-- Rows of a list of cells. -/
def rowsOf (cells : List Cell) : Nat := (cells.map Cell.rows).sum

@[simp] theorem rowsOf_nil : rowsOf [] = 0 := rfl

@[simp] theorem rowsOf_cons (cell : Cell) (rest : List Cell) :
    rowsOf (cell :: rest) = cell.rows + rowsOf rest := by simp [rowsOf]

theorem rowsOf_append (left right : List Cell) :
    rowsOf (left ++ right) = rowsOf left + rowsOf right := by simp [rowsOf]

theorem placeCells_append (first : Int) (left right : List Cell) :
    placeCells first (left ++ right) =
      placeCells first left ++ placeCells (first + rowsOf left) right := by
  induction left generalizing first with
  | nil => simp [placeCells]
  | cons cell rest ih =>
    have shift : first + (cell.rows : Int) + rowsOf rest = first + rowsOf (cell :: rest) := by
      rw [rowsOf_cons]
      omega
    simp [placeCells, ih, shift]

theorem forwardSegments_eq (bounds : Bounds) (first : Int) (cells : List Cell) :
    forwardSegments bounds first cells =
      ((placeCells first cells).takeWhile fun segment => !segment.beginsPast bounds).filter
        (Segment.overlaps bounds) := by
  induction cells generalizing first with
  | nil => rfl
  | cons cell rest ih =>
    rw [forwardSegments, placeCells, takeWhile_cons]
    cases past : Segment.beginsPast bounds ⟨cell, first, first + cell.rows - 1⟩ with
    | true => simp
    | false =>
      rw [ih]
      cases meets : Segment.overlaps bounds ⟨cell, first, first + cell.rows - 1⟩ <;> simp [meets]

theorem backwardSegments_eq (bounds : Bounds) (cells : List Cell) (segments : List Segment) :
    backwardSegments bounds (rowsOf cells) segments cells.reverse =
      ((((placeCells 1 cells).reverse.takeWhile fun segment => !segment.endsBefore bounds).filter
        (Segment.overlaps bounds)).reverse) ++ segments := by
  induction cells using List.reverseRecOn generalizing segments with
  | nil => rfl
  | append_singleton rest cell ih =>
    have total : (rowsOf (rest ++ [cell]) : Int) = rowsOf rest + cell.rows := by
      simp [rowsOf_append]
    have start : (rowsOf (rest ++ [cell]) : Int) - cell.rows = rowsOf rest := by omega
    have place : placeCells 1 (rest ++ [cell]) =
        placeCells 1 rest ++ [⟨cell, rowsOf rest + 1, rowsOf rest + cell.rows⟩] := by
      rw [placeCells_append]
      congr 1
      simp only [placeCells]
      congr 2 <;> omega
    rw [reverse_concat, backwardSegments, start, total, place, reverse_concat,
      takeWhile_cons]
    cases past : Segment.endsBefore bounds
        ⟨cell, (rowsOf rest : Int) + 1, rowsOf rest + cell.rows⟩ with
    | true => simp
    | false =>
      rw [ih]
      cases meets : Segment.overlaps bounds
          ⟨cell, (rowsOf rest : Int) + 1, rowsOf rest + cell.rows⟩ <;> simp [meets]

end Yunetas.Timeranger2
