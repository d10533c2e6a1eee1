import Yunetas.Timeranger2.Segments
import Yunetas.Timeranger2.Store

/-!
# Iterators

An iterator serves the rows of a key in one of two ways. With a callback it loads: it walks from
a first row to the next one, across segments, and delivers what matches. Without one it pages:
when its conditions select rows it builds the index of the rowids that match, when they do not
its pages are rows by number. Readers receive the files through `RdFiles`.
-/

namespace Yunetas.Timeranger2

/-- `get_md_by_rowid`. -/
def getMdByRowid (files : RdFiles) (segment : Segment) (rowid : Int) : Option Md2RecordEx :=
  if ¬ (rowid ≥ segment.firstRow ∧ rowid ≤ segment.lastRow) then none
  else
    let relativeRowid := rowid - segment.firstRow + 1
    if relativeRowid ≤ 0 then none else readMd files segment.cell.id relativeRowid

/-! ## The index -/

/-- The rowids from a first to a last one. -/
def rowidRange (first last : Int) : List Int :=
  (List.range (last - first + 1).toNat).map fun (offset : Nat) => first + (offset : Int)

/-- The inner loop of `build_iterator_index`: the rowids of one segment that match and whether
the walk ended; `none` when a row cannot be read. -/
def indexRows (files : RdFiles) (cond : MatchCond) (totalRows : Int) (segment : Segment) :
    List Int → Option (List Int × Bool)
  | [] => some ([], false)
  | rowid :: rest =>
    match getMdByRowid files segment rowid with
    | none => none
    | some md =>
      if isDeletedInstance md then indexRows files cond totalRows segment rest
      else
        let result := matchMetadata cond totalRows rowid md
        let kept := if result.matched then [rowid] else []
        if result.ended then some (kept, true)
        else (indexRows files cond totalRows segment rest).map fun (later, ended) =>
          (kept ++ later, ended)

/-- The outer loop of `build_iterator_index`. -/
def indexSegments (files : RdFiles) (cond : MatchCond) (totalRows : Int) :
    List Segment → Option (List Int)
  | [] => some []
  | segment :: rest =>
    match indexRows files cond totalRows segment (rowidRange segment.firstRow segment.lastRow) with
    | none => none
    | some (rowids, true) => some rowids
    | some (rowids, false) => (indexSegments files cond totalRows rest).map (rowids ++ ·)

/-- `build_iterator_index`: always forward, whatever the direction of the pages. -/
def buildIteratorIndex (files : RdFiles) (cond : MatchCond) (totalRows : Int)
    (segments : List Segment) : Option (List Int) :=
  indexSegments files { cond with backward := false } totalRows segments

/-- `segment_of_rowid`. -/
def segmentOfRowid (segments : List Segment) (rowid : Int) : Option Segment :=
  segments.find? fun segment => rowid ≥ segment.firstRow ∧ rowid ≤ segment.lastRow

/-! ## The walk -/

/-- The row a forward walk would start at in a segment, `none` past the last row of the key. -/
def forwardStart (fromRowid totalRows : Int) (segment : Segment) : Option Int :=
  if fromRowid = 0 then some segment.firstRow
  else if fromRowid > 0 then if fromRowid > totalRows then none else some fromRowid
  else if fromRowid < -totalRows then some segment.firstRow
  else some (totalRows + fromRowid + 1)

/-- The row a backward walk would start at in a segment, `none` before the first row. -/
def backwardStart (toRowid totalRows : Int) (segment : Segment) : Option Int :=
  if toRowid = 0 then some segment.lastRow
  else if toRowid > 0 then if toRowid > totalRows then some segment.lastRow else some toRowid
  else if toRowid < -totalRows then none
  else some (totalRows + toRowid + 1)

/-- The forward loop of `first_segment_row`, over segments with their positions. -/
def forwardFirst (cond : MatchCond) (totalRows : Int) : List (Segment × Nat) → Option (Nat × Int)
  | [] => none
  | (segment, index) :: rest =>
    match forwardStart cond.fromRowid totalRows segment with
    | none => none
    | some rowid =>
      if rowid > segment.lastRow then forwardFirst cond totalRows rest
      else if cond.fromT ≠ 0 ∧ cond.fromT > segment.cell.toT then forwardFirst cond totalRows rest
      else if cond.fromTm ≠ 0 ∧ cond.fromTm > segment.cell.toTm then
        forwardFirst cond totalRows rest
      else some (index, rowid)

/-- The backward loop of `first_segment_row`, over segments with their positions. -/
def backwardFirst (cond : MatchCond) (totalRows : Int) : List (Segment × Nat) → Option (Nat × Int)
  | [] => none
  | (segment, index) :: rest =>
    match backwardStart cond.toRowid totalRows segment with
    | none => none
    | some rowid =>
      if rowid < segment.firstRow then backwardFirst cond totalRows rest
      else if cond.toT ≠ 0 ∧ cond.toT < segment.cell.frT then backwardFirst cond totalRows rest
      else if cond.toTm ≠ 0 ∧ cond.toTm < segment.cell.frTm then backwardFirst cond totalRows rest
      else some (index, rowid)

/-- `first_segment_row`: the segment a walk begins at and its first rowid. -/
def firstSegmentRow (segments : List Segment) (totalRows : Int) (cond : MatchCond) :
    Option (Nat × Int) :=
  if cond.backward then backwardFirst cond totalRows segments.zipIdx.reverse
  else forwardFirst cond totalRows segments.zipIdx

/-- `next_segment_row`: the segment and rowid after those of the walk. A segment that does not
begin where the last one ended stops it. -/
def nextSegmentRow (segments : List Segment) (cond : MatchCond) (index : Nat) (rowid : Int) :
    Option (Nat × Int) :=
  match segments[index]? with
  | none => none
  | some segment =>
    if cond.backward then
      let rowid := rowid - 1
      if rowid ≤ 0 then none
      else if rowid < segment.firstRow then
        if index = 0 then none
        else
          match segments[index - 1]? with
          | none => none
          | some segment => if rowid ≠ segment.lastRow then none else some (index - 1, rowid)
      else some (index, rowid)
    else
      let rowid := rowid + 1
      if rowid > segment.lastRow then
        match segments[index + 1]? with
        | none => none
        | some segment => if rowid ≠ segment.firstRow then none else some (index + 1, rowid)
      else some (index, rowid)

/-- A row a reader found. -/
structure Found where
  rowid : Int
  id : String
  md : Md2RecordEx
deriving DecidableEq, Repr

/-- The loop of `tranger2_open_iterator` and of the unfiltered `tranger2_iterator_get_page`: the
rows it delivers from a position. Every turn moves one row on, so as many turns as rows are
enough. -/
def walkRows (files : RdFiles) (cond : MatchCond) (totalRows : Int) (segments : List Segment) :
    Nat → Option (Nat × Int) → List Found
  | 0, _ => []
  | _ + 1, none => []
  | turns + 1, some (index, rowid) =>
    match segments[index]? with
    | none => []
    | some segment =>
      match getMdByRowid files segment rowid with
      | none => []
      | some md =>
        let next := nextSegmentRow segments cond index rowid
        if isDeletedInstance md then walkRows files cond totalRows segments turns next
        else
          let result := matchMetadata cond totalRows rowid md
          (if result.matched then [⟨rowid, segment.cell.id, md⟩] else []) ++
            (if result.ended then [] else walkRows files cond totalRows segments turns next)

/-- The rows a walk of the segments delivers. -/
def walk (files : RdFiles) (cond : MatchCond) (totalRows : Int) (segments : List Segment) :
    List Found :=
  walkRows files cond totalRows segments (rowsOf (segments.map Segment.cell) + 1)
    (firstSegmentRow segments totalRows cond)

/-! ## Iterators -/

/-- What a reader receives for a row. -/
structure Delivery where
  rowid : Int
  md : Md2RecordEx
  /-- Text of the record, `none` when it was not asked for or cannot be read. -/
  content : Option (List UInt8)
deriving DecidableEq, Repr

/-- The loading mode of `tranger2_open_iterator`: what its callback receives, when it never asks
to stop. -/
def loadIterator (files : RdFiles) (cond : MatchCond) (cache : KeyCache) : List Delivery :=
  (walk files cond cache.total.rows (getSegments cond cache)).map fun found =>
    { rowid := found.rowid
      md := { found.md with systemFlag := found.md.systemFlag ||| sfLoadingFromDisk }
      content := if cond.onlyMd then none else readRecordContent files found.id found.md }

/-- An open iterator of the paging mode. -/
structure Iterator where
  segments : List Segment
  index : Option (List Int)
deriving DecidableEq, Repr

/-- The paging mode of `tranger2_open_iterator`. -/
def openIterator (files : RdFiles) (cond : MatchCond) (cache : KeyCache) : Option Iterator :=
  let segments := getSegments cond cache
  if matchCondSelectsRecords cond then
    (buildIteratorIndex files cond cache.total.rows segments).map fun index =>
      ⟨segments, some index⟩
  else some ⟨segments, none⟩

/-- The row an index entry stands for. -/
def indexedRow (files : RdFiles) (segments : List Segment) (rowid : Int) : Option Found := do
  let segment ← segmentOfRowid segments rowid
  let md ← getMdByRowid files segment rowid
  some ⟨rowid, segment.cell.id, md⟩

/-- The loop of a filtered page over the rowids it asks for: it stops at one it cannot find and
skips one whose content it cannot read. -/
def indexedPage (files : RdFiles) (segments : List Segment) : List Int → List Delivery
  | [] => []
  | rowid :: rest =>
    match indexedRow files segments rowid with
    | none => []
    | some found =>
      let content := readRecordContent files found.id found.md
      (if content.isSome then [⟨rowid, found.md, content⟩] else []) ++
        indexedPage files segments rest

theorem window_bounded {fromRowid limit : Nat} (bounded : (fromRowid : Int) + limit < 2 ^ 63) :
    ∀ value ∈ [(fromRowid : Int), fromRowid + limit - 1, 0, 0, 0, 0],
      -2 ^ 63 ≤ value ∧ value < 2 ^ 63 := by
  simp only [List.mem_cons, List.not_mem_nil, or_false]
  omega

/-- `tranger2_iterator_get_page`: the records of a page. -/
def getPage (files : RdFiles) (cache : KeyCache) (iterator : Iterator) (fromRowid : Nat)
    (limit : Nat) (backward : Bool) (bounded : (fromRowid : Int) + limit < 2 ^ 63) :
    List Delivery :=
  match iterator.index with
  | some index =>
    if fromRowid = 0 ∨ fromRowid > index.length then []
    else
      let rowids := if backward then index.reverse else index
      indexedPage files iterator.segments ((rowids.drop (fromRowid - 1)).take limit)
  | none =>
    let totalRows := cache.total.rows
    if fromRowid = 0 ∨ (fromRowid : Int) > totalRows ∨ limit = 0 then []
    else
      let cond : MatchCond :=
        { backward := backward
          fromRowid := fromRowid
          toRowid := fromRowid + limit - 1
          bounded := window_bounded bounded }
      (walk files cond totalRows iterator.segments).filterMap fun found =>
        (readRecordContent files found.id found.md).map fun text =>
          ⟨found.rowid, found.md, some text⟩

end Yunetas.Timeranger2
