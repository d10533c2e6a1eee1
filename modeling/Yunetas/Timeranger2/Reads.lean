import Mathlib.Data.List.Flatten
import Yunetas.Timeranger2.Iterator

/-!
# What the readers visit

Every reader of a key is a scan of rows in the order of their numbers. The index scans the rows
of all its segments; the walk of a load scans a run of them without gaps, up or down from its
first row. The theorems below replace the loops of the iterators by those scans, for segments
numbered by their cells whose files hold the rows the cells count.
-/

namespace Yunetas.Timeranger2

/-- Rows of a file a reader opened, none when it does not open. -/
def RdFiles.rows (files : RdFiles) (fileId : String) : List Md2Record :=
  (files.md2 fileId).getD []

@[simp] theorem rows_rdFiles (dir : KeyDir) (fileId : String) :
    dir.rdFiles.rows fileId = dir.rows fileId := rfl

/-- The rows of a segment, with their numbers. -/
def segmentRows (files : RdFiles) (segment : Segment) : List Found :=
  ((files.rows segment.cell.id).take segment.cell.rows).zipIdx.map fun (row, position) =>
    ⟨segment.firstRow + (position : Int), segment.cell.id, row.decode (position + 1)⟩

/-- A segment numbered by its cell, whose file holds the rows of the cell. -/
structure Segment.Readable (files : RdFiles) (segment : Segment) : Prop where
  closed : segment.lastRow = segment.firstRow + segment.cell.rows - 1
  positive : 1 ≤ segment.firstRow
  held : segment.cell.rows ≤ (files.rows segment.cell.id).length

section

open List

variable {files : RdFiles} {segment : Segment}

theorem segmentRows_length (readable : segment.Readable files) :
    (segmentRows files segment).length = segment.cell.rows := by
  simp [segmentRows, readable.held]

theorem segmentRows_get (readable : segment.Readable files) {position : Nat}
    (inside : position < segment.cell.rows) :
    ∃ row, (files.rows segment.cell.id)[position]? = some row ∧
      (segmentRows files segment)[position]? =
        some ⟨segment.firstRow + (position : Int), segment.cell.id, row.decode (position + 1)⟩ := by
  have held := readable.held
  have bound : position < (files.rows segment.cell.id).length := by omega
  refine ⟨(files.rows segment.cell.id)[position], getElem?_eq_getElem bound, ?_⟩
  simp [segmentRows, getElem?_map, getElem?_zipIdx, inside,
    getElem?_eq_getElem bound]

theorem segmentRows_at {position : Nat} {found : Found}
    (there : (segmentRows files segment)[position]? = some found) :
    position < segment.cell.rows ∧ found.rowid = segment.firstRow + position ∧
      found.id = segment.cell.id ∧
      ∃ row, (files.rows segment.cell.id)[position]? = some row ∧
        found.md = row.decode (position + 1) := by
  simp only [segmentRows, getElem?_map, getElem?_zipIdx, Nat.zero_add,
    Option.map_map, Option.map_eq_some_iff, getElem?_take] at there
  obtain ⟨row, taken, rfl⟩ := there
  split at taken
  · exact ⟨by assumption, rfl, rfl, row, taken, rfl⟩
  · exact absurd taken (by simp)

section

variable (readable : segment.Readable files)
include readable

theorem getMdByRowid_of_at {position : Nat} {found : Found}
    (there : (segmentRows files segment)[position]? = some found) :
    getMdByRowid files segment found.rowid = some found.md := by
  have ⟨inside, rowid, _, row, stored, md⟩ := segmentRows_at there
  have range : found.rowid ≥ segment.firstRow ∧ found.rowid ≤ segment.lastRow := by
    have := readable.closed
    omega
  have relative : found.rowid - segment.firstRow + 1 = (position : Int) + 1 := by omega
  have positive : ¬ ((position : Int) + 1 ≤ 0) := by omega
  rw [RdFiles.rows] at stored
  cases opened : files.md2 segment.cell.id with
  | none => simp [opened] at stored
  | some rows =>
    rw [opened, Option.getD_some] at stored
    simp [getMdByRowid, range, relative, positive, readMd_of_get opened stored, md]

section

variable {found : Found} (inside : found ∈ segmentRows files segment)
include inside

theorem getMdByRowid_of_mem :
    getMdByRowid files segment found.rowid = some found.md := by
  have ⟨position, there⟩ := mem_iff_getElem?.1 inside
  exact getMdByRowid_of_at readable there

theorem rowid_range_of_mem :
    segment.firstRow ≤ found.rowid ∧ found.rowid ≤ segment.lastRow := by
  have ⟨position, there⟩ := mem_iff_getElem?.1 inside
  have ⟨bound, rowid, _⟩ := segmentRows_at there
  have := readable.closed
  omega

end

theorem segmentRows_rowids :
    (segmentRows files segment).map Found.rowid = rowidRange segment.firstRow segment.lastRow := by
  have size : (segment.lastRow - segment.firstRow + 1).toNat = segment.cell.rows := by
    have := readable.closed
    omega
  apply ext_getElem?
  intro position
  rw [rowidRange, size, getElem?_map, getElem?_map]
  by_cases inside : position < segment.cell.rows
  · have ⟨row, _, there⟩ := segmentRows_get readable inside
    simp [there, getElem?_range inside]
  · have past : (segmentRows files segment)[position]? = none := by
      rw [getElem?_eq_none_iff, segmentRows_length readable]
      omega
    rw [past, getElem?_eq_none (by simp; omega)]
    rfl

end

theorem segmentRows_ascending : Ascending Found.rowid (segmentRows files segment) := by
  unfold Ascending
  rw [pairwise_iff_getElem]
  intro i j iLt jLt order
  have ⟨_, left, _⟩ := segmentRows_at (getElem?_eq_getElem iLt)
  have ⟨_, right, _⟩ := segmentRows_at (getElem?_eq_getElem jLt)
  omega

end

/-! ## The index -/

/-- The index keeps a row: it is alive and matches. -/
def keeps (cond : MatchCond) (totalRows : Int) (found : Found) : Bool :=
  !isDeletedInstance found.md && (matchMetadata cond totalRows found.rowid found.md).matched

/-- A walk ends at a row: it is alive and beyond the conditions. -/
def stops (cond : MatchCond) (totalRows : Int) (found : Found) : Bool :=
  !isDeletedInstance found.md && (matchMetadata cond totalRows found.rowid found.md).ended

variable {cond : MatchCond} {totalRows : Int} {files : RdFiles} {segment : Segment}
  {segments : List Segment}

theorem matched_of_ended {totalRows rowid : Int} {md : Md2RecordEx}
    (ended : (matchMetadata cond totalRows rowid md).ended = true) :
    (matchMetadata cond totalRows rowid md).matched = false := by
  unfold matchMetadata at ended ⊢
  split
  · rfl
  · rfl
  · rename_i fromRowid toRowid fromEq toEq
    simp only [fromEq, toEq] at ended
    split_ifs at ended ⊢ <;> rfl

theorem keeps_of_stops {found : Found}
    (ends : stops cond totalRows found = true) : keeps cond totalRows found = false := by
  simp only [stops, Bool.and_eq_true] at ends
  rw [keeps, matched_of_ended ends.2, Bool.and_false]

theorem indexRows_eq (cond : MatchCond) (totalRows : Int) {rows : List Found}
    (reads : ∀ found ∈ rows, getMdByRowid files segment found.rowid = some found.md) :
    indexRows files cond totalRows segment (rows.map Found.rowid) =
      some ((scan (keeps cond totalRows) (stops cond totalRows) rows).map Found.rowid,
        rows.any (stops cond totalRows)) := by
  induction rows with
  | nil => rfl
  | cons found rest ih =>
    have here := reads found List.mem_cons_self
    have later := ih fun other among => reads other (List.mem_cons_of_mem found among)
    rw [List.map_cons, indexRows, here]
    cases dead : isDeletedInstance found.md with
    | true => simp [later, scan, keeps, stops, dead]
    | false =>
      cases ended : (matchMetadata cond totalRows found.rowid found.md).ended <;>
        cases matched : (matchMetadata cond totalRows found.rowid found.md).matched <;>
        simp [later, scan, keeps, stops, dead, ended, matched]

theorem indexSegments_eq (readable : ∀ segment ∈ segments, segment.Readable files) :
    indexSegments files cond totalRows segments =
      some ((scan (keeps cond totalRows) (stops cond totalRows)
        (segments.flatMap (segmentRows files))).map Found.rowid) := by
  induction segments with
  | nil => rfl
  | cons segment rest ih =>
    have here := readable segment List.mem_cons_self
    have later := ih fun other among => readable other (List.mem_cons_of_mem segment among)
    have rows := indexRows_eq cond totalRows (fun found inside => getMdByRowid_of_mem here inside)
    rw [indexSegments, ← segmentRows_rowids here, rows, List.flatMap_cons, scan_append]
    cases ended : (segmentRows files segment).any (stops cond totalRows) <;>
      simp [later]

/-! ## The walk -/

/-- The rows of a segment from a rowid up. -/
def rowsUp (files : RdFiles) (segment : Segment) (rowid : Int) : List Found :=
  (segmentRows files segment).drop (rowid - segment.firstRow).toNat

/-- The rows of a segment from a rowid down. -/
def rowsDown (files : RdFiles) (segment : Segment) (rowid : Int) : List Found :=
  ((segmentRows files segment).take (rowid - segment.firstRow + 1).toNat).reverse

/-- The segments that go on from a rowid with no gap and no empty one between. -/
def runUp (next : Int) : List Segment → List Segment
  | [] => []
  | segment :: rest =>
    if segment.firstRow = next ∧ 0 < segment.cell.rows then
      segment :: runUp (segment.lastRow + 1) rest
    else []

/-- The segments that go down from a rowid with no gap and no empty one between. -/
def runDown (next : Int) : List Segment → List Segment
  | [] => []
  | segment :: rest =>
    if segment.lastRow = next ∧ 0 < segment.cell.rows then
      segment :: runDown (segment.firstRow - 1) rest
    else []

/-- The rows a forward walk visits from a position, if nothing ends it. -/
def visitUp (files : RdFiles) (segments : List Segment) : Option (Nat × Int) → List Found
  | none => []
  | some (index, rowid) =>
    match segments[index]? with
    | none => []
    | some segment =>
      if segment.firstRow ≤ rowid ∧ rowid ≤ segment.lastRow then
        rowsUp files segment rowid ++
          (runUp (segment.lastRow + 1) (segments.drop (index + 1))).flatMap (segmentRows files)
      else []

/-- The rows a backward walk visits from a position, if nothing ends it. -/
def visitDown (files : RdFiles) (segments : List Segment) : Option (Nat × Int) → List Found
  | none => []
  | some (index, rowid) =>
    match segments[index]? with
    | none => []
    | some segment =>
      if segment.firstRow ≤ rowid ∧ rowid ≤ segment.lastRow then
        rowsDown files segment rowid ++
          (runDown (segment.firstRow - 1) (segments.take index).reverse).flatMap
            fun segment => (segmentRows files segment).reverse
      else []

/-- What makes a list of rows the ones a walk visits: each step gives the row at the position
and goes on from the next one, and where no row can be read nothing is left. -/
def Visits (files : RdFiles) (cond : MatchCond) (segments : List Segment)
    (visit : Option (Nat × Int) → List Found) : Prop :=
  visit none = [] ∧ ∀ index rowid,
    (∃ segment found, segments[index]? = some segment ∧
      getMdByRowid files segment rowid = some found.md ∧ found.rowid = rowid ∧
      found.id = segment.cell.id ∧
      visit (some (index, rowid)) = found :: visit (nextSegmentRow segments cond index rowid)) ∨
    ((∀ segment, segments[index]? = some segment → getMdByRowid files segment rowid = none) ∧
      visit (some (index, rowid)) = [])

open List

theorem walkRows_eq {visit : Option (Nat × Int) → List Found}
    (visits : Visits files cond segments visit) (turns : Nat) (position : Option (Nat × Int))
    (enough : (visit position).length ≤ turns) :
    walkRows files cond totalRows segments turns position =
      scan (keeps cond totalRows) (stops cond totalRows) (visit position) := by
  induction turns generalizing position with
  | zero =>
    rw [length_eq_zero_iff.1 (Nat.le_zero.1 enough)]
    cases position <;> rfl
  | succ turns ih =>
    cases position with
    | none =>
      rw [visits.1]
      rfl
    | some position =>
      have ⟨index, rowid⟩ := position
      rcases visits.2 index rowid with ⟨segment, found, there, read, sameRowid, sameId, goes⟩ |
        ⟨unread, nothing⟩
      · rw [goes, length_cons] at enough
        have later := ih (nextSegmentRow segments cond index rowid) (by omega)
        rw [goes, walkRows, there]
        simp only [read, later]
        subst sameRowid
        rw [← sameId]
        cases dead : isDeletedInstance found.md with
        | true => simp [scan, keeps, stops, dead]
        | false => simp [scan, keeps, stops, dead]
      · rw [nothing, walkRows]
        cases there : segments[index]? with
        | none => rfl
        | some segment => simp [unread segment there, scan]

theorem getMdByRowid_out {rowid : Int}
    (out : ¬ (segment.firstRow ≤ rowid ∧ rowid ≤ segment.lastRow)) :
    getMdByRowid files segment rowid = none := by
  rw [getMdByRowid, if_pos]
  omega

theorem segmentRows_rowid (readable : segment.Readable files) {rowid : Int}
    (range : segment.firstRow ≤ rowid ∧ rowid ≤ segment.lastRow) :
    ∃ found, (segmentRows files segment)[(rowid - segment.firstRow).toNat]? = some found ∧
      found.rowid = rowid ∧ found.id = segment.cell.id ∧
      getMdByRowid files segment rowid = some found.md := by
  have inside : (rowid - segment.firstRow).toNat < segment.cell.rows := by
    have := readable.closed
    omega
  have ⟨row, _, there⟩ := segmentRows_get readable inside
  have number : segment.firstRow + ((rowid - segment.firstRow).toNat : Int) = rowid := by omega
  refine ⟨_, there, number, rfl, ?_⟩
  have read := getMdByRowid_of_at readable there
  rwa [number] at read

section

variable {index : Nat} (there : segments[index]? = some segment) (readable : segment.Readable files)
include there readable

theorem visitUp_enter :
    visitUp files segments (some (index, segment.firstRow)) =
      (runUp segment.firstRow (segments.drop index)).flatMap (segmentRows files) := by
  have ⟨bound, got⟩ := List.getElem?_eq_some_iff.1 there
  have closed := readable.closed
  rw [drop_eq_getElem_cons bound, got, visitUp, there]
  by_cases filled : 0 < segment.cell.rows
  · have range : segment.firstRow ≤ segment.firstRow ∧ segment.firstRow ≤ segment.lastRow := by
      omega
    have whole : rowsUp files segment segment.firstRow = segmentRows files segment := by
      rw [rowsUp, Int.sub_self]
      rfl
    simp only [if_pos range, whole, runUp, filled, and_self, if_true, flatMap_cons]
  · have empty : ¬ (segment.firstRow ≤ segment.firstRow ∧ segment.firstRow ≤ segment.lastRow) := by
      omega
    simp only [if_neg empty, runUp, filled, and_false, if_false, flatMap_nil]

theorem visitDown_enter :
    visitDown files segments (some (index, segment.lastRow)) =
      (runDown segment.lastRow (segments.take (index + 1)).reverse).flatMap
        fun segment => (segmentRows files segment).reverse := by
  have ⟨bound, got⟩ := List.getElem?_eq_some_iff.1 there
  have closed := readable.closed
  have split : (segments.take (index + 1)).reverse = segment :: (segments.take index).reverse := by
    rw [take_add_one, there]
    simp
  rw [split, visitDown, there]
  by_cases filled : 0 < segment.cell.rows
  · have range : segment.firstRow ≤ segment.lastRow ∧ segment.lastRow ≤ segment.lastRow := by
      omega
    have whole : rowsDown files segment segment.lastRow = (segmentRows files segment).reverse := by
      rw [rowsDown, take_of_length_le]
      rw [segmentRows_length readable]
      omega
    simp only [if_pos range, whole, runDown, filled, and_self, if_true, flatMap_cons]
  · have empty : ¬ (segment.firstRow ≤ segment.lastRow ∧ segment.lastRow ≤ segment.lastRow) := by
      omega
    simp only [if_neg empty, runDown, filled, and_false, if_false, flatMap_nil]

end

theorem visitUp_visits (forward : cond.backward = false)
    (readable : ∀ segment ∈ segments, segment.Readable files) :
    Visits files cond segments (visitUp files segments) := by
  refine ⟨rfl, fun index rowid => ?_⟩
  cases there : segments[index]? with
  | none => exact Or.inr ⟨fun segment found => by simp at found, by simp [visitUp, there]⟩
  | some segment =>
    by_cases range : segment.firstRow ≤ rowid ∧ rowid ≤ segment.lastRow
    · have here := readable segment (mem_of_getElem? there)
      have ⟨found, stored, sameRowid, sameId, read⟩ := segmentRows_rowid here range
      refine Or.inl ⟨segment, found, rfl, read, sameRowid, sameId, ?_⟩
      have split : rowsUp files segment rowid =
          found :: (segmentRows files segment).drop (rowid + 1 - segment.firstRow).toNat := by
        have ⟨bound, got⟩ := List.getElem?_eq_some_iff.1 stored
        rw [rowsUp, drop_eq_getElem_cons bound, got]
        congr 2
        omega
      rw [visitUp, there]
      simp only [range, and_self, if_true, split, cons_append]
      congr 1
      rw [nextSegmentRow, there]
      simp only [forward, Bool.false_eq_true, if_false]
      by_cases more : rowid + 1 > segment.lastRow
      · have spent : (segmentRows files segment).drop (rowid + 1 - segment.firstRow).toNat = [] := by
          rw [drop_eq_nil_iff, segmentRows_length here]
          have := here.closed
          omega
        have edge : rowid + 1 = segment.lastRow + 1 := by omega
        rw [spent, nil_append, if_pos more]
        cases after : segments[index + 1]? with
        | none =>
          rw [drop_eq_nil_of_le (getElem?_eq_none_iff.1 after)]
          rfl
        | some next =>
          by_cases joins : rowid + 1 = next.firstRow
          · simp only [joins, ne_eq, not_true_eq_false, if_false]
            rw [visitUp_enter after (readable next (mem_of_getElem? after)), ← joins, edge]
          · have ⟨bound, got⟩ := List.getElem?_eq_some_iff.1 after
            have gap : ¬ (next.firstRow = segment.lastRow + 1 ∧ 0 < next.cell.rows) := by omega
            rw [drop_eq_getElem_cons bound, got]
            simp [joins, visitUp, runUp, if_neg gap]
      · have nextRange : segment.firstRow ≤ rowid + 1 ∧ rowid + 1 ≤ segment.lastRow := by omega
        simp only [if_neg more, visitUp, there, nextRange, and_self, if_true, rowsUp]
    · exact Or.inr ⟨fun other found => by
        rw [← Option.some.inj found]
        exact getMdByRowid_out range, by simp [visitUp, there, range]⟩

theorem visitDown_visits (backward : cond.backward = true)
    (readable : ∀ segment ∈ segments, segment.Readable files) :
    Visits files cond segments (visitDown files segments) := by
  refine ⟨rfl, fun index rowid => ?_⟩
  cases there : segments[index]? with
  | none => exact Or.inr ⟨fun segment found => by simp at found, by simp [visitDown, there]⟩
  | some segment =>
    by_cases range : segment.firstRow ≤ rowid ∧ rowid ≤ segment.lastRow
    · have here := readable segment (mem_of_getElem? there)
      have positive := here.positive
      have ⟨found, stored, sameRowid, sameId, read⟩ := segmentRows_rowid here range
      refine Or.inl ⟨segment, found, rfl, read, sameRowid, sameId, ?_⟩
      have split : rowsDown files segment rowid =
          found :: ((segmentRows files segment).take (rowid - segment.firstRow).toNat).reverse := by
        have count : (rowid - segment.firstRow + 1).toNat =
            (rowid - segment.firstRow).toNat + 1 := by omega
        rw [rowsDown, count, take_add_one, stored]
        simp
      rw [visitDown, there]
      simp only [range, and_self, if_true, split, cons_append]
      congr 1
      rw [nextSegmentRow, there]
      simp only [backward, if_true]
      by_cases more : rowid - 1 < segment.firstRow
      · have spent : ((segmentRows files segment).take (rowid - segment.firstRow).toNat).reverse =
            [] := by
          have : (rowid - segment.firstRow).toNat = 0 := by omega
          rw [this, take_zero, reverse_nil]
        have edge : rowid - 1 = segment.firstRow - 1 := by omega
        rw [spent, nil_append, if_pos more]
        cases index with
        | zero => simp [visitDown, runDown]
        | succ before =>
          have ⟨bound, _⟩ := List.getElem?_eq_some_iff.1 there
          have after : segments[before]? = some segments[before] :=
            getElem?_eq_getElem (by omega)
          have nextReadable := readable segments[before] (mem_of_getElem? after)
          have nextClosed := nextReadable.closed
          have nextPositive := nextReadable.positive
          have below : (segments.take (before + 1)).reverse =
              segments[before] :: (segments.take before).reverse := by
            rw [take_add_one, after]
            simp
          rw [if_neg (Nat.succ_ne_zero before), Nat.add_sub_cancel, after]
          by_cases bottom : rowid - 1 ≤ 0
          · have gap : ¬ (segments[before].lastRow = segment.firstRow - 1 ∧
                0 < segments[before].cell.rows) := by omega
            simp [bottom, visitDown, below, runDown, if_neg gap]
          · by_cases joins : rowid - 1 = segments[before].lastRow
            · simp only [joins, ne_eq, not_true_eq_false, if_false, show ¬ (segments[before].lastRow
                ≤ 0) by omega]
              rw [visitDown_enter after nextReadable, ← joins, edge]
            · have gap : ¬ (segments[before].lastRow = segment.firstRow - 1 ∧
                  0 < segments[before].cell.rows) := by omega
              simp [bottom, joins, visitDown, below, runDown, if_neg gap]
      · have nextRange : segment.firstRow ≤ rowid - 1 ∧ rowid - 1 ≤ segment.lastRow := by omega
        have above : ¬ (rowid - 1 ≤ 0) := by omega
        have count : rowid - 1 - segment.firstRow + 1 = rowid - segment.firstRow := by omega
        simp only [if_neg more, if_neg above, visitDown, there, nextRange, and_self, if_true,
          rowsDown, count]
    · exact Or.inr ⟨fun other found => by
        rw [← Option.some.inj found]
        exact getMdByRowid_out range, by simp [visitDown, there, range]⟩

theorem runUp_isPrefix (next : Int) (segments : List Segment) :
    runUp next segments <+: segments := by
  induction segments generalizing next with
  | nil => exact nil_prefix
  | cons segment rest ih =>
    rw [runUp]
    split
    · exact cons_prefix_cons.2 ⟨rfl, ih _⟩
    · exact nil_prefix

theorem runDown_isPrefix (next : Int) (segments : List Segment) :
    runDown next segments <+: segments := by
  induction segments generalizing next with
  | nil => exact nil_prefix
  | cons segment rest ih =>
    rw [runDown]
    split
    · exact cons_prefix_cons.2 ⟨rfl, ih _⟩
    · exact nil_prefix

theorem flatMap_length (readable : ∀ segment ∈ segments, segment.Readable files) :
    (segments.flatMap (segmentRows files)).length = rowsOf (segments.map Segment.cell) := by
  induction segments with
  | nil => rfl
  | cons segment rest ih =>
    have here := segmentRows_length (readable segment mem_cons_self)
    have later := ih fun other among => readable other (mem_cons_of_mem segment among)
    rw [flatMap_cons, length_append, here, later, map_cons, rowsOf_cons]

theorem rowsOf_sublist {left right : List Segment} (part : left.Sublist right) :
    rowsOf (left.map Segment.cell) ≤ rowsOf (right.map Segment.cell) := by
  induction part with
  | slnil => exact le_rfl
  | cons segment _ ih =>
    rw [map_cons, rowsOf_cons]
    omega
  | cons_cons segment _ ih =>
    rw [map_cons, rowsOf_cons, map_cons, rowsOf_cons]
    omega

section

variable {segment : Segment} {rowid : Int} (inside : segment.firstRow ≤ rowid)
include inside

theorem rowsUp_eq_filter :
    rowsUp files segment rowid =
      (segmentRows files segment).filter fun found => rowid ≤ found.rowid := by
  have dropped := (take_drop_numbered (fun _ _ there => (@segmentRows_at files segment _ _ there).2.1)
    (rowid - segment.firstRow).toNat).2
  have shift : segment.firstRow + ((rowid - segment.firstRow).toNat : Int) = rowid := by omega
  rw [rowsUp, dropped, shift]

theorem rowsDown_eq_filter :
    rowsDown files segment rowid =
      (segmentRows files segment).reverse.filter fun found => found.rowid ≤ rowid := by
  have taken := (take_drop_numbered (fun _ _ there => (@segmentRows_at files segment _ _ there).2.1)
    (rowid - segment.firstRow + 1).toNat).1
  have shift : segment.firstRow + ((rowid - segment.firstRow + 1).toNat : Int) = rowid + 1 := by
    omega
  rw [rowsDown, taken, shift, filter_reverse]
  simp [Int.lt_add_one_iff]

end

theorem split_at {index : Nat} {segment : Segment} (there : segments[index]? = some segment) :
    segments = segments.take index ++ segment :: segments.drop (index + 1) := by
  have ⟨bound, got⟩ := List.getElem?_eq_some_iff.1 there
  rw [← got, ← drop_eq_getElem_cons bound, take_append_drop]

theorem visitUp_sublist (files : RdFiles) (segments : List Segment)
    (position : Option (Nat × Int)) :
    (visitUp files segments position).Sublist (segments.flatMap (segmentRows files)) := by
  cases position with
  | none => exact nil_sublist _
  | some position =>
    have ⟨index, rowid⟩ := position
    rw [visitUp]
    cases there : segments[index]? with
    | none => exact nil_sublist _
    | some segment =>
      dsimp only
      split
      · have rows : (rowsUp files segment rowid).Sublist (segmentRows files segment) :=
          drop_sublist _ _
        have run := (runUp_isPrefix (segment.lastRow + 1) (segments.drop (index + 1))).sublist
        have whole : segments.flatMap (segmentRows files) =
            (segments.take index).flatMap (segmentRows files) ++ (segmentRows files segment ++
              (segments.drop (index + 1)).flatMap (segmentRows files)) := by
          conv_lhs => rw [split_at there]
          rw [flatMap_append, flatMap_cons]
        rw [whole]
        exact (rows.append (run.flatMap _)).trans (sublist_append_right _ _)
      · exact nil_sublist _

theorem visitDown_sublist (files : RdFiles) (segments : List Segment)
    (position : Option (Nat × Int)) :
    (visitDown files segments position).reverse.Sublist (segments.flatMap (segmentRows files)) := by
  cases position with
  | none => exact nil_sublist _
  | some position =>
    have ⟨index, rowid⟩ := position
    rw [visitDown]
    cases there : segments[index]? with
    | none => exact nil_sublist _
    | some segment =>
      dsimp only
      split
      · have rows : (rowsDown files segment rowid).reverse.Sublist (segmentRows files segment) := by
          rw [rowsDown, reverse_reverse]
          exact take_sublist _ _
        have run := (runDown_isPrefix (segment.firstRow - 1) (segments.take index).reverse).sublist
        have turned : (((runDown (segment.firstRow - 1) (segments.take index).reverse).flatMap
            fun segment => (segmentRows files segment).reverse).reverse).Sublist
            ((segments.take index).flatMap (segmentRows files)) := by
          rw [reverse_flatMap]
          have back := run.reverse
          rw [reverse_reverse] at back
          have plain : (List.reverse ∘ fun segment => (segmentRows files segment).reverse) =
              segmentRows files := funext fun segment => reverse_reverse _
          rw [plain]
          exact back.flatMap (segmentRows files)
        have whole : segments.flatMap (segmentRows files) =
            (segments.take index).flatMap (segmentRows files) ++ segmentRows files segment ++
              (segments.drop (index + 1)).flatMap (segmentRows files) := by
          conv_lhs => rw [split_at there]
          rw [flatMap_append, flatMap_cons, append_assoc]
        rw [whole, reverse_append]
        exact (turned.append rows).trans (sublist_append_left _ _)
      · exact nil_sublist _

section

variable (readable : ∀ segment ∈ segments, segment.Readable files) (position : Option (Nat × Int))
include readable position

theorem visitUp_length :
    (visitUp files segments position).length ≤ rowsOf (segments.map Segment.cell) := by
  have shorter := (visitUp_sublist files segments position).length_le
  rwa [flatMap_length readable] at shorter

theorem visitDown_length :
    (visitDown files segments position).length ≤ rowsOf (segments.map Segment.cell) := by
  have shorter := (visitDown_sublist files segments position).length_le
  rwa [length_reverse, flatMap_length readable] at shorter

end

/-- The rows a walk of the segments visits, if nothing ends it. -/
def visited (files : RdFiles) (cond : MatchCond) (totalRows : Int) (segments : List Segment) :
    List Found :=
  if cond.backward then visitDown files segments (firstSegmentRow segments totalRows cond)
  else visitUp files segments (firstSegmentRow segments totalRows cond)

theorem walk_eq (readable : ∀ segment ∈ segments, segment.Readable files) :
    walk files cond totalRows segments = scan (keeps cond totalRows) (stops cond totalRows)
        (visited files cond totalRows segments) := by
  cases direction : cond.backward with
  | true =>
    have enough := visitDown_length readable (firstSegmentRow segments totalRows cond)
    rw [walk, walkRows_eq (visitDown_visits direction readable) _ _ (by omega), visited,
      if_pos direction]
  | false =>
    have enough := visitUp_length readable (firstSegmentRow segments totalRows cond)
    rw [walk, walkRows_eq (visitUp_visits direction readable) _ _ (by omega), visited,
      if_neg (by simp [direction])]

end Yunetas.Timeranger2
