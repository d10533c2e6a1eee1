import Yunetas.Timeranger2.Pages
import Yunetas.Timeranger2.Placed

/-!
# The pages of an iterator

The pages of an iterator without conditions should be the rows of the key, those appended after it
was opened among them: its totals are counted again for each page. Its segments are not, so a page
reads the rows that are joined, in the segments it kept, to the one where the page begins.
-/

namespace Yunetas.Timeranger2

open List

/-- The live rows of the key, as pages deliver them. -/
def liveRows (state : KeyState) : List Delivery :=
  ((keyRows state.dir.rdFiles state.cache.files).filter fun found =>
    !isDeletedInstance found.md).map (deliver state.dir.rdFiles)

/-- A page by its number from 0: its `from_rowid` is 1, 1 + limit, 1 + 2 * limit and so on. -/
def pageAt (state : KeyState) (iterator : Iterator) (limit : Nat) (backward : Bool)
    (number : Nat) : Page :=
  if bounded : ((1 + number * limit : Nat) : Int) + limit < 2 ^ 63 then
    iteratorGetPage state.dir.rdFiles state.cache iterator (1 + number * limit) limit backward bounded
  else ⟨0, 0, []⟩

/-- The pages that the first one reports. -/
def reportedPages (state : KeyState) (iterator : Iterator) (limit : Nat) (backward : Bool) : Nat :=
  (pageAt state iterator limit backward 0).pages.toNat

/-- The pages up to the reported one are, one after the other, the live rows of the key; a page
that is read backward holds its rows in the other order. -/
structure PagesPartition (state : KeyState) (iterator : Iterator) (limit : Nat)
    (backward : Bool) : Prop where
  total : ∀ number, number = 0 ∨ number < reportedPages state iterator limit backward →
    (pageAt state iterator limit backward number).totalRows =
        (keyRows state.dir.rdFiles state.cache.files).length ∧
      (pageAt state iterator limit backward number).pages =
        reportedPages state iterator limit backward
  pages : (keyRows state.dir.rdFiles state.cache.files).length ≤
      reportedPages state iterator limit backward * limit ∧
    ∀ fewer, fewer < reportedPages state iterator limit backward →
      fewer * limit < (keyRows state.dir.rdFiles state.cache.files).length
  data : ((List.range (reportedPages state iterator limit backward)).flatMap fun number =>
    inDirection backward (pageAt state iterator limit backward number).data) = liveRows state

/-- The first rowid of the page of a row. -/
def pageStart (limit : Nat) (rowid : Int) : Nat := 1 + (rowid - 1).toNat / limit * limit

/-- Every live row of the key is in the segments, under its own number, and joined there to the row
where its page begins; no other live row is. -/
structure PagesReach (state : KeyState) (segments : List Segment) (limit : Nat)
    (backward : Bool) : Prop where
  reached : ∀ found ∈ keyRows state.dir.rdFiles state.cache.files,
    isDeletedInstance found.md = false →
      found ∈ segments.flatMap (segmentRows state.dir.rdFiles) ∧
        Reached segments state.cache.total.rows (pageStart limit found.rowid) limit backward
          found.rowid
  own : ∀ found ∈ segments.flatMap (segmentRows state.dir.rdFiles),
    isDeletedInstance found.md = false →
      Reached segments state.cache.total.rows (pageStart limit found.rowid) limit backward
        found.rowid →
      found ∈ keyRows state.dir.rdFiles state.cache.files

/-! ## Rows and what is delivered of them -/

theorem inDirection_map {α β : Type} (backward : Bool) (image : α → β) (rows : List α) :
    inDirection backward (rows.map image) = (inDirection backward rows).map image := by
  cases backward with
  | false => rfl
  | true => exact map_reverse.symm

theorem mem_inDirection {α : Type} {backward : Bool} {rows : List α} {element : α} :
    element ∈ inDirection backward rows ↔ element ∈ rows := by
  cases backward with
  | false => exact Iff.rfl
  | true => exact mem_reverse

theorem stored_of_mem {dir : KeyDir} {segments : List Segment} {found : Found}
    (inside : found ∈ segments.flatMap (segmentRows dir.rdFiles)) :
    ∃ row ∈ dir.rows found.id, ∃ place, found.md = row.decode place := by
  have ⟨segment, _, row⟩ := mem_flatMap.1 inside
  have ⟨position, there⟩ := mem_iff_getElem?.1 row
  have ⟨_, _, sameId, stored, isThere, md⟩ := segmentRows_at there
  rw [rows_rdFiles, ← sameId] at isThere
  exact ⟨stored, mem_of_getElem? isThere, _, md⟩

theorem deliver_inj {topic : Topic} {dir : KeyDir} (placed : Placed topic dir)
    {left right : List Segment} {one other : Found}
    (inLeft : one ∈ left.flatMap (segmentRows dir.rdFiles))
    (inRight : other ∈ right.flatMap (segmentRows dir.rdFiles))
    (same : deliver dir.rdFiles one = deliver dir.rdFiles other) : one = other := by
  have ⟨row, stored, place, md⟩ := stored_of_mem inLeft
  have ⟨row', stored', place', md'⟩ := stored_of_mem inRight
  have number : one.rowid = other.rowid := congrArg Delivery.rowid same
  have sameMd : one.md = other.md := congrArg Delivery.md same
  have time : row.getTimeT = row'.getTimeT := by
    have times : (row.decode place).t = (row'.decode place').t := by rw [← md, ← md', sameMd]
    exact UInt64.toNat_inj.1 times
  have file : one.id = other.id := by
    rw [← placed.filed one.id row stored, ← placed.filed other.id row' stored', time]
  cases one
  cases other
  simp only at number sameMd file
  rw [number, sameMd, file]

/-! ## The segments an iterator kept -/

/-- What the segments that an iterator kept are in a later state: readable, in order, within the
rows of the key, and their rows can be delivered. -/
structure KeptRows (topic : Topic) (state : KeyState) (segments : List Segment) : Prop where
  readable : ∀ segment ∈ segments, segment.Readable state.dir.rdFiles
  ordered : segments.Pairwise fun left right => left.lastRow < right.firstRow
  inKey : ∀ segment ∈ segments, segment.lastRow ≤ state.cache.total.rows
  placed : Placed topic state.dir

namespace KeptRows

variable {topic : Topic} {state : KeyState} {segments : List Segment}

theorem contents (kept : KeptRows topic state segments) :
    ∀ found ∈ segments.flatMap (segmentRows state.dir.rdFiles),
      ∃ text, readRecordContent state.dir.rdFiles found.id found.md = some text := by
  intro found inside
  have ⟨row, stored, place, md⟩ := stored_of_mem inside
  rw [md]
  exact kept.placed.readable stored place

theorem rowid_range (kept : KeptRows topic state segments) {found : Found}
    (inside : found ∈ segments.flatMap (segmentRows state.dir.rdFiles)) :
    1 ≤ found.rowid ∧ found.rowid ≤ state.cache.total.rows := by
  have ⟨segment, among, row⟩ := mem_flatMap.1 inside
  have range := rowid_range_of_mem (kept.readable segment among) row
  have low := (kept.readable segment among).positive
  have high := kept.inKey segment among
  omega

theorem of_appends (topic : Topic) (ops : List KeyOp) (cond : MatchCond) (records : List Append) :
    KeptRows topic (run (KeyState.step topic) KeyState.empty (ops ++ records.map .append))
      (getSegments cond (run (KeyState.step topic) KeyState.empty ops).cache) := by
  have sound := Sound.run topic ops
  have placed := Placed.run topic (ops ++ records.map .append)
  rw [run_append] at placed ⊢
  generalize run (KeyState.step topic) KeyState.empty ops = opened at sound placed ⊢
  have grows := run_extends topic opened (records.map .append)
  have total : ∀ (records : List Append) (state : KeyState), state.cache.total.rows ≤
      (run (KeyState.step topic) state (records.map .append)).cache.total.rows := by
    intro records
    induction records with
    | nil => exact fun state => Int.le_refl _
    | cons record rest ih =>
      intro state
      have one : (state.step topic (.append record)).cache.total.rows =
          state.cache.total.rows + 1 := appendRecord_total topic state record
      have later := ih (state.step topic (.append record))
      rw [map_cons, run_cons]
      omega
  refine ⟨fun segment among => ?_, sound.ordered cond, fun segment among => ?_, placed⟩
  · have before := sound.readable cond segment among
    exact ⟨before.closed, before.positive,
      Nat.le_trans before.held (grows.length_le segment.cell.id)⟩
  · have ⟨_, _, _, last⟩ := mem_placeCells ((getSegments_sublist sound.counted).subset among)
    have counted := sound.counted
    have later := total records opened
    omega

end KeptRows

theorem pageStart_eq {limit number : Nat} {rowid : Int} (low : (1 + number * limit : Nat) ≤ rowid)
    (high : rowid < (1 + number * limit : Nat) + (limit : Int)) :
    pageStart limit rowid = 1 + number * limit := by
  have quotient : (rowid - 1).toNat / limit = number := by
    apply Nat.div_eq_of_lt_le
    · omega
    · rw [Nat.succ_mul]
      omega
  rw [pageStart, quotient]

section

variable {topic : Topic} {state : KeyState} {segments : List Segment} {limit : Nat}
  {backward : Bool}

/-- The rows of a page by its number. -/
def rowsAt (state : KeyState) (segments : List Segment) (limit : Nat) (backward : Bool)
    (number : Nat) : List Found :=
  if bounded : ((1 + number * limit : Nat) : Int) + limit < 2 ^ 63 then
    pageRows state.dir.rdFiles segments state.cache.total.rows (1 + number * limit) limit backward
      bounded
  else []

section

variable (kept : KeptRows topic state segments)
include kept

theorem pageAt_data (number : Nat) :
    (pageAt state ⟨segments, none⟩ limit backward number).data =
      (rowsAt state segments limit backward number).map (deliver state.dir.rdFiles) := by
  unfold pageAt rowsAt
  split
  · exact getPage_unfiltered kept.contents kept.readable
  · rfl

theorem mem_rowsAt (positive : 0 < limit)
    (fits : state.cache.total.rows + limit + 1 < 2 ^ 63) {number : Nat} {found : Found} :
    found ∈ rowsAt state segments limit backward number ↔
      found ∈ segments.flatMap (segmentRows state.dir.rdFiles) ∧
        isDeletedInstance found.md = false ∧
        (number * limit : Int) < found.rowid ∧ found.rowid ≤ number * limit + limit ∧
        Reached segments state.cache.total.rows (1 + number * limit) limit backward
          found.rowid := by
  by_cases past : ((1 + number * limit : Nat) : Int) > state.cache.total.rows
  · have none : rowsAt state segments limit backward number = [] := by
      unfold rowsAt pageRows
      split
      · exact if_pos (Or.inr (Or.inl past))
      · rfl
    rw [none]
    refine iff_of_false not_mem_nil ?_
    rintro ⟨inside, -, low, -⟩
    have range := kept.rowid_range inside
    push_cast at past
    omega
  · have bounded : ((1 + number * limit : Nat) : Int) + limit < 2 ^ 63 := by omega
    have high : ((1 + number * limit : Nat) : Int) ≤ state.cache.total.rows := by omega
    have first : ¬(1 + number * limit = 0 ∨
        ((1 + number * limit : Nat) : Int) > state.cache.total.rows ∨ limit = 0) := by omega
    have rows : rowsAt state segments limit backward number =
        walk state.dir.rdFiles (window backward (1 + number * limit) limit bounded)
          state.cache.total.rows segments := by
      unfold rowsAt pageRows
      rw [dif_pos bounded, if_neg first]
    rw [rows, mem_walk_window kept.readable kept.ordered kept.inKey (by omega) high positive]
    push_cast
    constructor
    · rintro ⟨inside, live, low, top, reached⟩
      exact ⟨inside, live, by omega, by omega, reached⟩
    · rintro ⟨inside, live, low, top, reached⟩
      exact ⟨inside, live, by omega, by omega, reached⟩

theorem rowsAt_ascending (number : Nat) :
    Ascending Found.rowid (inDirection backward (rowsAt state segments limit backward number)) := by
  have nothing : Ascending Found.rowid (inDirection backward []) := by
    cases backward <;> exact List.Pairwise.nil
  unfold rowsAt pageRows
  split
  · split
    · exact nothing
    · exact walk_window_ascending kept.readable kept.ordered
  · exact nothing

theorem mem_pages (positive : 0 < limit)
    (fits : state.cache.total.rows + limit + 1 < 2 ^ 63) {count : Nat}
    (enough : state.cache.total.rows ≤ count * limit) {found : Found} :
    (found ∈ (List.range count).flatMap fun number =>
      inDirection backward (rowsAt state segments limit backward number)) ↔
      found ∈ segments.flatMap (segmentRows state.dir.rdFiles) ∧
        isDeletedInstance found.md = false ∧
        Reached segments state.cache.total.rows (pageStart limit found.rowid) limit backward
          found.rowid := by
  rw [mem_flatMap]
  simp only [mem_range, mem_inDirection, mem_rowsAt kept positive fits]
  constructor
  · rintro ⟨number, -, inside, live, low, high, reached⟩
    have start : pageStart limit found.rowid = 1 + number * limit :=
      pageStart_eq (by push_cast; omega) (by push_cast; omega)
    rw [start]
    exact ⟨inside, live, reached⟩
  · rintro ⟨inside, live, reached⟩
    have range := kept.rowid_range inside
    have quotient := Nat.div_add_mod (found.rowid - 1).toNat limit
    have rest := Nat.mod_lt (found.rowid - 1).toNat positive
    have start : pageStart limit found.rowid = 1 + (found.rowid - 1).toNat / limit * limit := rfl
    have swap := Nat.mul_comm limit ((found.rowid - 1).toNat / limit)
    generalize (found.rowid - 1).toNat / limit = number at quotient start swap
    rw [start] at reached
    have below : number < count := by
      by_contra above
      have more : count * limit ≤ number * limit := Nat.mul_le_mul_right limit (by omega)
      omega
    exact ⟨number, below, inside, live, by omega, by omega, reached⟩

end

theorem pageAt_totals (fits : state.cache.total.rows + limit + 1 < 2 ^ 63) {number : Nat}
    (inside : number = 0 ∨ (number * limit : Int) ≤ state.cache.total.rows)
    (nonneg : 0 ≤ state.cache.total.rows) :
    (pageAt state ⟨segments, none⟩ limit backward number).totalRows = state.cache.total.rows ∧
      (pageAt state ⟨segments, none⟩ limit backward number).pages =
        pagesOf state.cache.total.rows limit := by
  have bounded : ((1 + number * limit : Nat) : Int) + limit < 2 ^ 63 := by
    push_cast
    rcases inside with rfl | below
    · omega
    · omega
  unfold pageAt
  rw [dif_pos bounded]
  exact ⟨rfl, rfl⟩

end

/-- For an iterator without conditions, in every state that appends lead to from the one it was
opened in: its pages are the live rows of the key exactly when each of these is in the segments it
kept and joined there to the row where its page begins. -/
theorem pages_partition_iff (topic : Topic) (ops : List KeyOp) (cond : MatchCond)
    (unfiltered : matchCondSelectsRecords cond = false) (iterator : Iterator)
    (opens : openIterator (run (KeyState.step topic) KeyState.empty ops).dir.rdFiles cond
      (run (KeyState.step topic) KeyState.empty ops).cache = some iterator)
    (records : List Append) (limit : Nat) (positive : 0 < limit) (backward : Bool)
    (fits : (run (KeyState.step topic) KeyState.empty
      (ops ++ records.map .append)).cache.total.rows + limit + 1 < 2 ^ 63) :
    PagesPartition (run (KeyState.step topic) KeyState.empty (ops ++ records.map .append)) iterator
        limit backward ↔
      PagesReach (run (KeyState.step topic) KeyState.empty (ops ++ records.map .append))
        iterator.segments limit backward := by
  have kept := KeptRows.of_appends topic ops cond records
  have tallied := Tallied.run topic (ops ++ records.map .append)
  have sound := Sound.run topic (ops ++ records.map .append)
  have same : iterator = ⟨getSegments cond (run (KeyState.step topic) KeyState.empty ops).cache,
      none⟩ := by
    rw [openIterator, unfiltered] at opens
    exact (Option.some.inj opens).symm
  rw [same]
  generalize getSegments cond (run (KeyState.step topic) KeyState.empty ops).cache = segments at kept
  generalize run (KeyState.step topic) KeyState.empty (ops ++ records.map .append) = state at *
  have length := tallied.keyRows_length sound
  have nonneg : 0 ≤ state.cache.total.rows := by omega
  have ⟨fewest, most⟩ := @pagesOf_spec state.cache.total.rows limit positive
  have count := pagesOf_nonneg nonneg limit
  have reported : (reportedPages state ⟨segments, none⟩ limit backward : Int) =
      pagesOf state.cache.total.rows limit := by
    rw [reportedPages, (pageAt_totals fits (Or.inl rfl) nonneg).2]
    exact Int.toNat_of_nonneg count
  have whole : state.cache.total.rows ≤
      (reportedPages state ⟨segments, none⟩ limit backward : Int) * limit := by
    rw [reported]
    exact most
  have least : ∀ fewer : Nat, fewer < reportedPages state ⟨segments, none⟩ limit backward →
      (fewer * limit : Int) < state.cache.total.rows := by
    intro fewer below
    have under : (fewer : Int) * limit ≤ (pagesOf state.cache.total.rows limit - 1) * limit :=
      Int.mul_le_mul_of_nonneg_right (by omega) (Int.natCast_nonneg limit)
    omega
  have rows : ((List.range (reportedPages state ⟨segments, none⟩ limit backward)).flatMap
      fun number => inDirection backward
        (pageAt state ⟨segments, none⟩ limit backward number).data) =
      ((List.range (reportedPages state ⟨segments, none⟩ limit backward)).flatMap fun number =>
        inDirection backward (rowsAt state segments limit backward number)).map
          (deliver state.dir.rdFiles) := by
    rw [List.map_flatMap]
    refine List.flatMap_congr fun number _ => ?_
    rw [pageAt_data kept, inDirection_map]
  have pagesSorted : Ascending Found.rowid
      ((List.range (reportedPages state ⟨segments, none⟩ limit backward)).flatMap fun number =>
        inDirection backward (rowsAt state segments limit backward number)) := by
    apply ascending_windows
    · exact rowsAt_ascending kept
    · intro number found inside
      have ⟨_, _, low, high, _⟩ := (mem_rowsAt kept positive fits).1 (mem_inDirection.1 inside)
      exact ⟨low, high⟩
  have keySorted := (keyRows_ascending state.dir.rdFiles state.cache.files).sublist
    (List.filter_sublist (p := fun found => !isDeletedInstance found.md))
  have member : ∀ found, found ∈ (keyRows state.dir.rdFiles state.cache.files).filter
      (fun found => !isDeletedInstance found.md) ↔
        found ∈ keyRows state.dir.rdFiles state.cache.files ∧
          isDeletedInstance found.md = false := by
    intro found
    rw [List.mem_filter, Bool.not_eq_true']
  have told : ((List.range (reportedPages state ⟨segments, none⟩ limit backward)).flatMap
      fun number => inDirection backward
        (pageAt state ⟨segments, none⟩ limit backward number).data) = liveRows state ↔
      ∀ found, (found ∈ (List.range (reportedPages state ⟨segments, none⟩ limit
        backward)).flatMap fun number =>
          inDirection backward (rowsAt state segments limit backward number)) ↔
        found ∈ (keyRows state.dir.rdFiles state.cache.files).filter fun found =>
          !isDeletedInstance found.md := by
    rw [rows, liveRows, map_eq_map_iff, Ascending.ext pagesSorted keySorted]
    intro one inPages other inKey
    exact deliver_inj kept.placed ((mem_pages kept positive fits whole).1 inPages).1
      ((member other).1 inKey).1
  constructor
  · intro partition
    have same := told.1 partition.data
    simp only [mem_pages kept positive fits whole, member] at same
    refine ⟨fun found inKey live => ?_, fun found inside live reached => ?_⟩
    · have ⟨inside, _, reached⟩ := (same found).2 ⟨inKey, live⟩
      exact ⟨inside, reached⟩
    · exact ((same found).1 ⟨inside, live, reached⟩).1
  · rintro ⟨reached, own⟩
    refine ⟨fun number page => ?_, ⟨?_, fun fewer below => ?_⟩, told.2 fun found => ?_⟩
    · have inside : number = 0 ∨ (number * limit : Int) ≤ state.cache.total.rows := by
        rcases page with zero | below
        · exact Or.inl zero
        · exact Or.inr (Int.le_of_lt (least number below))
      have totals : (pageAt state ⟨segments, none⟩ limit backward number).totalRows =
            state.cache.total.rows ∧
          (pageAt state ⟨segments, none⟩ limit backward number).pages =
            pagesOf state.cache.total.rows limit := pageAt_totals fits inside nonneg
      have ⟨total, pages⟩ := totals
      exact ⟨total.trans length.symm, pages.trans reported.symm⟩
    · have wide : (keyRows state.dir.rdFiles state.cache.files).length ≤
          (reportedPages state ⟨segments, none⟩ limit backward : Int) * limit := by omega
      exact_mod_cast wide
    · have under := least fewer below
      have narrow : (fewer * limit : Int) <
          (keyRows state.dir.rdFiles state.cache.files).length := by omega
      exact_mod_cast narrow
    · rw [mem_pages kept positive fits whole, member]
      constructor
      · rintro ⟨inside, live, joined⟩
        exact ⟨own found inside live joined, live⟩
      · rintro ⟨inKey, live⟩
        have ⟨inside, joined⟩ := reached found inKey live
        exact ⟨inside, live, joined⟩

/-- One row in one file, one row a page. -/
theorem pages_partition_one : PagesPartition
    (run (KeyState.step dayTopic) KeyState.empty ([.append (sampleRecord 100 0 0)] ++ [].map .append))
    ⟨[⟨⟨"1970-01-01", 100, 100, 0, 0, 1⟩, 1, 1⟩], none⟩ 1 false := by
  have same : keyRows (run (KeyState.step dayTopic) KeyState.empty
        ([.append (sampleRecord 100 0 0)] ++ [].map .append)).dir.rdFiles
      (run (KeyState.step dayTopic) KeyState.empty
        ([.append (sampleRecord 100 0 0)] ++ [].map .append)).cache.files =
      [(⟨⟨"1970-01-01", 100, 100, 0, 0, 1⟩, 1, 1⟩ : Segment)].flatMap
        (segmentRows (run (KeyState.step dayTopic) KeyState.empty
          ([.append (sampleRecord 100 0 0)] ++ [].map .append)).dir.rdFiles) := by decide
  refine (pages_partition_iff dayTopic [.append (sampleRecord 100 0 0)] {} (by decide) _
    (by decide) [] 1 (by decide) false (by decide)).2
    ⟨fun found inKey live => ⟨same ▸ inKey, ?_⟩, fun found inside live _ => same ▸ inside⟩
  have first : found.rowid = 1 := by
    rw [same] at inKey
    revert found
    decide
  rw [first]
  refine ⟨fun number low high => ⟨_, List.mem_cons_self, low, high⟩, fun segment among empty => ?_⟩
  rw [List.mem_singleton.1 among] at empty
  cases empty

/-- A row that was appended after the iterator was opened is counted and not delivered. -/
theorem appended_not_paged : ∃ iterator,
    openIterator (run (KeyState.step dayTopic) KeyState.empty
        [.append (sampleRecord 100 0 0)]).dir.rdFiles {}
      (run (KeyState.step dayTopic) KeyState.empty [.append (sampleRecord 100 0 0)]).cache =
        some iterator ∧
    ¬PagesPartition (run (KeyState.step dayTopic) KeyState.empty
      ([.append (sampleRecord 100 0 0)] ++ [sampleRecord 200 0 0].map .append)) iterator 1 false := by
  refine ⟨⟨[⟨⟨"1970-01-01", 100, 100, 0, 0, 1⟩, 1, 1⟩], none⟩, by decide, fun partition => ?_⟩
  exact absurd partition.data (by decide)

end Yunetas.Timeranger2
