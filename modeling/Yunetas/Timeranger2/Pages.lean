import Yunetas.Timeranger2.Growth
import Yunetas.Timeranger2.Unfiltered

/-!
# Pages

`tranger2_iterator_get_page` answers the rows of a page with two totals. Without an index a page is
a walk of the segments the iterator kept when it was opened, between two rowids: it reads the rows
that are joined, by rows of those segments, to the one it begins at.
-/

namespace Yunetas.Timeranger2

open List Option

/-- What `tranger2_iterator_get_page` answers. -/
structure Page where
  totalRows : Int
  pages : Int
  data : List Delivery
deriving DecidableEq, Repr

/-- The number of pages: the quotient, and one more when there is a rest. -/
def pagesOf (totalRows : Int) (limit : Nat) : Int :=
  let pages := if 0 < limit then totalRows / limit else 0
  if 0 < limit ∧ totalRows % limit ≠ 0 then pages + 1 else pages

/-- `tranger2_iterator_get_page`. -/
def iteratorGetPage (files : RdFiles) (cache : KeyCache) (iterator : Iterator) (fromRowid : Nat)
    (limit : Nat) (backward : Bool) (bounded : (fromRowid : Int) + limit < 2 ^ 63) : Page :=
  let totalRows : Int := match iterator.index with
    | some index => index.length
    | none => cache.total.rows
  ⟨totalRows, pagesOf totalRows limit,
    getPage files cache iterator fromRowid limit backward bounded⟩

theorem pagesOf_spec {totalRows : Int} {limit : Nat} (positive : 0 < limit) :
    (pagesOf totalRows limit - 1) * limit < totalRows ∧
      totalRows ≤ pagesOf totalRows limit * limit := by
  have divided := Int.mul_ediv_add_emod totalRows limit
  have low := Int.emod_nonneg totalRows (show (limit : Int) ≠ 0 by omega)
  have high := Int.emod_lt_of_pos totalRows (show (0 : Int) < limit by omega)
  have swap : totalRows / limit * limit = limit * (totalRows / limit) := Int.mul_comm _ _
  rw [pagesOf, if_pos positive]
  by_cases rest : totalRows % limit = 0
  · rw [if_neg fun both => both.2 rest, Int.sub_mul, Int.one_mul]
    omega
  · rw [if_pos ⟨positive, rest⟩, Int.add_sub_cancel, Int.add_mul, Int.one_mul]
    omega

theorem pagesOf_nonneg {totalRows : Int} (nonneg : 0 ≤ totalRows) (limit : Nat) :
    0 ≤ pagesOf totalRows limit := by
  have quotient := Int.ediv_nonneg nonneg (Int.natCast_nonneg limit)
  unfold pagesOf
  dsimp only
  split_ifs <;> omega

/-! ## Joined rows -/

/-- The row with this number is in one of the segments. -/
def Numbered (segments : List Segment) (number : Int) : Prop :=
  ∃ segment ∈ segments, segment.firstRow ≤ number ∧ number ≤ segment.lastRow

/-- The rows from one number to another are in the segments, with no empty segment between. -/
structure Joined (segments : List Segment) (low high : Int) : Prop where
  numbered : ∀ number, low ≤ number → number ≤ high → Numbered segments number
  filled : ∀ segment ∈ segments, segment.cell.rows = 0 →
    segment.firstRow ≤ low ∨ high < segment.firstRow

section

variable {files : RdFiles}

variable {segments : List Segment}

/-! ## The rows a walk visits -/

section

variable (readable : ∀ segment ∈ segments, segment.Readable files)
include readable

theorem runUp_eq_chain (next : Int) :
    runUp next segments = chain Segment.firstRow Segment.lastRow next segments := by
  induction segments generalizing next with
  | nil => rfl
  | cons first rest ih =>
    have closed := (readable first mem_cons_self).closed
    rw [runUp, chain, ih fun segment among => readable segment (mem_cons_of_mem first among)]
    exact if_congr (and_congr_right fun _ => by omega) rfl rfl

theorem runDown_eq_chain (next : Int) :
    runDown next segments =
      chain (fun segment => -segment.lastRow) (fun segment => -segment.firstRow) (-next)
        segments := by
  induction segments generalizing next with
  | nil => rfl
  | cons first rest ih =>
    have closed := (readable first mem_cons_self).closed
    have turned : -(first.firstRow - 1) = -first.firstRow + 1 := by omega
    rw [runDown, chain, ih fun segment among => readable segment (mem_cons_of_mem first among),
      turned]
    exact if_congr (by omega) rfl rfl

section

variable (ordered : segments.Pairwise fun left right => left.lastRow < right.firstRow)
include ordered

theorem ranged_up :
    Ranged Segment.firstRow Segment.lastRow (segmentRows files) Found.rowid segments where
  closed segment among := by
    have closed := (readable segment among).closed
    omega
  within segment among _ row := rowid_range_of_mem (readable segment among) row
  ordered := ordered

theorem ranged_down :
    Ranged (fun segment => -segment.lastRow) (fun segment => -segment.firstRow)
      (fun segment => (segmentRows files segment).reverse) (fun found => -found.rowid)
      segments.reverse where
  closed segment among := by
    have closed := (readable segment (mem_reverse.1 among)).closed
    omega
  within segment among found row := by
    have range := rowid_range_of_mem (readable segment (mem_reverse.1 among)) (mem_reverse.1 row)
    omega
  ordered := pairwise_reverse.2 (ordered.imp fun before => by omega)

end

theorem joined_up {low high : Int} :
    Bridged Segment.firstRow Segment.lastRow segments low high ↔ Joined segments low high := by
  have empty (segment : Segment) (among : segment ∈ segments) :
      segment.lastRow < segment.firstRow ↔ segment.cell.rows = 0 := by
    have closed := (readable segment among).closed
    omega
  exact ⟨fun bridged => ⟨bridged.numbered, fun segment among none =>
      bridged.filled segment among ((empty segment among).2 none)⟩,
    fun joined => ⟨joined.numbered, fun segment among none =>
      joined.filled segment among ((empty segment among).1 none)⟩⟩

theorem joined_down {low high : Int} :
    Bridged (fun segment => -segment.lastRow) (fun segment => -segment.firstRow) segments.reverse
      (-high) (-low) ↔ Joined segments low high := by
  constructor
  · refine fun bridged => ⟨fun number bottom top => ?_, fun segment among none => ?_⟩
    · have ⟨segment, among, range⟩ := bridged.numbered (-number) (by omega) (by omega)
      exact ⟨segment, mem_reverse.1 among, by omega, by omega⟩
    · have closed := (readable segment among).closed
      have apart := bridged.filled segment (mem_reverse.2 among) (by omega)
      omega
  · refine fun joined => ⟨fun number bottom top => ?_, fun segment among none => ?_⟩
    · have ⟨segment, among, range⟩ := joined.numbered (-number) (by omega) (by omega)
      exact ⟨segment, mem_reverse.2 among, by omega, by omega⟩
    · have closed := (readable segment (mem_reverse.1 among)).closed
      have apart := joined.filled segment (mem_reverse.1 among) (by omega)
      omega

end

section

variable {index : Nat} {segment : Segment} {rowid : Int} {found : Found}
  (readable : ∀ segment ∈ segments, segment.Readable files)
  (ordered : segments.Pairwise fun left right => left.lastRow < right.firstRow)
  (there : segments[index]? = some segment)
  (range : segment.firstRow ≤ rowid ∧ rowid ≤ segment.lastRow)
include readable ordered there range

theorem mem_visitUp :
    found ∈ visitUp files segments (some (index, rowid)) ↔
      found ∈ segments.flatMap (segmentRows files) ∧ rowid ≤ found.rowid ∧
        Joined segments rowid found.rowid := by
  have split := split_at there
  have ranged := ranged_up readable ordered
  have behind : ∀ other ∈ segments.drop (index + 1), other.Readable files :=
    fun other among => readable other (mem_of_mem_drop among)
  rw [split] at ranged
  have walk := @mem_chain_from _ _ _ _ _ _ _ _ _ found rowid ranged range.1 range.2
  rw [← split, joined_up readable] at walk
  rw [← walk, visitUp, there]
  dsimp only
  rw [if_pos range, mem_append, rowsUp_eq_filter range.1, runUp_eq_chain behind,
    mem_filter, decide_eq_true_eq]

theorem mem_visitDown :
    found ∈ visitDown files segments (some (index, rowid)) ↔
      found ∈ segments.flatMap (segmentRows files) ∧ found.rowid ≤ rowid ∧
        Joined segments found.rowid rowid := by
  have split : segments.reverse = (segments.drop (index + 1)).reverse ++
      segment :: (segments.take index).reverse := by
    conv_lhs => rw [split_at there]
    simp
  have ranged := ranged_down readable ordered
  have behind : ∀ other ∈ (segments.take index).reverse, other.Readable files :=
    fun other among => readable other (mem_of_mem_take (mem_reverse.1 among))
  rw [split] at ranged
  have walk := @mem_chain_from _ _ _ _ _ _ _ _ _ found (-rowid) ranged
    (Int.neg_le_neg range.2) (Int.neg_le_neg range.1)
  rw [← split, joined_down readable] at walk
  have turned : -(segment.firstRow - 1) = -segment.firstRow + 1 := by omega
  have rows : found ∈ segments.reverse.flatMap (fun segment => (segmentRows files segment).reverse) ↔
      found ∈ segments.flatMap (segmentRows files) := by
    simp [mem_flatMap]
  rw [rows, Int.neg_le_neg_iff] at walk
  rw [← walk, visitDown, there]
  dsimp only
  rw [if_pos range, mem_append, rowsDown_eq_filter range.1, runDown_eq_chain behind,
    mem_filter, decide_eq_true_eq, turned]

end

end

/-! ## The walk of a page -/

/-- The conditions of a page without an index. -/
def window (backward : Bool) (fromRowid limit : Nat)
    (bounded : (fromRowid : Int) + limit < 2 ^ 63) : MatchCond :=
  { backward := backward
    fromRowid := fromRowid
    toRowid := fromRowid + limit - 1
    bounded := window_bounded bounded }

/-- The row a page reads is joined to the one it begins at: the first of the page when it goes up;
when it goes down the last one, or the last one there is. -/
def Reached (segments : List Segment) (totalRows : Int) (fromRowid limit : Nat) (backward : Bool)
    (rowid : Int) : Prop :=
  if backward then ∀ last, (if (fromRowid : Int) + limit - 1 ≤ totalRows
    then last = (fromRowid : Int) + limit - 1 else Numbered segments last) →
      Joined segments rowid last
  else Joined segments fromRowid rowid

section

variable {files : RdFiles} {fromRowid limit : Nat}
  {bounded : (fromRowid : Int) + limit < 2 ^ 63} {totalRows : Int}

theorem forwardFirst_window (low : 1 ≤ fromRowid) (high : (fromRowid : Int) ≤ totalRows)
    (placed : List (Segment × Nat)) :
    forwardFirst (window false fromRowid limit bounded) totalRows placed =
      (placed.find? fun place => (fromRowid : Int) ≤ place.1.lastRow).map fun place =>
        (place.2, (fromRowid : Int)) := by
  have start : ∀ segment, forwardStart (window false fromRowid limit bounded).fromRowid totalRows
      segment = some (fromRowid : Int) := by
    intro segment
    have positive : ¬(fromRowid : Int) = 0 := by omega
    have above : (fromRowid : Int) > 0 := by omega
    have inside : ¬(fromRowid : Int) > totalRows := by omega
    unfold forwardStart window
    rw [if_neg positive, if_pos above, if_neg inside]
  induction placed with
  | nil => rfl
  | cons place rest ih =>
    have ⟨segment, index⟩ := place
    rw [forwardFirst, start]
    by_cases past : (fromRowid : Int) > segment.lastRow
    · have skipped : ¬(fromRowid : Int) ≤ segment.lastRow := by omega
      simp [if_pos past, ih, decide_eq_false skipped]
    · have here : (fromRowid : Int) ≤ segment.lastRow := by omega
      simp [past, window, here]

/-- A page down begins in the last segment that does not begin after it, or in the last one. -/
theorem backwardFirst_window (low : 1 ≤ fromRowid) (some_rows : 0 < limit)
    (placed : List (Segment × Nat)) :
    backwardFirst (window true fromRowid limit bounded) totalRows placed =
      if (fromRowid : Int) + limit - 1 ≤ totalRows then
        (placed.find? fun place => place.1.firstRow ≤ (fromRowid : Int) + limit - 1).map fun place =>
          (place.2, (fromRowid : Int) + limit - 1)
      else (placed.find? fun place => place.1.firstRow ≤ place.1.lastRow).map fun place =>
        (place.2, place.1.lastRow) := by
  have positive : ¬(fromRowid : Int) + limit - 1 = 0 := by omega
  have above : (fromRowid : Int) + limit - 1 > 0 := by omega
  induction placed with
  | nil => simp [backwardFirst]
  | cons place rest ih =>
    obtain ⟨segment, index⟩ := place
    have start : backwardStart (window true fromRowid limit bounded).toRowid totalRows segment =
        if (fromRowid : Int) + limit - 1 ≤ totalRows then some ((fromRowid : Int) + limit - 1)
        else some segment.lastRow := by
      unfold backwardStart window
      rw [if_neg positive, if_pos above]
      by_cases inside : (fromRowid : Int) + limit - 1 ≤ totalRows
      · have below : ¬(fromRowid : Int) + limit - 1 > totalRows := by omega
        rw [if_pos inside, if_neg below]
      · have past : (fromRowid : Int) + limit - 1 > totalRows := by omega
        rw [if_neg inside, if_pos past]
    rw [backwardFirst, start, ih]
    by_cases inside : (fromRowid : Int) + limit - 1 ≤ totalRows
    · simp only [if_pos inside]
      by_cases past : (fromRowid : Int) + limit - 1 < segment.firstRow
      · have skipped : ¬segment.firstRow ≤ (fromRowid : Int) + limit - 1 := by omega
        simp only [if_pos past, find?_cons, decide_eq_false skipped]
      · have here : segment.firstRow ≤ (fromRowid : Int) + limit - 1 := by omega
        simp only [if_neg past, find?_cons, decide_eq_true here]
        rfl
    · simp only [if_neg inside]
      by_cases past : segment.lastRow < segment.firstRow
      · have skipped : ¬segment.firstRow ≤ segment.lastRow := by omega
        simp only [if_pos past, find?_cons, decide_eq_false skipped]
      · have here : segment.firstRow ≤ segment.lastRow := by omega
        simp only [if_neg past, find?_cons, decide_eq_true here]
        rfl

variable {segments : List Segment} {found : Found}

theorem placed_ordered
    (ordered : segments.Pairwise fun left right => left.lastRow < right.firstRow) :
    segments.zipIdx.Pairwise fun left right => left.1.lastRow < right.1.firstRow := by
  have places : segments.zipIdx.map Prod.fst = segments := zipIdx_map_fst 0 segments
  rw [← places] at ordered
  exact pairwise_map.1 ordered

section

variable (readable : ∀ segment ∈ segments, segment.Readable files)
  (ordered : segments.Pairwise fun left right => left.lastRow < right.firstRow)
  (low : 1 ≤ fromRowid)
include readable ordered low

theorem mem_visited_up (high : (fromRowid : Int) ≤ totalRows) :
    found ∈ visited files (window false fromRowid limit bounded) totalRows segments ↔
      found ∈ segments.flatMap (segmentRows files) ∧ (fromRowid : Int) ≤ found.rowid ∧
        Joined segments fromRowid found.rowid := by
  have begins : firstSegmentRow segments totalRows (window false fromRowid limit bounded) = _ :=
    forwardFirst_window low high segments.zipIdx
  have goes : visited files (window false fromRowid limit bounded) totalRows segments =
      visitUp files segments (firstSegmentRow segments totalRows
        (window false fromRowid limit bounded)) := rfl
  rw [goes, begins]
  cases first : segments.zipIdx.find? fun place => decide ((fromRowid : Int) ≤ place.1.lastRow) with
  | none =>
    refine iff_of_false not_mem_nil ?_
    rintro ⟨inside, above, -⟩
    obtain ⟨owner, among, row⟩ := mem_flatMap.1 inside
    have bounds := rowid_range_of_mem (readable owner among) row
    obtain ⟨index, there⟩ := mem_iff_getElem?.1 among
    have passed := find?_eq_none.1 first (owner, index) (mk_mem_zipIdx_iff_getElem?.2 there)
    simp only [decide_eq_true_eq] at passed
    omega
  | some place =>
    obtain ⟨segment, index⟩ := place
    have there : segments[index]? = some segment :=
      mk_mem_zipIdx_iff_getElem?.1 (mem_of_find?_eq_some first)
    have ends : (fromRowid : Int) ≤ segment.lastRow := by
      simpa using find?_some first
    rw [map_some]
    by_cases begun : segment.firstRow ≤ (fromRowid : Int)
    · exact mem_visitUp readable ordered there ⟨begun, ends⟩
    · have none : visitUp files segments (some (index, (fromRowid : Int))) = [] := by
        rw [visitUp, there]
        exact if_neg fun range => begun range.1
      rw [none]
      refine iff_of_false not_mem_nil ?_
      rintro ⟨-, above, joined⟩
      obtain ⟨owner, among, range⟩ := joined.numbered fromRowid (Int.le_refl _) above
      obtain ⟨place, there'⟩ := mem_iff_getElem?.1 among
      rcases find?_of_pairwise (placed_ordered ordered) first
        (mk_mem_zipIdx_iff_getElem?.2 there') with skipped | same | after
      · have passed : ¬(fromRowid : Int) ≤ owner.lastRow := of_decide_eq_false skipped
        omega
      · obtain ⟨rfl, -⟩ := Prod.mk.inj same
        exact begun range.1
      · dsimp only at after
        omega

/-- The rows a page down visits: those joined to its last one, or to the last one there is. -/
theorem mem_visited_down (some_rows : 0 < limit) :
    found ∈ visited files (window true fromRowid limit bounded) totalRows segments ↔
      found ∈ segments.flatMap (segmentRows files) ∧
        ((fromRowid : Int) + limit - 1 ≤ totalRows → found.rowid ≤ (fromRowid : Int) + limit - 1) ∧
        Reached segments totalRows fromRowid limit true found.rowid := by
  have begins : firstSegmentRow segments totalRows (window true fromRowid limit bounded) = _ :=
    backwardFirst_window low some_rows segments.zipIdx.reverse
  have goes : visited files (window true fromRowid limit bounded) totalRows segments =
      visitDown files segments (firstSegmentRow segments totalRows
        (window true fromRowid limit bounded)) := rfl
  have placed := pairwise_reverse.2 (placed_ordered ordered)
  have member : ∀ {segment : Segment} {index : Nat}, segments[index]? = some segment →
      (segment, index) ∈ segments.zipIdx.reverse := fun there =>
    mem_reverse.2 (mk_mem_zipIdx_iff_getElem?.2 there)
  rw [goes, begins, Reached, if_pos rfl]
  by_cases inside : (fromRowid : Int) + limit - 1 ≤ totalRows
  · simp only [inside, if_true, forall_eq, true_implies]
    cases first : segments.zipIdx.reverse.find? fun place =>
        decide (place.1.firstRow ≤ (fromRowid : Int) + limit - 1) with
    | none =>
      refine iff_of_false not_mem_nil ?_
      rintro ⟨within, below, -⟩
      obtain ⟨owner, among, row⟩ := mem_flatMap.1 within
      have bounds := rowid_range_of_mem (readable owner among) row
      obtain ⟨index, there⟩ := mem_iff_getElem?.1 among
      have passed := find?_eq_none.1 first (owner, index) (member there)
      simp only [decide_eq_true_eq] at passed
      omega
    | some place =>
      obtain ⟨segment, index⟩ := place
      have there : segments[index]? = some segment := mk_mem_zipIdx_iff_getElem?.1
        (mem_reverse.1 (mem_of_find?_eq_some first))
      have begun : segment.firstRow ≤ (fromRowid : Int) + limit - 1 := by
        simpa using find?_some first
      rw [map_some]
      by_cases ends : (fromRowid : Int) + limit - 1 ≤ segment.lastRow
      · exact mem_visitDown readable ordered there ⟨begun, ends⟩
      · have none : visitDown files segments (some (index, (fromRowid : Int) + limit - 1)) = [] := by
          rw [visitDown, there]
          exact if_neg fun range => ends range.2
        rw [none]
        refine iff_of_false not_mem_nil ?_
        rintro ⟨-, below, joined⟩
        obtain ⟨owner, among, range⟩ := joined.numbered _ below (Int.le_refl _)
        obtain ⟨place, there'⟩ := mem_iff_getElem?.1 among
        rcases find?_of_pairwise placed first (member there') with skipped | same | after
        · have passed : ¬owner.firstRow ≤ (fromRowid : Int) + limit - 1 := of_decide_eq_false skipped
          omega
        · obtain ⟨rfl, -⟩ := Prod.mk.inj same
          exact ends range.2
        · dsimp only at after
          omega
  · simp only [inside, if_false, false_implies, true_and]
    cases first : segments.zipIdx.reverse.find? fun place =>
        decide (place.1.firstRow ≤ place.1.lastRow) with
    | none =>
      refine iff_of_false not_mem_nil ?_
      rintro ⟨within, -⟩
      obtain ⟨owner, among, row⟩ := mem_flatMap.1 within
      have bounds := rowid_range_of_mem (readable owner among) row
      obtain ⟨index, there⟩ := mem_iff_getElem?.1 among
      have passed := find?_eq_none.1 first (owner, index) (member there)
      simp only [decide_eq_true_eq] at passed
      omega
    | some place =>
      obtain ⟨segment, index⟩ := place
      have there : segments[index]? = some segment := mk_mem_zipIdx_iff_getElem?.1
        (mem_reverse.1 (mem_of_find?_eq_some first))
      have filled : segment.firstRow ≤ segment.lastRow := by
        simpa using find?_some first
      have highest : ∀ number, Numbered segments number → number ≤ segment.lastRow := by
        rintro number ⟨owner, among, range⟩
        obtain ⟨place, there'⟩ := mem_iff_getElem?.1 among
        rcases find?_of_pairwise placed first (member there') with skipped | same | after
        · have passed : ¬owner.firstRow ≤ owner.lastRow := of_decide_eq_false skipped
          omega
        · obtain ⟨rfl, -⟩ := Prod.mk.inj same
          exact range.2
        · dsimp only at after
          omega
      have last : Numbered segments segment.lastRow :=
        ⟨segment, mem_of_getElem? there, filled, Int.le_refl _⟩
      rw [map_some, mem_visitDown readable ordered there ⟨filled, Int.le_refl _⟩]
      constructor
      · rintro ⟨within, -, joined⟩
        refine ⟨within, fun number numbered => ⟨fun other low high => ?_, fun owner among empty => ?_⟩⟩
        · exact joined.numbered other low (by have := highest number numbered; omega)
        · have top := highest number numbered
          rcases joined.filled owner among empty with before | after
          · exact Or.inl before
          · exact Or.inr (by omega)
      · rintro ⟨within, joined⟩
        obtain ⟨owner, among, row⟩ := mem_flatMap.1 within
        have numbered : Numbered segments found.rowid :=
          ⟨owner, among, rowid_range_of_mem (readable owner among) row⟩
        exact ⟨within, highest _ numbered, joined _ last⟩

end

theorem keeps_window {backward : Bool} (low : 1 ≤ fromRowid) (high : (fromRowid : Int) ≤ totalRows)
    (some_rows : 0 < limit) (inside : found.rowid ≤ totalRows) :
    keeps (window backward fromRowid limit bounded) totalRows found = true ↔
      isDeletedInstance found.md = false ∧ (fromRowid : Int) ≤ found.rowid ∧
        found.rowid < (fromRowid : Int) + limit := by
  have first : adjustFromRowid (window backward fromRowid limit bounded).fromRowid totalRows =
      some (fromRowid : Int) := by
    have positive : ¬(fromRowid : Int) = 0 := by omega
    have above : (fromRowid : Int) > 0 := by omega
    have notPast : ¬(fromRowid : Int) > totalRows := by omega
    unfold adjustFromRowid window
    rw [if_neg positive, if_pos above, if_neg notPast]
  have last : adjustToRowid (window backward fromRowid limit bounded).toRowid totalRows =
      some (min ((fromRowid : Int) + limit - 1) totalRows) := by
    have positive : ¬(fromRowid : Int) + limit - 1 = 0 := by omega
    have above : (fromRowid : Int) + limit - 1 > 0 := by omega
    unfold adjustToRowid window
    rw [if_neg positive, if_pos above]
    by_cases past : (fromRowid : Int) + limit - 1 > totalRows
    · rw [if_pos past, min_eq_right (by omega)]
    · rw [if_neg past, min_eq_left (by omega)]
  have flags : FlagSatisfied (window backward fromRowid limit bounded) found.md.userFlag := by
    simp [FlagSatisfied, window, asUInt16]
  rw [keeps, Bool.and_eq_true, Bool.not_eq_true', matched_eq first last (by omega) (by omega)]
  constructor
  · rintro ⟨live, above, below, -⟩
    exact ⟨live, above, by omega⟩
  · rintro ⟨live, above, below⟩
    refine ⟨live, above, by omega, ?_, ?_, ?_, ?_, flags⟩ <;> exact fun unset => unset.1 rfl

section

variable {backward : Bool} (readable : ∀ segment ∈ segments, segment.Readable files)
  (ordered : segments.Pairwise fun left right => left.lastRow < right.firstRow)
include readable ordered

theorem mem_walk_window (inKey : ∀ segment ∈ segments, segment.lastRow ≤ totalRows)
    (low : 1 ≤ fromRowid) (high : (fromRowid : Int) ≤ totalRows) (some_rows : 0 < limit) :
    found ∈ walk files (window backward fromRowid limit bounded) totalRows segments ↔
      found ∈ segments.flatMap (segmentRows files) ∧ isDeletedInstance found.md = false ∧
        (fromRowid : Int) ≤ found.rowid ∧ found.rowid < (fromRowid : Int) + limit ∧
        Reached segments totalRows fromRowid limit backward found.rowid := by
  have bounds : ∀ other ∈ segments.flatMap (segmentRows files), other.rowid ≤ totalRows := by
    intro other inside
    obtain ⟨segment, among, row⟩ := mem_flatMap.1 inside
    have range := rowid_range_of_mem (readable segment among) row
    have top := inKey segment among
    omega
  have unstopped : ∀ other ∈ segments.flatMap (segmentRows files),
      (fromRowid : Int) ≤ other.rowid → other.rowid < (fromRowid : Int) + limit →
        stops (window backward fromRowid limit bounded) totalRows other = false := by
    intro other inside above below
    rw [← Bool.not_eq_true]
    intro ends
    have dropped := keeps_of_stops ends
    have live : isDeletedInstance other.md = false := by
      rw [stops, Bool.and_eq_true, Bool.not_eq_true'] at ends
      exact ends.1
    have kept : keeps (window backward fromRowid limit bounded) totalRows other = true :=
      (keeps_window low high some_rows (bounds other inside)).2 ⟨live, above, below⟩
    rw [kept] at dropped
    cases dropped
  rw [walk_eq readable]
  cases backward with
  | false =>
    have order : Ascending Found.rowid
        (visited files (window false fromRowid limit bounded) totalRows segments) :=
      (flatMap_ascending readable ordered).sublist (visitUp_sublist files segments _)
    rw [mem_scan order fun element _ => keeps_of_stops, mem_visited_up readable ordered low high]
    constructor
    · rintro ⟨⟨inside, above, joined⟩, keep, -⟩
      obtain ⟨live, _, below⟩ := (keeps_window low high some_rows (bounds found inside)).1 keep
      exact ⟨inside, live, above, below, joined⟩
    · rintro ⟨inside, live, above, below, joined⟩
      refine ⟨⟨inside, above, joined⟩,
        (keeps_window low high some_rows (bounds found inside)).2 ⟨live, above, below⟩, ?_⟩
      intro other visits before
      obtain ⟨within, start, _⟩ := (mem_visited_up readable ordered low high).1 visits
      exact unstopped other within start (by omega)
  | true =>
    have order : Ascending (fun row : Found => -row.rowid)
        (visited files (window true fromRowid limit bounded) totalRows segments) := by
      have turned := (flatMap_ascending readable ordered).sublist (visitDown_sublist files segments
          (firstSegmentRow segments totalRows (window true fromRowid limit bounded)))
      refine (pairwise_reverse.1 turned).imp ?_
      intro left right down
      exact Int.neg_lt_neg down
    rw [mem_scan order fun element _ => keeps_of_stops,
      mem_visited_down readable ordered low some_rows]
    constructor
    · rintro ⟨⟨inside, -, joined⟩, keep, -⟩
      obtain ⟨live, above, below⟩ := (keeps_window low high some_rows (bounds found inside)).1 keep
      exact ⟨inside, live, above, below, joined⟩
    · rintro ⟨inside, live, above, below, joined⟩
      refine ⟨⟨inside, fun _ => by omega, joined⟩,
        (keeps_window low high some_rows (bounds found inside)).2 ⟨live, above, below⟩, ?_⟩
      intro other visits before
      obtain ⟨within, top, _⟩ := (mem_visited_down readable ordered low some_rows).1 visits
      have last := bounds other within
      by_cases full : (fromRowid : Int) + limit - 1 ≤ totalRows
      · exact unstopped other within (by omega) (by omega)
      · exact unstopped other within (by omega) (by omega)

theorem walk_window_ascending :
    Ascending Found.rowid (inDirection backward
      (walk files (window backward fromRowid limit bounded) totalRows segments)) := by
  have rows := flatMap_ascending readable ordered
  rw [walk_eq readable]
  have part := scan_sublist (keeps (window backward fromRowid limit bounded) totalRows)
    (stops (window backward fromRowid limit bounded) totalRows)
    (visited files (window backward fromRowid limit bounded) totalRows segments)
  cases backward with
  | false => exact rows.sublist (part.trans (visitUp_sublist files segments _))
  | true => exact rows.sublist (part.reverse.trans (visitDown_sublist files segments _))

end

end

/-! ## What a page delivers -/

/-- What a page holds of a row. -/
def deliver (files : RdFiles) (found : Found) : Delivery :=
  ⟨found.rowid, found.md, readRecordContent files found.id found.md⟩

/-- The rows of a page without an index. -/
def pageRows (files : RdFiles) (segments : List Segment) (totalRows : Int) (fromRowid limit : Nat)
    (backward : Bool) (bounded : (fromRowid : Int) + limit < 2 ^ 63) : List Found :=
  if fromRowid = 0 ∨ (fromRowid : Int) > totalRows ∨ limit = 0 then []
  else walk files (window backward fromRowid limit bounded) totalRows segments

theorem getPage_unfiltered {files : RdFiles} {cache : KeyCache} {segments : List Segment}
    {fromRowid limit : Nat} {backward : Bool} {bounded : (fromRowid : Int) + limit < 2 ^ 63}
    (contents : ∀ found ∈ segments.flatMap (segmentRows files),
      ∃ text, readRecordContent files found.id found.md = some text)
    (readable : ∀ segment ∈ segments, segment.Readable files) :
    getPage files cache ⟨segments, none⟩ fromRowid limit backward bounded =
      (pageRows files segments cache.total.rows fromRowid limit backward bounded).map
        (deliver files) := by
  rw [pageRows]
  unfold getPage
  dsimp only
  split
  · rfl
  · have visits : ∀ found ∈ walk files (window backward fromRowid limit bounded) cache.total.rows
        segments, found ∈ segments.flatMap (segmentRows files) := by
      intro found among
      rw [walk_eq readable] at among
      have seen := (scan_sublist _ _ _).subset among
      cases backward with
      | false => exact (visitUp_sublist files segments _).subset seen
      | true =>
        exact (visitDown_sublist files segments _).subset (mem_reverse.2 seen)
    rw [← filterMap_eq_map]
    refine filterMap_congr fun found among => ?_
    obtain ⟨text, read⟩ := contents found (visits found among)
    simp [read, deliver]

/-! ## How many rows there are -/

/-- The rows that the cells of a file count. -/
def rowsIn (cells : List Cell) (file : String) : Nat :=
  rowsOf (cells.filter fun cell => cell.id = file)

theorem rowsIn_append (cells : List Cell) (cell : Cell) (file : String) :
    rowsIn (cells ++ [cell]) file = rowsIn cells file + if cell.id = file then cell.rows else 0 := by
  rw [rowsIn, rowsIn, filter_append, rowsOf_append]
  by_cases same : cell.id = file
  · simp [same]
  · simp [same]

theorem rowsOf_eq_sum {cells : List Cell} {files : List String} (distinct : files.Nodup)
    (all : ∀ cell ∈ cells, cell.id ∈ files) :
    rowsOf cells = (files.map (rowsIn cells)).sum := by
  induction files generalizing cells with
  | nil =>
    cases cells with
    | nil => rfl
    | cons cell rest => exact absurd (all cell mem_cons_self) not_mem_nil
  | cons file rest ih =>
    have ⟨new, distinct⟩ := nodup_cons.1 distinct
    have split : ∀ cells : List Cell, rowsOf cells =
        rowsIn cells file + rowsOf (cells.filter fun cell => cell.id ≠ file) := by
      intro cells
      induction cells with
      | nil => rfl
      | cons cell others ih =>
        rw [rowsIn] at ih ⊢
        by_cases same : cell.id = file
        · simp only [filter_cons, same, decide_true, if_true, rowsOf_cons, ne_eq,
            not_true_eq_false, decide_false, Bool.false_eq_true, if_false]
          simp only [ne_eq] at ih
          omega
        · simp only [filter_cons, same, decide_true, if_true, rowsOf_cons, ne_eq,
            not_false_eq_true, decide_false, Bool.false_eq_true, if_false]
          simp only [ne_eq] at ih
          omega
    have others : ∀ cell ∈ cells.filter fun cell => cell.id ≠ file, cell.id ∈ rest := by
      intro cell among
      have ⟨inCells, other⟩ := mem_filter.1 among
      rcases mem_cons.1 (all cell inCells) with same | later
      · exact absurd same (of_decide_eq_true other)
      · exact later
    have kept : rest.map (rowsIn (cells.filter fun cell => cell.id ≠ file)) =
        rest.map (rowsIn cells) := by
      refine map_congr_left fun other among => ?_
      rw [rowsIn, rowsIn, List.filter_filter]
      congr 1
      refine filter_congr fun cell _ => ?_
      by_cases here : cell.id = other
      · have different : other ≠ file := fun same => new (same ▸ among)
        simp [here, different]
      · simp [here]
    rw [split cells, ih distinct others, kept, map_cons, sum_cons]

/-- The cells of a file count its rows, in one or in several cells. -/
def Tallied (state : KeyState) : Prop :=
  ∀ file, rowsIn state.cache.files file = (state.dir.rows file).length

theorem Tallied.append {topic : Topic} {state : KeyState} (tallied : Tallied state)
    (record : Append) : Tallied (appendRecord topic state record).1 := by
  intro file
  have before := tallied file
  have gained : ((appendRecord topic state record).1.dir.rows file).length =
      (state.dir.rows file).length + if topic.fileOf record.time = file then 1 else 0 := by
    rw [appendRecord_rows]
    by_cases same : file = topic.fileOf record.time
    · rw [if_pos same, if_pos same.symm, length_append, length_singleton, same]
    · rw [if_neg same, if_neg fun other => same other.symm]
      rfl
  rw [gained, ← before]
  rcases updateNewRecordFromMem_cases topic state.cache record
    (state.dir.bytes (topic.fileOf record.time)).length with
    ⟨earlier, cell, split, same, -, updated⟩ | ⟨-, updated⟩
  · have cells : (appendRecord topic state record).1.cache.files = _ := congrArg KeyCache.files updated
    rw [cells, split, rowsIn_append, rowsIn_append, updateCacheCell_id, updateCacheCell_add_rows,
      same]
    split_ifs <;> omega
  · have cells : (appendRecord topic state record).1.cache.files = _ := congrArg KeyCache.files updated
    rw [cells, rowsIn_append, updateCacheCell_none_id, updateCacheCell_none_add_rows]

theorem Tallied.reopen (state : KeyState) : Tallied (reopen state) := by
  intro file
  have distinct : (sortedFiles state.dir).Nodup :=
    (perm_insertionSort fileNameLe state.dir.md2.keys).nodup_iff.2 state.dir.md2.keys_nodup
  have files : (Timeranger2.reopen state).cache.files = (sortedFiles state.dir).map fun fileId =>
      loadCacheCellFromDisk fileId (state.dir.rows fileId) := rfl
  have counted : ∀ names : List String, names.Nodup →
      rowsIn (names.map fun fileId => loadCacheCellFromDisk fileId (state.dir.rows fileId)) file =
        if file ∈ names then (state.dir.rows file).length else 0 := by
    intro names distinct
    induction names using List.reverseRecOn with
    | nil => rfl
    | append_singleton names name ih =>
      have ⟨distinct, _, apart⟩ := nodup_append.1 distinct
      rw [map_append, map_singleton, rowsIn_append, ih distinct, loadCacheCellFromDisk_id,
        loadCacheCellFromDisk_rows]
      by_cases here : name = file
      · have absent : file ∉ names := fun among =>
          apart file among name mem_cons_self here.symm
        simp [here, absent]
      · have other : ¬file = name := fun same => here same.symm
        simp [here, other]
  rw [files, counted _ distinct]
  split
  · rfl
  · rename_i absent
    have missing : state.dir.md2.get? file = none := by
      rw [sortedFiles, mem_insertionSort, Dict.mem_keys, Bool.not_eq_true,
        isSome_eq_false_iff, isNone_iff_eq_none] at absent
      exact absent
    show 0 = ((state.dir.md2.get? file).getD []).length
    rw [missing]
    rfl

theorem Tallied.run (topic : Topic) (ops : List KeyOp) :
    Tallied (run (KeyState.step topic) KeyState.empty ops) := by
  refine run_invariant (KeyState.step topic) Tallied (fun state op tallied => ?_)
    (fun file => rfl) ops
  rcases step_cases topic state op with ⟨record, rfl⟩ | rfl | ⟨rewritten, same⟩
  · exact tallied.append record
  · exact Tallied.reopen state
  · intro file
    rw [same, rewritten.lengths]
    exact tallied file

theorem Tallied.keyRows_length {state : KeyState} (tallied : Tallied state) (sound : Sound state) :
    ((keyRows state.dir.rdFiles state.cache.files).length : Int) = state.cache.total.rows := by
  have held : ∀ cell ∈ (keyFiles state.cache.files).map (wholeCell state.dir.rdFiles),
      cell.rows ≤ (state.dir.rdFiles.rows cell.id).length := by
    intro cell among
    obtain ⟨file, -, rfl⟩ := mem_map.1 among
    exact le_rfl
  have readable := placeCells_readable state.dir.rdFiles held
  have distinct : (keyFiles state.cache.files).Nodup := by
    rw [keyFiles, nodup_reverse]
    exact nodup_dedup _
  have each : (keyFiles state.cache.files).map (rowsIn state.cache.files) =
      ((keyFiles state.cache.files).map (wholeCell state.dir.rdFiles)).map Cell.rows := by
    rw [List.map_map]
    exact map_congr_left fun file _ => tallied file
  rw [keyRows, cacheRows, flatMap_length readable, placeCells_cells, sound.counted,
    rowsOf_eq_sum distinct fun cell among => (mem_keyFiles _ _).2 ⟨cell, among, rfl⟩, each]
  rfl

end Yunetas.Timeranger2
