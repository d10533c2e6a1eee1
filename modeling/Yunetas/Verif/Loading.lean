import Mathlib
import Yunetas.Timeranger2.Unfiltered
import Yunetas.Verif.Selection

/-!
# Loading and paging

An iterator with a callback walks the selected segments in its own direction; one without builds
an index of them, always upwards. Both scan the same rows, but the walk of a load begins at the
first row asked for, stops at a gap between the segments and ends at the conditions of its
direction. The two deliver the same rows exactly when every live row that matches is reached by
both or by neither.
-/

namespace Yunetas.Timeranger2

open List Option

/-- The rows a load delivers, in its order. -/
def loadedRows (state : KeyState) (cond : MatchCond) : List Found :=
  walk state.dir.rdFiles cond state.cache.total.rows (getSegments cond state.cache)

/-- A load delivers the rows of the index, from the last one when it goes backward. -/
def LoadsAsPages (state : KeyState) (cond : MatchCond) : Prop :=
  indexedRows state cond = some (inDirection cond.backward (loadedRows state cond))

instance (state : KeyState) (cond : MatchCond) : Decidable (LoadsAsPages state cond) :=
  inferInstanceAs (Decidable (_ = _))

/-! ## Where a load begins -/

/-- The row a forward query begins at, when it names one of the key. -/
def firstAsked (cond : MatchCond) (totalRows : Int) : Option Int :=
  if cond.fromRowid > 0 then some cond.fromRowid
  else if cond.fromRowid < 0 ∧ -totalRows ≤ cond.fromRowid then
    some (totalRows + cond.fromRowid + 1)
  else none

/-- The row a backward query begins at, when it names one of the key. -/
def lastAsked (cond : MatchCond) (totalRows : Int) : Option Int :=
  if cond.toRowid > 0 ∧ cond.toRowid ≤ totalRows then some cond.toRowid
  else if cond.toRowid < 0 then some (totalRows + cond.toRowid + 1)
  else none

/-- The segments a forward load goes through: from the first one with rows to the first gap, none
when the row asked for lies before it. -/
def joinedUp (asked : Option Int) (segments : List Segment) : List Segment :=
  match segments.dropWhile fun segment => segment.cell.rows = 0 with
  | [] => []
  | head :: rest =>
    if ∀ rowid ∈ asked, head.firstRow ≤ rowid then head :: runUp (head.lastRow + 1) rest else []

/-- The segments a backward load goes through: from the last one with rows down to the first gap,
none when the row asked for lies after it. -/
def joinedDown (asked : Option Int) (segments : List Segment) : List Segment :=
  match segments.reverse.dropWhile fun segment => segment.cell.rows = 0 with
  | [] => []
  | head :: rest =>
    if ∀ rowid ∈ asked, rowid ≤ head.lastRow then head :: runDown (head.firstRow - 1) rest else []

/-- The rows of the segments a load goes through, in its order, from the row asked for. -/
def joinedRows (files : RdFiles) (cond : MatchCond) (totalRows : Int) (segments : List Segment) :
    List Found :=
  if cond.backward then
    ((joinedDown (lastAsked cond totalRows) segments).flatMap
      fun segment => (segmentRows files segment).reverse).filter
      fun found => ∀ rowid ∈ lastAsked cond totalRows, found.rowid ≤ rowid
  else
    ((joinedUp (firstAsked cond totalRows) segments).flatMap (segmentRows files)).filter
      fun found => ∀ rowid ∈ firstAsked cond totalRows, rowid ≤ found.rowid

/-- What the segments of a query fulfil: the times asked for meet them, and the rows asked for
are not past them. -/
structure Segment.Selected (cond : MatchCond) (totalRows : Int) (segment : Segment) : Prop where
  /-- `from_t` is not past the segment. -/
  fromT : ¬ (cond.fromT ≠ 0 ∧ cond.fromT > segment.cell.toT)
  /-- `from_tm` is not past the segment. -/
  fromTm : ¬ (cond.fromTm ≠ 0 ∧ cond.fromTm > segment.cell.toTm)
  /-- `to_t` is not before the segment. -/
  toT : ¬ (cond.toT ≠ 0 ∧ cond.toT < segment.cell.frT)
  /-- `to_tm` is not before the segment. -/
  toTm : ¬ (cond.toTm ≠ 0 ∧ cond.toTm < segment.cell.frTm)
  /-- `from_rowid` is a row of the key or before them. -/
  fromInside : cond.fromRowid ≤ totalRows
  /-- `to_rowid` is a row of the key or after them. -/
  toInside : -totalRows ≤ cond.toRowid
  /-- `from_rowid` is not past the segment. -/
  first : ∀ rowid ∈ firstAsked cond totalRows, rowid ≤ segment.lastRow
  /-- `to_rowid` is not before the segment. -/
  last : ∀ rowid ∈ lastAsked cond totalRows, segment.firstRow ≤ rowid

variable {cond : MatchCond}

theorem selected_of_mem {cache : KeyCache} {segment : Segment}
    (counted : cache.total.rows = rowsOf cache.files)
    (among : segment ∈ getSegments cond cache) : segment.Selected cond cache.total.rows := by
  obtain ⟨bounds, before, after, adjusted, _, meets, _⟩ := (mem_getSegments counted segment).1 among
  have lower : ∀ {value : Int} {low high : Nat} {result : Int} {stop : Nat},
      adjustFromTime value low high = some result → result ≤ stop →
        ¬ (value ≠ 0 ∧ value > stop) := by
    intro value low high result stop
    rw [adjustFromTime]
    split_ifs <;> intro same
    · omega
    · contradiction
    · rw [← some.inj same]
      omega
    · rw [← some.inj same]
      omega
  have upper : ∀ {value : Int} {low high : Nat} {result : Int} {start : Nat},
      adjustToTime value low high = some result → (start : Int) ≤ result →
        ¬ (value ≠ 0 ∧ value < start) := by
    intro value low high result start
    rw [adjustToTime]
    split_ifs <;> intro same
    · omega
    · rw [← some.inj same]
      omega
    · contradiction
    · rw [← some.inj same]
      omega
  simp only [adjustBounds, bind_eq_bind] at adjusted
  split_ifs at adjusted with noRows
  obtain ⟨fromRowid, fromRowidEq, adjusted⟩ := bind_eq_some_iff.1 adjusted
  obtain ⟨toRowid, toRowidEq, adjusted⟩ := bind_eq_some_iff.1 adjusted
  split_ifs at adjusted
  obtain ⟨fromT, fromTEq, adjusted⟩ := bind_eq_some_iff.1 adjusted
  obtain ⟨toT, toTEq, adjusted⟩ := bind_eq_some_iff.1 adjusted
  obtain ⟨fromTm, fromTmEq, adjusted⟩ := bind_eq_some_iff.1 adjusted
  obtain ⟨toTm, toTmEq, adjusted⟩ := bind_eq_some_iff.1 adjusted
  obtain rfl := some.inj adjusted
  simp only [Segment.overlaps, decide_eq_true_eq] at meets
  obtain ⟨firstMeets, lastMeets, frT, endT, frTm, endTm⟩ := meets
  refine ⟨lower fromTEq endT, lower fromTmEq endTm, upper toTEq frT, upper toTmEq frTm, ?_, ?_,
    fun rowid asked => ?_, fun rowid asked => ?_⟩
  · rw [adjustFromRowid] at fromRowidEq
    split_ifs at fromRowidEq <;> omega
  · rw [adjustToRowid] at toRowidEq
    split_ifs at toRowidEq <;> omega
  · rw [adjustFromRowid] at fromRowidEq
    rw [firstAsked] at asked
    split_ifs at asked fromRowidEq <;>
      first
        | omega
        | (simp only [mem_def, some.injEq] at asked fromRowidEq; omega)
        | (simp at asked)
  · rw [adjustToRowid] at toRowidEq
    rw [lastAsked] at asked
    split_ifs at asked toRowidEq <;>
      first
        | omega
        | (simp only [mem_def, some.injEq] at asked toRowidEq; omega)
        | (simp at asked)

/-! ## The rows a load visits -/

variable (segments : List Segment)

section

variable {files : RdFiles} {totalRows : Int}
  (readable : ∀ segment ∈ segments, segment.Readable files)
  (ordered : segments.Pairwise fun left right => left.lastRow < right.firstRow)
  (selected : ∀ segment ∈ segments, segment.Selected cond totalRows)
include readable ordered selected

/-- A row that every position before it passes: the rows of the joined segments are the ones a
forward walk visits. -/
theorem visitUp_joined :
    visitUp files segments (forwardFirst cond totalRows segments.zipIdx) =
      ((joinedUp (firstAsked cond totalRows) segments).flatMap (segmentRows files)).filter
        fun found => ∀ rowid ∈ firstAsked cond totalRows, rowid ≤ found.rowid := by
  have general : ∀ before rest, segments = before ++ rest →
      visitUp files segments (forwardFirst cond totalRows (rest.zipIdx before.length)) =
        ((joinedUp (firstAsked cond totalRows) rest).flatMap (segmentRows files)).filter
          fun found => ∀ rowid ∈ firstAsked cond totalRows, rowid ≤ found.rowid := by
    intro before rest
    induction rest generalizing before with
    | nil => exact fun _ => rfl
    | cons segment rest ih =>
      intro split
      have among : segment ∈ segments := by simp [split]
      have there : segments[before.length]? = some segment := by simp [split]
      have after : segments.drop (before.length + 1) = rest := by simp [split]
      have here := readable segment among
      have closed := here.closed
      have select := selected segment among
      have later := ih (before ++ [segment]) (by simp [split])
      rw [length_append, length_singleton] at later
      have rows : ¬ segment.cell.rows = 0 → 0 < segment.cell.rows := Nat.pos_of_ne_zero
      rw [zipIdx_cons, forwardFirst]
      cases asked : firstAsked cond totalRows with
      | none =>
        have start : forwardStart cond.fromRowid totalRows segment = some segment.firstRow := by
          rw [firstAsked] at asked
          rw [forwardStart]
          split_ifs at asked ⊢ <;> first | rfl | omega
        rw [start]
        dsimp only
        by_cases empty : segment.cell.rows = 0
        · rw [asked] at later
          rw [if_pos (by omega), later, joinedUp, joinedUp, dropWhile_cons_of_pos (by simp [empty])]
        · have run : runUp segment.firstRow (segment :: rest) =
              segment :: runUp (segment.lastRow + 1) rest := by
            rw [runUp, if_pos ⟨rfl, rows empty⟩]
          have whole : segments.drop before.length = segment :: rest := by simp [split]
          rw [if_neg (by omega), if_neg select.fromT, if_neg select.fromTm,
            visitUp_enter there here, whole, run, joinedUp,
            dropWhile_cons_of_neg (by simp [empty])]
          simp
      | some rowid =>
        have start : forwardStart cond.fromRowid totalRows segment = some rowid := by
          have inside := select.fromInside
          rw [firstAsked] at asked
          rw [forwardStart]
          split_ifs at asked ⊢ <;> omega
        have low := select.first rowid asked
        rw [start]
        dsimp only
        rw [if_neg (by omega), if_neg select.fromT, if_neg select.fromTm, visitUp, there]
        dsimp only
        by_cases inside : segment.firstRow ≤ rowid
        · have empty : ¬ segment.cell.rows = 0 := by omega
          have above : ((runUp (segment.lastRow + 1) rest).flatMap (segmentRows files)).filter
              (fun found => rowid ≤ found.rowid) =
              (runUp (segment.lastRow + 1) rest).flatMap (segmentRows files) := by
            rw [filter_eq_self]
            intro found visited
            obtain ⟨other, inRun, row⟩ := mem_flatMap.1 visited
            have inRest := (runUp_isPrefix _ _).subset inRun
            have order := (pairwise_cons.1 (pairwise_append.1 (split ▸ ordered)).2.1).1 other inRest
            have range := rowid_range_of_mem (readable other (by simp [split, inRest])) row
            simp only [decide_eq_true_eq]
            omega
          rw [if_pos ⟨inside, low⟩, after, joinedUp, dropWhile_cons_of_neg (by simp [empty])]
          simp [inside, above, rowsUp_eq_filter inside]
        · rw [if_neg (by omega), joinedUp]
          split
          · rfl
          · rename_i head tail dropped
            have headIn : head ∈ segment :: rest := (dropWhile_sublist _).subset
              (dropped ▸ mem_cons_self)
            have past : rowid < head.firstRow := by
              rcases mem_cons.1 headIn with rfl | inRest
              · omega
              · have order := (pairwise_cons.1
                  (pairwise_append.1 (split ▸ ordered)).2.1).1 head inRest
                omega
            rw [if_neg (by simp only [mem_def, some.injEq, forall_eq']; omega)]
            rfl
  exact general [] segments rfl

theorem visitDown_joined :
    visitDown files segments (backwardFirst cond totalRows segments.zipIdx.reverse) =
      ((joinedDown (lastAsked cond totalRows) segments).flatMap
        fun segment => (segmentRows files segment).reverse).filter
        fun found => ∀ rowid ∈ lastAsked cond totalRows, found.rowid ≤ rowid := by
  have general : ∀ rest after, segments = rest ++ after →
      visitDown files segments (backwardFirst cond totalRows rest.zipIdx.reverse) =
        ((joinedDown (lastAsked cond totalRows) rest).flatMap
          fun segment => (segmentRows files segment).reverse).filter
          fun found => ∀ rowid ∈ lastAsked cond totalRows, found.rowid ≤ rowid := by
    intro rest
    induction rest using List.reverseRecOn with
    | nil => exact fun _ _ => rfl
    | append_singleton rest segment ih =>
      intro after split
      have among : segment ∈ segments := by simp [split]
      have there : segments[rest.length]? = some segment := by simp [split]
      have before : segments.take rest.length = rest := by simp [split]
      have here := readable segment among
      have closed := here.closed
      have select := selected segment among
      have earlier := ih (segment :: after) (by simp [split])
      have rows : ¬ segment.cell.rows = 0 → 0 < segment.cell.rows := Nat.pos_of_ne_zero
      have order : ∀ other ∈ rest, other.lastRow < segment.firstRow := by
        rw [split, append_assoc] at ordered
        exact fun other inRest =>
          (pairwise_append.1 ordered).2.2 other inRest segment (by simp)
      rw [zipIdx_append, reverse_append]
      simp only [zipIdx_cons, zipIdx_nil, reverse_cons, reverse_nil,
        nil_append, singleton_append, Nat.zero_add, backwardFirst]
      cases asked : lastAsked cond totalRows with
      | none =>
        have start : backwardStart cond.toRowid totalRows segment = some segment.lastRow := by
          rw [lastAsked] at asked
          rw [backwardStart]
          split_ifs at asked ⊢ <;> first | rfl | omega
        rw [start]
        dsimp only
        by_cases empty : segment.cell.rows = 0
        · rw [asked] at earlier
          rw [if_pos (by omega), earlier, joinedDown, joinedDown, reverse_concat,
            dropWhile_cons_of_pos (by simp [empty])]
        · have whole : (segments.take (rest.length + 1)).reverse = segment :: rest.reverse := by
            rw [take_add_one, before, there, toList_some, reverse_concat]
          have run : runDown segment.lastRow (segment :: rest.reverse) =
              segment :: runDown (segment.firstRow - 1) rest.reverse := by
            rw [runDown, if_pos ⟨rfl, rows empty⟩]
          rw [if_neg (by omega), if_neg select.toT, if_neg select.toTm,
            visitDown_enter there here, whole, run, joinedDown, reverse_concat,
            dropWhile_cons_of_neg (by simp [empty])]
          simp
      | some rowid =>
        have start : backwardStart cond.toRowid totalRows segment = some rowid := by
          have inside := select.toInside
          rw [lastAsked] at asked
          rw [backwardStart]
          split_ifs at asked ⊢ <;> omega
        have high := select.last rowid asked
        rw [start]
        dsimp only
        rw [if_neg (by omega), if_neg select.toT, if_neg select.toTm, visitDown, there]
        dsimp only
        by_cases inside : rowid ≤ segment.lastRow
        · have empty : ¬ segment.cell.rows = 0 := by omega
          have below : ((runDown (segment.firstRow - 1) rest.reverse).flatMap
              fun segment => (segmentRows files segment).reverse).filter
              (fun found => found.rowid ≤ rowid) =
              (runDown (segment.firstRow - 1) rest.reverse).flatMap
                fun segment => (segmentRows files segment).reverse := by
            rw [filter_eq_self]
            intro found visited
            obtain ⟨other, inRun, row⟩ := mem_flatMap.1 visited
            have inRest := mem_reverse.1 ((runDown_isPrefix _ _).subset inRun)
            have lower := order other inRest
            have range := rowid_range_of_mem (readable other (by simp [split, inRest]))
              (mem_reverse.1 row)
            simp only [decide_eq_true_eq]
            omega
          rw [if_pos ⟨high, inside⟩, before, joinedDown, reverse_concat,
            dropWhile_cons_of_neg (by simp [empty])]
          simp [inside, below, rowsDown_eq_filter high]
        · rw [if_neg (by omega), joinedDown, reverse_concat]
          split
          · rfl
          · rename_i head tail dropped
            have headIn : head ∈ segment :: rest.reverse := (dropWhile_sublist _).subset
              (dropped ▸ mem_cons_self)
            have past : head.lastRow < rowid := by
              rcases mem_cons.1 headIn with rfl | inRest
              · omega
              · have lower := order head (mem_reverse.1 inRest)
                omega
            rw [if_neg (by simp only [mem_def, some.injEq, forall_eq']; omega)]
            rfl
  have whole := general segments [] (by simp)
  exact whole

theorem visited_joined :
    visited files cond totalRows segments = joinedRows files cond totalRows segments := by
  rw [visited, joinedRows, firstSegmentRow]
  cases cond.backward with
  | true => exact visitDown_joined segments readable ordered selected
  | false => exact visitUp_joined segments readable ordered selected

end

theorem joinedUp_sublist (asked : Option Int) (segments : List Segment) :
    (joinedUp asked segments).Sublist segments := by
  rw [joinedUp]
  split
  · exact nil_sublist _
  · rename_i head rest dropped
    split
    · refine ((runUp_isPrefix _ rest).sublist.cons_cons head).trans ?_
      rw [← dropped]
      exact dropWhile_sublist _
    · exact nil_sublist _

theorem joinedDown_sublist (asked : Option Int) (segments : List Segment) :
    (joinedDown asked segments).Sublist segments.reverse := by
  rw [joinedDown]
  split
  · exact nil_sublist _
  · rename_i head rest dropped
    split
    · refine ((runDown_isPrefix _ rest).sublist.cons_cons head).trans ?_
      rw [← dropped]
      exact dropWhile_sublist _
    · exact nil_sublist _

theorem joinedRows_sublist (files : RdFiles) (cond : MatchCond) (totalRows : Int)
    (segments : List Segment) :
    (joinedRows files cond totalRows segments).Sublist
      (inDirection cond.backward (segments.flatMap (segmentRows files))) := by
  rw [joinedRows, inDirection]
  cases cond.backward with
  | true =>
    rw [reverse_flatMap]
    exact filter_sublist.trans ((joinedDown_sublist _ _).flatMap _)
  | false => exact filter_sublist.trans ((joinedUp_sublist _ _).flatMap _)

/-! ## Both readings -/

/-- The index reaches a row: no row before it in the selected segments ends an upward walk. -/
def IndexReaches (state : KeyState) (cond : MatchCond) (found : Found) : Prop :=
  ∀ other ∈ (getSegments cond state.cache).flatMap (segmentRows state.dir.rdFiles),
    other.rowid < found.rowid →
      stops { cond with backward := false } state.cache.total.rows other = false

/-- A load reaches a row: its segment is joined to the ones the load begins at, it is not before
the row asked for, and no row visited before it ends a walk of that direction. -/
def LoadReaches (state : KeyState) (cond : MatchCond) (found : Found) : Prop :=
  let visited := joinedRows state.dir.rdFiles cond state.cache.total.rows
    (getSegments cond state.cache)
  found ∈ visited ∧ ∀ other ∈ visited,
    (if cond.backward then found.rowid < other.rowid else other.rowid < found.rowid) →
      stops cond state.cache.total.rows other = false

/-- The condition for a load to agree with the pages: a live row of the selected segments that
matches is reached by both or by neither. -/
def LoadSafe (state : KeyState) (cond : MatchCond) : Prop :=
  ∀ found ∈ (getSegments cond state.cache).flatMap (segmentRows state.dir.rdFiles),
    keeps cond state.cache.total.rows found = true →
      (IndexReaches state cond found ↔ LoadReaches state cond found)

theorem keeps_forward (cond : MatchCond) (totalRows : Int) (found : Found) :
    keeps { cond with backward := false } totalRows found = keeps cond totalRows found := by
  rw [keeps, keeps]
  congr 1
  simp only [matchMetadata]
  split
  · rfl
  · rfl
  · split_ifs <;> rfl

theorem ascending_reverse {rows : List Found} :
    Ascending (fun found : Found => -found.rowid) rows.reverse ↔ Ascending Found.rowid rows := by
  unfold Ascending
  rw [pairwise_reverse]
  simp

section

variable {state : KeyState} (sound : Sound state) (cond : MatchCond)

include sound

theorem mem_index_reaches (found : Found) :
    found ∈ scan (keeps { cond with backward := false } state.cache.total.rows)
        (stops { cond with backward := false } state.cache.total.rows)
        ((getSegments cond state.cache).flatMap (segmentRows state.dir.rdFiles)) ↔
      found ∈ (getSegments cond state.cache).flatMap (segmentRows state.dir.rdFiles) ∧
        keeps cond state.cache.total.rows found = true ∧ IndexReaches state cond found := by
  rw [mem_scan (flatMap_ascending (sound.readable cond) (sound.ordered cond))
    fun element _ => keeps_of_stops, keeps_forward]
  rfl

theorem mem_loadedRows (found : Found) :
    found ∈ loadedRows state cond ↔
      found ∈ (getSegments cond state.cache).flatMap (segmentRows state.dir.rdFiles) ∧
        keeps cond state.cache.total.rows found = true ∧ LoadReaches state cond found := by
  have readable := sound.readable cond
  have ordered := sound.ordered cond
  have rows := flatMap_ascending readable ordered
  have part := joinedRows_sublist state.dir.rdFiles cond state.cache.total.rows
    (getSegments cond state.cache)
  have joined := visited_joined _ readable ordered
    fun segment among => selected_of_mem sound.counted among
  have inside : found ∈ joinedRows state.dir.rdFiles cond state.cache.total.rows
      (getSegments cond state.cache) →
      found ∈ (getSegments cond state.cache).flatMap (segmentRows state.dir.rdFiles) := by
    intro among
    have turned := part.subset among
    rw [inDirection] at turned
    split at turned
    · exact mem_reverse.1 turned
    · exact turned
  rw [loadedRows, walk_eq readable, joined, LoadReaches]
  cases direction : cond.backward with
  | true =>
    rw [inDirection, if_pos direction] at part
    rw [mem_scan ((ascending_reverse.2 rows).sublist part) fun element _ => keeps_of_stops]
    simp only [neg_lt_neg_iff, if_true]
    constructor
    · rintro ⟨among, keep, unstopped⟩
      exact ⟨inside among, keep, among, unstopped⟩
    · rintro ⟨-, keep, among, unstopped⟩
      exact ⟨among, keep, unstopped⟩
  | false =>
    rw [inDirection, if_neg (by simp [direction])] at part
    rw [mem_scan (rows.sublist part) fun element _ => keeps_of_stops]
    constructor
    · rintro ⟨among, keep, unstopped⟩
      exact ⟨inside among, keep, among, unstopped⟩
    · rintro ⟨-, keep, among, unstopped⟩
      exact ⟨among, keep, unstopped⟩

theorem loadedRows_ascending :
    Ascending Found.rowid (inDirection cond.backward (loadedRows state cond)) := by
  have readable := sound.readable cond
  have ordered := sound.ordered cond
  have rows := flatMap_ascending readable ordered
  have part := joinedRows_sublist state.dir.rdFiles cond state.cache.total.rows
    (getSegments cond state.cache)
  have joined := visited_joined _ readable ordered
    fun segment among => selected_of_mem sound.counted among
  have scanned := (scan_sublist (keeps cond state.cache.total.rows)
    (stops cond state.cache.total.rows) _).trans part
  rw [loadedRows, walk_eq readable, joined, inDirection]
  rw [inDirection] at scanned
  cases direction : cond.backward with
  | true =>
    rw [if_pos direction] at scanned
    rw [if_pos rfl]
    refine rows.sublist ?_
    simpa using scanned.reverse
  | false =>
    rw [if_neg (by simp [direction])] at scanned
    rw [if_neg (by simp)]
    exact rows.sublist scanned

end

end Yunetas.Timeranger2
