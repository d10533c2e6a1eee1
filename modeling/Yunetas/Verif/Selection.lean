import Yunetas.Timeranger2.Numbering

/-!
# Exactness of the filtered index

The header promises that a filtered iterator counts and returns exactly the rows that match. The
index prunes three times: by the totals, by the ranges of the cells, and by the end flag of the
matcher. Each pruning trusts an order of the times that appends do not keep. What follows is the
exact condition: the index is right when no live row that meets the conditions is pruned and no
row is numbered in another's place.
-/

namespace Yunetas.Timeranger2

open List Option

/-- The rows an index stands for, as a page over it reads them. -/
def indexedRows (state : KeyState) (cond : MatchCond) : Option (List Found) :=
  let files := state.dir.rdFiles
  let segments := getSegments cond state.cache
  (buildIteratorIndex files cond state.cache.total.rows segments).bind fun index =>
    index.mapM (indexedRow files segments)

/-- A live row that meets the conditions. -/
def Wanted (cond : MatchCond) (totalRows : Int) (found : Found) : Prop :=
  isDeletedInstance found.md = false ∧ Satisfied cond totalRows found.rowid found.md

instance (cond : MatchCond) (totalRows : Int) (found : Found) :
    Decidable (Wanted cond totalRows found) := inferInstanceAs (Decidable (_ ∧ _))

/-- The index holds the live rows of the key that meet the conditions, in order. -/
def IndexExact (state : KeyState) (cond : MatchCond) : Prop :=
  indexedRows state cond =
    some ((keyRows state.dir.rdFiles state.cache.files).filter
      fun found => Wanted cond state.cache.total.rows found)

instance (state : KeyState) (cond : MatchCond) : Decidable (IndexExact state cond) :=
  inferInstanceAs (Decidable (_ = _))

/-- The totals admit the conditions, the ranges of a numbered cell meet them, and no cell before
it, or after it when the query goes backward, lies past them. -/
def SegmentKept (cond : MatchCond) (cache : KeyCache) (segment : Segment) : Prop :=
  ∃ bounds before after, adjustBounds cond cache.total = some bounds ∧
    placeCells 1 cache.files = before ++ segment :: after ∧ segment.overlaps bounds = true ∧
    if cond.backward then ∀ other ∈ after, other.endsBefore bounds = false
    else ∀ other ∈ before, other.beginsPast bounds = false

/-- No pruning reaches a row: the lower times are not negative, its segment is kept, and no live
row before it in a kept segment overruns the conditions. -/
structure Unpruned (state : KeyState) (cond : MatchCond) (found : Found) : Prop where
  fromT : 0 ≤ cond.fromT
  fromTm : 0 ≤ cond.fromTm
  segment : ∃ segment, SegmentKept cond state.cache segment ∧
    found ∈ segmentRows state.dir.rdFiles segment
  unended : ∀ segment, SegmentKept cond state.cache segment →
    ∀ other ∈ segmentRows state.dir.rdFiles segment, other.rowid < found.rowid →
      isDeletedInstance other.md = false →
      ¬ Overruns cond state.cache.total.rows other.rowid other.md

theorem upper_nonneg {cond : MatchCond} {total : Total} {bounds : Bounds}
    (adjusted : adjustBounds cond total = some bounds) : 0 ≤ cond.toT ∧ 0 ≤ cond.toTm := by
  have upper : ∀ {value : Int} {low high : Nat} {result : Int},
      adjustToTime value low high = some result → 0 ≤ value := by
    intro value low high result
    rw [adjustToTime]
    split_ifs <;> intro <;> first | omega | contradiction
  simp only [adjustBounds, bind_eq_bind] at adjusted
  split_ifs at adjusted
  have ⟨fromRowid, _, adjusted⟩ := bind_eq_some_iff.1 adjusted
  have ⟨toRowid, _, adjusted⟩ := bind_eq_some_iff.1 adjusted
  split_ifs at adjusted
  have ⟨fromT, _, adjusted⟩ := bind_eq_some_iff.1 adjusted
  have ⟨toT, toTEq, adjusted⟩ := bind_eq_some_iff.1 adjusted
  have ⟨fromTm, _, adjusted⟩ := bind_eq_some_iff.1 adjusted
  have ⟨toTm, toTmEq, _⟩ := bind_eq_some_iff.1 adjusted
  exact ⟨upper toTEq, upper toTmEq⟩

section

variable {state : KeyState}

theorem indexedRows_eq (sound : Sound state) (cond : MatchCond) :
    indexedRows state cond =
      some (scan (keeps { cond with backward := false } state.cache.total.rows)
        (stops { cond with backward := false } state.cache.total.rows)
        ((getSegments cond state.cache).flatMap (segmentRows state.dir.rdFiles))) := by
  have readable := sound.readable cond
  have ordered := sound.ordered cond
  rw [indexedRows, buildIteratorIndex, indexSegments_eq readable, bind_some]
  have part := scan_sublist (keeps { cond with backward := false } state.cache.total.rows)
    (stops { cond with backward := false } state.cache.total.rows)
    ((getSegments cond state.cache).flatMap (segmentRows state.dir.rdFiles))
  generalize scan (keeps { cond with backward := false } state.cache.total.rows)
    (stops { cond with backward := false } state.cache.total.rows)
    ((getSegments cond state.cache).flatMap (segmentRows state.dir.rdFiles)) = kept at part
  have member : ∀ found ∈ kept,
      indexedRow state.dir.rdFiles (getSegments cond state.cache) found.rowid = some found :=
    fun found inside => indexedRow_of_mem readable ordered (part.subset inside)
  clear part
  induction kept with
  | nil => rfl
  | cons found rest ih =>
    rw [map_cons, mapM_cons, member found mem_cons_self,
      ih fun other among => member other (mem_cons_of_mem found among)]
    rfl

theorem mem_index_iff (sound : Sound state) (cond : MatchCond) (found : Found) :
    found ∈ scan (keeps { cond with backward := false } state.cache.total.rows)
        (stops { cond with backward := false } state.cache.total.rows)
        ((getSegments cond state.cache).flatMap (segmentRows state.dir.rdFiles)) ↔
      Wanted cond state.cache.total.rows found ∧ Unpruned state cond found := by
  have kept : ∀ segment, segment ∈ getSegments cond state.cache ↔
      SegmentKept cond state.cache segment := mem_getSegments sound.counted
  have numbered : ∀ segment, SegmentKept cond state.cache segment →
      segment ∈ placeCells 1 state.cache.files := fun segment keeps =>
    (getSegments_sublist sound.counted).subset ((kept segment).2 keeps)
  rw [mem_scan (flatMap_ascending (sound.readable cond) (sound.ordered cond))
    fun element _ => keeps_of_stops]
  constructor
  · rintro ⟨inside, keep, unstopped⟩
    obtain ⟨segment, among, row⟩ := mem_flatMap.1 inside
    have segmentKept := (kept segment).1 among
    obtain ⟨low, high⟩ := sound.rowid_range (numbered segment segmentKept) row
    obtain ⟨smallT, smallTm⟩ := segmentRows_small row
    obtain ⟨bounds, _, _, adjusted, _⟩ := id segmentKept
    obtain ⟨toT, toTm⟩ := upper_nonneg adjusted
    simp only [keeps, Bool.and_eq_true, Bool.not_eq_true'] at keep
    obtain ⟨satisfied, fromT, fromTm⟩ :=
      (matched_iff { cond with backward := false } low high smallT smallTm toT toTm).1 keep.2
    refine ⟨⟨keep.1, satisfied⟩, fromT, fromTm, ⟨segment, segmentKept, row⟩, ?_⟩
    intro segment' kept' other row' before live overrun
    obtain ⟨low', _⟩ := sound.rowid_range (numbered segment' kept') row'
    obtain ⟨smallT', smallTm'⟩ := segmentRows_small row'
    have unended := unstopped other (mem_flatMap.2 ⟨segment', (kept segment').2 kept', row'⟩) before
    rw [stops, live, Bool.not_false, Bool.true_and] at unended
    have forward : ({ cond with backward := false } : MatchCond).backward = false := rfl
    have ended := (ended_iff forward low' smallT' smallTm' fromT toT fromTm toTm before high
      satisfied.1).2 overrun
    exact absurd (unended.symm.trans ended) (by decide)
  · rintro ⟨⟨live, satisfied⟩, fromT, fromTm, ⟨segment, segmentKept, row⟩, unended⟩
    obtain ⟨low, high⟩ := sound.rowid_range (numbered segment segmentKept) row
    obtain ⟨smallT, smallTm⟩ := segmentRows_small row
    obtain ⟨bounds, _, _, adjusted, _⟩ := id segmentKept
    obtain ⟨toT, toTm⟩ := upper_nonneg adjusted
    refine ⟨mem_flatMap.2 ⟨segment, (kept segment).2 segmentKept, row⟩, ?_, ?_⟩
    · rw [keeps, live, Bool.not_false, Bool.true_and]
      exact (matched_iff { cond with backward := false } low high smallT smallTm toT toTm).2
        ⟨satisfied, fromT, fromTm⟩
    · intro other inside before
      obtain ⟨segment', among', row'⟩ := mem_flatMap.1 inside
      have kept' := (kept segment').1 among'
      obtain ⟨low', _⟩ := sound.rowid_range (numbered segment' kept') row'
      obtain ⟨smallT', smallTm'⟩ := segmentRows_small row'
      cases dead : isDeletedInstance other.md with
      | true => simp [stops, dead]
      | false =>
        rw [stops, dead, Bool.not_false, Bool.true_and, ← Bool.not_eq_true]
        intro ended
        have forward : ({ cond with backward := false } : MatchCond).backward = false := rfl
        exact unended segment' kept' other row' before dead
          ((ended_iff forward low' smallT' smallTm' fromT toT fromTm toTm before high
            satisfied.1).1 ended)

end

/-- The condition for an exact index: every wanted row of the key escapes the prunings, and a
wanted row that escapes them stands at its own place among the rows of the key. -/
def IndexSafe (state : KeyState) (cond : MatchCond) : Prop :=
  (∀ found ∈ keyRows state.dir.rdFiles state.cache.files,
    Wanted cond state.cache.total.rows found → Unpruned state cond found) ∧
  ∀ found ∈ cacheRows state.dir.rdFiles state.cache.files,
    Wanted cond state.cache.total.rows found → Unpruned state cond found →
      found ∈ keyRows state.dir.rdFiles state.cache.files

/-- In every state of every run, for every query, the index is exact when and only when every
wanted row escapes the prunings and none stands in another's place. -/
theorem indexExact_iff (topic : Topic) (ops : List KeyOp) (cond : MatchCond) :
    IndexExact (run (KeyState.step topic) KeyState.empty ops) cond ↔
      IndexSafe (run (KeyState.step topic) KeyState.empty ops) cond := by
  have sound := Sound.run topic ops
  generalize run (KeyState.step topic) KeyState.empty ops = state at sound
  have keySorted := (keyRows_ascending state.dir.rdFiles state.cache.files).sublist
    (List.filter_sublist (p := fun found => Wanted cond state.cache.total.rows found))
  have indexSorted := (flatMap_ascending (sound.readable cond) (sound.ordered cond)).sublist
    (scan_sublist (keeps { cond with backward := false } state.cache.total.rows)
      (stops { cond with backward := false } state.cache.total.rows) _)
  rw [IndexExact, indexedRows_eq sound, Option.some.injEq, Ascending.ext indexSorted keySorted]
  simp only [mem_index_iff sound, List.mem_filter, decide_eq_true_eq]
  constructor
  · intro same
    refine ⟨fun found inKey wanted => ((same found).2 ⟨inKey, wanted⟩).2, ?_⟩
    exact fun found _ wanted unpruned => ((same found).1 ⟨wanted, unpruned⟩).1
  · rintro ⟨escapes, own⟩ found
    constructor
    · rintro ⟨wanted, unpruned⟩
      have ⟨segment, ⟨bounds, before, after, _, split, _⟩, row⟩ := unpruned.segment
      refine ⟨own found (List.mem_flatMap.2 ⟨segment, ?_, row⟩) wanted unpruned, wanted⟩
      rw [split]
      exact List.mem_append_right _ List.mem_cons_self
    · rintro ⟨inKey, wanted⟩
      exact ⟨wanted, escapes found inKey wanted⟩

/-- A record stored with an earlier time than the one before it is lost to a query that the one
before it overruns. -/
theorem indexExact_lost : ¬ IndexExact
    (run (KeyState.step dayTopic) KeyState.empty
      [.append (sampleRecord 100 0 0), .append (sampleRecord 50 0 0)]) { toT := 60 } := by
  decide

end Yunetas.Timeranger2
