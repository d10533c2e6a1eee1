import Yunetas.Verif.Paging
import Yunetas.Verif.Selection

/-!
# Pages with a filter that excludes nothing

A filtered iterator pages over its index and an unfiltered one over the rows by number. With a
filter that every row meets the two should coincide. Going up they do when no pruning of the index
reaches a row; going down the index is counted from its end and the rows are not, so the two agree
only on a page in the middle of the key.
-/

namespace Yunetas.Timeranger2

open List

/-- No pruning of the index reaches a row, the unfiltered page reaches those within it, and going
down it is the page in the middle of the key. -/
structure PagesCoincide (state : KeyState) (cond : MatchCond) (segments : List Segment)
    (fromRowid limit : Nat) (backward : Bool) : Prop where
  whole : ∀ found ∈ cacheRows state.dir.rdFiles state.cache.files,
    Wanted cond state.cache.total.rows found ∧ Unpruned state cond found
  reached : ∀ found ∈ cacheRows state.dir.rdFiles state.cache.files,
    (fromRowid : Int) ≤ found.rowid → found.rowid < (fromRowid : Int) + limit →
      found ∈ segments.flatMap (segmentRows state.dir.rdFiles) ∧
        Reached segments state.cache.total.rows fromRowid limit backward found.rowid
  centred : backward = true → (fromRowid : Int) ≤ state.cache.total.rows →
    2 * (fromRowid : Int) + limit = state.cache.total.rows + 2 ∨
      fromRowid = 1 ∧ state.cache.total.rows ≤ limit

/-! ## Rows by their places -/

theorem mem_piece {α : Type} {list : List α} {first size : Nat} {element : α} :
    element ∈ (list.drop first).take size ↔
      ∃ place, first ≤ place ∧ place < first + size ∧ list[place]? = some element := by
  rw [mem_iff_getElem?]
  constructor
  · rintro ⟨index, there⟩
    rw [getElem?_take] at there
    split at there
    · rw [getElem?_drop] at there
      exact ⟨first + index, by omega, by omega, there⟩
    · cases there
  · rintro ⟨place, low, high, there⟩
    refine ⟨place - first, ?_⟩
    have back : first + (place - first) = place := by omega
    rw [getElem?_take, if_pos (by omega), getElem?_drop, back, there]

theorem cells_place {files : RdFiles} {cells : List Cell}
    (held : ∀ cell ∈ cells, cell.rows ≤ (files.rows cell.id).length) (first : Int) {place : Nat}
    {found : Found} (positive : 1 ≤ first)
    (there : ((placeCells first cells).flatMap (segmentRows files))[place]? = some found) :
    found.rowid = first + place := by
  induction cells generalizing first place with
  | nil => cases there
  | cons cell rest ih =>
    have readable : Segment.Readable files ⟨cell, first, first + cell.rows - 1⟩ :=
      ⟨rfl, positive, held cell mem_cons_self⟩
    have length := segmentRows_length readable
    rw [placeCells, flatMap_cons] at there
    by_cases here : place < cell.rows
    · rw [getElem?_append_left (by rw [length]; exact here)] at there
      exact (segmentRows_at there).2.1
    · rw [getElem?_append_right (by rw [length]; exact Nat.le_of_not_lt here), length] at there
      have later := ih (fun other among => held other (mem_cons_of_mem cell among))
        (first + cell.rows) (by omega) there
      dsimp only at later
      omega

section

variable {state : KeyState}

theorem cacheRows_place (sound : Sound state) {place : Nat} {found : Found}
    (there : (cacheRows state.dir.rdFiles state.cache.files)[place]? = some found) :
    found.rowid = place + 1 := by
  have number := cells_place sound.held 1 (Int.le_refl 1) there
  omega

theorem cacheRows_length (sound : Sound state) :
    ((cacheRows state.dir.rdFiles state.cache.files).length : Int) = state.cache.total.rows := by
  rw [cacheRows, flatMap_length (placeCells_readable _ sound.held), placeCells_cells, sound.counted]

theorem mem_key_piece (sound : Sound state) {backward : Bool} {fromRowid limit : Nat}
    (low : 1 ≤ fromRowid) {found : Found} :
    found ∈ ((inDirection backward (cacheRows state.dir.rdFiles state.cache.files)).drop
        (fromRowid - 1)).take limit ↔
      found ∈ cacheRows state.dir.rdFiles state.cache.files ∧
        if backward then found.rowid ≤ state.cache.total.rows - fromRowid + 1 ∧
          state.cache.total.rows - fromRowid + 1 < found.rowid + limit
        else (fromRowid : Int) ≤ found.rowid ∧ found.rowid < (fromRowid : Int) + limit := by
  have length := cacheRows_length sound
  rw [mem_piece]
  cases backward with
  | false =>
    constructor
    · rintro ⟨place, start, finish, there⟩
      have number := cacheRows_place sound there
      exact ⟨mem_of_getElem? there, by omega, by omega⟩
    · rintro ⟨inKey, above, below⟩
      obtain ⟨place, there⟩ := mem_iff_getElem?.1 inKey
      have number := cacheRows_place sound there
      exact ⟨place, by omega, by omega, there⟩
  | true =>
    simp only [inDirection, if_true]
    constructor
    · rintro ⟨place, start, finish, there⟩
      have bound : place < (cacheRows state.dir.rdFiles state.cache.files).length := by
        obtain ⟨bound, _⟩ := List.getElem?_eq_some_iff.1 there
        rwa [length_reverse] at bound
      rw [getElem?_reverse bound] at there
      have number := cacheRows_place sound there
      exact ⟨mem_of_getElem? there, by omega, by omega⟩
    · rintro ⟨inKey, above, below⟩
      obtain ⟨place, there⟩ := mem_iff_getElem?.1 inKey
      have number := cacheRows_place sound there
      obtain ⟨bound, _⟩ := List.getElem?_eq_some_iff.1 there
      have back : (cacheRows state.dir.rdFiles state.cache.files).length - 1 -
          ((cacheRows state.dir.rdFiles state.cache.files).length - 1 - place) = place := by omega
      refine ⟨(cacheRows state.dir.rdFiles state.cache.files).length - 1 - place, by omega,
        by omega, ?_⟩
      rw [getElem?_reverse (by omega), back, there]

end

/-! ## The pages of an index -/

theorem indexedPage_eq {files : RdFiles} {segments : List Segment} {rows : List Found}
    (readable : ∀ segment ∈ segments, segment.Readable files)
    (ordered : segments.Pairwise fun left right => left.lastRow < right.firstRow)
    (contents : ∀ found ∈ segments.flatMap (segmentRows files),
      ∃ text, readRecordContent files found.id found.md = some text)
    (inside : ∀ found ∈ rows, found ∈ segments.flatMap (segmentRows files)) :
    indexedPage files segments (rows.map Found.rowid) = rows.map (deliver files) := by
  induction rows with
  | nil => rfl
  | cons found rest ih =>
    have here := inside found mem_cons_self
    have ⟨text, read⟩ := contents found here
    rw [map_cons, map_cons, indexedPage, indexedRow_of_mem readable ordered here,
      ih fun other among => inside other (mem_cons_of_mem found among)]
    simp [read, deliver]

/-- The rows the index of a query keeps. -/
def indexRowsOf (state : KeyState) (cond : MatchCond) : List Found :=
  scan (keeps { cond with backward := false } state.cache.total.rows)
    (stops { cond with backward := false } state.cache.total.rows)
    ((getSegments cond state.cache).flatMap (segmentRows state.dir.rdFiles))

section

variable {topic : Topic} {state : KeyState} {cond : MatchCond}

theorem openIterator_filtered (sound : Sound state)
    (filtered : matchCondSelectsRecords cond = true) {iterator : Iterator}
    (opens : openIterator state.dir.rdFiles cond state.cache = some iterator) :
    iterator = ⟨getSegments cond state.cache, some ((indexRowsOf state cond).map Found.rowid)⟩ := by
  have index : buildIteratorIndex state.dir.rdFiles cond state.cache.total.rows
      (getSegments cond state.cache) = some ((indexRowsOf state cond).map Found.rowid) :=
    indexSegments_eq (sound.readable cond)
  rw [openIterator, filtered, if_pos rfl, index] at opens
  exact (Option.some.inj opens).symm

theorem indexRowsOf_sublist (sound : Sound state) (cond : MatchCond) :
    (indexRowsOf state cond).Sublist (cacheRows state.dir.rdFiles state.cache.files) :=
  (scan_sublist _ _ _).trans ((getSegments_sublist sound.counted).flatMap _)

theorem index_length_iff (sound : Sound state) (cond : MatchCond) :
    ((indexRowsOf state cond).length : Int) = state.cache.total.rows ↔
      indexRowsOf state cond = cacheRows state.dir.rdFiles state.cache.files := by
  have length := cacheRows_length sound
  constructor
  · exact fun same => (indexRowsOf_sublist sound cond).eq_of_length (by omega)
  · exact fun same => by rw [same, length]

theorem index_whole_iff (sound : Sound state) (cond : MatchCond) :
    indexRowsOf state cond = cacheRows state.dir.rdFiles state.cache.files ↔
      ∀ found ∈ cacheRows state.dir.rdFiles state.cache.files,
        Wanted cond state.cache.total.rows found ∧ Unpruned state cond found := by
  have ascending : Ascending Found.rowid (cacheRows state.dir.rdFiles state.cache.files) :=
    cacheRows_ascending sound.held
  have part := indexRowsOf_sublist sound cond
  rw [Ascending.ext (ascending.sublist part) ascending]
  constructor
  · exact fun same found inKey => (mem_index_iff sound cond found).1 ((same found).2 inKey)
  · exact fun all found => ⟨fun inside => part.subset inside,
      fun inKey => (mem_index_iff sound cond found).2 (all found inKey)⟩

theorem getPage_index {fromRowid limit : Nat} {backward : Bool}
    {bounded : (fromRowid : Int) + limit < 2 ^ 63} (low : 1 ≤ fromRowid)
    (kept : KeptRows topic state (getSegments cond state.cache))
    (whole : indexRowsOf state cond = cacheRows state.dir.rdFiles state.cache.files) :
    getPage state.dir.rdFiles state.cache ⟨getSegments cond state.cache,
        some ((indexRowsOf state cond).map Found.rowid)⟩ fromRowid limit backward bounded =
      (((inDirection backward (cacheRows state.dir.rdFiles state.cache.files)).drop
        (fromRowid - 1)).take limit).map (deliver state.dir.rdFiles) := by
  have inside : ∀ found ∈ indexRowsOf state cond,
      found ∈ (getSegments cond state.cache).flatMap (segmentRows state.dir.rdFiles) :=
    (scan_sublist _ _ _).subset
  have turned : (if backward then ((indexRowsOf state cond).map Found.rowid).reverse
      else (indexRowsOf state cond).map Found.rowid) =
      (inDirection backward (indexRowsOf state cond)).map Found.rowid := by
    cases backward with
    | false => rfl
    | true => exact map_reverse.symm
  have size : (inDirection backward (indexRowsOf state cond)).length =
      (indexRowsOf state cond).length := by
    cases backward with
    | false => rfl
    | true => exact length_reverse
  unfold getPage
  dsimp only
  rw [length_map, turned, ← map_drop, ← map_take,
    indexedPage_eq kept.readable kept.ordered kept.contents fun found among =>
      inside found (mem_inDirection.1 (mem_of_mem_drop (mem_of_mem_take among)))]
  rw [← whole]
  split
  · have none : (inDirection backward (indexRowsOf state cond)).drop (fromRowid - 1) = [] :=
      drop_eq_nil_of_le (by omega)
    rw [none, take_nil, map_nil]
  · rfl

theorem mem_pageRows {segments : List Segment} {fromRowid limit : Nat} {backward : Bool}
    {bounded : (fromRowid : Int) + limit < 2 ^ 63} (low : 1 ≤ fromRowid) (some_rows : 0 < limit)
    (kept : KeptRows topic state segments) {found : Found} :
    found ∈ pageRows state.dir.rdFiles segments state.cache.total.rows fromRowid limit backward
        bounded ↔
      found ∈ segments.flatMap (segmentRows state.dir.rdFiles) ∧
        isDeletedInstance found.md = false ∧ (fromRowid : Int) ≤ found.rowid ∧
        found.rowid < (fromRowid : Int) + limit ∧
        Reached segments state.cache.total.rows fromRowid limit backward found.rowid := by
  unfold pageRows
  by_cases past : (fromRowid : Int) > state.cache.total.rows
  · rw [if_pos (Or.inr (Or.inl past))]
    refine iff_of_false not_mem_nil ?_
    rintro ⟨inside, -, above, -⟩
    have range := kept.rowid_range inside
    omega
  · have first : ¬(fromRowid = 0 ∨ (fromRowid : Int) > state.cache.total.rows ∨ limit = 0) := by
      omega
    rw [if_neg first]
    exact mem_walk_window kept.readable kept.ordered kept.inKey low (by omega) some_rows

theorem pageRows_ascending {segments : List Segment} {fromRowid limit : Nat} {backward : Bool}
    {bounded : (fromRowid : Int) + limit < 2 ^ 63} (kept : KeptRows topic state segments) :
    Ascending Found.rowid (inDirection backward
      (pageRows state.dir.rdFiles segments state.cache.total.rows fromRowid limit backward
        bounded)) := by
  unfold pageRows
  split
  · cases backward <;> exact List.Pairwise.nil
  · exact walk_window_ascending kept.readable kept.ordered

end

theorem inDirection_inj {α : Type} {backward : Bool} {left right : List α} :
    inDirection backward left = inDirection backward right ↔ left = right := by
  cases backward with
  | false => exact Iff.rfl
  | true => exact reverse_inj

/-- In every state of every run, a page of a filtered iterator and the page of an unfiltered one are
the same, totals and rows, exactly when the index holds every row, the unfiltered page reaches its
rows and, going down, it is the page in the middle of the key. -/
theorem filtered_page_iff (topic : Topic) (ops : List KeyOp) (cond plain : MatchCond)
    (filtered : matchCondSelectsRecords cond = true)
    (unfiltered : matchCondSelectsRecords plain = false) (iterator other : Iterator)
    (opens : openIterator (run (KeyState.step topic) KeyState.empty ops).dir.rdFiles cond
      (run (KeyState.step topic) KeyState.empty ops).cache = some iterator)
    (opensOther : openIterator (run (KeyState.step topic) KeyState.empty ops).dir.rdFiles plain
      (run (KeyState.step topic) KeyState.empty ops).cache = some other)
    (fromRowid limit : Nat) (low : 1 ≤ fromRowid) (some_rows : 0 < limit) (backward : Bool)
    (bounded : (fromRowid : Int) + limit < 2 ^ 63) :
    iteratorGetPage (run (KeyState.step topic) KeyState.empty ops).dir.rdFiles
        (run (KeyState.step topic) KeyState.empty ops).cache iterator fromRowid limit backward
        bounded =
      iteratorGetPage (run (KeyState.step topic) KeyState.empty ops).dir.rdFiles
        (run (KeyState.step topic) KeyState.empty ops).cache other fromRowid limit backward
        bounded ↔
      PagesCoincide (run (KeyState.step topic) KeyState.empty ops) cond other.segments fromRowid
        limit backward := by
  have sound := Sound.run topic ops
  have kept := KeptRows.of_appends topic ops cond []
  have keptOther := KeptRows.of_appends topic ops plain []
  rw [List.map_nil, List.append_nil] at kept keptOther
  have same := openIterator_filtered sound filtered opens
  have sameOther : other = ⟨getSegments plain (run (KeyState.step topic) KeyState.empty ops).cache,
      none⟩ := by
    rw [openIterator, unfiltered] at opensOther
    exact (Option.some.inj opensOther).symm
  rw [same, sameOther]
  have part := (@getSegments_sublist plain _ sound.counted).flatMap
    (segmentRows (run (KeyState.step topic) KeyState.empty ops).dir.rdFiles)
  generalize run (KeyState.step topic) KeyState.empty ops = state at *
  generalize getSegments plain state.cache = segments at keptOther part ⊢
  have lengthIff := index_length_iff sound cond
  have wholeIff := index_whole_iff sound cond
  have length := cacheRows_length sound
  have data : indexRowsOf state cond = cacheRows state.dir.rdFiles state.cache.files →
      (∀ found ∈ cacheRows state.dir.rdFiles state.cache.files,
        isDeletedInstance found.md = false) →
      (getPage state.dir.rdFiles state.cache ⟨getSegments cond state.cache,
          some ((indexRowsOf state cond).map Found.rowid)⟩ fromRowid limit backward bounded =
        getPage state.dir.rdFiles state.cache ⟨segments, none⟩ fromRowid limit backward bounded ↔
      ∀ found ∈ cacheRows state.dir.rdFiles state.cache.files,
        ((if backward then found.rowid ≤ state.cache.total.rows - fromRowid + 1 ∧
            state.cache.total.rows - fromRowid + 1 < found.rowid + limit
          else (fromRowid : Int) ≤ found.rowid ∧ found.rowid < (fromRowid : Int) + limit) ↔
        found ∈ segments.flatMap (segmentRows state.dir.rdFiles) ∧
          (fromRowid : Int) ≤ found.rowid ∧ found.rowid < (fromRowid : Int) + limit ∧
          Reached segments state.cache.total.rows fromRowid limit backward found.rowid)) := by
    intro whole alive
    have pieceSorted : Ascending Found.rowid (inDirection backward
        (((inDirection backward (cacheRows state.dir.rdFiles state.cache.files)).drop
          (fromRowid - 1)).take limit)) := by
      have sorted : Ascending Found.rowid (cacheRows state.dir.rdFiles state.cache.files) :=
        cacheRows_ascending sound.held
      have piece := (List.take_sublist limit _).trans (List.drop_sublist (fromRowid - 1)
        (inDirection backward (cacheRows state.dir.rdFiles state.cache.files)))
      cases backward with
      | false => exact sorted.sublist piece
      | true =>
        have back := piece.reverse
        simp only [inDirection, if_true, List.reverse_reverse] at back
        exact sorted.sublist back
    rw [getPage_index low kept whole, getPage_unfiltered keptOther.contents keptOther.readable,
      map_eq_map_iff, ← @inDirection_inj _ backward,
      Ascending.ext pieceSorted (pageRows_ascending keptOther)]
    · simp only [mem_inDirection, mem_key_piece sound low, mem_pageRows low some_rows keptOther]
      constructor
      · intro equal found inKey
        have both := equal found
        constructor
        · intro within
          obtain ⟨inside, _, rest⟩ := both.1 ⟨inKey, within⟩
          exact ⟨inside, rest⟩
        · rintro ⟨inside, rest⟩
          exact (both.2 ⟨inside, alive found inKey, rest⟩).2
      · intro equal found
        constructor
        · rintro ⟨inKey, within⟩
          obtain ⟨inside, rest⟩ := (equal found inKey).1 within
          exact ⟨inside, alive found inKey, rest⟩
        · rintro ⟨inside, -, rest⟩
          have inKey := part.subset inside
          exact ⟨inKey, (equal found inKey).2 ⟨inside, rest⟩⟩
    · intro one inPiece another inPage
      have inKey := ((mem_key_piece sound low).1 inPiece).1
      have inside := ((mem_pageRows low some_rows keptOther).1 inPage).1
      exact deliver_inj keptOther.placed inKey inside
  have answers : iteratorGetPage state.dir.rdFiles state.cache ⟨getSegments cond state.cache,
        some ((indexRowsOf state cond).map Found.rowid)⟩ fromRowid limit backward bounded =
      iteratorGetPage state.dir.rdFiles state.cache ⟨segments, none⟩ fromRowid limit backward
        bounded ↔
      indexRowsOf state cond = cacheRows state.dir.rdFiles state.cache.files ∧
        getPage state.dir.rdFiles state.cache ⟨getSegments cond state.cache,
            some ((indexRowsOf state cond).map Found.rowid)⟩ fromRowid limit backward bounded =
          getPage state.dir.rdFiles state.cache ⟨segments, none⟩ fromRowid limit backward
            bounded := by
    unfold iteratorGetPage
    dsimp only
    rw [List.length_map, Page.mk.injEq, lengthIff]
    constructor
    · exact fun both => ⟨both.1, both.2.2⟩
    · exact fun both => ⟨both.1, by rw [lengthIff.2 both.1], both.2⟩
  have exists_row : ∀ number : Int, 1 ≤ number → number ≤ state.cache.total.rows →
      ∃ found ∈ cacheRows state.dir.rdFiles state.cache.files, found.rowid = number := by
    intro number above below
    have bound : (number - 1).toNat < (cacheRows state.dir.rdFiles state.cache.files).length := by
      omega
    have there := List.getElem?_eq_getElem bound
    have place := cacheRows_place sound there
    exact ⟨_, List.getElem_mem bound, by omega⟩
  have range : ∀ found ∈ cacheRows state.dir.rdFiles state.cache.files,
      1 ≤ found.rowid ∧ found.rowid ≤ state.cache.total.rows := by
    intro found inKey
    obtain ⟨segment, numbered, row⟩ := List.mem_flatMap.1 inKey
    exact sound.rowid_range numbered row
  rw [answers]
  constructor
  · rintro ⟨whole, sameData⟩
    have all := wholeIff.1 whole
    have equal := (data whole fun found inKey => (all found inKey).1.1).1 sameData
    cases backward with
    | false =>
      refine ⟨all, fun found inKey above below => ?_, fun up => by cases up⟩
      obtain ⟨inside, _, _, joined⟩ := (equal found inKey).1 ⟨above, below⟩
      exact ⟨inside, joined⟩
    | true =>
      have centred : (fromRowid : Int) ≤ state.cache.total.rows →
          2 * (fromRowid : Int) + limit = state.cache.total.rows + 2 ∨
            fromRowid = 1 ∧ state.cache.total.rows ≤ limit := by
        intro inside
        -- the highest and the lowest row of the filtered page are rows of the other
        obtain ⟨highest, inKey, top⟩ := exists_row (state.cache.total.rows - fromRowid + 1)
          (by omega) (by omega)
        obtain ⟨_, above, below, _⟩ := (equal highest inKey).1 ⟨by omega, by omega⟩
        obtain ⟨lowest, inKey', bottom⟩ := exists_row
          (max 1 (state.cache.total.rows - fromRowid - limit + 2)) (by omega) (by omega)
        obtain ⟨_, above', _⟩ := (equal lowest inKey').1 ⟨by omega, by omega⟩
        omega
      refine ⟨all, fun found inKey above below => ?_, fun _ => centred⟩
      have bounds := range found inKey
      have middle := centred (by omega)
      obtain ⟨inside, _, _, joined⟩ := (equal found inKey).1 ⟨by omega, by omega⟩
      exact ⟨inside, joined⟩
  · rintro ⟨all, reached, centred⟩
    have whole := wholeIff.2 all
    refine ⟨whole, (data whole fun found inKey => (all found inKey).1.1).2 fun found inKey => ?_⟩
    have bounds := range found inKey
    cases backward with
    | false =>
      constructor
      · rintro ⟨above, below⟩
        obtain ⟨inside, joined⟩ := reached found inKey above below
        exact ⟨inside, above, below, joined⟩
      · rintro ⟨-, above, below, -⟩
        exact ⟨above, below⟩
    | true =>
      constructor
      · rintro ⟨below, above⟩
        have middle := centred rfl (by omega)
        obtain ⟨inside, joined⟩ := reached found inKey (by omega) (by omega)
        exact ⟨inside, by omega, by omega, joined⟩
      · rintro ⟨-, above, below, -⟩
        have middle := centred rfl (by omega)
        exact ⟨by omega, by omega⟩

/-- Three rows and a filter that they all meet: going down, the pages of the middle row coincide. -/
theorem filtered_page_middle : PagesCoincide
    (run (KeyState.step dayTopic) KeyState.empty
      ([sampleRecord 100 0 0, sampleRecord 200 0 0, sampleRecord 300 0 0].map .append))
    { fromRowid := 1 } [⟨⟨"1970-01-01", 100, 300, 0, 0, 3⟩, 1, 3⟩] 2 1 true :=
  (filtered_page_iff dayTopic _ { fromRowid := 1 } {} (by decide) (by decide)
    ⟨[⟨⟨"1970-01-01", 100, 300, 0, 0, 3⟩, 1, 3⟩], some [1, 2, 3]⟩
    ⟨[⟨⟨"1970-01-01", 100, 300, 0, 0, 3⟩, 1, 3⟩], none⟩ (by decide) (by decide) 2 1 (by decide)
    (by decide) true (by decide)).1 (by decide)

/-- Going down, the first page of a filter that every row meets is the last row of the key; without
the filter it is the first. -/
theorem backward_pages_differ : ∃ iterator other,
    openIterator (run (KeyState.step dayTopic) KeyState.empty
        ([sampleRecord 100 0 0, sampleRecord 200 0 0].map .append)).dir.rdFiles
      { fromRowid := 1 } (run (KeyState.step dayTopic) KeyState.empty
        ([sampleRecord 100 0 0, sampleRecord 200 0 0].map .append)).cache = some iterator ∧
    openIterator (run (KeyState.step dayTopic) KeyState.empty
        ([sampleRecord 100 0 0, sampleRecord 200 0 0].map .append)).dir.rdFiles
      {} (run (KeyState.step dayTopic) KeyState.empty
        ([sampleRecord 100 0 0, sampleRecord 200 0 0].map .append)).cache = some other ∧
    (∀ found ∈ keyRows (run (KeyState.step dayTopic) KeyState.empty
        ([sampleRecord 100 0 0, sampleRecord 200 0 0].map .append)).dir.rdFiles
      (run (KeyState.step dayTopic) KeyState.empty
        ([sampleRecord 100 0 0, sampleRecord 200 0 0].map .append)).cache.files,
      Wanted { fromRowid := 1 } 2 found) ∧
    iteratorGetPage (run (KeyState.step dayTopic) KeyState.empty
          ([sampleRecord 100 0 0, sampleRecord 200 0 0].map .append)).dir.rdFiles
        (run (KeyState.step dayTopic) KeyState.empty
          ([sampleRecord 100 0 0, sampleRecord 200 0 0].map .append)).cache iterator 1 1 true
        (by decide) ≠
      iteratorGetPage (run (KeyState.step dayTopic) KeyState.empty
          ([sampleRecord 100 0 0, sampleRecord 200 0 0].map .append)).dir.rdFiles
        (run (KeyState.step dayTopic) KeyState.empty
          ([sampleRecord 100 0 0, sampleRecord 200 0 0].map .append)).cache other 1 1 true
        (by decide) := by
  refine ⟨⟨[⟨⟨"1970-01-01", 100, 200, 0, 0, 2⟩, 1, 2⟩], some [1, 2]⟩,
    ⟨[⟨⟨"1970-01-01", 100, 200, 0, 0, 2⟩, 1, 2⟩], none⟩, by decide, by decide, by decide, ?_⟩
  intro same
  exact absurd (congrArg Page.data same) (by decide)

end Yunetas.Timeranger2
