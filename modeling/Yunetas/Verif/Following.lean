import Yunetas.Timeranger2.Growth
import Yunetas.Timeranger2.Placed
import Yunetas.Timeranger2.Session
import Yunetas.Timeranger2.Topic
import Yunetas.Verif.Loading

/-!
# Loading and following

`tranger2_open_list` loads the records of a topic and then follows it: every append of a wanted
key reaches its callback. To open the list before some appends or after them should be the same.
A load matches every row against the conditions, but the feed looks at the key alone. The two
orders agree exactly when every appended record would be loaded too and the appends do not change
what a load delivers of the earlier rows.
-/

namespace Yunetas.Timeranger2

open List

/-- The conditions of a list with a realtime feed. -/
structure ListCond where
  /-- `match_cond`. -/
  cond : MatchCond
  /-- `list_wants_key`. -/
  wants : String → Bool
  realtime : cond.toRowid = 0

/-- What the callback of a list receives, the mark of a load apart. -/
def Delivery.record (delivery : Delivery) : Delivery :=
  { delivery with
    md := { delivery.md with systemFlag := delivery.md.systemFlag ||| sfLoadingFromDisk } }

/-- What the feed of a list receives while records are appended. -/
def followed (topic : Topic) (cond : MatchCond) (state : KeyState) : List Append → List Delivery
  | [] => []
  | record :: rest =>
    let (state, appended) := appendRecord topic state record
    feedLists [cond] appended ++ followed topic cond state rest

/-- Open a list and then append some records: what the callback receives for a key. -/
def loadThenFollow (topic : Topic) (list : ListCond) (store : Store) (key : String)
    (records : List (PkeyValue × Append)) : List Delivery :=
  if list.wants key then
    (loadIterator (store.key key).dir.rdFiles list.cond (store.key key).cache ++
      followed topic list.cond (store.key key) (recordsOfKey topic records key)).map Delivery.record
  else []

/-- Append some records and then open a list: what the callback receives for a key. -/
def followThenLoad (topic : Topic) (list : ListCond) (store : Store) (key : String)
    (records : List (PkeyValue × Append)) : List Delivery :=
  if list.wants key then
    (loadIterator ((store.appendAll topic records).key key).dir.rdFiles list.cond
      ((store.appendAll topic records).key key).cache).map Delivery.record
  else []

/-- The rows of some appended records, with their numbers. -/
def appendedRows (topic : Topic) (state : KeyState) : List Append → List Found
  | [] => []
  | record :: rest =>
    let (state, appended) := appendRecord topic state record
    ⟨appended.rowid, topic.fileOf record.time, appended.md⟩ :: appendedRows topic state rest

/-- A load delivers a row: it is alive, matches and is reached. -/
def Loads (state : KeyState) (cond : MatchCond) (found : Found) : Prop :=
  keeps cond state.cache.total.rows found = true ∧ LoadReaches state cond found

/-- The appends after which a load agrees with the feed. -/
structure FollowSafe (topic : Topic) (state : KeyState) (cond : MatchCond)
    (records : List Append) : Prop where
  meets : ∀ found ∈ appendedRows topic state records,
    keeps cond (state.appendAll topic records).cache.total.rows found = true
  reached : ∀ found ∈ appendedRows topic state records,
    LoadReaches (state.appendAll topic records) cond found
  earlier : ∀ found ∈ cacheRows state.dir.rdFiles state.cache.files,
    Loads state cond found ↔ Loads (state.appendAll topic records) cond found
  /-- A load that goes backward delivers the last record first: there is no more than one. -/
  single : cond.backward = true → records.length ≤ 1 ∧
    (records ≠ [] → ∀ found ∈ cacheRows state.dir.rdFiles state.cache.files,
      ¬ Loads state cond found)

/-! ## Rows after some appends -/

section

variable (topic : Topic) {state : KeyState} (sound : Sound state) (records : List Append)
include topic sound records

theorem cacheRows_appendAll :
    (∃ added, cacheRows (state.appendAll topic records).dir.rdFiles
        (state.appendAll topic records).cache.files =
      cacheRows state.dir.rdFiles state.cache.files ++ added ∧
      ∀ found ∈ added, state.cache.total.rows < found.rowid) ∧
    (state.appendAll topic records).cache.total.rows = state.cache.total.rows + records.length := by
  induction records generalizing state with
  | nil => exact ⟨⟨[], (append_nil _).symm, fun _ among => absurd among not_mem_nil⟩,
      by simp [KeyState.appendAll]⟩
  | cons record rest ih =>
    have later : Sound (appendRecord topic state record).1 := sound.append record
    have ⟨found, one, number⟩ := cacheRows_append topic sound record
    have total := appendRecord_total topic state record
    have ⟨⟨added, more, numbers⟩, totals⟩ := ih later
    have unfolded : state.appendAll topic (record :: rest) =
        (appendRecord topic state record).1.appendAll topic rest := rfl
    refine ⟨⟨found :: added, ?_, fun other among => ?_⟩, ?_⟩
    · rw [unfolded, more, one, append_assoc, singleton_append]
    · rcases mem_cons.1 among with rfl | inAdded
      · omega
      · have := numbers other inAdded
        omega
    · rw [unfolded, totals, total, length_cons]
      push_cast
      omega

theorem appendedRows_numbers :
    Ascending Found.rowid (appendedRows topic state records) ∧
      (∀ found ∈ appendedRows topic state records, state.cache.total.rows < found.rowid) ∧
      ∀ rowid, state.cache.total.rows < rowid → rowid ≤ state.cache.total.rows + records.length →
          ∃ found ∈ appendedRows topic state records, found.rowid = rowid := by
  induction records generalizing state with
  | nil =>
    refine ⟨List.Pairwise.nil, fun _ among => absurd among not_mem_nil, ?_⟩
    intro rowid low high
    simp only [length_nil, Nat.cast_zero] at high
    omega
  | cons record rest ih =>
    have later : Sound (appendRecord topic state record).1 := sound.append record
    have total := appendRecord_total topic state record
    have number : (appendRecord topic state record).2.rowid = state.cache.total.rows + 1 := total
    have ⟨ascending, above, every⟩ := ih later
    refine ⟨pairwise_cons.2 ⟨fun found among => ?_, ascending⟩, fun found among => ?_,
      fun rowid low high => ?_⟩
    · have := above found among
      show (appendRecord topic state record).2.rowid < found.rowid
      omega
    · rcases mem_cons.1 among with rfl | inRest
      · show state.cache.total.rows < (appendRecord topic state record).2.rowid
        omega
      · have := above found inRest
        omega
    · rw [length_cons] at high
      push_cast at high
      rcases eq_or_lt_of_le (show state.cache.total.rows + 1 ≤ rowid by omega) with first | after
      · exact ⟨_, mem_cons_self, number.trans first⟩
      · have ⟨found, among, same⟩ := every rowid (by omega) (by omega)
        exact ⟨found, mem_cons_of_mem _ among, same⟩

end

/-! ## What the callback receives -/

/-- A row is in its file, at its place. -/
def StoredAt (dir : KeyDir) (found : Found) : Prop :=
  ∃ (index : Nat) (row : Md2Record), (dir.rows found.id)[index]? = some row ∧
    found.md = row.decode (index + 1)

/-- What the callback receives of a row. -/
def callbackRecord (dir : KeyDir) (cond : MatchCond) (found : Found) : Delivery :=
  Delivery.record ⟨found.rowid, found.md,
    if cond.onlyMd then none else readRecordContent dir.rdFiles found.id found.md⟩

theorem callbackRecord_inj {topic : Topic} {dir : KeyDir} (placed : Placed topic dir)
    {cond : MatchCond} {left right : Found} (leftStored : StoredAt dir left)
    (rightStored : StoredAt dir right)
    (same : callbackRecord dir cond left = callbackRecord dir cond right) : left = right := by
  obtain ⟨leftRowid, leftId, leftMd⟩ := left
  obtain ⟨rightRowid, rightId, rightMd⟩ := right
  obtain ⟨leftIndex, leftRow, leftThere, leftDecoded⟩ := leftStored
  obtain ⟨rightIndex, rightRow, rightThere, rightDecoded⟩ := rightStored
  subst leftDecoded
  subst rightDecoded
  simp only [callbackRecord, Delivery.record, Delivery.mk.injEq, Md2RecordEx.mk.injEq,
    Md2Record.decode] at same
  obtain ⟨sameRowid, ⟨sameT, _, _, _, _, _, sameIndex⟩, _⟩ := same
  have leftFile := placed.filed leftId leftRow (mem_of_getElem? leftThere)
  have rightFile := placed.filed rightId rightRow (mem_of_getElem? rightThere)
  rw [UInt64.toNat_inj.1 sameT, rightFile] at leftFile
  obtain rfl : rightId = leftId := leftFile
  obtain rfl : leftIndex = rightIndex := by omega
  obtain rfl := Option.some.inj (leftThere.symm.trans rightThere)
  rw [sameRowid]

theorem storedAt_of_mem {dir : KeyDir} {cells : List Cell} {found : Found}
    (among : found ∈ cacheRows dir.rdFiles cells) : StoredAt dir found := by
  have ⟨segment, _, row⟩ := mem_flatMap.1 among
  have ⟨position, there⟩ := mem_iff_getElem?.1 row
  have ⟨_, _, sameId, stored, inFile, md⟩ := segmentRows_at there
  rw [← sameId] at inFile
  exact ⟨position, stored, inFile, md⟩

section

variable {topic : Topic} {state : KeyState}

theorem appendAll_storedAt (records : List Append) {found : Found}
    (stored : StoredAt state.dir found) :
    StoredAt (state.appendAll topic records).dir found := by
  induction records generalizing state with
  | nil => exact stored
  | cons record rest ih =>
    refine ih ?_
    have ⟨index, row, there, md⟩ := stored
    refine ⟨index, row, ?_, md⟩
    have ⟨bound, _⟩ := List.getElem?_eq_some_iff.1 there
    rw [appendRecord_rows]
    split
    · rename_i same
      rw [same] at there bound
      rw [getElem?_append_left bound, there]
    · exact there

theorem appendAll_content (records : List Append) {file : String} {md : Md2RecordEx}
    {text : List UInt8} (read : readRecordContent state.dir.rdFiles file md = some text) :
    readRecordContent (state.appendAll topic records).dir.rdFiles file md = some text := by
  induction records generalizing state with
  | nil => exact read
  | cons record rest ih =>
    exact ih (appendRecord_content read)

theorem appendedRows_storedAt (records : List Append) :
    ∀ found ∈ appendedRows topic state records,
      StoredAt (state.appendAll topic records).dir found := by
  induction records generalizing state with
  | nil => exact fun _ among => absurd among not_mem_nil
  | cons record rest ih =>
    intro found among
    rcases mem_cons.1 among with rfl | inRest
    · refine appendAll_storedAt rest ?_
      refine ⟨(state.dir.rows (topic.fileOf record.time)).length,
        record.row topic (state.dir.bytes (topic.fileOf record.time)).length, ?_, rfl⟩
      rw [appendRecord_rows, if_pos rfl, getElem?_concat_length]
    · exact ih found inRest

theorem followed_eq (cond : MatchCond) (records : List Append) :
    (followed topic cond state records).map Delivery.record = (appendedRows topic state records).map
        (callbackRecord (state.appendAll topic records).dir cond) := by
  induction records generalizing state with
  | nil => rfl
  | cons record rest ih =>
    have later := @ih (appendRecord topic state record).1
    have unfolded : state.appendAll topic (record :: rest) =
        (appendRecord topic state record).1.appendAll topic rest := rfl
    have content : readRecordContent
        ((appendRecord topic state record).1.appendAll topic rest).dir.rdFiles
        (topic.fileOf record.time) (appendRecord topic state record).2.md = some record.text :=
      appendAll_content rest (appendRecord_own_content topic state record)
    have text : (appendRecord topic state record).2.text = record.text := rfl
    simp [followed, appendedRows, feedLists, unfolded, later, callbackRecord, content, text]

theorem loadIterator_eq (placed : Placed topic state.dir) (sound : Sound state)
    (cond : MatchCond) (records : List Append) :
    (loadIterator state.dir.rdFiles cond state.cache).map Delivery.record =
      (loadedRows state cond).map (callbackRecord (state.appendAll topic records).dir cond) := by
  rw [loadIterator, map_map]
  refine map_congr_left fun found among => ?_
  have inRows : found ∈ cacheRows state.dir.rdFiles state.cache.files := by
    have ⟨inSegments, _⟩ := (mem_loadedRows sound cond found).1 among
    have ⟨segment, picked, row⟩ := mem_flatMap.1 inSegments
    exact mem_flatMap.2 ⟨segment, (getSegments_sublist sound.counted).subset picked, row⟩
  have ⟨index, row, there, md⟩ := storedAt_of_mem inRows
  have ⟨text, read⟩ := placed.readable (mem_of_getElem? there) (index + 1)
  rw [← md] at read
  simp [Function.comp_apply, callbackRecord, Delivery.record, read, appendAll_content records read,
    UInt16.or_assoc, UInt16.or_self]

end

/-! ## The two orders -/

section

variable {topic : Topic} {state : KeyState}

theorem mem_loadedRows_iff (sound : Sound state) (cond : MatchCond) (found : Found) :
    (found ∈ loadedRows state cond ↔ Loads state cond found) ∧
      (Loads state cond found → found ∈ cacheRows state.dir.rdFiles state.cache.files) := by
  have inSegments : Loads state cond found →
      found ∈ (getSegments cond state.cache).flatMap (segmentRows state.dir.rdFiles) := by
    rintro ⟨-, joined, -⟩
    have turned := (joinedRows_sublist state.dir.rdFiles cond state.cache.total.rows
      (getSegments cond state.cache)).subset joined
    rw [inDirection] at turned
    split at turned
    · exact mem_reverse.1 turned
    · exact turned
  rw [mem_loadedRows sound]
  refine ⟨⟨fun both => both.2, fun loads => ⟨inSegments loads, loads⟩⟩, fun loads => ?_⟩
  obtain ⟨segment, picked, row⟩ := mem_flatMap.1 (inSegments loads)
  exact mem_flatMap.2 ⟨segment, (getSegments_sublist sound.counted).subset picked, row⟩

theorem appendedRows_length (topic : Topic) (state : KeyState) (records : List Append) :
    (appendedRows topic state records).length = records.length := by
  induction records generalizing state with
  | nil => rfl
  | cons record rest ih =>
    rw [appendedRows, length_cons, length_cons, ih]

/-- What is loaded before the appends with what is fed is what is loaded after them, row by row,
when both lists are in the order of one key. -/
theorem loaded_eq_of_safe (sound : Sound state) {cond : MatchCond} {records : List Append}
    (soundAfter : Sound (state.appendAll topic records))
    (safe : FollowSafe topic state cond records) (key : Found → Int)
    (before : Ascending key (loadedRows state cond ++ appendedRows topic state records))
    (after : Ascending key (loadedRows (state.appendAll topic records) cond)) :
    loadedRows state cond ++ appendedRows topic state records =
      loadedRows (state.appendAll topic records) cond := by
  have ⟨⟨added, rows, numbers⟩, totals⟩ := cacheRows_appendAll topic sound records
  have ⟨_, _, every⟩ := appendedRows_numbers topic sound records
  refine (Ascending.ext before after).2 fun found => ?_
  rw [mem_append, (mem_loadedRows_iff sound cond found).1,
    (mem_loadedRows_iff soundAfter cond found).1]
  constructor
  · rintro (old | new)
    · exact (safe.earlier found ((mem_loadedRows_iff sound cond found).2 old)).1 old
    · exact ⟨safe.meets found new, safe.reached found new⟩
  · intro loads
    have inside := (mem_loadedRows_iff soundAfter cond found).2 loads
    have numbered := inside
    rw [rows, mem_append] at inside
    rcases inside with old | new
    · exact Or.inl ((safe.earlier found old).2 loads)
    · have ⟨segment, placed, row⟩ := mem_flatMap.1 numbered
      have range := soundAfter.rowid_range placed row
      have ⟨other, among, same⟩ := every found.rowid (numbers found new) (by omega)
      have otherLoads : Loads (state.appendAll topic records) cond other :=
        ⟨safe.meets other among, safe.reached other among⟩
      have otherInside := (mem_loadedRows_iff soundAfter cond other).2 otherLoads
      rw [← (cacheRows_ascending soundAfter.held).eq_of_key otherInside numbered same]
      exact Or.inr among

theorem loaded_eq_iff (sound : Sound state) (cond : MatchCond) (records : List Append) :
    loadedRows state cond ++ appendedRows topic state records =
        loadedRows (state.appendAll topic records) cond ↔
      FollowSafe topic state cond records := by
  have soundAfter : Sound (state.appendAll topic records) := by
    rw [KeyState.appendAll_eq_run]
    exact run_invariant (KeyState.step topic) Sound (fun _ op kept => kept.step op) sound _
  have sorted := loadedRows_ascending sound cond
  have sortedAfter := loadedRows_ascending soundAfter cond
  obtain ⟨ascending, above, _⟩ := appendedRows_numbers topic sound records
  have low : ∀ found, Loads state cond found → found.rowid ≤ state.cache.total.rows := by
    intro found loads
    obtain ⟨segment, placed, row⟩ := mem_flatMap.1 ((mem_loadedRows_iff sound cond found).2 loads)
    exact (sound.rowid_range placed row).2
  rw [inDirection] at sorted sortedAfter
  constructor
  · intro same
    have member : ∀ found, Loads (state.appendAll topic records) cond found ↔
        found ∈ loadedRows state cond ∨ found ∈ appendedRows topic state records := by
      intro found
      rw [← mem_append, same, (mem_loadedRows_iff soundAfter cond found).1]
    refine ⟨fun found among => ((member found).2 (Or.inr among)).1,
      fun found among => ((member found).2 (Or.inr among)).2, fun found inside => ?_,
      fun backward => ?_⟩
    · rw [member, (mem_loadedRows_iff sound cond found).1]
      refine ⟨Or.inl, ?_⟩
      rintro (old | new)
      · exact old
      · obtain ⟨segment, placed, row⟩ := mem_flatMap.1 inside
        have range := sound.rowid_range placed row
        have := above found new
        omega
    · rw [if_pos backward, ← same, ← ascending_reverse, reverse_reverse, Ascending,
        pairwise_append] at sortedAfter
      obtain ⟨_, descending, cross⟩ := sortedAfter
      have single : records.length ≤ 1 := by
        rw [← appendedRows_length topic state]
        by_contra more
        have first := pairwise_iff_getElem.1 ascending 0 1 (by omega) (by omega) (by omega)
        have second := pairwise_iff_getElem.1 descending 0 1 (by omega) (by omega) (by omega)
        omega
      refine ⟨single, fun some_records found _ loads => ?_⟩
      have filled : appendedRows topic state records ≠ [] := by
        rw [← length_pos_iff_ne_nil, appendedRows_length]
        exact length_pos_iff_ne_nil.2 some_records
      obtain ⟨last, among⟩ := exists_mem_of_ne_nil _ filled
      have order := cross found ((mem_loadedRows_iff sound cond found).1.2 loads) last among
      have := low found loads
      have := above last among
      omega
  · intro safe
    cases backward : cond.backward with
    | false =>
      rw [if_neg (by simp [backward])] at sorted sortedAfter
      refine loaded_eq_of_safe sound soundAfter safe Found.rowid ?_ sortedAfter
      refine pairwise_append.2 ⟨sorted, ascending, fun found inLoaded last among => ?_⟩
      have := low found ((mem_loadedRows_iff sound cond found).1.1 inLoaded)
      have := above last among
      omega
    | true =>
      rw [if_pos backward] at sorted sortedAfter
      obtain ⟨single, alone⟩ := safe.single backward
      refine loaded_eq_of_safe sound soundAfter safe (fun found => -found.rowid) ?_ ?_
      · rw [← ascending_reverse, reverse_reverse] at sorted
        refine pairwise_append.2 ⟨sorted, ?_, fun found inLoaded last among => ?_⟩
        · rw [← appendedRows_length topic state] at single
          rw [pairwise_iff_getElem]
          intro i j iLt jLt order
          omega
        · have filled : records ≠ [] := by
            rintro rfl
            exact absurd among not_mem_nil
          have loads := (mem_loadedRows_iff sound cond found).1.1 inLoaded
          exact absurd loads (alone filled found ((mem_loadedRows_iff sound cond found).2 loads))
      · rw [← ascending_reverse, reverse_reverse] at sortedAfter
        exact sortedAfter

theorem callback_eq_iff (placed : Placed topic state.dir) (sound : Sound state)
    (cond : MatchCond) (records : List Append) :
    (loadIterator state.dir.rdFiles cond state.cache ++
        followed topic cond state records).map Delivery.record =
      (loadIterator (state.appendAll topic records).dir.rdFiles cond
        (state.appendAll topic records).cache).map Delivery.record ↔
      FollowSafe topic state cond records := by
  have soundAfter : Sound (state.appendAll topic records) := by
    rw [KeyState.appendAll_eq_run]
    exact run_invariant (KeyState.step topic) Sound (fun _ op kept => kept.step op) sound _
  have placedAfter : Placed topic (state.appendAll topic records).dir := by
    rw [KeyState.appendAll_eq_run]
    exact run_invariant (KeyState.step topic) (fun state => Placed topic state.dir)
      (fun _ op kept => kept.step op) placed _
  have storedAfter : ∀ found ∈ loadedRows (state.appendAll topic records) cond,
      StoredAt (state.appendAll topic records).dir found := fun found among =>
    storedAt_of_mem ((mem_loadedRows_iff soundAfter cond found).2
      ((mem_loadedRows_iff soundAfter cond found).1.1 among))
  have storedBefore : ∀ found ∈ loadedRows state cond ++ appendedRows topic state records,
      StoredAt (state.appendAll topic records).dir found := by
    intro found among
    rcases mem_append.1 among with old | new
    · exact appendAll_storedAt records (storedAt_of_mem ((mem_loadedRows_iff sound cond found).2
        ((mem_loadedRows_iff sound cond found).1.1 old)))
    · exact appendedRows_storedAt records found new
  have after := loadIterator_eq placedAfter soundAfter cond []
  rw [map_append, loadIterator_eq placed sound cond records, followed_eq, ← map_append, after]
  rw [show (state.appendAll topic records).appendAll topic [] = state.appendAll topic records
    from rfl, map_eq_map_iff fun left inLeft right inRight =>
      callbackRecord_inj placedAfter (storedBefore left inLeft) (storedAfter right inRight),
    loaded_eq_iff sound]

end

end Yunetas.Timeranger2
