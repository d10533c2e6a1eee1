import Yunetas.Timeranger2.Numbering
import Yunetas.Timeranger2.Placed
import Yunetas.Timeranger2.Session

/-!
# Deleted instances

Once `tranger2_delete_instance` returned 0 the row should not be delivered again and its
tombstone should stay. The tombstone stays: no operation clears it. Every reader skips it but
one: a page of a filtered iterator serves the rowids of an index that was built when the iterator
was opened, and does not look at the tombstones of its rows.
-/

namespace Yunetas.Timeranger2

open List Option Md2Record

/-- A session with the instances that were deleted, each by its time and its row in the file. -/
structure Graves where
  session : Session
  deleted : List (UInt64 × Nat)

/-- No key, no readers, nothing deleted. -/
def Graves.empty : Graves := ⟨.empty, []⟩

/-- The instance that a request deleted, when `tranger2_delete_instance` returned 0. -/
def deletedBy (topic : Topic) (state : KeyState) : Request → List (UInt64 × Nat)
  | .write (.deleteInstance t rowid zeroPayload) =>
    if (deleteInstance topic state t rowid zeroPayload).2 = 0 then
      match (getMdRecordForWr topic state.dir t rowid).2 with
      | some (index, _) => [(t, index + 1)]
      | none => []
    else []
  | _ => []

/-- A request, with what it deletes. -/
def Graves.step (topic : Topic) (graves : Graves) (request : Request) : Graves :=
  ⟨(graves.session.step topic request).1,
    graves.deleted ++ deletedBy topic graves.session.state request⟩

/-- An instance has its tombstone on disk. -/
def Buried (topic : Topic) (dir : KeyDir) (entry : UInt64 × Nat) : Prop :=
  ∃ index row, entry.2 = index + 1 ∧ (dir.rows (topic.fileOf entry.1))[index]? = some row ∧
    row.getTimeT = entry.1 ∧ row.Deleted

/-- A metadata is the one of an instance. -/
def IsInstance (md : Md2RecordEx) (entry : UInt64 × Nat) : Prop :=
  md.t = entry.1.toNat ∧ md.rowid = entry.2

instance (md : Md2RecordEx) (entry : UInt64 × Nat) : Decidable (IsInstance md entry) :=
  inferInstanceAs (Decidable (_ ∧ _))

/-- A request delivers no deleted instance and leaves every tombstone on disk. -/
def StaysDeleted (topic : Topic) (graves : Graves) (request : Request) : Prop :=
  (∀ delivery ∈ (graves.session.step topic request).2, ∀ entry ∈ graves.deleted,
    ¬ IsInstance delivery.md entry) ∧
  ∀ entry ∈ (graves.step topic request).deleted,
    Buried topic (graves.step topic request).session.state.dir entry

/-- The rowids that a page of a filtered iterator asks for. -/
def askedRowids (index : List Int) (fromRowid limit : Nat) (backward : Bool) : List Int :=
  if fromRowid = 0 ∨ fromRowid > index.length then []
  else ((if backward then index.reverse else index).drop (fromRowid - 1)).take limit

/-- A page of a filtered iterator asks for no row that was deleted since the iterator was opened. -/
def PageAlive (graves : Graves) (position fromRowid limit : Nat) (backward : Bool) : Prop :=
  ∀ iterator index, graves.session.iterators[position]? = some iterator →
    iterator.index = some index → ∀ rowid ∈ askedRowids index fromRowid limit backward,
      ∀ row, indexedRow graves.session.state.dir.rdFiles iterator.segments rowid = some row →
        ∀ entry ∈ graves.deleted, ¬ IsInstance row.md entry

/-- A request is no page of a filtered iterator over a row deleted since it was opened. -/
def AsksAlive (graves : Graves) : Request → Prop
  | .getPage position fromRowid limit backward _ =>
    PageAlive graves position fromRowid limit backward
  | _ => True

/-! ## What a session keeps -/

/-- What every request keeps. -/
structure Kept (topic : Topic) (graves : Graves) : Prop where
  placed : Placed topic graves.session.state.dir
  buried : ∀ entry ∈ graves.deleted, Buried topic graves.session.state.dir entry
  sound : Sound graves.session.state
  indexed : ∀ iterator ∈ graves.session.iterators, ∀ index, iterator.index = some index →
    ∀ rowid ∈ index,
      (indexedRow graves.session.state.dir.rdFiles iterator.segments rowid).isSome

variable {topic : Topic} {graves : Graves}

theorem Buried.extends {old new : KeyDir} {entry : UInt64 × Nat}
    (grows : Extends old new) (buried : Buried topic old entry) : Buried topic new entry := by
  have ⟨index, row, number, stored, time, dead⟩ := buried
  have ⟨row', stored', kept⟩ := grows _ _ _ stored
  exact ⟨index, row', number, stored', kept.t.trans time, kept.deleted dead⟩

theorem Kept.alive (kept : Kept topic graves) {md : Md2RecordEx}
    (stored : Stored graves.session.state.dir md) (alive : isDeletedInstance md = false) :
    ∀ entry ∈ graves.deleted, ¬ IsInstance md entry := by
  rintro entry among ⟨sameTime, sameRow⟩
  have ⟨index, row, number, inFile, time, dead⟩ := kept.buried entry among
  obtain ⟨file, position, row', inFile', rfl⟩ := stored
  have sameT : row'.getTimeT = entry.1 := UInt64.toNat_inj.1 sameTime
  have file' := kept.placed.filed file row' (mem_of_getElem? inFile')
  rw [sameT] at file'
  subst file'
  obtain rfl : position = index := by
    change position + 1 = entry.2 at sameRow
    omega
  obtain rfl : row' = row := some.inj (inFile'.symm.trans inFile)
  rw [(isDeletedInstance_decode row' _).2 dead] at alive
  contradiction

/-- A directory with the same rows, or other ones at the end of a file, keeps what an index can
find. -/
theorem indexedRow_isSome_extends {old new : KeyDir} (grows : Extends old new)
    {segments : List Segment} {rowid : Int}
    (found : (indexedRow old.rdFiles segments rowid).isSome) :
    (indexedRow new.rdFiles segments rowid).isSome := by
  obtain ⟨row, there⟩ := isSome_iff_exists.1 found
  simp only [indexedRow, bind_eq_bind, bind_eq_some_iff] at there
  obtain ⟨segment, picked, md, read, _⟩ := there
  have later : ∃ md', getMdByRowid new.rdFiles segment rowid = some md' := by
    simp only [getMdByRowid, readMd] at read ⊢
    split_ifs at read ⊢ with outside low
    simp only [KeyDir.rdFiles, bind_eq_bind, bind_eq_some_iff] at read
    obtain ⟨rows, opened, row', stored, _⟩ := read
    have inOld : (old.rows segment.cell.id)[(rowid - segment.firstRow + 1 - 1).toNat]? =
        some row' := by
      rw [KeyDir.rows, opened, getD_some, stored]
    obtain ⟨row'', inNew, _⟩ := grows _ _ _ inOld
    cases newOpened : new.md2.get? segment.cell.id with
    | none => simp [KeyDir.rows, newOpened] at inNew
    | some newRows =>
      rw [KeyDir.rows, newOpened, getD_some] at inNew
      simp only [KeyDir.rdFiles, newOpened, bind_eq_bind, bind_some, inNew]
      exact ⟨_, rfl⟩
  obtain ⟨md', read'⟩ := later
  simp [indexedRow, picked, read']

theorem deletedBy_buried {state : KeyState} {request : Request}
    {entry : UInt64 × Nat} (among : entry ∈ deletedBy topic state request) :
    ∃ op, request = .write op ∧ Buried topic (state.step topic op).dir entry := by
  cases request with
  | write op =>
    cases op with
    | deleteInstance t rowid zeroPayload =>
      refine ⟨_, rfl, ?_⟩
      simp only [deletedBy] at among
      split_ifs at among with done
      · cases loaded : getMdRecordForWr topic state.dir t rowid with
        | mk dir found =>
          obtain ⟨same, spec⟩ := getMdRecordForWr_spec loaded
          rw [loaded] at among
          cases found with
          | none => exact absurd among not_mem_nil
          | some pair =>
            obtain ⟨index, row⟩ := pair
            obtain ⟨stored, time⟩ := spec index row rfl
            obtain rfl := mem_singleton.1 among
            have inDir := stored
            rw [← same] at inDir
            obtain ⟨bound, _⟩ := List.getElem?_eq_some_iff.1 inDir
            have written : ∀ fileId, KeyDir.rows (rewriteMdToFile dir (topic.fileOf t) index
                (row.setSystemFlag (row.getSystemFlag ||| sfDeletedInstance))) fileId = _ :=
              fun fileId => rows_set dir _ _ _ fileId
            have dead : (row.setSystemFlag (row.getSystemFlag ||| sfDeletedInstance)).Deleted := by
              rw [Md2Record.Deleted, getSystemFlag_setSystemFlag, deleted_iff_bit,
                UInt16.toNat_or, Nat.testBit_or]
              have : sfDeletedInstance.toNat.testBit 10 = true := by decide
              rw [this, Bool.or_true]
            have tombstone : Buried topic (rewriteMdToFile dir (topic.fileOf t) index
                (row.setSystemFlag (row.getSystemFlag ||| sfDeletedInstance))) (t, index + 1) := by
              refine ⟨index, _, rfl, ?_, ?_, dead⟩
              · rw [written, if_pos rfl]
                exact getElem?_set_self bound
              · rw [getTimeT_setSystemFlag, time]
            simp only [deleteInstance, loaded] at done
            simp only [KeyState.step, deleteInstance, loaded]
            split_ifs at done ⊢ with immutable already wipe
            · simp at done
            · exact ⟨index, row, rfl, inDir, time, already⟩
            · obtain ⟨position, other, number, there, rest⟩ := tombstone
              exact ⟨position, other, number, by rw [zeroBytes_rows]; exact there, rest⟩
            · exact tombstone
      · exact absurd among not_mem_nil
    | _ => exact absurd among not_mem_nil
  | _ => exact absurd among not_mem_nil

/-- What a request does to the key: an operation does what it does, any other request nothing. -/
theorem session_step_state (topic : Topic) (session : Session) (request : Request) :
    (∃ op, request = .write op ∧ (session.step topic request).1.state = session.state.step topic op ∧
      ∀ iterator ∈ (session.step topic request).1.iterators, iterator ∈ session.iterators) ∨
    (deletedBy topic session.state request = [] ∧
      (session.step topic request).1.state = session.state ∧
      ∀ iterator ∈ (session.step topic request).1.iterators, iterator ∈ session.iterators ∨
        ∃ cond, openIterator session.state.dir.rdFiles cond session.state.cache = some iterator) := by
  cases request with
  | write op =>
    refine Or.inl ⟨op, rfl, ?_⟩
    cases op with
    | reopen => exact ⟨rfl, fun iterator among => absurd among not_mem_nil⟩
    | append _ => exact ⟨rfl, fun iterator among => among⟩
    | writeUserFlag _ _ _ => exact ⟨rfl, fun iterator among => among⟩
    | setUserFlag _ _ _ _ => exact ⟨rfl, fun iterator among => among⟩
    | setSystemFlag _ _ _ _ => exact ⟨rfl, fun iterator among => among⟩
    | deleteInstance _ _ _ => exact ⟨rfl, fun iterator among => among⟩
  | load cond => exact Or.inr ⟨rfl, rfl, fun iterator among => Or.inl among⟩
  | openIterator cond =>
    simp only [Session.step]
    cases opened : openIterator session.state.dir.rdFiles cond session.state.cache with
    | none => exact Or.inr ⟨rfl, rfl, fun iterator among => Or.inl among⟩
    | some new =>
      refine Or.inr ⟨rfl, rfl, fun iterator among => ?_⟩
      rcases mem_append.1 among with old | added
      · exact Or.inl old
      · rw [mem_singleton.1 added]
        exact Or.inr ⟨cond, opened⟩
  | getPage position fromRowid limit backward bounded =>
    simp only [Session.step]
    cases session.iterators[position]? with
    | none => exact Or.inr ⟨rfl, rfl, fun iterator among => Or.inl among⟩
    | some picked => exact Or.inr ⟨rfl, rfl, fun iterator among => Or.inl among⟩
  | openList cond => exact Or.inr ⟨rfl, rfl, fun iterator among => Or.inl among⟩
  | publish fileId fileBase first last =>
    exact Or.inr ⟨rfl, rfl, fun iterator among => Or.inl among⟩

theorem openIterator_indexed {state : KeyState} (sound : Sound state) {cond : MatchCond}
    {iterator : Iterator} (opened : openIterator state.dir.rdFiles cond state.cache = some iterator)
    {index : List Int} (isIndex : iterator.index = some index) {rowid : Int}
    (among : rowid ∈ index) :
    (indexedRow state.dir.rdFiles iterator.segments rowid).isSome := by
  have readable := sound.readable cond
  simp only [openIterator] at opened
  split_ifs at opened
  · rw [buildIteratorIndex, indexSegments_eq readable, map_some] at opened
    obtain rfl := some.inj opened
    obtain rfl := some.inj isIndex
    obtain ⟨found, scanned, rfl⟩ := mem_map.1 among
    have row := (scan_sublist _ _ _).subset scanned
    rw [indexedRow_of_mem readable (sound.ordered cond) row]
    rfl
  · obtain rfl := some.inj opened
    exact absurd isIndex (by simp)

theorem Kept.step (kept : Kept topic graves)
    (request : Request) : Kept topic (graves.step topic request) := by
  rcases session_step_state topic graves.session request with ⟨op, rfl, state, iterators⟩ |
    ⟨nothing, state, iterators⟩
  · have grows := step_extends topic graves.session.state op
    refine ⟨?_, fun entry among => ?_, ?_, fun iterator among index isIndex rowid inside => ?_⟩
    · rw [Graves.step, state]
      exact kept.placed.step op
    · rw [Graves.step, state]
      rcases mem_append.1 among with old | new
      · exact (kept.buried entry old).extends grows
      · have ⟨op', same, buried⟩ := deletedBy_buried new
        obtain rfl := Request.write.inj same
        exact buried
    · rw [Graves.step, state]
      exact kept.sound.step op
    · rw [Graves.step, state]
      exact indexedRow_isSome_extends grows
        (kept.indexed iterator (iterators iterator among) index isIndex rowid inside)
  · refine ⟨?_, fun entry among => ?_, ?_, fun iterator among index isIndex rowid inside => ?_⟩
    · rw [Graves.step, state]
      exact kept.placed
    · simp only [Graves.step, nothing, append_nil] at among
      rw [Graves.step, state]
      exact kept.buried entry among
    · rw [Graves.step, state]
      exact kept.sound
    · rw [Graves.step, state]
      rcases iterators iterator among with old | ⟨cond, opened⟩
      · exact kept.indexed iterator old index isIndex rowid inside
      · exact openIterator_indexed kept.sound opened isIndex inside

theorem Kept.empty (topic : Topic) : Kept topic Graves.empty where
  placed := Placed.empty topic
  buried := fun _ among => absurd among not_mem_nil
  sound := Sound.empty
  indexed := fun _ among => absurd among not_mem_nil

/-! ## Deliveries -/

section

variable (kept : Kept topic graves)
include kept

theorem loadIterator_alive
    (cond : MatchCond) : ∀ delivery ∈ loadIterator graves.session.state.dir.rdFiles cond
      graves.session.state.cache, ∀ entry ∈ graves.deleted, ¬ IsInstance delivery.md entry := by
  intro delivery among entry inDeleted same
  obtain ⟨found, walked, rfl⟩ := mem_map.1 among
  have ⟨stored, alive⟩ := walk_stored walked
  exact kept.alive stored alive entry inDeleted same

theorem appended_alive (record : Append) : ∀ entry ∈ graves.deleted,
      ¬ IsInstance (appendRecord topic graves.session.state record).2.md entry := by
  rintro entry among ⟨sameTime, sameRow⟩
  have ⟨index, row, number, stored, _, _⟩ := kept.buried entry among
  have ⟨bound, _⟩ := List.getElem?_eq_some_iff.1 stored
  have time : record.time = entry.1 := by
    rw [← row_getTimeT topic record
      (graves.session.state.dir.bytes (topic.fileOf record.time)).length]
    exact UInt64.toNat_inj.1 sameTime
  have position : (graves.session.state.dir.rows (topic.fileOf record.time)).length + 1 =
      entry.2 := sameRow
  rw [time] at position
  omega

theorem getPage_unfiltered_alive
    {iterator : Iterator} (unfiltered : iterator.index = none) {fromRowid limit : Nat}
    {backward : Bool} {bounded : (fromRowid : Int) + limit < 2 ^ 63} :
    ∀ delivery ∈ getPage graves.session.state.dir.rdFiles graves.session.state.cache iterator
      fromRowid limit backward bounded, ∀ entry ∈ graves.deleted,
        ¬ IsInstance delivery.md entry := by
  intro delivery among entry inDeleted same
  simp only [getPage, unfiltered] at among
  split_ifs at among
  · exact not_mem_nil among
  · obtain ⟨found, walked, delivered⟩ := mem_filterMap.1 among
    obtain ⟨text, -, rfl⟩ := map_eq_some_iff.1 delivered
    obtain ⟨stored, alive⟩ := walk_stored walked
    exact kept.alive stored alive entry inDeleted same

theorem mem_getPage_filtered
    {iterator : Iterator} (open_ : iterator ∈ graves.session.iterators) {index : List Int}
    (filtered : iterator.index = some index) {fromRowid limit : Nat} {backward : Bool}
    {bounded : (fromRowid : Int) + limit < 2 ^ 63} {delivery : Delivery} :
    delivery ∈ getPage graves.session.state.dir.rdFiles graves.session.state.cache iterator
      fromRowid limit backward bounded ↔
    ∃ rowid ∈ askedRowids index fromRowid limit backward, ∃ row,
      indexedRow graves.session.state.dir.rdFiles iterator.segments rowid = some row ∧
      (readRecordContent graves.session.state.dir.rdFiles row.id row.md).isSome ∧
      delivery = ⟨rowid, row.md,
        readRecordContent graves.session.state.dir.rdFiles row.id row.md⟩ := by
  have inIndex : ∀ rowid ∈ askedRowids index fromRowid limit backward, rowid ∈ index := by
    intro rowid among
    rw [askedRowids] at among
    split_ifs at among
    · exact absurd among not_mem_nil
    · exact mem_reverse.1 (mem_of_mem_drop (mem_of_mem_take among))
    · exact mem_of_mem_drop (mem_of_mem_take among)
  have reached : ∀ rowid ∈ askedRowids index fromRowid limit backward,
      (indexedRow graves.session.state.dir.rdFiles iterator.segments rowid).isSome :=
    fun rowid among => kept.indexed iterator open_ index filtered rowid (inIndex rowid among)
  rw [← mem_indexedPage reached]
  simp only [getPage, filtered, askedRowids]
  split_ifs <;> simp [indexedPage]

end

theorem indexedRow_readable {dir : KeyDir} (placed : Placed topic dir)
    {segments : List Segment} {rowid : Int} {row : Found}
    (found : indexedRow dir.rdFiles segments rowid = some row) :
    (readRecordContent dir.rdFiles row.id row.md).isSome := by
  simp only [indexedRow, bind_eq_bind, bind_eq_some_iff] at found
  obtain ⟨segment, _, md, read, same⟩ := found
  obtain ⟨index, row', stored, rfl⟩ := getMdByRowid_at read
  obtain rfl := some.inj same
  obtain ⟨text, readable⟩ := placed.readable (mem_of_getElem? stored) (index + 1)
  rw [readable]
  rfl

/-- A page delivers no deleted instance exactly when it does not ask a filtered iterator for
one. -/
theorem page_alive_iff (kept : Kept topic graves) {position fromRowid limit : Nat} {backward : Bool}
    (bounded : (fromRowid : Int) + limit < 2 ^ 63) :
    (∀ delivery ∈ (graves.session.step topic
        (.getPage position fromRowid limit backward bounded)).2,
      ∀ entry ∈ graves.deleted, ¬ IsInstance delivery.md entry) ↔
    PageAlive graves position fromRowid limit backward := by
  rw [Session.step_getPage, PageAlive]
  cases picked : graves.session.iterators[position]? with
  | none =>
    exact iff_of_true (fun _ among => absurd among not_mem_nil)
      fun _ _ same => absurd same (by simp)
  | some iterator =>
    have open_ := mem_of_getElem? picked
    cases filtered : iterator.index with
    | none =>
      refine iff_of_true (getPage_unfiltered_alive kept filtered) ?_
      rintro other index same isIndex
      rw [← some.inj same, filtered] at isIndex
      exact absurd isIndex (by simp)
    | some index =>
      simp only [mem_getPage_filtered kept open_ filtered]
      constructor
      · intro unseen other index' same isIndex rowid asked row there
        obtain rfl := some.inj same
        obtain rfl : index = index' := some.inj (filtered.symm.trans isIndex)
        exact unseen _ ⟨rowid, asked, row, there, indexedRow_readable kept.placed there, rfl⟩
      · rintro alive delivery ⟨rowid, asked, row, there, -, rfl⟩
        exact alive iterator index rfl filtered rowid asked row there

/-- A request delivers no deleted instance exactly when it does not ask a filtered iterator for
one. -/
theorem staysDeleted_iff (kept : Kept topic graves)
    (request : Request) : StaysDeleted topic graves request ↔ AsksAlive graves request := by
  have later := (kept.step request).buried
  rw [StaysDeleted, and_iff_left later]
  cases request with
  | write op =>
    refine iff_of_true (fun delivery among entry inDeleted => ?_) trivial
    cases op with
    | append record =>
      obtain ⟨cond, -, rfl⟩ := mem_map.1 among
      exact appended_alive kept record entry inDeleted
    | reopen => exact absurd among not_mem_nil
    | writeUserFlag _ _ _ => exact absurd among not_mem_nil
    | setUserFlag _ _ _ _ => exact absurd among not_mem_nil
    | setSystemFlag _ _ _ _ => exact absurd among not_mem_nil
    | deleteInstance _ _ _ => exact absurd among not_mem_nil
  | load cond => exact iff_of_true (loadIterator_alive kept cond) trivial
  | openIterator cond =>
    refine iff_of_true (fun delivery among => ?_) trivial
    simp only [Session.step] at among
    split at among <;> exact absurd among not_mem_nil
  | getPage position fromRowid limit backward bounded => exact page_alive_iff kept bounded
  | openList cond => exact iff_of_true (loadIterator_alive kept cond) trivial
  | publish fileId fileBase first last =>
    refine iff_of_true (fun delivery among entry inDeleted same => ?_) trivial
    obtain ⟨found, published, rfl⟩ := mem_map.1 among
    obtain ⟨stored, alive⟩ := publishedRows_stored published
    exact kept.alive stored alive entry inDeleted same

/-- In every session a deleted instance stays deleted and undelivered exactly as long as no page
asks a filtered iterator for a row deleted since it was opened. -/
theorem staysDeleted_run (topic : Topic) (requests : List Request) :
    AllSteps (Graves.step topic) (StaysDeleted topic) Graves.empty requests ↔
      AllSteps (Graves.step topic) AsksAlive Graves.empty requests := by
  have general : ∀ graves, Kept topic graves →
      (AllSteps (Graves.step topic) (StaysDeleted topic) graves requests ↔
        AllSteps (Graves.step topic) AsksAlive graves requests) := by
    induction requests with
    | nil => exact fun _ _ => Iff.rfl
    | cons request rest ih =>
      intro graves kept
      exact and_congr (staysDeleted_iff kept request) (ih _ (kept.step request))
  exact general _ (Kept.empty topic)

/-- A record is deleted while a filtered iterator is open, and the next page of the iterator
brings it back. -/
theorem staysDeleted_frozen : ¬ AllSteps (Graves.step dayTopic) (StaysDeleted dayTopic) Graves.empty
    [.write (.append (sampleRecord 100 0 0)), .openIterator { fromT := 1 },
      .write (.deleteInstance 100 1 false), .getPage 0 1 1 false (by omega)] := by
  rintro ⟨-, -, -, ⟨undelivered, -⟩, -⟩
  refine undelivered ⟨1, ⟨100, 0, 0, 3, 0x0401, 0, 1⟩, some [123, 125]⟩ ?_ (100, 1) ?_ ?_
  all_goals decide

end Yunetas.Timeranger2
