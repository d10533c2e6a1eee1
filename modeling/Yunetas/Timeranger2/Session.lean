import Yunetas.Timeranger2.Sound

/-!
# Readers of a key

A process reads a key in four ways: a load walks the selected segments, a page serves an iterator
that stays open, an open list receives every append, and the feed of a follower reads the rows
that a file gained. Iterators and lists live as long as the topic is open, so what they hold was
computed in an earlier state than the one they read.
-/

namespace Yunetas.Timeranger2

open List Option

/-- The loop of `publish_new_rt_disk_records`: the rows of a file from a first to a last one, each
with its number in the key. Rows that cannot be read and dead ones are skipped. -/
def publishedRows (files : RdFiles) (fileId : String) (fileBase first last : Int) : List Found :=
  (rowidRange first last).filterMap fun rowid =>
    match readMd files fileId rowid with
    | none => none
    | some md => if isDeletedInstance md then none else some ⟨fileBase + rowid, fileId, md⟩

/-- A key with its readers. -/
structure Session where
  state : KeyState
  /-- `topic.iterators`: the iterators of the paging mode. -/
  iterators : List Iterator
  /-- `topic.lists`: the conditions of the lists that receive the appends. -/
  lists : List MatchCond

/-- A key that was never written, without readers. -/
def Session.empty : Session := ⟨.empty, [], []⟩

/-- A request on a key. -/
inductive Request where
  | write (op : KeyOp)
  /-- `tranger2_open_iterator` with a callback. -/
  | load (cond : MatchCond)
  /-- `tranger2_open_iterator` without a callback. -/
  | openIterator (cond : MatchCond)
  /-- `tranger2_iterator_get_page` on one of the open iterators. -/
  | getPage (position fromRowid limit : Nat) (backward : Bool)
      (bounded : (fromRowid : Int) + limit < 2 ^ 63)
  /-- `tranger2_open_list`, its feed in memory. -/
  | openList (cond : MatchCond)
  | publish (fileId : String) (fileBase first last : Int)

/-- What the open lists receive of an append. -/
def feedLists (lists : List MatchCond) (appended : Appended) : List Delivery :=
  lists.map fun cond =>
    ⟨appended.rowid, appended.md, if cond.onlyMd then none else some appended.text⟩

/-- The session after a request and what the request delivers. -/
def Session.step (topic : Topic) (session : Session) : Request → Session × List Delivery
  | .write (.append record) =>
    let (state, appended) := appendRecord topic session.state record
    ({ session with state := state }, feedLists session.lists appended)
  | .write .reopen => (⟨reopen session.state, [], []⟩, [])
  | .write op => ({ session with state := session.state.step topic op }, [])
  | .load cond => (session, loadIterator session.state.dir.rdFiles cond session.state.cache)
  | .openIterator cond =>
    match openIterator session.state.dir.rdFiles cond session.state.cache with
    | none => (session, [])
    | some iterator => ({ session with iterators := session.iterators ++ [iterator] }, [])
  | .getPage position fromRowid limit backward bounded =>
    match session.iterators[position]? with
    | none => (session, [])
    | some iterator =>
      (session, getPage session.state.dir.rdFiles session.state.cache iterator fromRowid limit
        backward bounded)
  | .openList cond =>
    let lists := if cond.toRowid = 0 then session.lists ++ [cond] else session.lists
    ({ session with lists := lists },
      loadIterator session.state.dir.rdFiles cond session.state.cache)
  | .publish fileId fileBase first last =>
    (session, (publishedRows session.state.dir.rdFiles fileId fileBase first last).map fun found =>
      ⟨found.rowid, found.md, readRecordContent session.state.dir.rdFiles found.id found.md⟩)

theorem Session.step_getPage (topic : Topic) (session : Session) {position fromRowid limit : Nat}
    {backward : Bool} (bounded : (fromRowid : Int) + limit < 2 ^ 63) :
    (session.step topic (.getPage position fromRowid limit backward bounded)).2 =
      match session.iterators[position]? with
      | none => []
      | some iterator =>
        getPage session.state.dir.rdFiles session.state.cache iterator fromRowid limit backward
          bounded := by
  simp only [Session.step]
  cases session.iterators[position]? <;> rfl

/-! ## Where deliveries come from -/

/-- A decoded row is one of the stored rows. -/
def Stored (dir : KeyDir) (md : Md2RecordEx) : Prop :=
  ∃ (file : String) (index : Nat) (row : Md2Record),
    (dir.rows file)[index]? = some row ∧ md = row.decode (index + 1)

theorem readMd_at {dir : KeyDir} {fileId : String} {rowid : Int} {md : Md2RecordEx}
    (read : readMd dir.rdFiles fileId rowid = some md) :
    ∃ (index : Nat) (row : Md2Record), (dir.rows fileId)[index]? = some row ∧
      md = row.decode (index + 1) := by
  rw [readMd] at read
  split_ifs at read with low
  simp only [KeyDir.rdFiles, bind_eq_bind, bind_eq_some_iff] at read
  obtain ⟨rows, opened, row, found, same⟩ := read
  refine ⟨(rowid - 1).toNat, row, ?_, ?_⟩
  · rw [KeyDir.rows, opened, getD_some, found]
  · rw [← some.inj same]
    congr 1
    omega

theorem getMdByRowid_at {dir : KeyDir} {segment : Segment} {rowid : Int} {md : Md2RecordEx}
    (read : getMdByRowid dir.rdFiles segment rowid = some md) :
    ∃ (index : Nat) (row : Md2Record), (dir.rows segment.cell.id)[index]? = some row ∧
      md = row.decode (index + 1) := by
  simp only [getMdByRowid] at read
  split_ifs at read
  exact readMd_at read

variable {files : RdFiles} {segments : List Segment} {delivery : Delivery}

theorem walkRows_read {cond : MatchCond} {totalRows : Int}
    (turns : Nat) (position : Option (Nat × Int)) :
    ∀ found ∈ walkRows files cond totalRows segments turns position,
      (∃ segment ∈ segments, found.id = segment.cell.id ∧
        getMdByRowid files segment found.rowid = some found.md) ∧
        isDeletedInstance found.md = false := by
  induction turns generalizing position with
  | zero => exact fun found among => absurd among (by cases position <;> simp [walkRows])
  | succ turns ih =>
    intro found among
    cases position with
    | none => exact absurd among (by simp [walkRows])
    | some position =>
      obtain ⟨index, rowid⟩ := position
      simp only [walkRows] at among
      split at among
      · exact absurd among not_mem_nil
      · rename_i segment there
        split at among
        · exact absurd among not_mem_nil
        · rename_i md read
          split at among
          · exact ih _ found among
          · rename_i alive
            rcases mem_append.1 among with here | later
            · split at here
              · rw [mem_singleton.1 here]
                exact ⟨⟨segment, mem_of_getElem? there, rfl, read⟩, by simpa using alive⟩
              · exact absurd here not_mem_nil
            · split at later
              · exact absurd later not_mem_nil
              · exact ih _ found later

theorem walk_stored {dir : KeyDir} {cond : MatchCond} {totalRows : Int}
    {found : Found} (among : found ∈ walk dir.rdFiles cond totalRows segments) :
    Stored dir found.md ∧ isDeletedInstance found.md = false := by
  have ⟨⟨segment, _, _, read⟩, alive⟩ := walkRows_read _ _ found among
  exact ⟨⟨_, getMdByRowid_at read⟩, alive⟩

theorem loadIterator_read {cond : MatchCond} {cache : KeyCache}
    (among : delivery ∈ loadIterator files cond cache) :
    ∃ segment ∈ getSegments cond cache, ∃ md, getMdByRowid files segment delivery.rowid = some md ∧
        delivery.md = { md with systemFlag := md.systemFlag ||| sfLoadingFromDisk } ∧
        delivery.content =
          if cond.onlyMd then none else readRecordContent files segment.cell.id md := by
  obtain ⟨found, walked, rfl⟩ := mem_map.1 among
  have ⟨⟨segment, picked, sameId, read⟩, _⟩ := walkRows_read _ _ found walked
  exact ⟨segment, picked, found.md, read, rfl, by rw [sameId]⟩

theorem indexedPage_read {rowids : List Int}
    (among : delivery ∈ indexedPage files segments rowids) :
    ∃ segment ∈ segments, getMdByRowid files segment delivery.rowid = some delivery.md ∧
      delivery.content.isSome ∧
      delivery.content = readRecordContent files segment.cell.id delivery.md := by
  induction rowids with
  | nil => exact absurd among not_mem_nil
  | cons rowid rest ih =>
    rw [indexedPage] at among
    split at among
    · exact absurd among not_mem_nil
    · rename_i found there
      rcases mem_append.1 among with here | later
      · simp only [indexedRow, bind_eq_bind, bind_eq_some_iff] at there
        have ⟨segment, picked, md, read, same⟩ := there
        obtain rfl := some.inj same
        split_ifs at here with readable
        · rw [mem_singleton.1 here]
          exact ⟨segment, mem_of_find?_eq_some picked, read, readable, rfl⟩
        · exact absurd here not_mem_nil
      · exact ih later

theorem getPage_read {cache : KeyCache} {iterator : Iterator}
    {fromRowid limit : Nat} {backward : Bool} {bounded : (fromRowid : Int) + limit < 2 ^ 63}
    (among : delivery ∈ getPage files cache iterator fromRowid limit backward bounded) :
    ∃ segment ∈ iterator.segments,
      getMdByRowid files segment delivery.rowid = some delivery.md ∧ delivery.content.isSome ∧
      delivery.content = readRecordContent files segment.cell.id delivery.md := by
  rw [getPage] at among
  split at among
  · split_ifs at among
    · exact absurd among not_mem_nil
    · exact indexedPage_read among
    · exact indexedPage_read among
  · dsimp only at among
    split_ifs at among
    · exact absurd among not_mem_nil
    · have ⟨found, walked, delivered⟩ := mem_filterMap.1 among
      obtain ⟨text, content, rfl⟩ := map_eq_some_iff.1 delivered
      have ⟨⟨segment, picked, sameId, read⟩, _⟩ := walkRows_read _ _ found walked
      exact ⟨segment, picked, read, rfl, by rw [← sameId, content]⟩

theorem publishedRows_stored {dir : KeyDir} {fileId : String} {fileBase first last : Int}
    {found : Found} (among : found ∈ publishedRows dir.rdFiles fileId fileBase first last) :
    Stored dir found.md ∧ isDeletedInstance found.md = false := by
  have ⟨rowid, _, published⟩ := mem_filterMap.1 among
  split at published
  · exact absurd published (by simp)
  · rename_i md read
    split_ifs at published with dead
    rw [← some.inj published]
    exact ⟨⟨_, readMd_at read⟩, by simpa using dead⟩

theorem mem_indexedPage {rowids : List Int}
    (found : ∀ rowid ∈ rowids, (indexedRow files segments rowid).isSome) :
    delivery ∈ indexedPage files segments rowids ↔
      ∃ rowid ∈ rowids, ∃ row, indexedRow files segments rowid = some row ∧
        (readRecordContent files row.id row.md).isSome ∧
        delivery = ⟨rowid, row.md, readRecordContent files row.id row.md⟩ := by
  induction rowids with
  | nil => simp [indexedPage]
  | cons rowid rest ih =>
    have ⟨row, there⟩ := isSome_iff_exists.1 (found rowid mem_cons_self)
    have later := ih fun other among => found other (mem_cons_of_mem rowid among)
    rw [indexedPage, there]
    rw [mem_append, later]
    constructor
    · rintro (here | ⟨other, among, rest⟩)
      · split_ifs at here with readable
        · exact ⟨rowid, mem_cons_self, row, there, readable, mem_singleton.1 here⟩
        · exact absurd here not_mem_nil
      · exact ⟨other, mem_cons_of_mem rowid among, rest⟩
    · rintro ⟨other, among, row', there', readable, same⟩
      rcases mem_cons.1 among with rfl | inRest
      · obtain rfl := some.inj (there.symm.trans there')
        rw [if_pos readable]
        exact Or.inl (mem_singleton.2 same)
      · exact Or.inr ⟨other, inRest, row', there', readable, same⟩

end Yunetas.Timeranger2
