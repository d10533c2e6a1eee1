import Yunetas.Timeranger2.Bytes
import Yunetas.Timeranger2.Growth
import Yunetas.Timeranger2.Session
import Yunetas.Verif.ExactlyOnce

/-!
# Appends that fail

An append that returns an error should leave no trace in what readers get, and a record whose
append returned 0 should stay where it is. Both hold as long as no append completes in a `.md2`
file where a failed one left bytes and no opening of the topic meets such a file: the next row
goes after those bytes, out of step with the rows, and a load drops a file that does not end with
a whole row. A short write of a payload is harmless.
-/

namespace Yunetas.Timeranger2

open List Option Function Dict

/-! ## Runs with failing writes -/

/-- A record whose append returned 0. -/
structure Acknowledged extends Written where
  rowid : Int

namespace Acknowledged

/-- The row a reader should find. -/
def found (record : Acknowledged) : Found := ⟨record.rowid, record.file, record.md⟩

/-- What a page should deliver. -/
def paged (record : Acknowledged) : Delivery := ⟨record.rowid, record.md, some record.text⟩

/-- What a load should deliver. -/
def loaded (record : Acknowledged) : Delivery :=
  { record.paged with
    md := { record.md with systemFlag := record.md.systemFlag ||| sfLoadingFromDisk } }

end Acknowledged

/-- A key with its open iterators and the records acknowledged so far, oldest first. -/
structure ByteTrace where
  state : ByteState
  /-- `topic.iterators`. -/
  iterators : List Iterator
  history : List Acknowledged

namespace ByteTrace

/-- A key that was never written. -/
def empty : ByteTrace := ⟨.empty, [], []⟩

/-- An append whose writes take what the file system accepts. -/
def append (topic : Topic) (trace : ByteTrace) (record : Append) (writes : Writes) : ByteTrace :=
  match trace.state.appendRecord topic record writes with
  | (state, none) => { trace with state := state }
  | (state, some appended) =>
    { trace with
      state := state
      history := trace.history ++
        [⟨⟨topic.fileOf record.time, appended.md, appended.text⟩, appended.rowid⟩] }

/-- `tranger2_open_iterator` without a callback. -/
def openIterator (trace : ByteTrace) (cond : MatchCond) : ByteTrace :=
  match Timeranger2.openIterator trace.state.rdFiles cond trace.state.cache with
  | none => trace
  | some iterator => { trace with iterators := trace.iterators ++ [iterator] }

/-- Close the topic, and its iterators with it, and open it again. -/
def reopen (trace : ByteTrace) : ByteTrace := ⟨trace.state.reopen, [], trace.history⟩

/-- Records acknowledged in a file. -/
def acknowledgedIn (trace : ByteTrace) (file : String) : Nat :=
  trace.history.countP fun record => record.file = file

end ByteTrace

/-- An operation on a topic. -/
inductive TopicOp where
  /-- `tranger2_append_record`. -/
  | append (key : String) (record : Append) (writes : Writes)
  /-- `tranger2_open_iterator` without a callback. -/
  | openIterator (key : String) (cond : MatchCond)
  | reopen

/-- The keys of a topic. -/
abbrev ByteStore := String → ByteTrace

/-- The keys after an operation. -/
def ByteStore.step (topic : Topic) (store : ByteStore) : TopicOp → ByteStore
  | .append key record writes =>
    Function.update store key ((store key).append topic record writes)
  | .openIterator key cond => Function.update store key ((store key).openIterator cond)
  | .reopen => fun key => (store key).reopen

/-- The acknowledged records can be read and nothing else is delivered. -/
structure Undamaged (trace : ByteTrace) : Prop where
  readable : ∀ record ∈ trace.history,
    readMd trace.state.rdFiles record.file record.md.rowid = some record.md ∧
      readRecordContent trace.state.rdFiles record.file record.md = some record.text
  numbered : ∀ record ∈ trace.history,
    indexedRow trace.state.rdFiles (getSegments (everything false) trace.state.cache)
      record.rowid = some record.found
  iterated : ∀ backward,
    loadIterator trace.state.rdFiles (everything backward) trace.state.cache =
      inDirection backward (trace.history.map Acknowledged.loaded)
  loads : ∀ cond, ∀ delivery ∈ loadIterator trace.state.rdFiles cond trace.state.cache,
    ∃ record ∈ trace.history, delivery =
      { record.loaded with content := if cond.onlyMd then none else some record.text }
  pages : ∀ iterator ∈ trace.iterators, ∀ (fromRowid limit : Nat) (backward : Bool)
    (bounded : (fromRowid : Int) + limit < 2 ^ 63),
    ∀ delivery ∈ getPage trace.state.rdFiles trace.state.cache iterator fromRowid limit backward
      bounded, ∃ record ∈ trace.history, delivery = record.paged

/-! ## The condition -/

/-- An append that completes finds no bytes of a failed one in the `.md2` file, and the cache
keeps up with it. -/
def WritesFit (topic : Topic) (trace : ByteTrace) (record : Append) (writes : Writes) : Prop :=
  let file := topic.fileOf record.time
  let content := trace.state.dir.bytes file
  let rows := trace.state.dir.md2Bytes file
  writeLength content (record.text ++ [0]) writes.payload = (record.text ++ [0]).length →
    writeLength rows (encodeRow (record.row topic content.length)) writes.row = md2RecordSize →
      rows.length = md2RecordSize * trace.acknowledgedIn file ∧
        CacheFits topic trace.state.cache record

instance (topic : Topic) (trace : ByteTrace) (record : Append) (writes : Writes) :
    Decidable (WritesFit topic trace record writes) :=
  inferInstanceAs (Decidable (_ → _ → _ ∧ _))

/-- An opening finds in every `.md2` file the acknowledged rows alone, or no such row and not a
whole number of them, and the cells are in the order of their names. -/
def ReopenFits (trace : ByteTrace) : Prop :=
  (∀ file ∈ trace.state.dir.md2.keys,
    (trace.state.dir.md2Bytes file).length = md2RecordSize * trace.acknowledgedIn file ∧
        0 < trace.acknowledgedIn file ∨
      trace.acknowledgedIn file = 0 ∧
        (trace.state.dir.md2Bytes file).length % md2RecordSize ≠ 0) ∧
    (trace.state.cache.files.map Cell.id).Pairwise fileNameLt

instance (trace : ByteTrace) : Decidable (ReopenFits trace) :=
  inferInstanceAs (Decidable ((∀ file ∈ trace.state.dir.md2.keys, _ ∨ _) ∧ _))

/-- The condition on an operation. -/
def OpFits (topic : Topic) (store : ByteStore) : TopicOp → Prop
  | .append key record writes => WritesFit topic (store key) record writes
  | .openIterator _ _ => True
  | .reopen => ∀ key, ReopenFits (store key)

/-! ## The invariant -/

/-- The bytes of a key hold a whole directory, the one the acknowledged appends left, and after
the rows of a file maybe bytes of failed appends. -/
structure Backed (dir : KeyDir) (trace : ByteTrace) : Prop where
  whole : Whole ⟨⟨dir, trace.state.cache⟩, trace.history.map Acknowledged.toWritten⟩
  rows : cacheRows dir.rdFiles trace.state.cache.files = trace.history.map Acknowledged.found
  fits : ∀ file, ∀ row ∈ dir.rows file, row.Fits
  /-- The `.md2` files start with them. -/
  bytes : ∀ file, ∃ rest,
    trace.state.dir.md2Bytes file = (dir.rows file).flatMap encodeRow ++ rest
  present : ∀ file ∈ dir.md2.keys, file ∈ trace.state.dir.md2.keys
  json : dir.json = trace.state.dir.json
  iterators : ∀ iterator ∈ trace.iterators, ∀ segment ∈ iterator.segments,
    segment.Readable dir.rdFiles ∧ ∀ found ∈ segmentRows dir.rdFiles segment,
      ∃ record ∈ trace.history, found = record.found

section

variable {dir : KeyDir} {trace : ByteTrace}

theorem Backed.empty : Backed KeyDir.empty ByteTrace.empty where
  whole := Whole.empty
  rows := rfl
  fits := fun _ _ among => absurd among not_mem_nil
  bytes := fun _ => ⟨[], rfl⟩
  present := fun _ among => absurd among not_mem_nil
  json := rfl
  iterators := fun _ among => absurd among not_mem_nil

section

variable (backed : Backed dir trace)
include backed

theorem Backed.grown (file : String) :
    ∃ added, trace.state.rdFiles.rows file = dir.rdFiles.rows file ++ added := by
  have ⟨rest, bytes⟩ := backed.bytes file
  rw [ByteState.rdFiles, rows_rdFiles, rows_rdFiles, ByteDir.rows_keyDir, bytes,
    decodeRows_append (backed.fits file)]
  exact ⟨_, rfl⟩

theorem Backed.content_eq (file : String) (md : Md2RecordEx) :
    readRecordContent trace.state.rdFiles file md = readRecordContent dir.rdFiles file md := by
  simp [readRecordContent, ByteState.rdFiles, ByteDir.keyDir, KeyDir.rdFiles, backed.json]

theorem Backed.text {record : Acknowledged} (among : record ∈ trace.history) :
    readRecordContent trace.state.rdFiles record.file record.md = some record.text := by
  rw [backed.content_eq]
  exact (backed.whole.content record.toWritten (mem_map_of_mem among)).2

theorem Backed.numbered {segment : Segment}
    (placed : segment ∈ placeCells 1 trace.state.cache.files) :
    segment.Readable dir.rdFiles ∧ ∀ found ∈ segmentRows dir.rdFiles segment,
      ∃ record ∈ trace.history, found = record.found := by
  refine ⟨placeCells_readable dir.rdFiles backed.whole.sound.held segment placed,
    fun found inside => ?_⟩
  have among : found ∈ cacheRows dir.rdFiles trace.state.cache.files :=
    mem_flatMap.2 ⟨segment, placed, inside⟩
  rw [backed.rows] at among
  have ⟨record, inHistory, same⟩ := mem_map.1 among
  exact ⟨record, inHistory, same.symm⟩

theorem Backed.picked (cond : MatchCond) {segment : Segment}
    (among : segment ∈ getSegments cond trace.state.cache) :
    segment.Readable dir.rdFiles ∧ ∀ found ∈ segmentRows dir.rdFiles segment,
      ∃ record ∈ trace.history, found = record.found :=
  backed.numbered ((getSegments_sublist backed.whole.sound.counted).subset among)

theorem Backed.read {segment : Segment} (readable : segment.Readable dir.rdFiles)
    (rows : ∀ found ∈ segmentRows dir.rdFiles segment, ∃ record ∈ trace.history,
      found = record.found) {rowid : Int} {md : Md2RecordEx}
    (read : getMdByRowid trace.state.rdFiles segment rowid = some md) :
    ∃ record ∈ trace.history, record.rowid = rowid ∧ record.file = segment.cell.id ∧
      record.md = md := by
  have ⟨added, grown⟩ := backed.grown segment.cell.id
  rw [getMdByRowid_grown readable grown] at read
  have ⟨record, inHistory, same⟩ := rows _ (mem_segmentRows_of_read readable read)
  have ⟨sameRowid, sameId, sameMd⟩ := Found.mk.inj same
  exact ⟨record, inHistory, sameRowid.symm, sameId.symm, sameMd.symm⟩

theorem Backed.everything_eq (backward : Bool) :
    getSegments (everything backward) trace.state.cache = placeCells 1 trace.state.cache.files :=
  getSegments_everything backward backed.whole.ranged.total_covers backed.whole.sound.counted
    backed.whole.ranged.filled

theorem Backed.iterated (backward : Bool) :
    loadIterator trace.state.rdFiles (everything backward) trace.state.cache =
      inDirection backward (trace.history.map Acknowledged.loaded) := by
  have segments : ∀ segment ∈ getSegments (everything backward) trace.state.cache,
      segment.Readable dir.rdFiles := fun segment among =>
    (backed.picked (everything backward) among).1
  have alive : ∀ found ∈ inDirection backward (cacheRows dir.rdFiles trace.state.cache.files),
      (!isDeletedInstance found.md) = true := by
    intro found inside
    have among : found ∈ cacheRows dir.rdFiles trace.state.cache.files := by
      cases backward with
      | true => exact mem_reverse.1 inside
      | false => exact inside
    have live := backed.whole.alive among
    rw [live]
    rfl
  have whole := backed.whole.loadIterator_eq backward
  rw [filter_eq_self.2 alive, backed.rows] at whole
  have walked : loadIterator trace.state.rdFiles (everything backward) trace.state.cache =
      loadIterator dir.rdFiles (everything backward) trace.state.cache := by
    rw [loadIterator, loadIterator, walk_grown segments backed.grown]
    simp [backed.content_eq]
  have turned : inDirection backward (trace.history.map Acknowledged.found) =
      (inDirection backward trace.history).map Acknowledged.found := by
    cases backward with
    | true => exact map_reverse.symm
    | false => rfl
  have turnedLoaded : inDirection backward (trace.history.map Acknowledged.loaded) =
      (inDirection backward trace.history).map Acknowledged.loaded := by
    cases backward with
    | true => exact map_reverse.symm
    | false => rfl
  rw [walked, whole, turned, turnedLoaded, List.map_map]
  refine map_congr_left fun record inside => ?_
  have among : record ∈ trace.history := by
    cases backward with
    | true => exact mem_reverse.1 inside
    | false => exact inside
  have text := backed.text among
  rw [backed.content_eq] at text
  simp only [comp_apply, Acknowledged.found, text]
  rfl

theorem Backed.undamaged : Undamaged trace := by
  refine ⟨fun record among => ⟨?_, backed.text among⟩, fun record among => ?_, backed.iterated,
    fun cond delivery delivered => ?_,
    fun iterator opened fromRowid limit backward bounded delivery delivered => ?_⟩
  · have row : (record.file, record.md) ∈ dirRows dir (trace.state.cache.files.map Cell.id) :=
      backed.whole.rows.symm.subset (mem_map.2 ⟨record.toWritten, mem_map_of_mem among, rfl⟩)
    obtain ⟨file, _, inFile⟩ := mem_flatMap.1 row
    obtain ⟨⟨stored, position⟩, there, same⟩ := mem_map.1 inFile
    obtain ⟨sameFile, sameMd⟩ := Prod.mk.inj same
    have place := mem_zipIdx_iff_getElem?.1 there
    obtain ⟨added, grown⟩ := backed.grown record.file
    obtain ⟨bound, _⟩ := List.getElem?_eq_some_iff.1 place
    have number : record.md.rowid = position + 1 := by rw [← sameMd]; rfl
    have positive : ¬ (((position + 1 : Nat) : Int) ≤ 0) := by omega
    have index : (((position + 1 : Nat) : Int) - 1).toNat = position := by omega
    rw [readMd_eq, number, if_neg positive, grown, index, ← sameFile, rows_rdFiles,
      getElem?_append_left bound, place, Int.toNat_natCast, map_some, sameMd]
  · have inside : record.found ∈
        (placeCells 1 trace.state.cache.files).flatMap (segmentRows dir.rdFiles) := by
      have all := backed.rows
      rw [cacheRows] at all
      rw [all]
      exact mem_map_of_mem among
    have readable := placeCells_readable dir.rdFiles backed.whole.sound.held
    have found := indexedRow_of_mem readable (placeCells_ordered 1 _) inside
    rw [backed.everything_eq]
    simp only [indexedRow, bind_eq_bind, bind_eq_some_iff] at found ⊢
    obtain ⟨segment, picked, md, read, same⟩ := found
    obtain ⟨added, grown⟩ := backed.grown segment.cell.id
    refine ⟨segment, picked, md, ?_, same⟩
    rw [getMdByRowid_grown (readable segment (mem_of_find?_eq_some picked)) grown]
    exact read
  · obtain ⟨segment, picked, md, read, sameMd, sameContent⟩ := loadIterator_read delivered
    obtain ⟨readable, rows⟩ := backed.picked cond picked
    obtain ⟨record, among, sameRowid, sameFile, rfl⟩ := backed.read readable rows read
    refine ⟨record, among, ?_⟩
    rw [← sameFile, backed.text among] at sameContent
    cases delivery
    dsimp only at sameRowid sameMd sameContent
    rw [← sameRowid, sameMd, sameContent]
    rfl
  · obtain ⟨segment, picked, read, _, sameContent⟩ := getPage_read delivered
    obtain ⟨readable, rows⟩ := backed.iterators iterator opened segment picked
    obtain ⟨record, among, sameRowid, sameFile, sameMd⟩ := backed.read readable rows read
    refine ⟨record, among, ?_⟩
    rw [← sameFile, ← sameMd, backed.text among] at sameContent
    cases delivery
    dsimp only at sameRowid sameMd sameContent
    rw [← sameRowid, ← sameMd, sameContent]
    rfl

end

/-! ## Steps -/

theorem Whole.written {json : Dict String (List UInt8)} {cache : KeyCache}
    {history : List Written} (whole : Whole ⟨⟨dir, cache⟩, history⟩)
    (read : ∀ written ∈ history,
      readRecordContent dir.rdFiles written.file written.md = some written.text →
        readRecordContent (KeyDir.rdFiles { dir with json := json }) written.file written.md =
          some written.text) :
    Whole ⟨⟨{ dir with json := json }, cache⟩, history⟩ where
  sound := ⟨whole.sound.held, whole.sound.covered, whole.sound.counted⟩
  partition := ⟨whole.partition.distinct, whole.partition.counts⟩
  files := whole.files
  ranged := whole.ranged
  times := whole.times
  rows := whole.rows
  content := fun written among =>
    ⟨(whole.content written among).1, read written among (whole.content written among).2⟩

/-- What a failed append leaves changes nothing: bytes at the end of a payload file, and maybe
bytes at the end of a `.md2` file. -/
theorem Backed.failed (backed : Backed dir trace) (state : ByteState) {file : String}
    {extra : List UInt8} (cache : state.cache = trace.state.cache)
    (json : state.dir.json = trace.state.dir.json.set file (trace.state.dir.bytes file ++ extra))
    (md2 : ∀ other, ∃ rest, state.dir.md2Bytes other = trace.state.dir.md2Bytes other ++ rest)
    (present : ∀ other ∈ trace.state.dir.md2.keys, other ∈ state.dir.md2.keys) :
    ∃ dir, Backed dir { trace with state := state } := by
  refine ⟨{ dir with json := state.dir.json }, ?_, ?_, backed.fits, fun other => ?_,
    fun other among => present other (backed.present other among), rfl,
    fun iterator opened segment picked => ?_⟩
  · have whole := backed.whole
    rw [← cache] at whole
    refine whole.written fun written _ read => ?_
    refine readRecordContent_extended file extra ?_ read
    rw [json, ByteDir.bytes, KeyDir.bytes, backed.json]
  · rw [cache]
    exact backed.rows
  · obtain ⟨rest, bytes⟩ := backed.bytes other
    obtain ⟨more, grown⟩ := md2 other
    exact ⟨rest ++ more, by rw [grown, bytes, append_assoc]; rfl⟩
  · obtain ⟨⟨closed, positive, held⟩, rows⟩ := backed.iterators iterator opened segment picked
    exact ⟨⟨closed, positive, held⟩, rows⟩

theorem dirRows_countP (dir : KeyDir) {files : List String} (distinct : files.Nodup)
    (file : String) :
    (dirRows dir files).countP (fun row => row.1 = file) =
      if file ∈ files then (dir.rows file).length else 0 := by
  have one : ∀ other, (dirRows dir [other]).countP (fun row => row.1 = file) =
      if other = file then (dir.rows file).length else 0 := by
    intro other
    by_cases here : other = file
    · simp [dirRows, countP_map, comp_def, here]
    · simp [dirRows, countP_map, comp_def, here]
  induction files with
  | nil => rfl
  | cons other rest ih =>
    obtain ⟨fresh, distinct⟩ := nodup_cons.1 distinct
    have split : dirRows dir (other :: rest) = dirRows dir [other] ++ dirRows dir rest :=
      @flatMap_append _ _ [other] rest _
    rw [split, countP_append, one, ih distinct]
    by_cases here : other = file
    · subst here
      simp [fresh]
    · simp [here, Ne.symm here]

theorem Backed.acknowledged (backed : Backed dir trace) (file : String) :
    trace.acknowledgedIn file = (dir.rows file).length := by
  have rows := backed.whole.rows
  have count := rows.countP_eq fun row => row.1 = file
  rw [dirRows_countP dir backed.whole.partition.distinct, List.map_map, List.countP_map] at count
  have counted : trace.acknowledgedIn file = _ := count.symm
  rw [counted]
  split
  · rfl
  · rename_i absent
    have missing : file ∉ dir.md2.keys := fun among => by
      obtain ⟨cell, inCells, rfl⟩ := (backed.whole.files file).1 among
      exact absent (mem_map_of_mem inCells)
    rw [KeyDir.rows, get?_eq_none _ missing]
    rfl

theorem Backed.exact_bytes (backed : Backed dir trace) {file : String}
    (clean : (trace.state.dir.md2Bytes file).length = md2RecordSize * trace.acknowledgedIn file) :
    trace.state.dir.md2Bytes file = (dir.rows file).flatMap encodeRow := by
  have ⟨rest, bytes⟩ := backed.bytes file
  have size := congrArg List.length bytes
  rw [length_append, length_records fun row _ => length_encodeRow row,
    ← backed.acknowledged, clean] at size
  have none : rest = [] := length_eq_zero_iff.1 (by omega)
  rw [bytes, none, append_nil]

theorem Backed.appended (backed : Backed dir trace) {topic : Topic} {record : Append}
    (clean : (trace.state.dir.md2Bytes (topic.fileOf record.time)).length =
      md2RecordSize * trace.acknowledgedIn (topic.fileOf record.time))
    (fits : CacheFits topic trace.state.cache record)
    (room : (trace.state.dir.bytes (topic.fileOf record.time)).length +
      (record.text ++ [0]).length ≤ maxFileSize) :
    let file := topic.fileOf record.time
    let content := trace.state.dir.bytes file
    let rows := trace.state.dir.md2Bytes file
    let row := record.row topic content.length
    let cache := updateNewRecordFromMem topic trace.state.cache row
    Backed (appendRecord topic ⟨dir, trace.state.cache⟩ record).1.dir { trace with
        state := ⟨⟨trace.state.dir.md2.set file (rows ++ encodeRow row),
          trace.state.dir.json.set file (content ++ (record.text ++ [0]))⟩, cache⟩
        history := trace.history ++
          [⟨⟨file, row.decode (rows.length / md2RecordSize + 1), record.text⟩,
            cache.total.rows⟩] } := by
  intro file content rows row cache
  have content_eq : dir.bytes file = content := by
    rw [KeyDir.bytes, backed.json]
    rfl
  have row_eq : record.row topic (dir.bytes file).length = row := by rw [content_eq]
  have rowFits : row.Fits := by
    have small : maxFileSize < 2 ^ 64 := by decide
    have room : content.length + (record.text ++ [0]).length ≤ maxFileSize := room
    rw [length_append, length_singleton] at room
    refine ⟨?_, ?_⟩
    · show content.length < 2 ^ 64
      omega
    · show record.text.length + 1 < 2 ^ 64
      omega
  have exact_rows : rows = (dir.rows file).flatMap encodeRow := backed.exact_bytes clean
  have count : rows.length / md2RecordSize = (dir.rows file).length := by
    rw [exact_rows, length_records fun row _ => length_encodeRow row,
      Nat.mul_div_cancel_left _ (by decide)]
  have written : (appendRecord topic ⟨dir, trace.state.cache⟩ record).1.dir.rows file =
      dir.rows file ++ [row] := by
    rw [appendRecord_rows, if_pos rfl]
    rw [row_eq]
  have others : ∀ other, other ≠ file →
      (appendRecord topic ⟨dir, trace.state.cache⟩ record).1.dir.rows other = dir.rows other := by
    intro other differ
    rw [appendRecord_rows, if_neg differ]
  have cache_eq : (appendRecord topic ⟨dir, trace.state.cache⟩ record).1.cache = cache := by
    simp only [appendRecord]
    rw [row_eq]
  have md_eq : (appendRecord topic ⟨dir, trace.state.cache⟩ record).2.md =
      row.decode (rows.length / md2RecordSize + 1) := by
    rw [count]
    simp only [appendRecord]
    rw [row_eq]
  have grown : ∀ other, ∃ added,
      (appendRecord topic ⟨dir, trace.state.cache⟩ record).1.dir.rdFiles.rows other =
        dir.rdFiles.rows other ++ added := by
    intro other
    by_cases here : other = file
    · rw [here]
      exact ⟨_, written⟩
    · exact ⟨[], by rw [append_nil]; exact others other here⟩
  have whole : Whole ⟨⟨(appendRecord topic ⟨dir, trace.state.cache⟩ record).1.dir, cache⟩,
      trace.history.map Acknowledged.toWritten ++
        [⟨file, row.decode (rows.length / md2RecordSize + 1), record.text⟩]⟩ := by
    have keeps : AppendFits topic ⟨⟨dir, trace.state.cache⟩,
        trace.history.map Acknowledged.toWritten⟩ (.append record) := fits
    rw [← cache_eq, ← md_eq]
    exact backed.whole.append keeps
  refine ⟨?_, ?_, ?_, fun other => ?_, ?_, ?_, ?_⟩
  · rw [map_append]
    exact whole
  · obtain ⟨found, more, number⟩ := cacheRows_append topic backed.whole.sound record
    have rowsEq := backed.rows
    rw [cache_eq, rowsEq] at more
    have listed := whole.rows
    rw [← cacheRows_dirRows whole.partition.counts] at listed
    rw [more, map_append, map_append, List.map_map, List.map_map] at listed
    have last := perm_singleton.1 ((perm_append_left_iff _).1 listed)
    have total := appendRecord_total topic ⟨dir, trace.state.cache⟩ record
    rw [cache_eq] at total
    obtain ⟨sameId, sameMd⟩ := Prod.mk.inj (singleton_inj.1 last)
    have sameFound : found = ⟨cache.total.rows, file,
        row.decode (rows.length / md2RecordSize + 1)⟩ := by
      cases found
      dsimp only at number sameId sameMd
      rw [number, sameId, sameMd, total]
    rw [more, map_append, sameFound]
    rfl
  · intro other stored among
    by_cases here : other = file
    · rw [here, written] at among
      rcases mem_append.1 among with old | new
      · exact backed.fits file stored old
      · rw [mem_singleton.1 new]
        exact rowFits
    · rw [others other here] at among
      exact backed.fits other stored among
  · by_cases here : other = file
    · refine ⟨[], ?_⟩
      rw [here, written, flatMap_append, ← exact_rows, append_nil]
      simp [ByteDir.md2Bytes, get?_set_self]
    · obtain ⟨rest, bytes⟩ := backed.bytes other
      refine ⟨rest, ?_⟩
      rw [others other here, ← bytes]
      simp [ByteDir.md2Bytes, get?_set_ne _ _ here]
  · intro other among
    rcases (appendRecord_keys topic _ record other).1 among with old | rfl
    · exact mem_keys_set _ _ (backed.present other old)
    · rw [Dict.mem_keys, Dict.get?_set_self]
      rfl
  · simp only [appendRecord]
    rw [backed.json, content_eq]
  · intro iterator opened segment picked
    obtain ⟨⟨closed, positive, held⟩, acknowledged⟩ := backed.iterators iterator opened segment picked
    obtain ⟨added, more⟩ := grown segment.cell.id
    refine ⟨⟨closed, positive, ?_⟩, fun found inside => ?_⟩
    · rw [more, length_append]
      omega
    · rw [segmentRows_grown held more] at inside
      obtain ⟨old, among, same⟩ := acknowledged found inside
      exact ⟨old, mem_append_left _ among, same⟩

theorem Backed.append (backed : Backed dir trace) {topic : Topic} {record : Append}
    {writes : Writes} (fits : WritesFit topic trace record writes) :
    ∃ dir, Backed dir (trace.append topic record writes) := by
  rcases ByteState.appendRecord_cases topic trace.state record writes with
    ⟨-, left⟩ | ⟨-, -, left⟩ | ⟨payload, row, left⟩
  · rw [ByteTrace.append, left]
    exact backed.failed _ rfl rfl (fun other => ⟨[], (append_nil _).symm⟩)
      fun other among => among
  · rw [ByteTrace.append, left]
    exact backed.failed _ rfl rfl (trace.state.dir.md2Bytes_extended _ _ _)
      fun other among => mem_keys_set _ _ among
  · have ⟨clean, keeps⟩ := fits payload row
    have room := writeLength_room payload (by simp)
    refine ⟨(appendRecord topic ⟨dir, trace.state.cache⟩ record).1.dir, ?_⟩
    rw [ByteTrace.append, left]
    exact backed.appended clean keeps room

theorem Backed.openIterator (backed : Backed dir trace) (cond : MatchCond) :
    Backed dir (trace.openIterator cond) := by
  rw [ByteTrace.openIterator]
  split
  · exact backed
  · rename_i iterator opened
    have segments : iterator.segments = getSegments cond trace.state.cache := by
      rw [Timeranger2.openIterator] at opened
      split at opened
      · obtain ⟨index, -, rfl⟩ := map_eq_some_iff.1 opened
        rfl
      · rw [← some.inj opened]
    refine ⟨backed.whole, backed.rows, backed.fits, backed.bytes, backed.present, backed.json, ?_⟩
    intro other among segment picked
    rcases mem_append.1 among with old | new
    · exact backed.iterators other old segment picked
    · rw [mem_singleton.1 new, segments] at picked
      exact backed.picked cond picked

theorem Backed.loaded (backed : Backed dir trace) (fits : ReopenFits trace) :
    ByteState.loadKeyCacheFromDisk trace.state.dir = loadKeyCacheFromDisk dir := by
  have filled : ∀ file ∈ dir.md2.keys, 0 < trace.acknowledgedIn file := by
    intro file among
    obtain ⟨cell, inCells, rfl⟩ := (backed.whole.files file).1 among
    have rows := backed.whole.ranged.filled cell inCells
    rw [backed.whole.partition.counts cell inCells] at rows
    rw [backed.acknowledged]
    exact rows
  have cell : ∀ file ∈ ByteState.sortedFiles trace.state.dir,
      ByteState.loadCacheCellFromDisk file (trace.state.dir.md2Bytes file) =
        if file ∈ dir.md2.keys then some (loadCacheCellFromDisk file (dir.rows file))
        else none := by
    intro file among
    have listed : file ∈ trace.state.dir.md2.keys := (mem_insertionSort _).1 among
    rcases fits.1 file listed with ⟨clean, some_rows⟩ | ⟨none, ragged⟩
    · have inDir : file ∈ dir.md2.keys := by
        by_contra absent
        rw [backed.acknowledged, KeyDir.rows, get?_eq_none _ absent] at some_rows
        exact absurd some_rows (by simp)
      have whole : (trace.state.dir.md2Bytes file).length % md2RecordSize = 0 := by
        rw [clean, Nat.mul_mod_right]
      have decoded := decodeRows_append (backed.fits file) []
      rw [append_nil] at decoded
      rw [if_pos inDir, ByteState.loadCacheCellFromDisk, if_neg (not_not.2 whole),
        backed.exact_bytes clean, decoded, show decodeRows [] = [] from rfl, append_nil]
    · have absent : file ∉ dir.md2.keys := fun inDir => by
        have := filled file inDir
        omega
      rw [if_neg absent, ByteState.loadCacheCellFromDisk, if_pos ragged]
  have files : (ByteState.sortedFiles trace.state.dir).filter (fun file => file ∈ dir.md2.keys) =
      sortedFiles dir := by
    refine ordered_ext ((insertionSort_ordered trace.state.dir.md2.keys_nodup).filter _)
      (sortedFiles_ordered dir) fun file => ?_
    have sorted : file ∈ ByteState.sortedFiles trace.state.dir ↔
        file ∈ trace.state.dir.md2.keys := mem_insertionSort _
    rw [mem_filter, mem_sortedFiles, decide_eq_true_eq, sorted]
    exact ⟨fun both => both.2, fun inDir => ⟨backed.present file inDir, inDir⟩⟩
  have cells : (ByteState.sortedFiles trace.state.dir).filterMap (fun file =>
      ByteState.loadCacheCellFromDisk file (trace.state.dir.md2Bytes file)) =
      (sortedFiles dir).map fun file => loadCacheCellFromDisk file (dir.rows file) := by
    rw [← files, ← filterMap_eq_map', filterMap_filter]
    refine filterMap_congr fun file among => ?_
    rw [cell file among]
    simp
  rw [ByteState.loadKeyCacheFromDisk, loadKeyCacheFromDisk, cells]

theorem Backed.reopen (backed : Backed dir trace) (topic : Topic) (fits : ReopenFits trace) :
    Backed dir trace.reopen := by
  have loaded := backed.loaded fits
  have state : trace.reopen.state = ⟨trace.state.dir, loadKeyCacheFromDisk dir⟩ := by
    rw [← loaded]
    rfl
  have cells : cacheRows dir.rdFiles (loadKeyCacheFromDisk dir).files =
      cacheRows dir.rdFiles trace.state.cache.files := by
    have names : sortedFiles dir = trace.state.cache.files.map Cell.id := by
      refine ordered_ext (sortedFiles_ordered dir) fits.2 fun file => ?_
      rw [mem_sortedFiles, backed.whole.files, List.mem_map]
    refine cacheRows_congr _ ?_
    have counts : trace.state.cache.files.map (fun cell => (cell.id, cell.rows)) =
        (trace.state.cache.files.map Cell.id).map fun file => (file, (dir.rows file).length) := by
      rw [List.map_map]
      refine map_congr_left fun cell among => ?_
      rw [backed.whole.partition.counts cell among]
      rfl
    rw [counts, ← names, loadKeyCacheFromDisk, List.map_map]
    rfl
  refine ⟨?_, ?_, backed.fits, backed.bytes, backed.present, backed.json,
    fun _ among => absurd among not_mem_nil⟩
  · rw [state]
    exact backed.whole.reopen topic
  · rw [state]
    exact cells.trans backed.rows

end

/-! ## Runs -/

/-- The keys of a topic are backed. -/
def AllBacked (store : ByteStore) : Prop := ∀ key, ∃ dir, Backed dir (store key)

theorem AllBacked.step {topic : Topic} {store : ByteStore} {op : TopicOp}
    (backed : AllBacked store) (fits : OpFits topic store op) :
    AllBacked (store.step topic op) := by
  intro key
  have ⟨dir, here⟩ := backed key
  cases op with
  | append target record writes =>
    by_cases same : key = target
    · subst same
      rw [ByteStore.step, update_self]
      exact here.append fits
    · rw [ByteStore.step, update_of_ne same]
      exact ⟨dir, here⟩
  | openIterator target cond =>
    by_cases same : key = target
    · subst same
      rw [ByteStore.step, update_self]
      exact ⟨dir, here.openIterator cond⟩
    · rw [ByteStore.step, update_of_ne same]
      exact ⟨dir, here⟩
  | reopen => exact ⟨dir, here.reopen topic (fits key)⟩

/-- Two records that are written, one that fails on its payload between them, and an opening. -/
def shortPayloadRun : List TopicOp :=
  [.append "key" (sampleRecord 100 0 0) ⟨100, 100⟩, .append "key" (sampleRecord 200 0 0) ⟨1, 100⟩,
    .append "key" (sampleRecord 300 0 0) ⟨100, 100⟩, .reopen]

/-- A record that fails on its row after 16 bytes, between two that are written. -/
def tornRun : List TopicOp :=
  [.append "key" (sampleRecord 100 0 0) ⟨100, 100⟩, .append "key" (sampleRecord 200 0 0) ⟨100, 16⟩,
    .append "key" (sampleRecord 300 0 0) ⟨100, 100⟩]

end Yunetas.Timeranger2
