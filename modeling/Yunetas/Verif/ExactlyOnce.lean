import Yunetas.Timeranger2.Placed
import Yunetas.Timeranger2.Unfiltered

/-!
# Every appended record once

A run of appends and reopenings carries the history of what was appended. Each record should
come back once, as it was written, from an iteration without conditions, and the cells should
partition the rows. The cache keeps this up as long as no append goes back to a file whose cell
is not the last one, and the start of the message times in the totals, which an append takes as
unset when it is 0, does not jump over the end of a cell.
-/

namespace Yunetas.Timeranger2

open List

/-- A record on disk: its file, the row an append returned and its text. -/
structure Written where
  file : String
  /-- `md_record_ex`. -/
  md : Md2RecordEx
  text : List UInt8

/-- A key with the history of its appends. -/
structure Trace where
  state : KeyState
  history : List Written

/-- A key that was never written. -/
def Trace.empty : Trace := ⟨.empty, []⟩

/-- The operations of a run without rewritten rows. -/
inductive AppendOp where
  /-- `tranger2_append_record`. -/
  | append (record : Append)
  | reopen

/-- What an append adds to the history. -/
def writtenBy (topic : Topic) (state : KeyState) (record : Append) : Written :=
  ⟨topic.fileOf record.time, (appendRecord topic state record).2.md, record.text⟩

/-- The key and its history after an operation. -/
def Trace.step (topic : Topic) (trace : Trace) : AppendOp → Trace
  | .append record =>
    ⟨(appendRecord topic trace.state record).1,
      trace.history ++ [writtenBy topic trace.state record]⟩
  | .reopen => ⟨reopen trace.state, trace.history⟩

/-- What a load delivers of a written record, its number apart. -/
def Written.delivered (written : Written) : Md2RecordEx × Option (List UInt8) :=
  ({ written.md with systemFlag := written.md.systemFlag ||| sfLoadingFromDisk },
    some written.text)

/-- The deliveries of an iteration without conditions, their numbers apart. -/
def deliveries (state : KeyState) (backward : Bool) : List (Md2RecordEx × Option (List UInt8)) :=
  (loadIterator state.dir.rdFiles (everything backward) state.cache).map fun delivery =>
    (delivery.md, delivery.content)

/-- The cells partition the rows on disk, and an iteration without conditions delivers every
record of the history once. -/
structure ExactlyOnce (trace : Trace) : Prop where
  cells : Partitions trace.state.dir.rdFiles trace.state.cache.files
  files : ∀ file, file ∈ trace.state.dir.md2.keys ↔
    ∃ cell ∈ trace.state.cache.files, cell.id = file
  delivered : ∀ backward,
    (deliveries trace.state backward).Perm (trace.history.map Written.delivered)

/-- A record the cache keeps up with: its file is the one of the last cell or has no cell, and a
start of the message times that counts as unset does not jump over the end of a cell. -/
def CacheFits (topic : Topic) (cache : KeyCache) (record : Append) : Prop :=
  match getLastCacheCell cache (topic.fileOf record.time) with
  | some last => cache.total.frTm = 0 →
      ∀ cell ∈ cache.files, min last.frTm record.storedTm ≤ cell.toTm
  | none => (∀ cell ∈ cache.files, cell.id ≠ topic.fileOf record.time) ∧
      (cache.total.frTm = 0 → ∀ cell ∈ cache.files, record.storedTm ≤ cell.toTm)

instance (topic : Topic) (cache : KeyCache) (record : Append) :
    Decidable (CacheFits topic cache record) :=
  match last : getLastCacheCell cache (topic.fileOf record.time) with
  | some cell => decidable_of_iff (cache.total.frTm = 0 →
      ∀ other ∈ cache.files, min cell.frTm record.storedTm ≤ other.toTm) (by rw [CacheFits, last])
  | none => decidable_of_iff ((∀ cell ∈ cache.files, cell.id ≠ topic.fileOf record.time) ∧
      (cache.total.frTm = 0 → ∀ cell ∈ cache.files, record.storedTm ≤ cell.toTm))
      (by rw [CacheFits, last])

/-- The operations the cache keeps up with. -/
def AppendFits (topic : Topic) (trace : Trace) : AppendOp → Prop
  | .append record => CacheFits topic trace.state.cache record
  | .reopen => True

/-! ## The rows of the files -/

/-- The rows of some files, each with its file. -/
def dirRows (dir : KeyDir) (files : List String) : List (String × Md2RecordEx) :=
  files.flatMap fun file => (dir.rows file).zipIdx.map fun (row, position) =>
    (file, row.decode (position + 1))

theorem cacheRows_dirRows {dir : KeyDir} {cells : List Cell}
    (counts : ∀ cell ∈ cells, cell.rows = (dir.rows cell.id).length) :
    (cacheRows dir.rdFiles cells).map (fun found => (found.id, found.md)) =
      dirRows dir (cells.map Cell.id) := by
  have shifted : ∀ first : Int, ((placeCells first cells).flatMap
      (segmentRows dir.rdFiles)).map (fun found => (found.id, found.md)) =
      dirRows dir (cells.map Cell.id) := by
    induction cells with
    | nil => intro first; rfl
    | cons cell rest ih =>
      intro first
      have here := counts cell mem_cons_self
      have later := ih fun other among => counts other (mem_cons_of_mem cell among)
      simp only [placeCells, flatMap_cons, map_append, later, dirRows, map_cons,
        segmentRows, rows_rdFiles, here, take_length, map_map]
      rfl
  exact shifted 1

theorem dirRows_perm {dir : KeyDir} {left right : List String} (perm : left.Perm right) :
    (dirRows dir left).Perm (dirRows dir right) :=
  perm.flatMap_right _

theorem dirRows_congr {old new : KeyDir} {files : List String}
    (same : ∀ file ∈ files, new.rows file = old.rows file) : dirRows new files = dirRows old files :=
  flatMap_congr fun file among => by rw [same file among]

theorem dirRows_gain {old new : KeyDir} {file : String} {row : Md2Record}
    (gained : new.rows file = old.rows file ++ [row]) :
    dirRows new [file] = dirRows old [file] ++
      [(file, row.decode ((old.rows file).length + 1))] := by
  simp [dirRows, gained, zipIdx_append]

/-! ## The invariant -/

/-- What the totals and the ranges of the cells keep. -/
structure Ranged (cache : KeyCache) : Prop where
  filled : ∀ cell ∈ cache.files, 0 < cell.rows
  ranges : ∀ cell ∈ cache.files,
    0 < cell.frT ∧ cell.frT ≤ cell.toT ∧ cell.frTm ≤ cell.toTm ∧ cell.frT < 2 ^ 44 ∧
      cell.frTm < 2 ^ 44
  begins : cache.files ≠ [] → 0 < cache.total.frT
  covers : ∀ cell ∈ cache.files, cache.total.frT ≤ cell.frT ∧ cell.toT ≤ cache.total.toT ∧
    cache.total.frTm ≤ cell.toTm ∧ cell.toTm ≤ cache.total.toTm

/-- What the steps that fit keep. -/
structure Whole (trace : Trace) : Prop where
  sound : Sound trace.state
  partition : Partitions trace.state.dir.rdFiles trace.state.cache.files
  files : ∀ file, file ∈ trace.state.dir.md2.keys ↔
    ∃ cell ∈ trace.state.cache.files, cell.id = file
  ranged : Ranged trace.state.cache
  times : ∀ file, ∀ row ∈ trace.state.dir.rows file, 0 < row.getTimeT.toNat
  rows : (dirRows trace.state.dir (trace.state.cache.files.map Cell.id)).Perm
    (trace.history.map fun written => (written.file, written.md))
  content : ∀ written ∈ trace.history, isDeletedInstance written.md = false ∧
    readRecordContent trace.state.dir.rdFiles written.file written.md = some written.text

theorem Ranged.total_covers {cache : KeyCache} (ranged : Ranged cache) :
    cache.total.Covers cache.files := by
  refine ⟨fun cell among => ?_, fun cell among => ?_, fun cell among => ?_, fun cell among => ?_⟩
  all_goals
    have range := ranged.ranges cell among
    have cover := ranged.covers cell among
    omega

variable {trace : Trace}

/-- An iteration without conditions over a whole key loads all its rows that are alive. -/
theorem Whole.loadIterator_eq (whole : Whole trace) (backward : Bool) :
    loadIterator trace.state.dir.rdFiles (everything backward) trace.state.cache =
      ((inDirection backward (cacheRows trace.state.dir.rdFiles trace.state.cache.files)).filter
        fun found => !isDeletedInstance found.md).map fun found =>
          ⟨found.rowid, { found.md with systemFlag := found.md.systemFlag ||| sfLoadingFromDisk },
            readRecordContent trace.state.dir.rdFiles found.id found.md⟩ := by
  have sound := whole.sound
  have segments := getSegments_everything backward whole.ranged.total_covers sound.counted
    whole.ranged.filled
  have readable := placeCells_readable trace.state.dir.rdFiles sound.held
  have range : ∀ found ∈ inDirection backward
      (cacheRows trace.state.dir.rdFiles trace.state.cache.files),
      1 ≤ found.rowid ∧ found.rowid ≤ trace.state.cache.total.rows := by
    intro found inside
    have among : found ∈ cacheRows trace.state.dir.rdFiles trace.state.cache.files := by
      cases backward with
      | true => exact mem_reverse.1 inside
      | false => exact inside
    have ⟨segment, numbered, row⟩ := mem_flatMap.1 among
    exact sound.rowid_range numbered row
  rw [loadIterator, segments, walk_eq readable,
    visited_everything backward _ sound.held whole.ranged.filled, scan_of_unstopped,
    filter_congr]
  · rfl
  · exact fun found inside => keeps_everything backward (range found inside).1 (range found inside).2
  · exact fun found inside => stops_everything backward (range found inside).1 (range found inside).2

theorem Whole.alive (whole : Whole trace) {found : Found}
    (inside : found ∈ cacheRows trace.state.dir.rdFiles trace.state.cache.files) :
    isDeletedInstance found.md = false := by
  have among : (found.id, found.md) ∈ (cacheRows trace.state.dir.rdFiles
      trace.state.cache.files).map fun found => (found.id, found.md) := mem_map_of_mem inside
  rw [cacheRows_dirRows whole.partition.counts] at among
  have ⟨written, inHistory, same⟩ := mem_map.1 (whole.rows.subset among)
  have ⟨_, sameMd⟩ := Prod.mk.inj same
  rw [← sameMd]
  exact (whole.content written inHistory).1

theorem Whole.exactlyOnce (whole : Whole trace) : ExactlyOnce trace := by
  refine ⟨whole.partition, whole.files, fun backward => ?_⟩
  have stored : ((cacheRows trace.state.dir.rdFiles trace.state.cache.files).map
      fun found => (found.id, found.md)).Perm
      (trace.history.map fun written => (written.file, written.md)) := by
    rw [cacheRows_dirRows whole.partition.counts]
    exact whole.rows
  have turned : (inDirection backward
      (cacheRows trace.state.dir.rdFiles trace.state.cache.files)).Perm
      (cacheRows trace.state.dir.rdFiles trace.state.cache.files) := by
    cases backward with
    | true => exact reverse_perm _
    | false => exact List.Perm.refl _
  rw [deliveries, whole.loadIterator_eq, map_map, filter_eq_self.2 fun found inside => by
    rw [whole.alive (turned.subset inside)]
    rfl]
  refine (turned.map _).trans ?_
  have read := stored.map fun pair : String × Md2RecordEx =>
    ({ pair.2 with systemFlag := pair.2.systemFlag ||| sfLoadingFromDisk },
      readRecordContent trace.state.dir.rdFiles pair.1 pair.2)
  rw [map_map, map_map] at read
  refine read.trans (List.Perm.of_eq (map_congr_left fun written inHistory => ?_))
  simp [(whole.content written inHistory).2, Written.delivered]

theorem Whole.empty : Whole Trace.empty where
  sound := Sound.empty
  partition := ⟨nodup_nil, fun _ among => absurd among not_mem_nil⟩
  files := fun file => by simp [Trace.empty, KeyState.empty, KeyDir.empty, createCacheKey]
  ranged := ⟨fun _ among => absurd among not_mem_nil, fun _ among => absurd among
    not_mem_nil, fun filled => absurd rfl filled, fun _ among => absurd among not_mem_nil⟩
  times := fun _ _ among => absurd among not_mem_nil
  rows := List.Perm.refl _
  content := fun _ among => absurd among not_mem_nil

theorem updateTotalsOfKeyCache2_eq (total : Total) {cell : Cell} (rows : Int)
    (rangeT : cell.frT ≤ cell.toT) (rangeTm : cell.frTm ≤ cell.toTm) (smallT : cell.frT < 2 ^ 44)
    (smallTm : cell.frTm < 2 ^ 44) :
    updateTotalsOfKeyCache2 total cell rows =
      ⟨if total.frT = 0 then cell.frT else min total.frT cell.frT, max total.toT cell.toT,
        if total.frTm = 0 then cell.frTm else min total.frTm cell.frTm, max total.toTm cell.toTm,
        total.rows + rows⟩ := by
  simp only [updateTotalsOfKeyCache2, Total.cover, unsetTime, Total.mk.injEq, and_true]
  refine ⟨?_, ?_, ?_, ?_⟩
  · split_ifs <;> omega
  · omega
  · split_ifs <;> omega
  · omega

/-- Widening the last cell keeps the ranges when a start that counts as unset does not jump over
the end of a cell. -/
theorem Ranged.widen {cache : KeyCache} {before : List Cell} {cell : Cell} (ranged : Ranged cache)
    (split : cache.files = before ++ [cell]) (record : Append)
    (fits : cache.total.frTm = 0 → ∀ other ∈ cache.files, min cell.frTm record.storedTm ≤ other.toTm)
    {wider : Cell} (widened : wider = ⟨cell.id, min cell.frT record.time.toNat,
      max cell.toT record.time.toNat, min cell.frTm record.storedTm,
      max cell.toTm record.storedTm, cell.rows + 1⟩) :
    Ranged ⟨before ++ [wider], updateTotalsOfKeyCache2 cache.total wider 1⟩ := by
  have timePos := record.time_pos
  have inCells : ∀ other, other ∈ before ∨ other = cell → other ∈ cache.files := by
    intro other among
    rw [split, mem_append, mem_singleton]
    exact among
  have range := ranged.ranges cell (inCells cell (Or.inr rfl))
  have begins := ranged.begins (by simp [split])
  have wideRange : wider.frT ≤ wider.toT ∧ wider.frTm ≤ wider.toTm ∧ wider.frT < 2 ^ 44 ∧
      wider.frTm < 2 ^ 44 ∧ 0 < wider.frT ∧ 0 < wider.rows := by
    subst widened
    dsimp only
    omega
  have total := updateTotalsOfKeyCache2_eq cache.total 1 wideRange.1 wideRange.2.1
    wideRange.2.2.1 wideRange.2.2.2.1
  refine ⟨fun other among => ?_, fun other among => ?_, fun _ => ?_, fun other among => ?_⟩
  · rcases mem_append.1 among with inBefore | isWider
    · exact ranged.filled other (inCells other (Or.inl inBefore))
    · rw [mem_singleton.1 isWider]
      omega
  · rcases mem_append.1 among with inBefore | isWider
    · exact ranged.ranges other (inCells other (Or.inl inBefore))
    · rw [mem_singleton.1 isWider]
      omega
  · rw [total]
    dsimp only
    split_ifs <;> omega
  · rw [total]
    dsimp only
    rcases mem_append.1 among with inBefore | isWider
    · have otherCover := ranged.covers other (inCells other (Or.inl inBefore))
      have otherFits := fun unset => fits unset other (inCells other (Or.inl inBefore))
      subst widened
      refine ⟨?_, ?_, ?_, ?_⟩
      · split_ifs <;> omega
      · omega
      · split_ifs with unset
        · exact otherFits unset
        · omega
      · omega
    · rw [mem_singleton.1 isWider]
      refine ⟨?_, ?_, ?_, ?_⟩
      · split_ifs <;> omega
      · omega
      · split_ifs <;> omega
      · omega

/-- A first row of a file keeps the ranges when a start that counts as unset does not jump over
the end of a cell. -/
theorem Ranged.add {cache : KeyCache} (ranged : Ranged cache) (file : String) (record : Append)
    (fits : cache.total.frTm = 0 → ∀ other ∈ cache.files, record.storedTm ≤ other.toTm)
    {added : Cell} (first : added = ⟨file, record.time.toNat, record.time.toNat, record.storedTm,
      record.storedTm, 1⟩) :
    Ranged ⟨cache.files ++ [added], updateTotalsOfKeyCache2 cache.total added 1⟩ := by
  have timePos := record.time_pos
  have timeLt := record.time_lt
  have tmLt := record.storedTm_lt
  have addedRange : added.frT ≤ added.toT ∧ added.frTm ≤ added.toTm ∧ added.frT < 2 ^ 44 ∧
      added.frTm < 2 ^ 44 ∧ 0 < added.frT ∧ 0 < added.rows := by
    subst first
    dsimp only
    omega
  have total := updateTotalsOfKeyCache2_eq cache.total 1 addedRange.1 addedRange.2.1
    addedRange.2.2.1 addedRange.2.2.2.1
  refine ⟨fun other among => ?_, fun other among => ?_, fun _ => ?_, fun other among => ?_⟩
  · rcases mem_append.1 among with older | isAdded
    · exact ranged.filled other older
    · rw [mem_singleton.1 isAdded]
      omega
  · rcases mem_append.1 among with older | isAdded
    · exact ranged.ranges other older
    · rw [mem_singleton.1 isAdded]
      omega
  · rw [total]
    dsimp only
    split_ifs <;> omega
  · rw [total]
    dsimp only
    rcases mem_append.1 among with older | isAdded
    · have otherCover := ranged.covers other older
      have begins := ranged.begins (ne_nil_of_mem older)
      have otherFits := fun unset => fits unset other older
      subst first
      refine ⟨?_, ?_, ?_, ?_⟩
      · split_ifs <;> omega
      · omega
      · split_ifs with unset
        · exact otherFits unset
        · omega
      · omega
    · rw [mem_singleton.1 isAdded]
      refine ⟨?_, ?_, ?_, ?_⟩
      · split_ifs <;> omega
      · omega
      · split_ifs <;> omega
      · omega

theorem appendRecord_keys (topic : Topic) (state : KeyState) (record : Append) (file : String) :
    file ∈ (appendRecord topic state record).1.dir.md2.keys ↔
      file ∈ state.dir.md2.keys ∨ file = topic.fileOf record.time := by
  simp only [appendRecord, Dict.keys_set]
  split_ifs with present
  · constructor
    · exact Or.inl
    · rintro (old | rfl)
      · exact old
      · exact present
  · simp

theorem dirRows_append (topic : Topic) (state : KeyState) (record : Append) {before : List String}
    (fresh : topic.fileOf record.time ∉ before) :
    dirRows (appendRecord topic state record).1.dir (before ++ [topic.fileOf record.time]) =
      dirRows state.dir (before ++ [topic.fileOf record.time]) ++
        [(topic.fileOf record.time, (appendRecord topic state record).2.md)] := by
  have kept : dirRows (appendRecord topic state record).1.dir before = dirRows state.dir before :=
    dirRows_congr fun file among => by
      rw [appendRecord_rows, if_neg]
      rintro rfl
      exact fresh among
  have longer : (appendRecord topic state record).1.dir.rows (topic.fileOf record.time) =
      state.dir.rows (topic.fileOf record.time) ++
        [record.row topic (state.dir.bytes (topic.fileOf record.time)).length] := by
    rw [appendRecord_rows, if_pos rfl]
  have gained := dirRows_gain longer
  have split : ∀ dir : KeyDir, dirRows dir (before ++ [topic.fileOf record.time]) =
      dirRows dir before ++ dirRows dir [topic.fileOf record.time] := fun dir =>
    flatMap_append
  rw [split, split, kept, gained, append_assoc]
  rfl

theorem Whole.content_append {topic : Topic} (whole : Whole trace)
    (record : Append) : ∀ written ∈ trace.history ++ [writtenBy topic trace.state record],
      isDeletedInstance written.md = false ∧
        readRecordContent (appendRecord topic trace.state record).1.dir.rdFiles written.file
          written.md = some written.text := by
  intro written among
  rcases mem_append.1 among with old | new
  · have ⟨alive, read⟩ := whole.content written old
    exact ⟨alive, appendRecord_content read⟩
  · rw [mem_singleton.1 new]
    exact ⟨row_alive topic record _ _, appendRecord_own_content topic trace.state record⟩

theorem Whole.times_append {topic : Topic} (whole : Whole trace) (record : Append) (file : String) :
    ∀ row ∈ (appendRecord topic trace.state record).1.dir.rows file, 0 < row.getTimeT.toNat := by
  intro row among
  rw [appendRecord_rows] at among
  split at among
  · rcases mem_append.1 among with old | new
    · exact whole.times _ row old
    · rw [mem_singleton.1 new, row_getTimeT]
      exact record.time_pos
  · exact whole.times file row among

theorem Whole.append {topic : Topic} {trace : Trace} (whole : Whole trace) {record : Append}
    (fits : AppendFits topic trace (.append record)) : Whole (trace.step topic (.append record)) := by
  have sound : Sound (appendRecord topic trace.state record).1 := whole.sound.append record
  rcases updateNewRecordFromMem_cases topic trace.state.cache record
    (trace.state.dir.bytes (topic.fileOf record.time)).length with
    ⟨before, cell, split, same, last, updated⟩ | ⟨none, updated⟩
  · rw [updateCacheCell_next] at updated
    simp only [AppendFits, CacheFits, last] at fits
    have ids : before.map Cell.id ++ [topic.fileOf record.time] =
        trace.state.cache.files.map Cell.id := by
      rw [split, map_append, ← same]
      rfl
    have distinct := whole.partition.distinct
    rw [← ids] at distinct
    have fresh : topic.fileOf record.time ∉ before.map Cell.id := fun among =>
      (disjoint_of_nodup_append distinct) among mem_cons_self
    have cache : (trace.step topic (.append record)).state.cache = _ := updated
    have newIds : (trace.step topic (.append record)).state.cache.files.map Cell.id =
        trace.state.cache.files.map Cell.id := by
      rw [cache, ← ids, map_append, ← same]
      rfl
    refine ⟨sound, ⟨by rw [newIds]; exact whole.partition.distinct, fun other among => ?_⟩,
      fun file => ?_, ?_, whole.times_append record, ?_, whole.content_append record⟩
    · have rows : (trace.step topic (.append record)).state.dir.rows other.id = _ :=
        appendRecord_rows topic trace.state record other.id
      rw [rows_rdFiles, rows]
      rw [cache] at among
      rcases mem_append.1 among with inBefore | isWider
      · have differ : other.id ≠ topic.fileOf record.time := fun here =>
          fresh (here ▸ mem_map_of_mem inBefore)
        rw [if_neg differ]
        exact whole.partition.counts other (by rw [split]; exact mem_append_left _ inBefore)
      · have counts := whole.partition.counts cell (by rw [split]; simp)
        rw [mem_singleton.1 isWider, if_pos same, length_append, length_singleton]
        rw [rows_rdFiles, same] at counts
        rw [counts]
    · have keys : file ∈ (trace.step topic (.append record)).state.dir.md2.keys ↔ _ :=
        appendRecord_keys topic trace.state record file
      have listed : ∀ cells : List Cell, (∃ cell ∈ cells, cell.id = file) ↔
          file ∈ cells.map Cell.id := fun cells => by simp
      rw [keys, listed, newIds, whole.files, listed, ← ids]
      simp
    · rw [cache]
      exact whole.ranged.widen split record fits rfl
    · rw [newIds, ← ids]
      have rows := whole.rows
      rw [← ids] at rows
      show (dirRows (appendRecord topic trace.state record).1.dir _).Perm _
      rw [dirRows_append topic trace.state record fresh]
      simp only [Trace.step, map_append]
      exact rows.append (List.Perm.refl _)
  · rw [updateCacheCell_first] at updated
    simp only [AppendFits, CacheFits, none] at fits
    have ⟨absent, unset⟩ := fits
    have fresh : topic.fileOf record.time ∉ trace.state.cache.files.map Cell.id := by
      intro among
      have ⟨cell, inCells, same⟩ := mem_map.1 among
      exact absent cell inCells same
    have cache : (trace.step topic (.append record)).state.cache = _ := updated
    have newIds : (trace.step topic (.append record)).state.cache.files.map Cell.id =
        trace.state.cache.files.map Cell.id ++ [topic.fileOf record.time] := by
      rw [cache, map_append]
      rfl
    have unwritten : trace.state.dir.rows (topic.fileOf record.time) = [] := by
      have missing : topic.fileOf record.time ∉ trace.state.dir.md2.keys := fun among => by
        have ⟨cell, inCells, same⟩ := (whole.files _).1 among
        exact absent cell inCells same
      rw [KeyDir.rows, Dict.get?_eq_none _ missing]
      rfl
    refine ⟨sound, ⟨?_, fun other among => ?_⟩, fun file => ?_, ?_, whole.times_append record, ?_,
      whole.content_append record⟩
    · rw [newIds]
      exact nodup_append.2 ⟨whole.partition.distinct, nodup_singleton _, by
        intro left inLeft right isNew
        rw [mem_singleton.1 isNew]
        rintro rfl
        exact fresh inLeft⟩
    · have rows : (trace.step topic (.append record)).state.dir.rows other.id = _ :=
        appendRecord_rows topic trace.state record other.id
      rw [rows_rdFiles, rows]
      rw [cache] at among
      rcases mem_append.1 among with older | isAdded
      · rw [if_neg (absent other older)]
        exact whole.partition.counts other older
      · rw [mem_singleton.1 isAdded, if_pos rfl, unwritten]
        rfl
    · have keys : file ∈ (trace.step topic (.append record)).state.dir.md2.keys ↔ _ :=
        appendRecord_keys topic trace.state record file
      have listed : ∀ cells : List Cell, (∃ cell ∈ cells, cell.id = file) ↔
          file ∈ cells.map Cell.id := fun cells => by simp
      rw [keys, listed, newIds, whole.files, listed]
      simp
    · rw [cache]
      exact whole.ranged.add _ record unset rfl
    · rw [newIds]
      have rows := whole.rows
      have none : dirRows trace.state.dir [topic.fileOf record.time] = [] := by
        simp [dirRows, unwritten]
      have split : dirRows trace.state.dir (trace.state.cache.files.map Cell.id ++
          [topic.fileOf record.time]) =
          dirRows trace.state.dir (trace.state.cache.files.map Cell.id) ++
            dirRows trace.state.dir [topic.fileOf record.time] := flatMap_append
      show (dirRows (appendRecord topic trace.state record).1.dir _).Perm _
      rw [dirRows_append topic trace.state record fresh, split, none, append_nil]
      simp only [Trace.step, map_append]
      exact rows.append (List.Perm.refl _)

theorem loadCacheCellFromDisk_eq (file : String) {rows : List Md2Record} (filled : rows ≠ []) :
    loadCacheCellFromDisk file rows =
      ⟨file, min (rows.head filled).getTimeT.toNat (rows.getLast filled).getTimeT.toNat,
        max (rows.head filled).getTimeT.toNat (rows.getLast filled).getTimeT.toNat,
        min (rows.head filled).getTimeTm.toNat (rows.getLast filled).getTimeTm.toNat,
        max (rows.head filled).getTimeTm.toNat (rows.getLast filled).getTimeTm.toNat,
        rows.length⟩ := by
  have first := wordTime_lt (rows.head filled).t
  have firstTm := wordTime_lt (rows.head filled).tm
  rw [← Md2Record.getTimeT] at first
  rw [← Md2Record.getTimeTm] at firstTm
  simp only [loadCacheCellFromDisk, loadFirstAndLastRecordMd, updateCacheCell,
    head?_eq_some_head filled, getLast?_eq_some_getLast filled, Option.getD_some,
    Option.getD_none, unsetTime, Cell.mk.injEq, true_and, and_true]
  omega

theorem mem_sortedFiles (dir : KeyDir) (file : String) :
    file ∈ sortedFiles dir ↔ file ∈ dir.md2.keys :=
  mem_insertionSort _

theorem Whole.reopen (whole : Whole trace) (topic : Topic) : Whole (trace.step topic .reopen) := by
  have filled : ∀ file ∈ sortedFiles trace.state.dir, trace.state.dir.rows file ≠ [] := by
    intro file among
    obtain ⟨cell, inCells, rfl⟩ := (whole.files file).1 ((mem_sortedFiles _ file).1 among)
    have rows := whole.ranged.filled cell inCells
    rw [whole.partition.counts cell inCells] at rows
    exact length_pos_iff_ne_nil.1 rows
  have loaded : ∀ cell ∈ (trace.step topic .reopen).state.cache.files,
      ∃ file ∈ sortedFiles trace.state.dir,
        cell = loadCacheCellFromDisk file (trace.state.dir.rows file) := by
    intro cell among
    obtain ⟨file, listed, rfl⟩ := mem_map.1 among
    exact ⟨file, listed, rfl⟩
  have ids : (trace.step topic .reopen).state.cache.files.map Cell.id =
      sortedFiles trace.state.dir := by
    simp only [Trace.step, Timeranger2.reopen, loadKeyCacheFromDisk, map_map]
    exact map_id'' (fun _ => rfl) _
  have distinct : (sortedFiles trace.state.dir).Nodup :=
    (perm_insertionSort fileNameLe trace.state.dir.md2.keys).nodup_iff.2
      trace.state.dir.md2.keys_nodup
  have ranges : ∀ cell ∈ (trace.step topic .reopen).state.cache.files,
      0 < cell.frT ∧ cell.frT ≤ cell.toT ∧ cell.frTm ≤ cell.toTm ∧ cell.frT < 2 ^ 44 ∧
        cell.frTm < 2 ^ 44 := by
    intro cell among
    obtain ⟨file, listed, rfl⟩ := loaded cell among
    have rows := filled file listed
    have first := whole.times file _ (head_mem rows)
    have last := whole.times file _ (getLast_mem rows)
    have small := wordTime_lt ((trace.state.dir.rows file).head rows).t
    have smallTm := wordTime_lt ((trace.state.dir.rows file).head rows).tm
    rw [← Md2Record.getTimeT] at small
    rw [← Md2Record.getTimeTm] at smallTm
    rw [loadCacheCellFromDisk_eq file rows]
    dsimp only
    omega
  have total : (trace.step topic .reopen).state.cache.total = _ :=
    updateTotalsOfKeyCache_eq (trace.step topic .reopen).state.cache.files
  refine ⟨Sound.reopen _, ⟨by rw [ids]; exact distinct, fun cell among => ?_⟩, fun file => ?_,
    ⟨fun cell among => ?_, ranges, fun some_cells => ?_, fun cell among => ?_⟩, whole.times, ?_,
    whole.content⟩
  · obtain ⟨file, -, rfl⟩ := loaded cell among
    rfl
  · have listed : (∃ cell ∈ (trace.step topic .reopen).state.cache.files, cell.id = file) ↔
        file ∈ (trace.step topic .reopen).state.cache.files.map Cell.id := by simp
    rw [listed, ids, mem_sortedFiles]
    rfl
  · obtain ⟨file, listed, rfl⟩ := loaded cell among
    exact length_pos_iff_ne_nil.2 (filled file listed)
  · rw [total]
    rcases (lowest_spec unsetTime _).2.2 with unset | one
    · rw [unset]
      exact Nat.zero_lt_succ _
    · have ⟨cell, among, ends⟩ := mem_flatMap.1 one
      have range := ranges cell among
      simp only [mem_cons, not_mem_nil, or_false] at ends
      dsimp only
      omega
  · rw [total]
    have inTimes : ∀ (start finish : Cell → Nat) (time : Nat),
        time = start cell ∨ time = finish cell → time ∈
          (trace.step topic .reopen).state.cache.files.flatMap fun cell =>
            [start cell, finish cell] := by
      intro start finish time one
      refine mem_flatMap.2 ⟨cell, among, ?_⟩
      simpa using one
    exact ⟨(lowest_spec unsetTime _).1 _ (inTimes Cell.frT Cell.toT _ (Or.inl rfl)),
      (highest_spec _).1 _ (inTimes Cell.frT Cell.toT _ (Or.inr rfl)),
      (lowest_spec unsetTime _).1 _ (inTimes Cell.frTm Cell.toTm _ (Or.inr rfl)),
      (highest_spec _).1 _ (inTimes Cell.frTm Cell.toTm _ (Or.inr rfl))⟩
  · rw [ids]
    refine (dirRows_perm ?_).trans whole.rows
    refine (perm_ext_iff_of_nodup distinct whole.partition.distinct).2 fun file => ?_
    rw [mem_sortedFiles, whole.files]
    simp

/-! ## The steps that do not fit -/

theorem deliveries_length_le {state : KeyState} (sound : Sound state) (backward : Bool) :
    (deliveries state backward).length ≤
      rowsOf ((getSegments (everything backward) state.cache).map Segment.cell) := by
  have readable := sound.readable (everything backward)
  rw [deliveries, length_map, loadIterator, length_map, walk_eq readable]
  refine le_trans (scan_sublist _ _ _).length_le ?_
  rw [visited]
  split
  · exact visitDown_length readable _
  · exact visitUp_length readable _

theorem deliveries_length_lt {state : KeyState} (sound : Sound state) {cell : Cell}
    (among : cell ∈ state.cache.files) (filled : 0 < cell.rows)
    (dropped : cell.toTm < state.cache.total.frTm) :
    (deliveries state false).length < rowsOf state.cache.files := by
  refine lt_of_le_of_lt (deliveries_length_le sound false) ?_
  obtain ⟨segment, numbered, rfl⟩ : ∃ segment ∈ placeCells 1 state.cache.files,
      segment.cell = cell := by
    rw [← placeCells_cells 1 state.cache.files] at among
    exact mem_map.1 among
  have ⟨before, after, split⟩ := append_of_mem numbered
  have rows : 0 < state.cache.total.rows := by
    have member := (mem_placeCells numbered).1
    have ⟨left, right, parts⟩ := append_of_mem member
    rw [sound.counted, parts, rowsOf_append, rowsOf_cons]
    omega
  have kept : (getSegments (everything false) state.cache).Sublist
      ((placeCells 1 state.cache.files).filter (Segment.overlaps
        ⟨1, state.cache.total.rows, state.cache.total.frT, state.cache.total.toT,
          state.cache.total.frTm, state.cache.total.toTm⟩)) := by
    rw [getSegments, adjustBounds_everything false rows]
    simp only [forwardSegments_eq]
    exact (takeWhile_sublist _).filter _
  have out : Segment.overlaps ⟨1, state.cache.total.rows, state.cache.total.frT,
      state.cache.total.toT, state.cache.total.frTm, state.cache.total.toTm⟩ segment = false := by
    simp only [Segment.overlaps, decide_eq_false_iff_not]
    omega
  rw [split, filter_append, filter_cons, out] at kept
  have less := rowsOf_sublist kept
  have left := rowsOf_sublist (filter_sublist (l := before) (p := Segment.overlaps
    ⟨1, state.cache.total.rows, state.cache.total.frT, state.cache.total.toT,
      state.cache.total.frTm, state.cache.total.toTm⟩))
  have right := rowsOf_sublist (filter_sublist (l := after) (p := Segment.overlaps
    ⟨1, state.cache.total.rows, state.cache.total.frT, state.cache.total.toT,
      state.cache.total.frTm, state.cache.total.toTm⟩))
  have whole : rowsOf state.cache.files = rowsOf (before.map Segment.cell) +
      (segment.cell.rows + rowsOf (after.map Segment.cell)) := by
    rw [← placeCells_cells 1 state.cache.files, split, map_append, rowsOf_append,
      map_cons, rowsOf_cons]
  simp only [Bool.false_eq_true, if_false, map_append, rowsOf_append] at less
  omega

theorem Whole.history_length (whole : Whole trace) :
    trace.history.length = rowsOf trace.state.cache.files := by
  have length := whole.rows.length_eq
  rw [length_map, ← cacheRows_dirRows whole.partition.counts, length_map, cacheRows,
    flatMap_length (placeCells_readable trace.state.dir.rdFiles whole.sound.held)]
    at length
  rw [← length, placeCells_cells]

theorem appendFits_of_exactlyOnce {topic : Topic} (whole : Whole trace)
    (op : AppendOp) (once : ExactlyOnce (trace.step topic op)) : AppendFits topic trace op := by
  cases op with
  | reopen => trivial
  | append record =>
    have sound : Sound (trace.step topic (.append record)).state := whole.sound.append record
    have history : (trace.step topic (.append record)).history.length =
        rowsOf trace.state.cache.files + 1 := by
      rw [← whole.history_length]
      simp [Trace.step]
    have delivered := (once.delivered false).length_eq
    rw [length_map, history] at delivered
    have timeLt := record.time_lt
    have tmLt := record.storedTm_lt
    rcases updateNewRecordFromMem_cases topic trace.state.cache record
      (trace.state.dir.bytes (topic.fileOf record.time)).length with
      ⟨before, last, split, same, found, updated⟩ | ⟨none, updated⟩
    · rw [updateCacheCell_next] at updated
      dsimp only at updated
      simp only [AppendFits, CacheFits, found]
      intro unset other among
      by_contra jumps
      have range := whole.ranged.ranges last (by rw [split]; simp)
      have cache : (trace.step topic (.append record)).state.cache = _ := updated
      rw [updateTotalsOfKeyCache2_eq _ _ (by dsimp only; omega) (by dsimp only; omega)
        (by dsimp only; omega) (by dsimp only; omega), if_pos unset] at cache
      have inBefore : other ∈ before := by
        rw [split, mem_append, mem_singleton] at among
        rcases among with inside | rfl
        · exact inside
        · omega
      have less := deliveries_length_lt sound (by rw [cache]; exact mem_append_left _ inBefore)
        (whole.ranged.filled other among) (by rw [cache]; dsimp only; omega)
      have counted : rowsOf (trace.step topic (.append record)).state.cache.files =
          rowsOf trace.state.cache.files + 1 := by
        rw [cache, split, rowsOf_append, rowsOf_append, rowsOf_cons, rowsOf_cons, rowsOf_nil]
        dsimp only
        omega
      omega
    · rw [updateCacheCell_first] at updated
      dsimp only at updated
      simp only [AppendFits, CacheFits, none]
      have cache : (trace.step topic (.append record)).state.cache = _ := updated
      refine ⟨fun other among here => ?_, fun unset other among => ?_⟩
      · have distinct := once.cells.distinct
        rw [cache, map_append] at distinct
        exact (disjoint_of_nodup_append distinct) (mem_map_of_mem among)
          (by rw [here]; exact mem_cons_self)
      · by_contra jumps
        rw [updateTotalsOfKeyCache2_eq _ _ le_rfl le_rfl timeLt tmLt, if_pos unset] at cache
        have less := deliveries_length_lt sound (by rw [cache]; exact mem_append_left _ among)
          (whole.ranged.filled other among) (by rw [cache]; dsimp only; omega)
        have counted : rowsOf (trace.step topic (.append record)).state.cache.files =
            rowsOf trace.state.cache.files + 1 := by
          rw [cache, rowsOf_append, rowsOf_cons, rowsOf_nil]
        omega

end Yunetas.Timeranger2
