import Yunetas.Timeranger2.Sound

/-!
# Where rows and payloads are

A row stays in the file of its time, and its locator points into the payloads of that file: no
operation shortens a `.json` file, a wiped payload keeps its bytes as nulls. So the time and the
row of a metadata tell which row of the disk it is, and what a row holds can always be read.
-/

namespace Yunetas.Timeranger2

open List Option Dict

/-! ## Contents -/

theorem readRecordContent_grown {old new : RdFiles} {file : String} {md : Md2RecordEx}
    {data text : List UInt8} (extra : List UInt8) (opened : old.json file = some data)
    (grown : new.json file = some (data ++ extra))
    (read : readRecordContent old file md = some text) :
    readRecordContent new file md = some text := by
  simp only [readRecordContent, opened, grown, bind_eq_bind, bind_some] at read ⊢
  split_ifs at read with refused
  have inside : ¬ (md.size = 0 ∨ md.offset > (data ++ extra).length ∨
      md.size > (data ++ extra).length - md.offset) := by
    rw [length_append]
    omega
  have short : md.size ≤ (data.drop md.offset).length := by
    rw [length_drop]
    omega
  rw [if_neg inside, drop_append_of_le_length (by omega), take_append_of_le_length short]
  exact read

theorem readRecordContent_extended {old new : KeyDir} (target : String) (extra : List UInt8)
    (written : new.json = old.json.set target (old.bytes target ++ extra)) {file : String}
    {md : Md2RecordEx} {text : List UInt8}
    (read : readRecordContent old.rdFiles file md = some text) :
    readRecordContent new.rdFiles file md = some text := by
  cases opened : old.json.get? file with
  | none =>
    have unread : readRecordContent old.rdFiles file md = none := by
      simp [readRecordContent, KeyDir.rdFiles, opened]
    rw [unread] at read
    contradiction
  | some data =>
    by_cases here : file = target
    · refine readRecordContent_grown extra opened ?_ read
      subst here
      simp [KeyDir.rdFiles, written, get?_set_self, KeyDir.bytes, opened]
    · refine readRecordContent_grown [] opened ?_ read
      rw [append_nil, ← opened]
      simp [KeyDir.rdFiles, written, get?_set_ne _ _ here]

variable {topic : Topic}

theorem appendRecord_content {state : KeyState} {record : Append} {file : String}
    {md : Md2RecordEx} {text : List UInt8}
    (read : readRecordContent state.dir.rdFiles file md = some text) :
    readRecordContent (appendRecord topic state record).1.dir.rdFiles file md = some text :=
  readRecordContent_extended (topic.fileOf record.time) (record.text ++ [0]) rfl read

theorem appendRecord_own_content (topic : Topic) (state : KeyState) (record : Append) :
    readRecordContent (appendRecord topic state record).1.dir.rdFiles (topic.fileOf record.time)
      (appendRecord topic state record).2.md = some record.text := by
  have written : (appendRecord topic state record).1.dir.rdFiles.json (topic.fileOf record.time) =
      some (state.dir.bytes (topic.fileOf record.time) ++ (record.text ++ [0]) ++ []) := by
    rw [append_nil]
    exact get?_set_self _ _ _
  exact readRecordContent_of_split written rfl rfl record.noNul

/-! ## Places -/

/-- The operation is a wiping delete of the row of a file with an index. -/
def KeyOp.Wipes (topic : Topic) (file : String) (index : Nat) : KeyOp → Prop
  | .deleteInstance t rowid zeroPayload => zeroPayload = true ∧ topic.fileOf t = file ∧
      (rowid.toNat - 1) * 32 % 2 ^ 64 / 32 = index
  | _ => False

/-- Rows are in the files of their times and point into the payloads. -/
structure Placed (topic : Topic) (dir : KeyDir) : Prop where
  filed : ∀ file, ∀ row ∈ dir.rows file, topic.fileOf row.getTimeT = file
  located : ∀ file, ∀ row ∈ dir.rows file,
    0 < row.size ∧ row.offset + row.size ≤ (dir.bytes file).length

theorem filed_step {state : KeyState} (op : KeyOp)
    (filed : ∀ file, ∀ row ∈ state.dir.rows file, topic.fileOf row.getTimeT = file) :
    ∀ file, ∀ row ∈ (state.step topic op).dir.rows file, topic.fileOf row.getTimeT = file := by
  intro file row among
  rcases step_cases topic state op with ⟨record, rfl⟩ | rfl | ⟨rewritten, -⟩
  · rw [show (state.step topic (.append record)).dir.rows file = _ from
      appendRecord_rows topic state record file] at among
    split at among
    · rename_i here
      rcases mem_append.1 among with old | new
      · rw [here]
        exact filed _ row old
      · rw [mem_singleton.1 new, row_getTimeT, here]
    · exact filed file row among
  · exact filed file row among
  · have ⟨index, inNew⟩ := mem_iff_getElem?.1 among
    have ⟨bound, _⟩ := List.getElem?_eq_some_iff.1 inNew
    rw [rewritten.lengths] at bound
    have inOld := getElem?_eq_getElem bound
    have ⟨row', there, kept⟩ := rewritten.grows file index _ inOld
    obtain rfl : row' = row := some.inj (there.symm.trans inNew)
    rw [kept.t]
    exact filed file _ (getElem_mem bound)

theorem bytes_set (dir : KeyDir) (file : String) (bytes : List UInt8)
    (md2 : Dict String (List Md2Record)) (fileId : String) :
    KeyDir.bytes ⟨md2, dir.json.set file bytes⟩ fileId =
      if fileId = file then bytes else dir.bytes fileId := by
  rw [KeyDir.bytes, get?_set]
  split <;> rfl

theorem getMdRecordForWr_json {dir dir' : KeyDir} {t rowid : UInt64}
    {found : Option (Nat × Md2Record)}
    (loaded : getMdRecordForWr topic dir t rowid = (dir', found)) : dir'.json = dir.json := by
  simp only [getMdRecordForWr] at loaded
  split_ifs at loaded
  · rw [← (Prod.mk.inj loaded).1]
  · rw [← (Prod.mk.inj loaded).1]
  · split at loaded
    · split_ifs at loaded
      all_goals rw [← (Prod.mk.inj loaded).1]
    · rw [← (Prod.mk.inj loaded).1]

theorem getMdRecordForWr_index {dir dir' : KeyDir} {t rowid : UInt64} {index : Nat}
    {row : Md2Record} (loaded : getMdRecordForWr topic dir t rowid = (dir', some (index, row))) :
    index = (rowid.toNat - 1) * 32 % 2 ^ 64 / 32 := by
  simp only [getMdRecordForWr] at loaded
  split_ifs at loaded
  · cases loaded
  · cases loaded
  · split at loaded
    · split_ifs at loaded
      · obtain ⟨_, found⟩ := Prod.mk.inj loaded
        exact (Prod.mk.inj (Option.some.inj found)).1.symm
      · cases loaded
    · cases loaded

/-- Zeros over some bytes of a file. -/
def zeroed (bytes : List UInt8) (position count : Nat) : List UInt8 :=
  bytes.take position ++ List.replicate count 0 ++ bytes.drop (position + count)

theorem length_zeroed {bytes : List UInt8} {position count : Nat}
    (inside : position + count ≤ bytes.length) :
    (zeroed bytes position count).length = bytes.length := by
  simp only [zeroed, length_append, length_take, length_replicate, length_drop]
  omega

theorem zeroBytes_bytes (dir : KeyDir) (file : String) (offset size : Nat) (fileId : String) :
    (zeroBytes dir file offset size).1.bytes fileId = dir.bytes fileId ∨
      fileId = file ∧ offset + size ≤ (dir.bytes file).length ∧
        (zeroBytes dir file offset size).1.bytes fileId = zeroed (dir.bytes file) offset size := by
  have opened : KeyDir.bytes ⟨dir.md2, dir.json.set file (dir.bytes file)⟩ fileId =
      dir.bytes fileId := by
    rw [bytes_set]
    split
    · rename_i here
      rw [here]
    · rfl
  unfold zeroBytes
  dsimp only
  split
  · exact .inl opened
  · rename_i accepted
    have set := bytes_set ⟨dir.md2, dir.json.set file (dir.bytes file)⟩ file
      (zeroed (dir.bytes file) offset size) dir.md2 fileId
    by_cases here : fileId = file
    · rw [if_pos here] at set
      exact .inr ⟨here, by omega, set⟩
    · rw [if_neg here, opened] at set
      exact .inl set

theorem rewriteRow_bytes (topic : Topic) (state : KeyState) (t rowid : UInt64)
    (change : Md2Record → Md2Record) (file : String) :
    (rewriteRow topic state t rowid change).1.dir.bytes file = state.dir.bytes file := by
  cases loaded : getMdRecordForWr topic state.dir t rowid with
  | mk dir found =>
    have json := getMdRecordForWr_json loaded
    cases found <;> simp [rewriteRow, loaded, rewriteMdToFile, KeyDir.bytes, json]

/-- An operation adds to the payloads of a file, or wipes the payload of one row. -/
theorem step_bytes (topic : Topic) (state : KeyState) (op : KeyOp) (file : String) :
    (∃ extra, (state.step topic op).dir.bytes file = state.dir.bytes file ++ extra) ∨
      ∃ index row, op.Wipes topic file index ∧ (state.dir.rows file)[index]? = some row ∧
        row.offset + row.size ≤ (state.dir.bytes file).length ∧
        (state.step topic op).dir.bytes file =
          zeroed (state.dir.bytes file) row.offset row.size := by
  have same {after : KeyDir} (kept : after.bytes file = state.dir.bytes file) :
      ∃ extra, after.bytes file = state.dir.bytes file ++ extra :=
    ⟨[], kept.trans (append_nil _).symm⟩
  cases op with
  | append record =>
    have set := bytes_set state.dir (topic.fileOf record.time)
      (state.dir.bytes (topic.fileOf record.time) ++ (record.text ++ [0]))
      (state.dir.md2.set (topic.fileOf record.time) (state.dir.rows (topic.fileOf record.time) ++
        [record.row topic (state.dir.bytes (topic.fileOf record.time)).length])) file
    have written : (state.step topic (.append record)).dir.bytes file = _ := set
    rw [written]
    split
    · rename_i here
      exact .inl ⟨_, by rw [here]⟩
    · exact .inl ⟨[], (append_nil _).symm⟩
  | reopen => exact .inl (same rfl)
  | writeUserFlag t rowid userFlag => exact .inl (same (rewriteRow_bytes topic state t rowid _ file))
  | setUserFlag t rowid mask set => exact .inl (same (rewriteRow_bytes topic state t rowid _ file))
  | setSystemFlag t rowid mask set =>
    simp only [KeyState.step, setSystemFlag]
    split
    · exact .inl (same rfl)
    · exact .inl (same (rewriteRow_bytes topic state t rowid _ file))
  | deleteInstance t rowid zeroPayload =>
    cases loaded : getMdRecordForWr topic state.dir t rowid with
    | mk dir found =>
      have json := getMdRecordForWr_json loaded
      have unwritten : dir.bytes file = state.dir.bytes file := by simp only [KeyDir.bytes, json]
      cases found with
      | none =>
        simp only [KeyState.step, deleteInstance, loaded]
        exact .inl (same unwritten)
      | some pair =>
        obtain ⟨index, row⟩ := pair
        obtain ⟨rows, spec⟩ := getMdRecordForWr_spec loaded
        obtain ⟨stored, _⟩ := spec index row rfl
        simp only [KeyState.step, deleteInstance, loaded]
        split_ifs with _ _ wipes
        · exact .inl (same unwritten)
        · exact .inl (same unwritten)
        · have bytes := zeroBytes_bytes (rewriteMdToFile dir (topic.fileOf t) index
            (row.setSystemFlag (row.getSystemFlag ||| sfDeletedInstance))) (topic.fileOf t)
            row.offset row.size file
          rcases bytes with kept | ⟨here, inside, wiped⟩
          · exact .inl (same (kept.trans unwritten))
          · subst here
            refine .inr ⟨index, row, ⟨wipes.1, rfl, (getMdRecordForWr_index loaded).symm⟩, stored, ?_⟩
            rw [← unwritten]
            exact ⟨inside, wiped⟩
        · exact .inl (same unwritten)

theorem step_bytes_length (topic : Topic) (state : KeyState) (op : KeyOp) (file : String) :
    (state.dir.bytes file).length ≤ ((state.step topic op).dir.bytes file).length := by
  rcases step_bytes topic state op file with ⟨extra, grown⟩ | ⟨_, _, _, _, inside, wiped⟩
  · rw [grown, length_append]
    omega
  · rw [wiped, length_zeroed inside]

theorem Placed.step {state : KeyState} (placed : Placed topic state.dir)
    (op : KeyOp) : Placed topic (state.step topic op).dir := by
  refine ⟨filed_step op placed.filed, fun file row among => ?_⟩
  have grown := step_bytes_length topic state op file
  rcases step_cases topic state op with ⟨record, rfl⟩ | rfl | ⟨rewritten, -⟩
  · rw [show (state.step topic (.append record)).dir.rows file = _ from
      appendRecord_rows topic state record file] at among
    split at among
    · rename_i here
      rcases mem_append.1 among with old | new
      · have inside := placed.located _ row old
        rw [← here] at inside
        omega
      · have bytes : (state.step topic (.append record)).dir.bytes file = _ :=
          bytes_set state.dir (topic.fileOf record.time)
            (state.dir.bytes (topic.fileOf record.time) ++ (record.text ++ [0])) _ file
        have offset : (record.row topic
          (state.dir.bytes (topic.fileOf record.time)).length).offset =
            (state.dir.bytes (topic.fileOf record.time)).length := rfl
        have size : (record.row topic (state.dir.bytes (topic.fileOf record.time)).length).size =
            record.text.length + 1 := rfl
        rw [mem_singleton.1 new, bytes, if_pos here, offset, size]
        simp only [length_append, length_singleton]
        omega
    · have inside := placed.located file row among
      omega
  · exact placed.located file row among
  · have ⟨index, inNew⟩ := mem_iff_getElem?.1 among
    have ⟨bound, _⟩ := List.getElem?_eq_some_iff.1 inNew
    rw [rewritten.lengths] at bound
    have ⟨row', there, kept⟩ := rewritten.grows file index _ (getElem?_eq_getElem bound)
    obtain rfl : row' = row := some.inj (there.symm.trans inNew)
    have inside := placed.located file _ (getElem_mem bound)
    rw [kept.offset, kept.size]
    omega

theorem Placed.empty (topic : Topic) : Placed topic KeyDir.empty :=
  ⟨fun _ _ among => absurd among not_mem_nil, fun _ _ among => absurd among not_mem_nil⟩

theorem Placed.run (topic : Topic) (ops : List KeyOp) :
    Placed topic (run (KeyState.step topic) KeyState.empty ops).dir :=
  run_invariant (KeyState.step topic) (fun state => Placed topic state.dir)
    (fun _ op placed => placed.step op) (Placed.empty topic) ops

theorem Placed.readable {dir : KeyDir} (placed : Placed topic dir) {file : String}
    {row : Md2Record} (among : row ∈ dir.rows file) (rowid : Nat) :
    ∃ text, readRecordContent dir.rdFiles file (row.decode rowid) = some text := by
  have inside := placed.located file row among
  cases opened : dir.json.get? file with
  | none =>
    rw [KeyDir.bytes, opened, getD_none, length_nil] at inside
    omega
  | some data =>
    rw [KeyDir.bytes, opened, getD_some] at inside
    have within : ¬ ((row.decode rowid).size = 0 ∨ (row.decode rowid).offset > data.length ∨
        (row.decode rowid).size > data.length - (row.decode rowid).offset) := by
      simp only [Md2Record.decode]
      omega
    simp only [readRecordContent, KeyDir.rdFiles, opened, bind_eq_bind, bind_some, if_neg within]
    exact ⟨_, rfl⟩

end Yunetas.Timeranger2
