import Yunetas.Timeranger2.Wipe

/-!
# Records that nobody wipes

The payloads of a file stand in the order of its rows and do not overlap, so the zeros that a wiping
delete writes fall on no other payload, and a record is read back until a delete wipes its own row.
-/

namespace Yunetas.Timeranger2

open List

/-- The payloads of each file stand in the order of its rows. -/
def Apart (dir : KeyDir) : Prop :=
  ∀ file, (dir.rows file).Pairwise fun first second => first.offset + first.size ≤ second.offset

/-- What a row was written as is kept, and its payload is a text. -/
structure Holds (dir : KeyDir) (file : String) (index : Nat) (first : Md2Record)
    (text : List UInt8) : Prop where
  stored : ∃ row, (dir.rows file)[index]? = some row ∧ RowKept first row
  payload : ((dir.bytes file).drop first.offset).take first.size = text ++ [0]

/-! ## Steps -/

variable {topic : Topic} {state : KeyState}

theorem Apart.ordered {dir : KeyDir} (apart : Apart dir) {file : String} {one two : Nat}
    {first second : Md2Record} (before : one < two) (low : (dir.rows file)[one]? = some first)
    (high : (dir.rows file)[two]? = some second) : first.offset + first.size ≤ second.offset := by
  obtain ⟨inLow, rfl⟩ := List.getElem?_eq_some_iff.1 low
  obtain ⟨inHigh, rfl⟩ := List.getElem?_eq_some_iff.1 high
  exact pairwise_iff_getElem.1 (apart file) one two inLow inHigh before

theorem Apart.step (apart : Apart state.dir) (placed : Placed topic state.dir) (op : KeyOp) :
    Apart (state.step topic op).dir := by
  intro file
  rcases step_cases topic state op with ⟨record, rfl⟩ | rfl | ⟨rewritten, -⟩
  · rw [show (state.step topic (.append record)).dir.rows file = _ from
      appendRecord_rows topic state record file]
    split
    · rename_i here
      refine pairwise_append.2 ⟨here ▸ apart file, pairwise_singleton _ _, ?_⟩
      intro old among new same
      rw [mem_singleton.1 same]
      exact (placed.located _ old among).2
    · exact apart file
  · exact apart file
  · rw [pairwise_iff_getElem]
    intro one two low high before
    have place {index : Nat} (inside : index < ((state.step topic op).dir.rows file).length) :
        ∃ old, (state.dir.rows file)[index]? = some old ∧
          RowKept old ((state.step topic op).dir.rows file)[index] := by
      have bound := rewritten.lengths file ▸ inside
      have ⟨new, there, kept⟩ := rewritten.grows file index _ (getElem?_eq_getElem bound)
      have ⟨_, found⟩ := List.getElem?_eq_some_iff.1 there
      exact ⟨_, getElem?_eq_getElem bound, found ▸ kept⟩
    have ⟨first, firstThere, firstKept⟩ := place low
    have ⟨second, secondThere, secondKept⟩ := place high
    rw [firstKept.offset, firstKept.size, secondKept.offset]
    exact apart.ordered before firstThere secondThere

variable {file : String} {index : Nat} {first : Md2Record} {text : List UInt8}

theorem Holds.step (holds : Holds state.dir file index first text)
    (placed : Placed topic state.dir) (apart : Apart state.dir) {op : KeyOp}
    (spared : ¬op.Wipes topic file index) :
    Holds (state.step topic op).dir file index first text := by
  have ⟨⟨row, there, kept⟩, payload⟩ := holds
  have ⟨row', there', kept'⟩ := step_extends topic state op file index row there
  refine ⟨⟨row', there', kept.trans kept'⟩, ?_⟩
  have ⟨_, inside⟩ := placed.located file row (mem_of_getElem? there)
  rw [kept.offset, kept.size] at inside
  rw [← payload]
  rcases step_bytes topic state op file with ⟨extra, grown⟩ |
    ⟨other, dead, wipes, found, fits, wiped⟩
  · rw [grown, drop_append_of_le_length (by omega),
      take_append_of_le_length (by rw [length_drop]; omega)]
  · have apartHere : dead.offset + dead.size ≤ first.offset ∨
        first.offset + first.size ≤ dead.offset := by
      rw [← kept.offset, ← kept.size]
      rcases Nat.lt_trichotomy other index with before | rfl | after
      · exact .inl (apart.ordered before found there)
      · exact absurd wipes spared
      · exact .inr (apart.ordered after there found)
    apply List.ext_getElem?
    intro place
    rw [wiped, getElem?_take, getElem?_take, getElem?_drop, getElem?_drop, zeroed_getElem? fits]
    split
    · rw [if_neg (by omega)]
    · rfl

theorem Holds.append (record : Append) :
    Holds (state.step topic (.append record)).dir (topic.fileOf record.time)
      (state.dir.rows (topic.fileOf record.time)).length
      (record.row topic (state.dir.bytes (topic.fileOf record.time)).length) record.text := by
  have bytes : (state.step topic (.append record)).dir.bytes (topic.fileOf record.time) =
      state.dir.bytes (topic.fileOf record.time) ++ (record.text ++ [0]) :=
    (bytes_set state.dir _ _ _ _).trans (if_pos rfl)
  refine ⟨⟨_, ?_, RowKept.refl _⟩, ?_⟩
  · rw [show (state.step topic (.append record)).dir.rows _ = _ from
      appendRecord_rows topic state record _, if_pos rfl]
    exact getElem?_concat_length
  · rw [bytes]
    exact (congrArg (take _) drop_left).trans (take_of_length_le (by simp [Append.row]))

theorem Holds.read (holds : Holds state.dir file index first text) (noNul : 0 ∉ text)
    (placed : Placed topic state.dir) :
    ∃ row, (state.dir.rows file)[index]? = some row ∧ RowKept first row ∧
      readRecordContent state.dir.rdFiles file (row.decode (index + 1)) = some text := by
  have ⟨⟨row, there, kept⟩, payload⟩ := holds
  refine ⟨row, there, kept, ?_⟩
  have ⟨content, read⟩ := placed.readable (mem_of_getElem? there) (index + 1)
  rw [read]
  unfold readRecordContent at read
  cases opened : state.dir.json.get? file with
  | none => simp [KeyDir.rdFiles, opened] at read
  | some data =>
    have bytes : state.dir.bytes file = data := by rw [KeyDir.bytes, opened, Option.getD_some]
    simp only [KeyDir.rdFiles, opened, Option.bind_eq_bind, Option.bind_some] at read
    split at read
    · cases read
    · rw [← Option.some.inj read]
      show some (((data.drop row.offset).take row.size).takeWhile (· ≠ 0)) = some text
      have ends : [(0 : UInt8)].takeWhile (· ≠ 0) = [] := by decide
      rw [kept.offset, kept.size, ← bytes, payload, takeWhile_append_of_pos, ends, append_nil]
      intro byte among
      exact decide_eq_true fun zero => noNul (zero ▸ among)

/-! ## Runs -/

/-- Rows point into the payloads of their file, each at its own. -/
def Laid (topic : Topic) (state : KeyState) : Prop := Placed topic state.dir ∧ Apart state.dir

theorem Laid.step (laid : Laid topic state) (op : KeyOp) : Laid topic (state.step topic op) :=
  ⟨laid.1.step op, laid.2.step laid.1 op⟩

theorem Laid.run (topic : Topic) (ops : List KeyOp) :
    Laid topic (run (KeyState.step topic) .empty ops) :=
  run_invariant _ (Laid topic) (fun _ op laid => laid.step op)
    ⟨Placed.empty topic, fun _ => Pairwise.nil⟩ ops

theorem Holds.run (laid : Laid topic state) (holds : Holds state.dir file index first text)
    {ops : List KeyOp} (spared : ∀ op ∈ ops, ¬op.Wipes topic file index) :
    Laid topic (run (KeyState.step topic) state ops) ∧
      Holds (run (KeyState.step topic) state ops).dir file index first text := by
  induction ops generalizing state with
  | nil => exact ⟨laid, holds⟩
  | cons op rest ih =>
    have kept := holds.step laid.1 laid.2 (spared op mem_cons_self)
    exact ih (laid.step op) kept fun other among => spared other (mem_cons_of_mem op among)

/-- A record appended to a key in any state is read from its row in every later state, as long as no
delete wipes that row. -/
theorem record_kept (topic : Topic) (before after : List KeyOp) (record : Append)
    (spared : ∀ op ∈ after, ¬op.Wipes topic (topic.fileOf record.time)
      ((run (KeyState.step topic) .empty before).dir.rows (topic.fileOf record.time)).length) :
    let state := run (KeyState.step topic) .empty before
    let later := run (KeyState.step topic) state (.append record :: after)
    let file := topic.fileOf record.time
    let index := (state.dir.rows file).length
    ∃ row, (later.dir.rows file)[index]? = some row ∧
      RowKept (record.row topic (state.dir.bytes file).length) row ∧
      readRecordContent later.dir.rdFiles file (row.decode (index + 1)) = some record.text := by
  intro state later file index
  have ⟨laid, kept⟩ :=
    Holds.run ((Laid.run topic before).step (.append record)) (Holds.append record) spared
  exact kept.read record.noNul laid.1

/-- The first of two records of a day, when the second one is wiped. -/
theorem record_kept_beside :
    let later := run (KeyState.step dayTopic) .empty [.append (sampleRecord 100 0 0),
      .append (sampleRecord 200 0 0), .deleteInstance 200 2 true]
    ∃ row, (later.dir.rows "1970-01-01")[0]? = some row ∧
      RowKept ((sampleRecord 100 0 0).row dayTopic 0) row ∧
      readRecordContent later.dir.rdFiles "1970-01-01" (row.decode 1) = some [123, 125] :=
  record_kept dayTopic [] [.append (sampleRecord 200 0 0), .deleteInstance 200 2 true]
    (sampleRecord 100 0 0) (by
      intro op among wipes
      rcases among with _ | ⟨_, _ | ⟨_, among⟩⟩
      · exact wipes
      · exact absurd wipes.2.2 (by decide)
      · cases among)

end Yunetas.Timeranger2
