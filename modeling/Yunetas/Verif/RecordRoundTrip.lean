import Mathlib
import Yunetas.Lib.Json
import Yunetas.Timeranger2.TopicRuns

/-!
# A record is read back as it was appended

A row keeps its times in 44 bits, and nothing in `tranger2_append_record` refuses a longer time or
one before the epoch: the append returns 0, with the time cut. Within 44 bits the metadata an
append reports, the row read from its file and the payload behind it are those of the record.
-/

namespace Yunetas.Timeranger2.OpenTopic

open List Option Md2Record

variable {home : OpenTopic}

/-! ## Property -/

/-- What the code relies on of the JSON library for a record: its text is not empty, has no null
byte and is parsed back. -/
structure ReadsBack (dumps : Json → List UInt8) (loads : List UInt8 → Option Json)
    (record : Json) : Prop where
  /-- `json_dumps` returns some text. -/
  nonempty : dumps record ≠ []
  noNul : 0 ∉ dumps record
  /-- `json_loadb` reads what `json_dumps` wrote. -/
  reads : loads (dumps record) = some record

/-- `read_record_content` with its parse: no text is an empty object. -/
def readContent (loads : List UInt8 → Option Json) (files : RdFiles) (fileId : String)
    (md : Md2RecordEx) : Option Json := do
  let text ← readRecordContent files fileId md
  if text = [] then some (.object []) else loads text

/-- The record is read back as it was appended. -/
structure RoundTrip (home : OpenTopic) (loads : List UInt8 → Option Json) (after : TopicFiles)
    (arguments : Arguments) (record : Json) (reported : Reported) : Prop where
  /-- `read_md` decodes from the stored row what the append reported. -/
  stored : readMd (home.rdFiles after.tree reported.key) (home.topic.fileOf arguments.time)
    reported.md.rowid = some reported.md
  t : reported.md.t = arguments.time.toNat
  tm : (reported.md.tm : Int) = home.tkeyTime arguments.tkey
  userFlag : reported.md.userFlag = arguments.userFlag
  payload : ∃ bytes,
    (home.rdFiles after.tree reported.key).json (home.topic.fileOf arguments.time) = some bytes ∧
      (bytes.drop reported.md.offset).take reported.md.size = arguments.text ++ [0]
  content : readContent loads (home.rdFiles after.tree reported.key)
    (home.topic.fileOf arguments.time) reported.md = some record

/-- The times of a record fit the row: 44 bits, from the epoch on. -/
def TimesFit (home : OpenTopic) (arguments : Arguments) : Prop :=
  arguments.time.toNat < 2 ^ 44 ∧ 0 ≤ home.tkeyTime arguments.tkey ∧
    home.tkeyTime arguments.tkey < 2 ^ 44

instance (home : OpenTopic) (arguments : Arguments) : Decidable (TimesFit home arguments) :=
  inferInstanceAs (Decidable (_ ∧ _ ∧ _))

/-! ## Times -/

theorem wordTime_eq_iff (word : UInt64) :
    (wordTime word).toNat = word.toNat ↔ word.toNat < 2 ^ 44 := by
  constructor
  · intro same
    rw [← same]
    exact wordTime_lt word
  · intro small
    rw [wordTime_of_lt small]

theorem wordTime_ofInt_iff (number : Int) :
    ((wordTime (UInt64.ofInt number)).toNat : Int) = number ↔ 0 ≤ number ∧ number < 2 ^ 44 := by
  constructor
  · intro same
    have short := wordTime_lt (UInt64.ofInt number)
    omega
  · rintro ⟨positive, small⟩
    have word : (UInt64.ofInt number).toNat = number.toNat := by
      have here : (number % 2 ^ 64).toNat % 2 ^ 64 = number.toNat := by omega
      exact here
    have fits : (UInt64.ofInt number).toNat < 2 ^ 44 := by
      rw [word]
      omega
    rw [wordTime_of_lt fits, word]
    omega

/-! ## Main result -/

section

variable (arguments : Arguments) (offset rowid : Nat)
include arguments offset rowid

theorem decode_rowOf_t :
    ((home.rowOf arguments offset).decode rowid).t = (wordTime arguments.time).toNat := by
  show (((Md2Record.setUserFlag _ _).setSystemFlag _).getTimeT).toNat = _
  rw [getTimeT_setSystemFlag, getTimeT_setUserFlag]
  rfl

theorem decode_rowOf_tm :
    ((home.rowOf arguments offset).decode rowid).tm =
      (wordTime (UInt64.ofInt (home.tkeyTime arguments.tkey))).toNat := by
  show (((Md2Record.setUserFlag _ _).setSystemFlag _).getTimeTm).toNat = _
  rw [getTimeTm_setSystemFlag, getTimeTm_setUserFlag]
  rfl

theorem decode_rowOf_userFlag :
    ((home.rowOf arguments offset).decode rowid).userFlag = arguments.userFlag := by
  show ((Md2Record.setUserFlag _ _).setSystemFlag _).getUserFlag = _
  rw [getUserFlag_setSystemFlag, getUserFlag_setUserFlag]

end

variable {files after : TopicFiles} {arguments : Arguments} {reported : Reported} {dir : Path}
  {content rows : List UInt8}

section

variable (wrote : Wrote home files after arguments reported dir content rows)
include wrote

theorem Wrote.json :
    (home.rdFiles after.tree reported.key).json (home.topic.fileOf arguments.time) =
      some (content ++ (arguments.text ++ [0])) := by
  have opens : openFile after.tree (home.keyParts reported.key)
      (home.topic.fileOf arguments.time ++ ".json") =
        some (dir ++ [home.fileName true arguments.time]) := by
    rw [openFile_eq_some]
    refine ⟨dir, wrote.leads, rfl, ?_⟩
    rw [wrote.data]
    rfl
  rw [rdFiles]
  dsimp only
  rw [opens, map_some, bytesAt_of_fileAt wrote.data]

theorem Wrote.md2 :
    (home.rdFiles after.tree reported.key).md2 (home.topic.fileOf arguments.time) =
      some (decodeRows (rows ++ encodeRow (home.rowOf arguments content.length))) := by
  have opens : openFile after.tree (home.keyParts reported.key)
      (home.topic.fileOf arguments.time ++ ".md2") =
        some (dir ++ [home.fileName false arguments.time]) := by
    rw [openFile_eq_some]
    refine ⟨dir, wrote.leads, rfl, ?_⟩
    rw [wrote.index]
    rfl
  rw [rdFiles]
  dsimp only
  rw [opens, map_some, bytesAt_of_fileAt wrote.index]

theorem Wrote.whole (all : AllWhole files.tree) : md2RecordSize ∣ rows.length := by
  rcases wrote.old with there | empty
  · exact (all _ _ (rowFile_md2 dir arguments.time) there).1
  · rw [empty]
    exact ⟨0, rfl⟩

theorem Wrote.stored (all : AllWhole files.tree) :
    readMd (home.rdFiles after.tree reported.key) (home.topic.fileOf arguments.time)
      reported.md.rowid = some reported.md := by
  have whole := wrote.whole all
  have long := length_encodeRow (home.rowOf arguments content.length)
  have start : rows.length / md2RecordSize * md2RecordSize = rows.length := Nat.div_mul_cancel whole
  have inside : (rows.length / md2RecordSize + 1) * md2RecordSize ≤
      (rows ++ encodeRow (home.rowOf arguments content.length)).length := by
    rw [length_append, long, Nat.succ_mul, start]
  have row : rowAt (rows ++ encodeRow (home.rowOf arguments content.length))
      (rows.length / md2RecordSize) = home.rowOf arguments content.length := by
    rw [rowAt, rowBytes_last whole long, decodeRow_encodeRow (fits_rowOf arguments wrote.dataRoom)]
  have found := decodeRows_getElem? inside
  rw [row] at found
  have read := readMd_of_get wrote.md2 found
  have rowid : (reported.md.rowid : Int) = (rows.length / md2RecordSize : Nat) + 1 := by
    rw [wrote.md]
    rfl
  rw [rowid, read, wrote.md]

end

theorem Wrote.content_read {dumps : Json → List UInt8} {loads : List UInt8 → Option Json}
    {record : Json} (wrote : Wrote home files after arguments reported dir content rows)
    (text : arguments.text = dumps record) (back : ReadsBack dumps loads record) :
    readContent loads (home.rdFiles after.tree reported.key) (home.topic.fileOf arguments.time)
      reported.md = some record := by
  have opened : (home.rdFiles after.tree reported.key).json (home.topic.fileOf arguments.time) =
      some (content ++ (arguments.text ++ [0]) ++ []) := by
    rw [append_nil]
    exact wrote.json
  have offset : reported.md.offset = content.length := by
    rw [wrote.md]
    rfl
  have size : reported.md.size = arguments.text.length + 1 := by
    rw [wrote.md]
    rfl
  have noNul : 0 ∉ arguments.text := by
    rw [text]
    exact back.noNul
  have read := readRecordContent_of_split opened offset size noNul
  have some_text : arguments.text ≠ [] := by
    rw [text]
    exact back.nonempty
  unfold readContent
  rw [read, bind_eq_bind, bind_some, if_neg some_text, text, back.reads]

/-- A record appended to any store a topic can reach is read back as it was appended exactly when
its times fit the row. -/
theorem record_round_trip_iff (home : OpenTopic) (ops : List FileOp)
    (dumps : Json → List UInt8) (loads : List UInt8 → Option Json) (record : Json)
    (arguments : Arguments) (reported : Reported) (text : arguments.text = dumps record)
    (back : ReadsBack dumps loads record)
    (accepted : (home.appendRecord (run home.step home.created ops) arguments).2 = some reported) :
    RoundTrip home loads (home.appendRecord (run home.step home.created ops) arguments).1 arguments
      record reported ↔ TimesFit home arguments := by
  have all := allWhole_run home ops
  generalize run home.step home.created ops = files at all accepted ⊢
  have ⟨dir, content, rows, wrote⟩ := appendRecord_wrote accepted
  generalize (home.appendRecord files arguments).1 = after at wrote ⊢
  have t : reported.md.t = (wordTime arguments.time).toNat := by
    rw [wrote.md, decode_rowOf_t]
  have tm : reported.md.tm = (wordTime (UInt64.ofInt (home.tkeyTime arguments.tkey))).toNat := by
    rw [wrote.md, decode_rowOf_tm]
  constructor
  · intro trip
    refine ⟨?_, ?_⟩
    · apply (wordTime_eq_iff _).1
      rw [← t, trip.t]
    · apply (wordTime_ofInt_iff _).1
      rw [← tm, trip.tm]
  · rintro ⟨time, positive, short⟩
    constructor
    · exact wrote.stored all
    · rw [t, (wordTime_eq_iff _).2 time]
    · rw [tm, (wordTime_ofInt_iff _).2 ⟨positive, short⟩]
    · rw [wrote.md, decode_rowOf_userFlag]
    · refine ⟨_, wrote.json, ?_⟩
      have offset : reported.md.offset = content.length := by
        rw [wrote.md]
        rfl
      have size : reported.md.size = (arguments.text ++ [0]).length := by
        rw [wrote.md, List.length_append]
        rfl
      rw [offset, size, List.drop_left, List.take_length]
    · exact wrote.content_read text back

/-- A record of the last day of the sample is read back. -/
theorem record_round_trip_first :
    RoundTrip sample (fun _ => some (.object []))
      (sample.appendRecord (run sample.step sample.created []) (sampleArguments 7 (.integer 9) 3)).1
      (sampleArguments 7 (.integer 9) 3) (.object []) ⟨"a", 1, ⟨7, 9, 0, 3, 1, 3, 1⟩⟩ :=
  (record_round_trip_iff sample [] (fun _ => [123, 125]) (fun _ => some (.object [])) (.object [])
    (sampleArguments 7 (.integer 9) 3) ⟨"a", 1, ⟨7, 9, 0, 3, 1, 3, 1⟩⟩ rfl
    ⟨by decide, by decide, rfl⟩ (by decide)).2 (by decide)

/-- A time of 45 bits is accepted, and cut: the metadata reported is of another time. -/
theorem long_time_cut :
    (sample.appendRecord sample.created (sampleArguments (2 ^ 44 + 5) .other 0)).2 =
        some ⟨"a", 1, ⟨5, 0, 0, 3, 1, 0, 1⟩⟩ ∧
      ¬ RoundTrip sample (fun _ => some (.object []))
        (sample.appendRecord sample.created (sampleArguments (2 ^ 44 + 5) .other 0)).1
        (sampleArguments (2 ^ 44 + 5) .other 0) (.object []) ⟨"a", 1, ⟨5, 0, 0, 3, 1, 0, 1⟩⟩ := by
  refine ⟨by decide, fun trip => ?_⟩
  exact absurd trip.t (by decide)

end Yunetas.Timeranger2.OpenTopic
