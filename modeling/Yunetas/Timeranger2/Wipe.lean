import Yunetas.Timeranger2.Placed
import Yunetas.Timeranger2.Topic
import Yunetas.Timeranger2.Bytes

/-!
# Deletes that may fail

`tranger2_delete_instance` writes twice: the row with its tombstone, and then zeros over the
payload, 4096 bytes at a time. Each write may be short, and the delete gives up there and leaves
what was written where it is.
-/

namespace Yunetas.Timeranger2

open List

/-- What the file system does with the calls of a delete. -/
structure WipeIo where
  /-- The `.md2` file opens and its row can be read. -/
  rowOpens : Bool
  rowWritten : Nat
  /-- The `.json` file opens, and `fstat` and `lseek` work on it. -/
  dataOpens : Bool
  /-- Bytes that each `write` of the wipe takes. -/
  dataWritten : Nat → Nat

/-- Everything is written. -/
def WipeIo.fine : WipeIo := ⟨true, md2RecordSize, true, fun _ => 4096⟩

/-- The loop that writes zeros: the file and what is returned. -/
def zeroLoop (dataWritten : Nat → Nat) (bytes : List UInt8) (position remaining turn : Nat) :
    List UInt8 × Int :=
  if remaining = 0 then (bytes, 0)
  else
    let chunk := if remaining > 4096 then 4096 else remaining
    let wrote := min (dataWritten turn) chunk
    let bytes := zeroed bytes position wrote
    if wrote ≠ chunk then (bytes, -1)
    else zeroLoop dataWritten bytes (position + chunk) (remaining - chunk) (turn + 1)
termination_by remaining
decreasing_by
  split <;> omega

/-- The payload wipe of `tranger2_delete_instance`, its file opened. -/
def wipePayload (dir : KeyDir) (file : String) (row : Md2Record) (io : WipeIo) : KeyDir × Int :=
  if !io.dataOpens then (dir, -1)
  else
    let content := dir.bytes file
    let dir : KeyDir := { dir with json := dir.json.set file content }
    if row.offset > content.length ∨ row.size > content.length - row.offset then (dir, -1)
    else
      let (wiped, result) := zeroLoop io.dataWritten content row.offset row.size 0
      ({ dir with json := dir.json.set file wiped }, result)

/-- A row of which some bytes were written over another. -/
def tornRow (old new : Md2Record) (written : Nat) : Md2Record :=
  decodeRow ((encodeRow new).take written ++ (encodeRow old).drop written)

/-- `tranger2_delete_instance` on the files of the key, with writes that may fail. -/
def deleteInstanceIo (topic : Topic) (state : KeyState) (t rowid : UInt64) (zeroPayload : Bool)
    (io : WipeIo) : KeyState × Int :=
  if !io.rowOpens then (state, -1)
  else
    match getMdRecordForWr topic state.dir t rowid with
    | (dir, none) => ({ state with dir := dir }, -1)
    | (dir, some (index, row)) =>
      let state := { state with dir := dir }
      let file := topic.fileOf t
      if row.getSystemFlag &&& sfImmutableRecord ≠ 0 then (state, -1)
      else if row.getSystemFlag &&& sfDeletedInstance ≠ 0 then (state, 0)
      else
        let dead := row.setSystemFlag (row.getSystemFlag ||| sfDeletedInstance)
        if io.rowWritten < md2RecordSize then
          ({ state with dir := rewriteMdToFile dir file index (tornRow row dead io.rowWritten) }, -1)
        else
          let dir := rewriteMdToFile dir file index dead
          if zeroPayload ∧ row.size > 0 then
            let (dir, result) := wipePayload dir file row io
            ({ state with dir := dir }, result)
          else ({ state with dir := dir }, 0)

/-- The key of a delete: a topic keyed by rowid has one. -/
def deleteKey (topic : Topic) (key : String) : String :=
  if topic.systemFlag &&& sfRowidKey ≠ 0 then "__rowid__" else key

/-- The keys a delete refuses. -/
def deleteRefuses (key : String) : Bool :=
  key.isEmpty || key.toList.contains '/' || key.toList.head? = some '.'

/-- `tranger2_delete_instance`. -/
def Store.deleteInstance (topic : Topic) (master : Bool) (store : Store) (key : String)
    (t rowid : UInt64) (zeroPayload : Bool) (io : WipeIo) : Store × Int :=
  if !master then (store, -1)
  else
    let key := deleteKey topic key
    if deleteRefuses key then (store, -1)
    else
      let (state, result) := deleteInstanceIo topic (store.key key) t rowid zeroPayload io
      (store.set key state, result)

/-! ## The loop -/

theorem zeroed_getElem? {bytes : List UInt8} {position count : Nat}
    (inside : position + count ≤ bytes.length) (place : Nat) :
    (zeroed bytes position count)[place]? =
      if position ≤ place ∧ place < position + count then some 0 else bytes[place]? := by
  have start : (bytes.take position).length = position := by
    rw [length_take]
    omega
  rw [zeroed, append_assoc]
  by_cases before : place < position
  · rw [getElem?_append_left (by omega), getElem?_take, if_pos before, if_neg (by omega)]
  · rw [getElem?_append_right (by omega), start]
    by_cases within : place < position + count
    · rw [getElem?_append_left (by rw [length_replicate]; omega),
        getElem?_replicate, if_pos (by omega), if_pos (by omega)]
    · rw [getElem?_append_right (by rw [length_replicate]; omega),
        length_replicate, getElem?_drop, if_neg (by omega)]
      congr 1
      omega

theorem zeroed_zeroed {bytes : List UInt8} {position one two : Nat}
    (inside : position + (one + two) ≤ bytes.length) :
    zeroed (zeroed bytes position one) (position + one) two = zeroed bytes position (one + two) := by
  have first : position + one ≤ bytes.length := by omega
  have second : position + one + two ≤ (zeroed bytes position one).length := by
    rw [length_zeroed first]
    omega
  apply ext_getElem?
  intro place
  rw [zeroed_getElem? second, zeroed_getElem? first, zeroed_getElem? inside]
  split_ifs <;> first | rfl | omega

theorem zeroLoop_spec (dataWritten : Nat → Nat) (bytes : List UInt8)
    (position remaining turn : Nat) (inside : position + remaining ≤ bytes.length)
    (done : (zeroLoop dataWritten bytes position remaining turn).2 = 0) :
    (zeroLoop dataWritten bytes position remaining turn).1 = zeroed bytes position remaining := by
  induction remaining using Nat.strongRecOn generalizing bytes position turn with
  | ind remaining ih =>
    rw [zeroLoop] at done ⊢
    by_cases none : remaining = 0
    · rw [if_pos none, none]
      simp [zeroed]
    · rw [if_neg none] at done ⊢
      generalize size : (if remaining > 4096 then 4096 else remaining) = chunk at done ⊢
      have some_bytes : 0 < chunk ∧ chunk ≤ remaining := by
        rw [← size]
        split <;> omega
      by_cases short : min (dataWritten turn) chunk ≠ chunk
      · rw [if_pos short] at done
        cases done
      · have whole : min (dataWritten turn) chunk = chunk := not_not.1 short
        rw [if_neg short, whole] at done ⊢
        have length := @length_zeroed bytes position chunk (by omega)
        have rest := ih (remaining - chunk) (by omega) (zeroed bytes position chunk)
          (position + chunk) (turn + 1) (by omega) done
        have parts : chunk + (remaining - chunk) = remaining := by omega
        rw [rest, zeroed_zeroed (by omega), parts]

theorem zeroLoop_fine (bytes : List UInt8) (position remaining turn : Nat) :
    (zeroLoop WipeIo.fine.dataWritten bytes position remaining turn).2 = 0 := by
  induction remaining using Nat.strongRecOn generalizing bytes position turn with
  | ind remaining ih =>
    rw [zeroLoop]
    by_cases none : remaining = 0
    · rw [if_pos none]
    · rw [if_neg none]
      dsimp only [WipeIo.fine] at ih ⊢
      generalize size : (if remaining > 4096 then 4096 else remaining) = chunk
      have some_bytes : 0 < chunk ∧ chunk ≤ 4096 := by
        rw [← size]
        split <;> omega
      have whole : min 4096 chunk = chunk := by omega
      rw [whole, if_neg (not_not.2 rfl)]
      exact ih (remaining - chunk) (by omega) _ _ _

theorem deleteInstanceIo_fine (topic : Topic) (state : KeyState) (t rowid : UInt64)
    (zeroPayload : Bool) :
    deleteInstanceIo topic state t rowid zeroPayload WipeIo.fine =
      deleteInstance topic state t rowid zeroPayload := by
  have wipes : ∀ (dir : KeyDir) (file : String) (row : Md2Record),
      wipePayload dir file row WipeIo.fine = zeroBytes dir file row.offset row.size := by
    intro dir file row
    have open_file : ¬(!WipeIo.fine.dataOpens) = true := by decide
    unfold wipePayload zeroBytes
    rw [if_neg open_file]
    dsimp only
    by_cases refused : row.offset > (dir.bytes file).length ∨
        row.size > (dir.bytes file).length - row.offset
    · rw [if_pos refused, if_pos refused]
    · have inside : row.offset + row.size ≤ (dir.bytes file).length := by omega
      have done := zeroLoop_fine (dir.bytes file) row.offset row.size 0
      have wiped := zeroLoop_spec WipeIo.fine.dataWritten (dir.bytes file) row.offset row.size 0
        inside done
      rw [if_neg refused, if_neg refused, done, wiped]
      rfl
  have opens : ¬(!WipeIo.fine.rowOpens) = true := by decide
  have written : ¬WipeIo.fine.rowWritten < md2RecordSize := by decide
  unfold deleteInstanceIo deleteInstance
  rw [if_neg opens]
  cases loaded : getMdRecordForWr topic state.dir t rowid with
  | mk dir found =>
    cases found with
    | none => rfl
    | some pair =>
      have ⟨index, row⟩ := pair
      dsimp only
      rw [if_neg written]
      simp [wipes]

/-! ## What a delete that returns 0 did -/

/-- A wipe that returns 0 leaves zeros where the payload was, and nothing else changes. -/
theorem wipePayload_spec {dir : KeyDir} {file : String} {row : Md2Record} {io : WipeIo}
    (done : (wipePayload dir file row io).2 = 0) :
    row.offset + row.size ≤ (dir.bytes file).length ∧
      (∀ other, (wipePayload dir file row io).1.rows other = dir.rows other) ∧
      ∀ other, (wipePayload dir file row io).1.bytes other =
        if other = file then zeroed (dir.bytes file) row.offset row.size else dir.bytes other := by
  unfold wipePayload at done ⊢
  by_cases shut : (!io.dataOpens) = true
  · rw [if_pos shut] at done
    cases done
  · rw [if_neg shut] at done ⊢
    by_cases refused : row.offset > (dir.bytes file).length ∨
        row.size > (dir.bytes file).length - row.offset
    · rw [if_pos refused] at done
      cases done
    · rw [if_neg refused] at done ⊢
      have inside : row.offset + row.size ≤ (dir.bytes file).length := by omega
      have wiped := zeroLoop_spec io.dataWritten (dir.bytes file) row.offset row.size 0 inside done
      refine ⟨inside, fun other => rfl, fun other => ?_⟩
      rw [← wiped]
      have set := bytes_set ⟨dir.md2, dir.json.set file (dir.bytes file)⟩ file
        (zeroLoop io.dataWritten (dir.bytes file) row.offset row.size 0).1 dir.md2 other
      by_cases here : other = file
      · rw [if_pos here] at set ⊢
        exact set
      · have created := bytes_set dir file (dir.bytes file) dir.md2 other
        rw [if_neg here] at set created ⊢
        exact set.trans created

end Yunetas.Timeranger2
