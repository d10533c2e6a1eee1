import Yunetas.Timeranger2.Wipe

/-!
# Deletes with a wiped payload

A delete that was asked to wipe the payload and returned 0 should have wiped it. It does when the
row was alive. A row that is already dead is not looked at again: a delete without the wipe, or a
wipe that failed, leaves a payload that later deletes report as wiped.
-/

namespace Yunetas.Timeranger2

/-- The bytes of the payload of a row are zero. -/
def Blank (dir : KeyDir) (file : String) (row : Md2Record) : Prop :=
  ∀ place byte, row.offset ≤ place → place < row.offset + row.size →
    (dir.bytes file)[place]? = some byte → byte = 0

/-- The row of an instance is dead, the bytes of its payload are zero, and nothing else of the topic
changed. -/
structure Wiped (topic : Topic) (before after : Store) (key : String) (t rowid : UInt64) :
    Prop where
  payload : ∃ old, ((before.key key).dir.rows (topic.fileOf t))[rowid.toNat - 1]? = some old ∧
    (∃ new, ((after.key key).dir.rows (topic.fileOf t))[rowid.toNat - 1]? = some new ∧
      new.Deleted) ∧
    Blank (after.key key).dir (topic.fileOf t) old ∧
    ∀ other file place, ¬(other = key ∧ file = topic.fileOf t ∧ old.offset ≤ place ∧
        place < old.offset + old.size) →
      ((after.key other).dir.bytes file)[place]? = ((before.key other).dir.bytes file)[place]?
  rows : ∀ other file index, ¬(other = key ∧ file = topic.fileOf t ∧ index = rowid.toNat - 1) →
    ((after.key other).dir.rows file)[index]? = ((before.key other).dir.rows file)[index]?

/-- The offset of the row does not wrap, and when the row is dead its payload is zero already. -/
def Wipeable (topic : Topic) (store : Store) (key : String) (t rowid : UInt64) : Prop :=
  (rowid.toNat - 1) * 32 < 2 ^ 63 ∧
    ∀ old, ((store.key key).dir.rows (topic.fileOf t))[rowid.toNat - 1]? = some old →
      old.Deleted → Blank (store.key key).dir (topic.fileOf t) old

section

variable {topic : Topic} {state : KeyState} {t rowid : UInt64} {io : WipeIo}

/-- What a delete that returns 0 does with a dead row: nothing. -/
structure LeftDead (topic : Topic) (state after : KeyState) (row : Md2Record) : Prop where
  dead : row.Deleted
  rows : ∀ file, after.dir.rows file = state.dir.rows file
  bytes : ∀ file, after.dir.bytes file = state.dir.bytes file

/-- What a delete that returns 0 does with a row that is alive: it is dead then, with zeros over its
payload. -/
structure Killed (topic : Topic) (state after : KeyState) (t : UInt64) (index : Nat)
    (row : Md2Record) : Prop where
  alive : ¬row.Deleted
  rows : ∃ dead : Md2Record, dead.Deleted ∧ ∀ file, after.dir.rows file =
    if file = topic.fileOf t then (state.dir.rows file).set index dead else state.dir.rows file
  bytes : ∀ file place, (after.dir.bytes file)[place]? =
    if file = topic.fileOf t ∧ row.offset ≤ place ∧ place < row.offset + row.size then some 0
    else (state.dir.bytes file)[place]?

theorem deleteInstanceIo_done (done : (deleteInstanceIo topic state t rowid true io).2 = 0) :
    ∃ row, (state.dir.rows (topic.fileOf t))[(rowid.toNat - 1) * 32 % 2 ^ 64 / 32]? = some row ∧
      (LeftDead topic state (deleteInstanceIo topic state t rowid true io).1 row ∨
        Killed topic state (deleteInstanceIo topic state t rowid true io).1 t
          ((rowid.toNat - 1) * 32 % 2 ^ 64 / 32) row) := by
  unfold deleteInstanceIo at done ⊢
  by_cases shut : (!io.rowOpens) = true
  · rw [if_pos shut] at done
    cases done
  rw [if_neg shut] at done ⊢
  cases loaded : getMdRecordForWr topic state.dir t rowid with
  | mk dir found =>
    rw [loaded] at done
    cases found with
    | none => cases done
    | some pair =>
      obtain ⟨index, row⟩ := pair
      obtain ⟨same, spec⟩ := getMdRecordForWr_spec loaded
      obtain ⟨stored, _⟩ := spec index row rfl
      have json := getMdRecordForWr_json loaded
      have place := getMdRecordForWr_index loaded
      rw [← place]
      refine ⟨row, stored, ?_⟩
      dsimp only at done ⊢
      by_cases immutable : row.getSystemFlag &&& sfImmutableRecord ≠ 0
      · rw [if_pos immutable] at done
        cases done
      rw [if_neg immutable] at done ⊢
      by_cases dead : row.getSystemFlag &&& sfDeletedInstance ≠ 0
      · rw [if_pos dead]
        exact Or.inl ⟨dead, same, fun file => by rw [KeyDir.bytes, json, ← KeyDir.bytes]⟩
      rw [if_neg dead] at done ⊢
      by_cases short : io.rowWritten < md2RecordSize
      · rw [if_pos short] at done
        cases done
      rw [if_neg short] at done ⊢
      have killed : (row.setSystemFlag (row.getSystemFlag ||| sfDeletedInstance)).Deleted := by
        rw [Md2Record.Deleted, Md2Record.getSystemFlag_setSystemFlag, deleted_iff_bit,
          UInt16.toNat_or, Nat.testBit_or, show sfDeletedInstance.toNat.testBit 10 = true by decide,
          Bool.or_true]
      generalize row.setSystemFlag (row.getSystemFlag ||| sfDeletedInstance) = tombstone
        at done killed ⊢
      have written : ∀ file, (rewriteMdToFile dir (topic.fileOf t) index tombstone).rows file =
          if file = topic.fileOf t then (state.dir.rows file).set index tombstone
          else state.dir.rows file := by
        intro file
        rw [rewriteMdToFile, rows_set, same, same]
        split
        · rename_i here
          rw [here]
        · rfl
      have kept : ∀ file, (rewriteMdToFile dir (topic.fileOf t) index tombstone).bytes file =
          state.dir.bytes file := fun file => by
        rw [KeyDir.bytes, show (rewriteMdToFile dir (topic.fileOf t) index tombstone).json = dir.json
          from rfl, json, ← KeyDir.bytes]
      by_cases wipes : true = true ∧ row.size > 0
      · rw [if_pos wipes] at done ⊢
        obtain ⟨inside, sameRows, zeros⟩ := wipePayload_spec done
        refine Or.inr ⟨dead, ⟨tombstone, killed, fun file => (sameRows file).trans (written file)⟩,
          fun file place => ?_⟩
        have bytes := zeros file
        rw [kept] at inside bytes
        rw [bytes]
        by_cases here : file = topic.fileOf t
        · subst here
          rw [if_pos rfl, zeroed_getElem? inside]
          exact if_congr (by rw [and_iff_right rfl]) rfl rfl
        · rw [if_neg here, kept, if_neg fun both => here both.1]
      · rw [if_neg wipes]
        have empty : row.size = 0 := by
          by_contra some_bytes
          exact wipes ⟨rfl, Nat.pos_of_ne_zero some_bytes⟩
        refine Or.inr ⟨dead, ⟨tombstone, killed, written⟩, fun file place => ?_⟩
        have outside : ¬(file = topic.fileOf t ∧ row.offset ≤ place ∧
            place < row.offset + row.size) := by
          rintro ⟨-, low, high⟩
          omega
        rw [if_neg outside, kept]

end

theorem Store.key_set (store : Store) (key other : String) (state : KeyState) :
    Store.key (store.set key state) other = if other = key then state else store.key other := by
  rw [Store.key, Dict.get?_set]
  split <;> rfl

/-- In every store, whatever its writes do, a delete with the wipe that returns 0 wiped the payload,
left the row dead and changed nothing else exactly when the offset of the row does not wrap and the
row, if it was dead, had its payload zero already. -/
theorem delete_wipes_iff (topic : Topic) (master : Bool) (store : Store) (key : String)
    (t rowid : UInt64) (io : WipeIo)
    (fits : ∀ file, ((store.key (deleteKey topic key)).dir.rows file).length * 32 < 2 ^ 63)
    (done : (store.deleteInstance topic master key t rowid true io).2 = 0) :
    Wiped topic store (store.deleteInstance topic master key t rowid true io).1
        (deleteKey topic key) t rowid ↔
      Wipeable topic store (deleteKey topic key) t rowid := by
  unfold Store.deleteInstance at done ⊢
  by_cases follower : (!master) = true
  · rw [if_pos follower] at done
    cases done
  rw [if_neg follower] at done ⊢
  generalize deleteKey topic key = key at *
  by_cases refused : deleteRefuses key = true
  · rw [if_pos refused] at done
    cases done
  rw [if_neg refused] at done ⊢
  dsimp only at done ⊢
  have ⟨row, stored, outcome⟩ := deleteInstanceIo_done done
  generalize (deleteInstanceIo topic (store.key key) t rowid true io).1 = after at outcome
  have bound := fits (topic.fileOf t)
  have same : (rowid.toNat - 1) * 32 < 2 ^ 63 →
      (rowid.toNat - 1) * 32 % 2 ^ 64 / 32 = rowid.toNat - 1 := by
    intro small
    omega
  have own : Store.key (store.set key after) key = after := by
    rw [Store.key_set, if_pos rfl]
  constructor
  · rintro ⟨⟨old, there, -, blank, -⟩, -⟩
    have ⟨inside, _⟩ := List.getElem?_eq_some_iff.1 there
    have small : (rowid.toNat - 1) * 32 < 2 ^ 63 := by omega
    refine ⟨small, fun other found dead => ?_⟩
    rw [there] at found
    obtain rfl := Option.some.inj found
    rw [same small, there] at stored
    obtain rfl := Option.some.inj stored
    rw [own] at blank
    rcases outcome with left | killed
    · intro place byte low high here
      rw [← left.bytes] at here
      exact blank place byte low high here
    · exact absurd dead killed.alive
  · rintro ⟨small, blank⟩
    rw [same small] at stored outcome
    have elsewhere : ∀ other, other ≠ key → Store.key (store.set key after) other =
        store.key other := by
      intro other different
      rw [Store.key_set, if_neg different]
    rcases outcome with left | killed
    · refine ⟨⟨row, stored, ⟨row, ?_, left.dead⟩, ?_, fun other file place _ => ?_⟩,
        fun other file index _ => ?_⟩
      · rw [own, left.rows]
        exact stored
      · intro place byte low high here
        rw [own, left.bytes] at here
        exact blank row stored left.dead place byte low high here
      · by_cases here : other = key
        · rw [here, own, left.bytes]
        · rw [elsewhere other here]
      · by_cases here : other = key
        · rw [here, own, left.rows]
        · rw [elsewhere other here]
    · have ⟨dead, isDead, rows⟩ := killed.rows
      have ⟨inside, _⟩ := List.getElem?_eq_some_iff.1 stored
      refine ⟨⟨row, stored, ⟨dead, ?_, isDead⟩, ?_, fun other file place outside => ?_⟩,
        fun other file index outside => ?_⟩
      · rw [own, rows, if_pos rfl]
        exact List.getElem?_set_self inside
      · intro place byte low high here
        rw [own, killed.bytes, if_pos ⟨rfl, low, high⟩] at here
        exact (Option.some.inj here).symm
      · by_cases here : other = key
        · rw [here, own, killed.bytes, if_neg fun within => outside ⟨here, within⟩]
        · rw [elsewhere other here]
      · by_cases here : other = key
        · rw [here, own, rows]
          split
          · rename_i inFile
            rw [List.getElem?_set_ne fun same => outside ⟨here, inFile, same.symm⟩]
          · rfl
        · rw [elsewhere other here]

/-- The record of a key, deleted with the wipe. -/
theorem delete_wipes_one : Wiped dayTopic
    (Store.append dayTopic Dict.empty (.string "k") (sampleRecord 100 0 0))
    (Store.deleteInstance dayTopic true
      (Store.append dayTopic Dict.empty (.string "k") (sampleRecord 100 0 0)) "k" 100 1 true .fine).1
    "k" 100 1 := by
  refine (delete_wipes_iff dayTopic true
    (Store.append dayTopic Dict.empty (.string "k") (sampleRecord 100 0 0)) "k" 100 1 .fine
    (fun file => ?_) ?_).2 ⟨by decide, fun old there dead => ?_⟩
  · have rows : ((Store.append dayTopic Dict.empty (.string "k") (sampleRecord 100 0 0)).key
        "k").dir.rows file = _ := appendRecord_rows dayTopic .empty (sampleRecord 100 0 0) file
    rw [show deleteKey dayTopic "k" = "k" by decide, rows]
    split
    · decide
    · show ([] : List Md2Record).length * 32 < 2 ^ 63
      decide
  · show (deleteInstanceIo dayTopic ((Store.append dayTopic Dict.empty (.string "k")
      (sampleRecord 100 0 0)).key "k") 100 1 true .fine).2 = 0
    rw [deleteInstanceIo_fine]
    decide
  · exfalso
    revert old
    decide

/-- A row was deleted without the wipe: a delete with it returns 0 and leaves the payload. -/
theorem dead_row_not_wiped :
    (Store.deleteInstance dayTopic true (Store.deleteInstance dayTopic true
      (Store.append dayTopic Dict.empty (.string "k") (sampleRecord 100 0 0)) "k" 100 1 false
        .fine).1 "k" 100 1 true .fine).2 = 0 ∧
    ¬Wiped dayTopic
      (Store.deleteInstance dayTopic true
        (Store.append dayTopic Dict.empty (.string "k") (sampleRecord 100 0 0)) "k" 100 1 false
          .fine).1
      (Store.deleteInstance dayTopic true (Store.deleteInstance dayTopic true
        (Store.append dayTopic Dict.empty (.string "k") (sampleRecord 100 0 0)) "k" 100 1 false
          .fine).1 "k" 100 1 true .fine).1 "k" 100 1 := by
  refine ⟨by decide, ?_⟩
  rintro ⟨⟨old, there, -, blank, -⟩, -⟩
  have located : old.offset = 0 ∧ 0 < old.size := by
    clear blank
    revert old
    decide
  have zero := blank 0 123 (by omega) (by omega) (by decide)
  exact absurd zero (by decide)

end Yunetas.Timeranger2
