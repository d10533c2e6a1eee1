import Yunetas.Verif.MessageInstances
/-!
# The tree view writes to the messages

The `data` of the active records that `trmsg_data_tree` fills belongs to the list. The view is a
read only for a list where there is nothing to make or to append; in every other list some active
record has a longer `data` after the call, and the accessors show it.
-/

namespace Yunetas.Timeranger2

open List

open Json Gobj

variable (realEqual : Json → Json → Bool)

/-- The rows of a message are told from its active record by their row number, and none is held
twice. -/
def Message.Sound (list : MsgList) (message : Message) : Prop :=
  message.instances.Nodup ∧ ∀ active, message.active = some active →
    active < list.records.length ∧ ∀ other ∈ message.instances, other ≠ active →
      mdInt (list.fields other) "g_rowid" ≠ mdInt (list.fields active) "g_rowid"

/-- The messages of a list, in the order they are gone through. -/
def MsgList.all (list : MsgList) : List Message := list.messages.entries.map Prod.snd

/-- Nothing is made in the active record of a message and nothing appended to it: when it passes
the filter it has a `data`, and if that is a list no other instance passes. -/
def Message.Idle (list : MsgList) (filter : Json) (message : Message) : Prop :=
  ∀ active, message.active = some active → kwMatchSimple realEqual (list.fields active) filter →
    ∃ data, (list.fields active).get? "data" = some data ∧
      ∀ items, data = .array items → ∀ other ∈ message.instances, other ≠ active →
        kwMatchSimple realEqual (list.fields other) filter = false

/-- The view with a filter is a read: the accessors and any later view return what they returned
before, and the view itself the same tree. -/
structure TreeIsRead (list : MsgList) (filter : Json) : Prop where
  messages : trmsgGetMessages (trmsgDataTree realEqual list filter).1 = trmsgGetMessages list
  message : ∀ key, trmsgGetMessage (trmsgDataTree realEqual list filter).1 key =
    trmsgGetMessage list key
  later : ∀ other, readTree (trmsgDataTree realEqual (trmsgDataTree realEqual list filter).1 other) =
    readTree (trmsgDataTree realEqual list other)

section Idle

variable {realEqual} {list : MsgList} {filter : Json} {active : Nat} {held : Bool} {rowid : Int}

/-- Behind the active record, and without other instances that pass, nothing is appended. -/
theorem dataTreeInstances_idle (rows : List Nat) (found : Bool) (once : rows.Nodup)
    (quiet : held = true → ∀ other ∈ rows, other ≠ active →
      kwMatchSimple realEqual (list.fields other) filter = false)
    (behind : found = true → active ∉ rows)
    (distinct : ∀ other ∈ rows, other ≠ active → mdInt (list.fields other) "g_rowid" ≠ rowid)
    (rowidOf : mdInt (list.fields active) "g_rowid" = rowid) :
    dataTreeInstances realEqual filter active held rowid found rows list = list := by
  induction rows generalizing found with
  | nil => rfl
  | cons row rest ih =>
    have ⟨away, restOnce⟩ := nodup_cons.1 once
    have next (found : Bool) (behind : found = true → active ∉ rest) :=
      ih found restOnce (fun isHeld other member => quiet isHeld other (mem_cons_of_mem row member))
        behind (fun other member => distinct other (mem_cons_of_mem row member))
    rw [dataTreeInstances]
    by_cases isActive : row = active
    · subst isActive
      have first : found = false := by
        cases found with
        | false => rfl
        | true => exact absurd mem_cons_self (behind rfl)
      rw [if_pos (by simp [first, rowidOf])]
      exact next true fun _ => away
    · rw [if_neg (by simp [distinct row mem_cons_self isActive])]
      have after := next found fun isFound member => behind isFound (mem_cons_of_mem row member)
      split
      · cases held with
        | false => simpa using after
        | true =>
          have := quiet rfl row mem_cons_self isActive
          simp_all
      · exact after

theorem dataTreeMessage_idle {message : Message} (sound : message.Sound list)
    (idle : message.Idle realEqual list filter) (roots : List Nat) :
    (dataTreeMessage realEqual filter (list, roots) message).1 = list := by
  rw [dataTreeMessage]
  cases isActive : message.active with
  | none => rfl
  | some active =>
    by_cases passes : kwMatchSimple realEqual (list.fields active) filter
    · have ⟨data, present, quiet⟩ := idle active isActive passes
      have ⟨_, distinct⟩ := sound.2 active isActive
      simp only [passes, if_true, getDataList, present]
      cases data with
      | array items =>
        exact dataTreeInstances_idle _ _ sound.1 (fun _ => quiet items rfl) (by simp) distinct rfl
      | _ => exact dataTreeInstances_idle _ _ sound.1 (by simp) (by simp) distinct rfl
    · simp [passes]

end Idle

section Grown

variable {realEqual} {list list' : MsgList} {filter : Json} {active : Nat}

/-- How much a record holds in `data`. -/
def dataSize (record : Fields) : Nat :=
  match record.get? "data" with
  | none => 0
  | some (.array items) => items.length + 1
  | some _ => 1

/-- No record holds less in `data` than before. -/
def Grown (list list' : MsgList) : Prop :=
  list'.messages = list.messages ∧ list'.records.length = list.records.length ∧
    ∀ address, dataSize (list.fields address) ≤ dataSize (list'.fields address)

theorem Grown.refl (list : MsgList) : Grown list list := ⟨rfl, rfl, fun _ => Nat.le_refl _⟩

theorem Grown.trans {list'' : MsgList} (first : Grown list list') (second : Grown list' list'') :
    Grown list list'' :=
  ⟨second.1.trans first.1, second.2.1.trans first.2.1,
    fun address => (first.2.2 address).trans (second.2.2 address)⟩

section

variable (inside : active < list.records.length)
include inside

theorem fields_written (record : Fields) (address : Nat) :
    (list.write active record).fields address =
      if address = active then record else list.fields address := by
  by_cases same : address = active
  · simp [MsgList.fields, MsgList.write, same, inside]
  · simp [MsgList.fields, MsgList.write, List.getElem?_set_ne (Ne.symm same), same]

theorem grown_written {record : Fields} (more : dataSize (list.fields active) ≤ dataSize record) :
    Grown list (list.write active record) := by
  refine ⟨rfl, length_set, fun address => ?_⟩
  rw [fields_written inside]
  split
  · rename_i same
    exact same ▸ more
  · exact Nat.le_refl _

theorem getDataList_grown : Grown list (getDataList list active).1 := by
  rw [getDataList]
  split
  · rename_i absent
    exact grown_written inside (by simp [dataSize, absent])
  · exact Grown.refl list
  · exact Grown.refl list

theorem appendData_grown (row : Nat) : Grown list (appendData list active row) := by
  rw [appendData]
  split
  · rename_i items present
    exact grown_written inside (by simp [dataSize, present])
  · exact Grown.refl list

end

theorem dataTreeInstances_grown (held : Bool) (rowid : Int) (rows : List Nat) (found : Bool)
    (inside : active < list.records.length) :
    Grown list (dataTreeInstances realEqual filter active held rowid found rows list) := by
  induction rows generalizing found list with
  | nil => exact Grown.refl list
  | cons row rest ih =>
    rw [dataTreeInstances]
    split
    · exact ih true inside
    · split
      · split
        · have step : Grown list (appendData list active row) := appendData_grown inside row
          exact step.trans (ih found (by rw [step.2.1]; exact inside))
        · exact ih found inside
      · exact ih found inside

theorem dataTreeInstances_longer (rowid : Int) {rows : List Nat} (found : Bool)
    (inside : active < list.records.length) {items : List Json}
    (present : (list.fields active).get? "data" = some (.array items)) {other : Nat}
    (among : other ∈ rows) (apart : other ≠ active)
    (distinct : mdInt (list.fields other) "g_rowid" ≠ rowid)
    (passes : kwMatchSimple realEqual (list.fields other) filter = true) :
    dataSize (list.fields active) <
      dataSize ((dataTreeInstances realEqual filter active true rowid found rows list).fields
        active) := by
  induction rows generalizing found list items with
  | nil => cases among
  | cons row rest ih =>
    have appended (row : Nat) : ∃ item, appendData list active row =
        list.write active ((list.fields active).set "data" (.array (items ++ [item]))) :=
      ⟨.object (list.fields row), by simp only [appendData, present]⟩
    have ⟨item, whole⟩ := appended row
    have step : Grown list (appendData list active row) := appendData_grown inside row
    have inside' : active < (appendData list active row).records.length := by
      rw [step.2.1]
      exact inside
    have longer : dataSize (list.fields active) < dataSize ((appendData list active row).fields active) := by
      rw [whole, fields_written inside, if_pos rfl]
      simp [dataSize, present]
    rw [dataTreeInstances]
    by_cases isOther : row = other
    · subst isOther
      rw [if_neg (by simp [distinct]), if_pos passes, if_pos rfl]
      exact Nat.lt_of_lt_of_le longer
        ((dataTreeInstances_grown true rowid rest found inside').2.2 active)
    · have member : other ∈ rest := (mem_cons.1 among).resolve_left (Ne.symm isOther)
      split
      · exact ih true inside present member distinct passes
      · split
        · have kept : (appendData list active row).fields other = list.fields other := by
            rw [whole, fields_written inside, if_neg apart]
          have present' : ((appendData list active row).fields active).get? "data" =
              some (.array (items ++ [item])) := by
            rw [whole, fields_written inside, if_pos rfl, Fields.get?_set_self]
          rw [if_pos rfl]
          exact Nat.lt_trans longer
            (ih found inside' present' member (kept ▸ distinct) (kept ▸ passes))
        · exact ih found inside present member distinct passes

theorem dataTreeMessage_grown {message : Message} (roots : List Nat)
    (inside : ∀ active, message.active = some active → active < list.records.length) :
    Grown list (dataTreeMessage realEqual filter (list, roots) message).1 := by
  rw [dataTreeMessage]
  cases isActive : message.active with
  | none => exact Grown.refl list
  | some active =>
    by_cases passes : kwMatchSimple realEqual (list.fields active) filter
    · simp only [passes, if_true]
      have made := getDataList_grown (inside active isActive)
      refine made.trans (dataTreeInstances_grown _ _ _ _ ?_)
      rw [made.2.1]
      exact inside active isActive
    · simp only [passes]
      exact Grown.refl list

theorem dataTreeMessage_longer {message : Message} (sound : message.Sound list)
    (busy : ¬ message.Idle realEqual list filter) (roots : List Nat) :
    ∃ active, message.active = some active ∧ dataSize (list.fields active) <
      dataSize ((dataTreeMessage realEqual filter (list, roots) message).1.fields active) := by
  cases isActive : message.active with
  | none => exact absurd (fun active same => by simp [isActive] at same) busy
  | some active =>
    have ⟨inside, distinct⟩ := sound.2 active isActive
    refine ⟨active, rfl, ?_⟩
    by_cases passes : kwMatchSimple realEqual (list.fields active) filter
    · rw [dataTreeMessage, isActive]
      simp only [passes, if_true]
      cases present : (list.fields active).get? "data" with
      | none =>
        have made : getDataList list active =
            (list.write active ((list.fields active).set "data" (.array [])), true) := by
          simp [getDataList, present]
        have longer : dataSize (list.fields active) <
            dataSize ((getDataList list active).1.fields active) := by
          rw [made, fields_written inside, if_pos rfl]
          simp [dataSize, present]
        refine Nat.lt_of_lt_of_le longer ((dataTreeInstances_grown _ _ _ _ ?_).2.2 active)
        rw [(getDataList_grown inside).2.1]
        exact inside
      | some data =>
        have loud : ∃ items, data = .array items ∧ ∃ other ∈ message.instances, other ≠ active ∧
            kwMatchSimple realEqual (list.fields other) filter = true := by
          by_contra quiet
          push Not at quiet
          apply busy
          intro same isSame _
          cases isActive.symm.trans isSame
          exact ⟨data, present, fun items isList other among apart =>
            Bool.eq_false_iff.2 (quiet items isList other among apart)⟩
        have ⟨items, isList, other, among, apart, otherPasses⟩ := loud
        subst isList
        have held : getDataList list active = (list, true) := by
          simp [getDataList, present]
        simp only [held]
        exact dataTreeInstances_longer _ false inside present among apart
          (distinct other among apart) otherPasses
    · exact absurd (fun same isSame passes' => by
        cases isActive.symm.trans isSame
        exact absurd passes' passes) busy

end Grown

section Tree

variable {realEqual} {list : MsgList} {filter : Json}

theorem tree_idle : ∀ (messages : List Message) (roots : List Nat),
    (∀ message ∈ messages, message.Sound list ∧ message.Idle realEqual list filter) →
      (messages.foldl (dataTreeMessage realEqual filter) (list, roots)).1 = list
  | [], _, _ => rfl
  | message :: rest, roots, idle => by
      have ⟨sound, here⟩ := idle message mem_cons_self
      have same := dataTreeMessage_idle sound here roots
      rw [foldl_cons, ← Prod.eta (dataTreeMessage realEqual filter (list, roots) message), same]
      exact tree_idle rest _ fun other member => idle other (mem_cons_of_mem message member)

theorem tree_grown : ∀ (messages : List Message) {list : MsgList} (roots : List Nat),
    (∀ message ∈ messages, ∀ active, message.active = some active → active < list.records.length) →
      Grown list (messages.foldl (dataTreeMessage realEqual filter) (list, roots)).1
  | [], list, _, _ => Grown.refl list
  | message :: rest, list, roots, inside => by
      have step : Grown list (dataTreeMessage realEqual filter (list, roots) message).1 :=
        dataTreeMessage_grown roots (inside message mem_cons_self)
      refine step.trans (tree_grown rest _ fun other member active isActive => ?_)
      rw [step.2.1]
      exact inside other (mem_cons_of_mem message member) active isActive

theorem tree_longer : ∀ (messages : List Message) (roots : List Nat),
    (∀ message ∈ messages, message.Sound list) →
      (∃ message ∈ messages, ¬ message.Idle realEqual list filter) →
        ∃ message ∈ messages, ∃ active, message.active = some active ∧
          dataSize (list.fields active) < dataSize
            ((messages.foldl (dataTreeMessage realEqual filter) (list, roots)).1.fields active)
  | [], _, _, busy => by simp at busy
  | message :: rest, roots, sound, busy => by
      have here := sound message mem_cons_self
      have others : ∀ other ∈ rest, other.Sound list := fun other member =>
        sound other (mem_cons_of_mem message member)
      by_cases idle : message.Idle realEqual list filter
      · have same := dataTreeMessage_idle here idle roots
        have later : ∃ other ∈ rest, ¬ other.Idle realEqual list filter := by
          have ⟨other, member, isBusy⟩ := busy
          rcases mem_cons.1 member with rfl | member
          · exact absurd idle isBusy
          · exact ⟨other, member, isBusy⟩
        rw [foldl_cons, ← Prod.eta (dataTreeMessage realEqual filter (list, roots) message), same]
        have ⟨other, member, found⟩ :=
          tree_longer rest (dataTreeMessage realEqual filter (list, roots) message).2 others later
        exact ⟨other, mem_cons_of_mem message member, found⟩
      · have ⟨active, isActive, longer⟩ := dataTreeMessage_longer here idle roots
        refine ⟨message, mem_cons_self, active, isActive, Nat.lt_of_lt_of_le longer ?_⟩
        have step : Grown list (dataTreeMessage realEqual filter (list, roots) message).1 :=
          dataTreeMessage_grown roots fun active isActive => (here.2 active isActive).1
        refine (tree_grown rest _ fun other member active isActive => ?_).2.2 active
        rw [step.2.1]
        exact ((others other member).2 active isActive).1

end Tree

/-- A record with a row number, and a `data` of its own or none. -/
def rowRecord (rowid : Int) (data : Option Json) : Fields :=
  ("__md_tranger__", .object [("g_rowid", .integer rowid)]) ::
    (data.map fun data => ("data", data)).toList

/-- The list of two rows of one key. -/
def twoRows (data : Option Json) : MsgList :=
  loadRecords (fun _ _ => false) {} {} [⟨⟨"k", by decide⟩, some (rowRecord 1 none), 1⟩,
    ⟨⟨"k", by decide⟩, some (rowRecord 2 data), 1⟩]

theorem twoRows_sound (data : Option Json) :
    ∀ message ∈ (twoRows data).all, message.Sound (twoRows data) := by
  intro message member
  have all : (twoRows data).all = [⟨some 2, [1, 2]⟩] := by cases data <;> rfl
  rw [all, mem_singleton] at member
  subst member
  refine ⟨by decide, fun active isActive => ?_⟩
  cases isActive
  have other : mdInt ((twoRows data).fields 1) "g_rowid" = 1 := by cases data <;> rfl
  have own : mdInt ((twoRows data).fields 2) "g_rowid" = 2 := by cases data <;> rfl
  have size : (twoRows data).records.length = 3 := by cases data <;> rfl
  refine ⟨by omega, fun row among apart => ?_⟩
  have first : row = 1 := by simpa [apart] using among
  rw [first, other, own]
  decide

/-- What the `data` of a record holds. -/
def recordSize : Json → Nat
  | .object fields => dataSize fields
  | _ => 0

end Yunetas.Timeranger2
