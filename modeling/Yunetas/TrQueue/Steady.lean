import Yunetas.TrQueue.OneFile

/-!
# What every operation keeps of a queue

The rows are in one file, the hint is not past them, and the messages in memory stand for rows of
the file. An operation appends a row or rewrites the flag of one; what a row points to stays.
-/

namespace Yunetas.TrQueue

open List Option Int

open Timeranger2

/-- `gmtime` gives a date for the time of the message, in seconds. -/
def Message.Dated (topic : Topic) (message : Message) : Prop :=
  gmtimeAccepts (if topic.systemFlag &&& sfTMs ≠ 0 then message.time.toNat / 1000
    else message.time.toNat) = true

theorem Message.Dated.file {flags : QueueFlags} {message : Message}
    (dated : message.Dated (queueTopic flags)) :
    (queueTopic flags).fileOf message.time = "queue" := by
  exact if_pos dated

/-- A message in memory stands for a row of the file. -/
structure Held (rows : List Md2Record) (msg : QMsg) : Prop where
  numbered : 1 ≤ msg.rowid ∧ msg.md.rowid = msg.rowid
  stored : ∃ row, rows[msg.rowid - 1]? = some row ∧ msg.md.t = row.getTimeT.toNat ∧
    msg.md.offset = row.offset ∧ msg.md.size = row.size

theorem Held.append {rows : List Md2Record} {msg : QMsg} (held : Held rows msg)
    (added : List Md2Record) : Held (rows ++ added) msg := by
  have ⟨row, stored, same⟩ := held.stored
  have ⟨inside, _⟩ := List.getElem?_eq_some_iff.1 stored
  exact ⟨held.numbered, row, (List.getElem?_append_left inside).trans stored, same⟩

theorem Held.flagged {rows : List Md2Record} {msg : QMsg} (held : Held rows msg) {index : Nat}
    {row : Md2Record} (stored : rows[index]? = some row) (flag : UInt16) :
    Held (rows.set index (row.setUserFlag flag)) msg := by
  have ⟨own, there, time, offset, size⟩ := held.stored
  refine ⟨held.numbered, ?_⟩
  by_cases here : msg.rowid - 1 = index
  · rw [here] at there ⊢
    rw [there] at stored
    have ⟨inside, _⟩ := List.getElem?_eq_some_iff.1 there
    rw [← some.inj stored]
    exact ⟨own.setUserFlag flag, getElem?_set_self inside,
      by rw [time, Md2Record.getTimeT_setUserFlag], offset, size⟩
  · exact ⟨own, (getElem?_set_ne (Ne.symm here)).trans there, time, offset, size⟩

/-- What a row found in the file leaves in memory. -/
def loadedMsg (entry : Md2Record × Nat) : QMsg := ⟨entry.2, (pendingDelivery entry).md⟩

theorem Held.loaded {rows : List Md2Record} {entry : Md2Record × Nat}
    (among : entry ∈ rows.zipIdx 1) : Held rows (loadedMsg entry) := by
  have ⟨low, stored⟩ := mem_zipIdx_iff_le_and_getElem?_sub.1 among
  exact ⟨⟨low, rfl⟩, entry.1, stored, rfl, rfl, rfl⟩

/-- The message of a delivery. -/
def deliveredMsg (delivery : Delivery) : QMsg := ⟨delivery.rowid.toNat, delivery.md⟩

theorem foldl_loadRecordCallback_msgs (trq : Trq) (deliveries : List Delivery) :
    (deliveries.foldl Queue.loadRecordCallback trq).msgs =
      trq.msgs ++ deliveries.map deliveredMsg := by
  induction deliveries generalizing trq with
  | nil => exact (append_nil _).symm
  | cons delivery rest ih =>
    rw [foldl_cons, ih, map_cons]
    exact append_assoc _ _ _

theorem foldl_loadRecordCallback (trq : Trq) (entries : List (Md2Record × Nat))
    (positive : ∀ entry ∈ entries, 1 ≤ entry.2) :
    (entries.map pendingDelivery).foldl Queue.loadRecordCallback trq =
      ⟨trq.msgs ++ entries.map loadedMsg,
        if trq.firstRowid = 0 then (entries.head?.map Prod.snd).getD 0 else trq.firstRowid⟩ := by
  induction entries generalizing trq with
  | nil =>
    cases trq with
    | mk msgs firstRowid =>
      simp only [map_nil, foldl_nil, append_nil, head?_nil, map_none, getD_none]
      by_cases zero : firstRowid = 0
      · rw [if_pos zero, zero]
      · rw [if_neg zero]
  | cons entry rest ih =>
    have here := positive entry mem_cons_self
    have number : (pendingDelivery entry).rowid.toNat = entry.2 := toNat_natCast _
    rw [map_cons, foldl_cons, ih _ fun other among =>
      positive other (mem_cons_of_mem entry among)]
    simp only [Queue.loadRecordCallback, number, map_cons, head?_cons, map_some,
      getD_some, Trq.mk.injEq, append_assoc, singleton_append]
    refine ⟨rfl, ?_⟩
    by_cases zero : trq.firstRowid = 0
    · rw [if_pos zero, if_neg (by omega)]
    · rw [if_neg zero, if_neg zero]

/-- The pending rows from the hint on, those a load delivers. -/
def Queue.pendingFromHint (queue : Queue) : List (Md2Record × Nat) :=
  marked isPending (1 + (queue.firstRowidVar - 1))
    ((queueRows queue.store).drop (queue.firstRowidVar - 1))

/-- The first rowid of a load: the first it delivers, or the last row. -/
def Queue.firstLoaded (queue : Queue) : Nat :=
  if (queue.pendingFromHint.head?.map Prod.snd).getD 0 = 0 then (queueRows queue.store).length
  else (queue.pendingFromHint.head?.map Prod.snd).getD 0

theorem Queue.pendingFromHint_eq (queue : Queue) :
    queue.pendingFromHint = (marked isPending 1 (queueRows queue.store)).filter
      fun entry => queue.firstRowidVar ≤ entry.2 := by
  unfold Queue.pendingFromHint
  rw [marked_drop_filter]
  apply filter_congr
  intro entry among
  have first := (mem_marked.1 among).1
  rw [decide_eq_decide]
  omega

/-- The file, the hint and the memory of a queue agree. -/
structure Steady (queue : Queue) : Prop where
  store : OneFile queue.store
  reached : queue.firstRowidVar ≤ (queueRows queue.store).length
  held : ∀ trq, queue.trq = some trq → ∀ msg ∈ trq.msgs, Held (queueRows queue.store) msg

namespace Steady

variable {flags : QueueFlags} {queue : Queue}

theorem new : Steady Queue.new where
  store := OneFile.empty
  reached := Nat.le_refl 0
  held trq opened := by cases opened

section

variable (steady : Steady queue)
include steady

theorem held_msgs : ∀ msg ∈ queue.msgs, Held (queueRows queue.store) msg := by
  intro msg among
  unfold Queue.msgs at among
  cases opened : queue.trq with
  | none =>
    rw [opened] at among
    exact absurd among not_mem_nil
  | some trq =>
    rw [opened] at among
    exact steady.held trq opened msg among

theorem topicSize_eq : queue.topicSize = (queueRows queue.store).length := by
  rw [Queue.topicSize, steady.store.cell.total, toNat_natCast]

theorem trqOpen : Steady queue.trqOpen := by
  unfold Queue.trqOpen
  cases opened : queue.trq with
  | none =>
    refine ⟨steady.store, steady.reached, ?_⟩
    intro trq same msg among
    rw [← some.inj same] at among
    exact absurd among not_mem_nil
  | some trq => exact steady

theorem trqClose : Steady queue.trqClose := by
  refine ⟨steady.store, steady.reached, ?_⟩
  intro trq closed
  cases closed

theorem restart : Steady queue.restart := by
  unfold Queue.restart
  cases opened : queue.trq with
  | none =>
    refine ⟨steady.store.reopen, steady.reached, ?_⟩
    intro trq same
    cases same
  | some trq => exact steady

/-- `trq_append2` adds a row, or nothing where the queue is closed or the file is full. -/
theorem append_cases {message : Message} (dated : message.Dated (queueTopic flags)) :
    queue.trqAppend2 (queueTopic flags) message = (queue, none) ∨
      ∃ next trq, queue.trq = some trq ∧ OneFile next ∧ queueRows next = queueRows queue.store ++
          [message.row (queueTopic flags) (queue.store.dir.bytes "queue").length] ∧
        next.dir.json = queue.store.dir.json.set "queue"
          (queue.store.dir.bytes "queue" ++ (message.text ++ [0])) ∧
        let number := (queueRows queue.store).length + 1
        let row := message.row (queueTopic flags) (queue.store.dir.bytes "queue").length
        queue.trqAppend2 (queueTopic flags) message =
          ({ queue with store := next, trq := some { trq with
              msgs := trq.msgs ++ [⟨number, row.decode number⟩] } },
            some ⟨number, row.decode number⟩) := by
  cases opened : queue.trq with
  | none =>
    left
    simp [Queue.trqAppend2, opened]
  | some trq =>
    by_cases room : (queueRows queue.store).length < maxRows
    · right
      have ⟨next, appended, one, rows, json⟩ := steady.store.append message dated.file room
      refine ⟨next, trq, rfl, one, rows, json, ?_⟩
      simp only [Queue.trqAppend2, opened, appended]
      rfl
    · left
      have full : maxRows ≤ (queue.store.dir.rows "queue").length := Nat.le_of_not_lt room
      simp only [Queue.trqAppend2, opened, appendRecord, dated.file, full, ↓reduceIte]
      rw [← opened]

end

theorem append (steady : Steady queue) {message : Message}
    (dated : message.Dated (queueTopic flags)) :
    Steady (queue.trqAppend2 (queueTopic flags) message).1 := by
  rcases steady.append_cases dated with refused | ⟨next, trq, opened, one, rows, json, appended⟩
  · rw [refused]
    exact steady
  · rw [appended]
    refine ⟨one, ?_, ?_⟩
    · rw [rows, length_append]
      exact Nat.le_add_right_of_le steady.reached
    · intro handle same other among
      rw [← some.inj same] at among
      rw [rows]
      rcases mem_append.1 among with before | added
      · exact (steady.held trq opened other before).append _
      · rw [mem_singleton.1 added]
        refine ⟨⟨Nat.succ_pos _, rfl⟩, _, ?_, rfl, rfl, rfl⟩
        exact getElem?_concat_length

theorem setHardFlag_row (steady : Steady queue) {msg : QMsg}
    (held : Held (queueRows queue.store) msg) (hardMark : UInt16) (set : Bool) :
    ∃ row, (queueRows queue.store)[msg.rowid - 1]? = some row ∧
      OneFile (queue.trqSetHardFlag (queueTopic flags) msg hardMark set).store ∧
      (queue.trqSetHardFlag (queueTopic flags) msg hardMark set).store.dir.json =
        queue.store.dir.json ∧
      queueRows (queue.trqSetHardFlag (queueTopic flags) msg hardMark set).store =
        (queueRows queue.store).set (msg.rowid - 1)
          (row.setUserFlag (maskBits row.getUserFlag hardMark set)) := by
  have ⟨positive, number⟩ := held.numbered
  have ⟨row, stored, time, _⟩ := held.stored
  have rowid : msg.md.rowid = msg.rowid - 1 + 1 := by omega
  have flagged := steady.store.setUserFlag flags stored hardMark set
  rw [← time, ← rowid] at flagged
  exact ⟨row, stored, flagged⟩

theorem setHardFlag (steady : Steady queue) {msg : QMsg}
    (held : Held (queueRows queue.store) msg) (hardMark : UInt16) (set : Bool) :
    Steady (queue.trqSetHardFlag (queueTopic flags) msg hardMark set) := by
  have ⟨row, stored, one, _, rows⟩ := @setHardFlag_row flags _ steady _ held hardMark set
  refine ⟨one, ?_, ?_⟩
  · rw [rows, length_set]
    exact steady.reached
  · intro trq opened other among
    rw [rows]
    exact (steady.held trq opened other among).flagged stored _

theorem unload (steady : Steady queue) (position : Nat) :
    Steady (queue.trqUnloadMsg (queueTopic flags) position).1 := by
  unfold Queue.trqUnloadMsg
  cases opened : queue.trq with
  | none => exact steady
  | some trq =>
    dsimp only
    cases found : trq.msgs[position]? with
    | none => exact steady
    | some msg =>
      have flagged := @setHardFlag flags _ steady msg
        (steady.held trq opened msg (mem_of_getElem? found)) trqMsgPending false
      refine ⟨flagged.store, flagged.reached, ?_⟩
      intro handle same other among
      rw [← some.inj same] at among
      exact flagged.held trq opened other (mem_of_mem_eraseIdx among)


/-- `trq_load` adds the pending rows from the hint on and moves the hint to the first of them, or to
the last row. -/
theorem trqLoad_eq (steady : Steady queue) {trq : Trq} (opened : queue.trq = some trq) :
    queue.trqLoad = { queue with
        firstRowidVar := if queue.firstLoaded = 0 then queue.firstRowidVar else queue.firstLoaded
        trq := some ⟨trq.msgs ++ queue.pendingFromHint.map loadedMsg, queue.firstLoaded⟩ } := by
  have positive : ∀ entry ∈ queue.pendingFromHint, 1 ≤ entry.2 := by
    intro entry among
    have low := (mem_marked.1 among).1
    omega
  have delivered := steady.store.loadIterator_eq steady.reached
  have loaded := foldl_loadRecordCallback ⟨trq.msgs, 0⟩ queue.pendingFromHint positive
  rw [if_pos rfl] at loaded
  unfold Queue.trqLoad
  rw [opened]
  simp only [steady.topicSize_eq, if_pos steady.reached, delivered]
  rw [show marked isPending (1 + (queue.firstRowidVar - 1))
    ((queueRows queue.store).drop (queue.firstRowidVar - 1)) = queue.pendingFromHint from rfl,
    loaded]
  rfl

theorem pendingFromHint_rows {entry : Md2Record × Nat} (among : entry ∈ queue.pendingFromHint) :
    entry ∈ (queueRows queue.store).zipIdx 1 := by
  rw [Queue.pendingFromHint_eq] at among
  exact mem_of_mem_filter (mem_of_mem_filter among)

theorem load (steady : Steady queue) : Steady queue.trqLoad := by
  cases opened : queue.trq with
  | none =>
    have nothing : queue.trqLoad = queue := by
      simp [Queue.trqLoad, opened]
    rw [nothing]
    exact steady
  | some trq =>
    rw [steady.trqLoad_eq opened]
    refine ⟨steady.store, ?_, ?_⟩
    · have reached := steady.reached
      have bound : queue.firstLoaded ≤ (queueRows queue.store).length := by
        unfold Queue.firstLoaded
        cases first : queue.pendingFromHint.head? with
        | none => exact Nat.le_refl _
        | some entry =>
          have among := pendingFromHint_rows (mem_of_head? first)
          have stored := (mem_zipIdx_iff_le_and_getElem?_sub.1 among).2
          have inside := (List.getElem?_eq_some_iff.1 stored).1
          simp only [map_some, getD_some]
          split
          · exact Nat.le_refl _
          · omega
      split
      · exact reached
      · exact bound
    · intro handle same msg among
      rw [← some.inj same] at among
      rcases mem_append.1 among with old | loaded
      · exact steady.held trq opened msg old
      · obtain ⟨entry, pending, rfl⟩ := mem_map.1 loaded
        have stored : entry ∈ (queueRows queue.store).zipIdx 1 := pendingFromHint_rows pending
        exact Held.loaded stored

theorem loadAll_msgs (steady : Steady queue) {trq : Trq} (opened : queue.trq = some trq)
    (fromRowid toRowid : Int64) :
    ∃ loaded, queue.trqLoadAll fromRowid toRowid = { queue with trq := some loaded } ∧
      ∃ added, loaded.msgs = trq.msgs ++ added ∧ (∀ msg ∈ added, Held (queueRows queue.store) msg) ∧
        ∀ rowid : Nat, rowid ∈ added.map QMsg.rowid ↔
          1 ≤ rowid ∧ rowid ≤ (queueRows queue.store).length ∧
            RowidWithin (rangeOf fromRowid toRowid) (queueRows queue.store).length rowid := by
  let deliveries := loadIterator queue.store.dir.rdFiles (rangeOf fromRowid toRowid)
    queue.store.cache
  have listed (msg : QMsg) : msg ∈ deliveries.map deliveredMsg ↔
      ∃ entry ∈ (queueRows queue.store).zipIdx 1, msg = loadedMsg entry ∧
        RowidWithin (rangeOf fromRowid toRowid) (queueRows queue.store).length entry.2 := by
    have found := steady.store.mem_walk_range fromRowid toRowid
    constructor
    · intro among
      obtain ⟨delivery, delivered, rfl⟩ := mem_map.1 among
      obtain ⟨row, walked, rfl⟩ := mem_map.1 delivered
      obtain ⟨entry, stored, rfl, within⟩ := (found row).1 walked
      exact ⟨entry, stored, rfl, within⟩
    · intro ranged
      obtain ⟨entry, stored, rfl, within⟩ := ranged
      have walked := (found (foundAt entry)).2 ⟨entry, stored, rfl, within⟩
      exact mem_map.2 ⟨_, mem_map_of_mem walked, rfl⟩
  refine ⟨deliveries.foldl Queue.loadRecordCallback trq, ?_, deliveries.map deliveredMsg,
    foldl_loadRecordCallback_msgs trq deliveries, ?_, ?_⟩
  · simp only [Queue.trqLoadAll, opened]
    rfl
  · intro msg among
    obtain ⟨entry, stored, rfl, -⟩ := (listed msg).1 among
    exact Held.loaded stored
  · intro rowid
    constructor
    · intro among
      obtain ⟨msg, added, rfl⟩ := mem_map.1 among
      obtain ⟨entry, stored, rfl, within⟩ := (listed msg).1 added
      have place := mem_zipIdx_iff_le_and_getElem?_sub.1 stored
      have inside := (List.getElem?_eq_some_iff.1 place.2).1
      have low := place.1
      refine ⟨low, ?_, within⟩
      show entry.2 ≤ _
      omega
    · intro ranged
      have inside : rowid - 1 < (queueRows queue.store).length := by omega
      have stored : ((queueRows queue.store)[rowid - 1], rowid) ∈ (queueRows queue.store).zipIdx 1 :=
        mem_zipIdx_iff_le_and_getElem?_sub.2 ⟨ranged.1, getElem?_eq_getElem inside⟩
      exact mem_map.2 ⟨_, (listed _).2 ⟨_, stored, rfl, ranged.2.2⟩, rfl⟩

theorem loadAll (steady : Steady queue) (fromRowid toRowid : Int64) :
    Steady (queue.trqLoadAll fromRowid toRowid) := by
  cases opened : queue.trq with
  | none =>
    have nothing : queue.trqLoadAll fromRowid toRowid = queue := by
      simp [Queue.trqLoadAll, opened]
    rw [nothing]
    exact steady
  | some trq =>
    have ⟨loaded, result, added, msgs, held, _⟩ := steady.loadAll_msgs opened fromRowid toRowid
    rw [result]
    refine ⟨steady.store, steady.reached, ?_⟩
    intro handle same msg among
    rw [← some.inj same, msgs] at among
    rcases mem_append.1 among with old | new
    · exact steady.held trq opened msg old
    · exact held msg new

end Steady

end Yunetas.TrQueue
