import Yunetas.Verif.PersistentQueue

/-!
# Messages marked pending again

An operator marks the messages of a range of rowids as pending, or as not pending, and closes the
queue. The next load starts from the hint that an earlier load left, which the marks do not move: it
delivers what is pending then exactly where none of it is below the hint.
-/

namespace Yunetas.TrQueue

open List

open Timeranger2

/-- A message that is appended has a date. -/
def HistoryOp.Dated (topic : Topic) : HistoryOp → Prop
  | .op (.append message) => message.Dated topic
  | _ => True

/-- The first load after the queue was closed. -/
def Queue.reload (queue : Queue) : Queue := queue.restart.trqOpen.trqLoad

/-- A rowid is in a range; an end that is 0 is open, a negative one counts from the last row. -/
def Queue.inRange (queue : Queue) (fromRowid toRowid : Int64) (rowid : Nat) : Bool :=
  RowidWithin (rangeOf fromRowid toRowid) (queueRows queue.store).length rowid

/-- The rows to be delivered once a range is marked: those of the range if they are marked pending,
and the others that are pending. -/
def Queue.toDeliver (queue : Queue) (fromRowid toRowid : Int64) (set : Bool) :
    List (Md2Record × Nat) :=
  ((queueRows queue.store).zipIdx 1).filter fun entry =>
    if queue.inRange fromRowid toRowid entry.2 then set else isPending entry.1

/-- A row as its message is read: the rowid and the text. -/
def Queue.read (queue : Queue) (entry : Md2Record × Nat) : Nat × Option (List UInt8) :=
  (entry.2, rowContent queue.store entry.1 entry.2)

/-! ## Marking -/

/-- Some rows are flagged, and nothing else of the queue changes. -/
structure Flagged (queue next : Queue) (rowids : List Nat) (set : Bool) : Prop where
  steady : Steady next
  hint : next.firstRowidVar = queue.firstRowidVar
  trq : next.trq = queue.trq
  json : next.store.dir.json = queue.store.dir.json
  length : (queueRows next.store).length = (queueRows queue.store).length
  rows : ∀ (index : Nat) (old new : Md2Record), (queueRows queue.store)[index]? = some old →
    (queueRows next.store)[index]? = some new →
      isPending new = (if index + 1 ∈ rowids then set else isPending old) ∧
        new.offset = old.offset ∧ new.size = old.size

theorem isPending_flagged (row : Md2Record) (set : Bool) :
    isPending (row.setUserFlag (maskBits row.getUserFlag trqMsgPending set)) = set := by
  rw [isPending, Md2Record.getUserFlag_setUserFlag]
  cases set with
  | false => exact decide_eq_false (flag_cleared _)
  | true => exact decide_eq_true (or_and_mask _ _)

section Marking

variable {flags : QueueFlags} {queue : Queue}

theorem foldl_flagged (steady : Steady queue) (set : Bool) {msgs : List QMsg}
    (held : ∀ msg ∈ msgs, Held (queueRows queue.store) msg) :
    Flagged queue (msgs.foldl (fun queue msg =>
      queue.trqSetHardFlag (queueTopic flags) msg trqMsgPending set) queue)
      (msgs.map QMsg.rowid) set := by
  induction msgs generalizing queue with
  | nil =>
    refine ⟨steady, rfl, rfl, rfl, rfl, ?_⟩
    intro index old new before after
    rw [← Option.some.inj (before.symm.trans after)]
    exact ⟨rfl, rfl, rfl⟩
  | cons msg rest ih =>
    have here := held msg mem_cons_self
    have numbered := here.numbered.1
    have ⟨row, stored, _, json, rows⟩ :=
      @Steady.setHardFlag_row flags _ steady _ here trqMsgPending set
    have still : ∀ other ∈ rest, Held (queueRows (queue.trqSetHardFlag (queueTopic flags) msg
        trqMsgPending set).store) other := by
      intro other among
      rw [rows]
      exact (held other (mem_cons_of_mem msg among)).flagged stored _
    have later := ih (steady.setHardFlag here trqMsgPending set) still
    rw [foldl_cons]
    refine ⟨later.steady, later.hint, later.trq, later.json.trans json, ?_, ?_⟩
    · rw [later.length, rows, length_set]
    · intro index old new before after
      have inside := (List.getElem?_eq_some_iff.1 before).1
      by_cases same : msg.rowid - 1 = index
      · have own : old = row := Option.some.inj (before.symm.trans (same ▸ stored))
        have between : (queueRows (queue.trqSetHardFlag (queueTopic flags) msg trqMsgPending
            set).store)[index]? =
            some (row.setUserFlag (maskBits row.getUserFlag trqMsgPending set)) := by
          rw [rows, same, getElem?_set_self inside]
        have next := later.rows index _ new between after
        rw [isPending_flagged] at next
        have listed : index + 1 ∈ (msg :: rest).map QMsg.rowid := by
          rw [map_cons]
          exact mem_cons.2 (.inl (by omega))
        rw [if_pos listed, own]
        refine ⟨?_, next.2⟩
        rw [next.1]
        split
        · rfl
        · rfl
      · have between : (queueRows (queue.trqSetHardFlag (queueTopic flags) msg trqMsgPending
            set).store)[index]? = some old := by
          rw [rows, getElem?_set_ne same]
          exact before
        have next := later.rows index old new between after
        have listed : index + 1 ∈ (msg :: rest).map QMsg.rowid ↔
            index + 1 ∈ rest.map QMsg.rowid := by
          rw [map_cons, mem_cons]
          constructor
          · intro among
            exact among.resolve_left (by omega)
          · exact .inr
        simp only [listed]
        exact next

theorem markRange_flagged (steady : Steady queue) (closed : queue.trq = none)
    (fromRowid toRowid : Int64) (set : Bool) :
    ∃ rowids, Flagged queue (queue.markRange (queueTopic flags) fromRowid toRowid set) rowids set ∧
      ∀ rowid, rowid ∈ rowids ↔ 1 ≤ rowid ∧ rowid ≤ (queueRows queue.store).length ∧
        queue.inRange fromRowid toRowid rowid = true := by
  have opened : queue.restart.trqOpen =
      { queue with store := reopen queue.store, trq := some ⟨[], 0⟩ } := by
    simp [Queue.restart, closed, Queue.trqOpen]
  have ready : Steady queue.restart.trqOpen := steady.restart.trqOpen
  obtain ⟨loaded, result, added, msgs, held, numbers⟩ :=
    ready.loadAll_msgs (congrArg Queue.trq opened) fromRowid toRowid
  have kept : Steady (queue.restart.trqOpen.trqLoadAll fromRowid toRowid) :=
    ready.loadAll fromRowid toRowid
  have inMemory : (queue.restart.trqOpen.trqLoadAll fromRowid toRowid).msgs = added := by
    rw [result]
    exact msgs
  have flagged := @foldl_flagged flags _ kept set added (by rw [result]; exact held)
  refine ⟨added.map QMsg.rowid, ?_, ?_⟩
  · unfold Queue.markRange Queue.markMessages
    rw [inMemory]
    rw [result, opened] at flagged ⊢
    exact ⟨flagged.steady.trqClose, flagged.hint, closed.symm, flagged.json, flagged.length,
      flagged.rows⟩
  · intro rowid
    rw [numbers, opened]
    exact and_congr_right fun _ => and_congr_right fun _ => decide_eq_true_iff.symm

theorem reload_contents (steady : Steady queue) (closed : queue.trq = none) :
    queue.reload.contents (queueTopic flags) =
      ((marked isPending 1 (queueRows queue.store)).map queue.read).filter
        fun entry => queue.firstRowidVar ≤ entry.1 := by
  have opened : queue.restart.trqOpen =
      { queue with store := reopen queue.store, trq := some ⟨[], 0⟩ } := by
    simp [Queue.restart, closed, Queue.trqOpen]
  have ready : Steady queue.restart.trqOpen := steady.restart.trqOpen
  have loaded := ready.trqLoad_eq (congrArg Queue.trq opened)
  have texts : ∀ entry ∈ queue.restart.trqOpen.pendingFromHint,
      queue.restart.trqOpen.trqMsgJson (queueTopic flags) (loadedMsg entry) =
        rowContent queue.store entry.1 entry.2 := by
    intro entry among
    have stored : entry ∈ (queueRows queue.restart.trqOpen.store).zipIdx 1 :=
      Steady.pendingFromHint_rows among
    rw [(Held.loaded stored).json, opened]
    exact rowContent_congr rfl rfl
  have found : queue.restart.trqOpen.pendingFromHint =
      (marked isPending 1 (queueRows queue.store)).filter
        fun entry => queue.firstRowidVar ≤ entry.2 := by
    rw [Queue.pendingFromHint_eq, opened]
    rfl
  have contents : queue.reload.contents (queueTopic flags) =
      queue.restart.trqOpen.pendingFromHint.map fun entry => (entry.2,
        queue.restart.trqOpen.trqMsgJson (queueTopic flags) (loadedMsg entry)) := by
    unfold Queue.reload Queue.contents
    rw [loaded]
    simp only [Option.map_some, Option.getD_some, nil_append, map_map]
    rfl
  rw [contents, filter_map]
  have same : queue.restart.trqOpen.pendingFromHint.map (fun entry => (entry.2,
      queue.restart.trqOpen.trqMsgJson (queueTopic flags) (loadedMsg entry))) =
      queue.restart.trqOpen.pendingFromHint.map queue.read :=
    map_congr_left fun entry among => congrArg (Prod.mk entry.2) (texts entry among)
  rw [same, found]
  rfl

theorem historyStep_steady (steady : Steady queue) (op : HistoryOp)
    (dated : op.Dated (queueTopic flags)) :
    Steady (queue.historyStep (queueTopic flags) op) := by
  cases op with
  | op op =>
    cases op with
    | trqOpen => exact steady.trqOpen
    | trqClose => exact steady.trqClose
    | restart => exact steady.restart
    | load => exact steady.load
    | append message => exact steady.append dated
    | unload position => exact steady.unload position
  | loadAll fromRowid toRowid => exact steady.loadAll fromRowid toRowid
  | setHardFlag position hardMark set =>
    simp only [Queue.historyStep]
    cases found : queue.msgs[position]? with
    | none => exact steady
    | some msg =>
      exact steady.setHardFlag (steady.held_msgs msg (mem_of_getElem? found)) hardMark set
  | mark fromRowid toRowid set =>
    simp only [Queue.historyStep, Queue.cmdQueueMark]
    cases opened : queue.trq with
    | some trq => exact steady
    | none =>
      rw [Option.isSome_none, if_neg Bool.false_ne_true]
      split
      · exact steady
      · have ⟨rowids, flagged, _⟩ := @markRange_flagged flags _ steady opened fromRowid toRowid set
        exact flagged.steady
  | checkBackup backupQueueSize =>
    simp only [Queue.historyStep, Queue.trqCheckBackup]
    cases opened : queue.trq with
    | none => exact steady
    | some trq =>
      dsimp only
      split
      · exact steady
      · rename_i empty
        split
        · refine ⟨OneFile.empty, Nat.zero_le _, ?_⟩
          intro handle same msg among
          rw [← Option.some.inj same] at among
          rw [not_not.1 empty] at among
          exact absurd among not_mem_nil
        · exact steady

theorem markRange_reload (steady : Steady queue) (closed : queue.trq = none)
    (fromRowid toRowid : Int64) (set : Bool) :
    (queue.markRange (queueTopic flags) fromRowid toRowid set).reload.contents (queueTopic flags) =
      ((queue.toDeliver fromRowid toRowid set).map queue.read).filter
        fun entry => queue.firstRowidVar ≤ entry.1 := by
  have ⟨rowids, flagged, numbers⟩ := @markRange_flagged flags _ steady closed fromRowid toRowid set
  have marks : (marked isPending 1 (queueRows (queue.markRange (queueTopic flags) fromRowid toRowid
      set).store)).map (queue.markRange (queueTopic flags) fromRowid toRowid set).read =
      (queue.toDeliver fromRowid toRowid set).map queue.read := by
    apply marked_agree flagged.length
    intro index old new before after
    have inside := (List.getElem?_eq_some_iff.1 before).1
    have row := flagged.rows index old new before after
    have listed : index + 1 ∈ rowids ↔ queue.inRange fromRowid toRowid (1 + index) = true := by
      rw [numbers, Nat.add_comm]
      constructor
      · intro among
        exact among.2.2
      · intro within
        exact ⟨by omega, by omega, within⟩
    constructor
    · rw [row.1]
      simp [listed]
    · have content : rowContent (queue.markRange (queueTopic flags) fromRowid toRowid set).store
          new (1 + index) = rowContent queue.store old (1 + index) := by
        simp only [rowContent, readRecordContent, Md2Record.decode, KeyDir.rdFiles, flagged.json,
          row.2.1, row.2.2]
        rfl
      exact congrArg (Prod.mk (1 + index)) content
  rw [reload_contents flagged.steady (flagged.trq.trans closed), marks, flagged.hint]

end Marking

/-! ## Histories -/

/-- After every history of a queue whose messages have dates, once an operator marks the messages of
a range and closes the queue, the next load delivers, in rowid order and with their texts, exactly
those to be delivered, if and only if none of them is below the hint. -/
theorem marked_delivered_iff (flags : QueueFlags) (ops : List HistoryOp)
    (dated : ∀ op ∈ ops, op.Dated (queueTopic flags))
    (closed : (run (Queue.historyStep (queueTopic flags)) Queue.new ops).trq = none)
    (fromRowid toRowid : Int64) (set : Bool) :
    let queue := run (Queue.historyStep (queueTopic flags)) Queue.new ops
    (queue.markRange (queueTopic flags) fromRowid toRowid set).reload.contents (queueTopic flags) =
        (queue.toDeliver fromRowid toRowid set).map queue.read ↔
      ∀ entry ∈ queue.toDeliver fromRowid toRowid set, queue.firstRowidVar ≤ entry.2 := by
  have keeps (queue : Queue) (op : HistoryOp) (steady : Steady queue)
      (met : op.Dated (queueTopic flags)) : Steady (queue.historyStep (queueTopic flags) op) :=
    historyStep_steady steady op met
  have steady := ((AllSteps.of_mem _ dated Queue.new).invariant _ keeps Steady.new).last
  generalize run (Queue.historyStep (queueTopic flags)) Queue.new ops = queue at steady closed
  dsimp only
  rw [markRange_reload steady closed, List.filter_eq_self]
  constructor
  · intro all entry among
    exact of_decide_eq_true (all _ (List.mem_map_of_mem among))
  · intro all entry among
    obtain ⟨row, listed, rfl⟩ := List.mem_map.1 among
    exact decide_eq_true (all row listed)

/-- Two messages of which the second is still pending, marked not pending. -/
theorem marked_delivered_not_pending :
    let queue := run (Queue.historyStep (queueTopic sampleFlags)) Queue.new
      [.op .trqOpen, .op (.append (sampleMessage 7)), .op (.append (sampleMessage 8)), .op .trqClose]
    (queue.markRange (queueTopic sampleFlags) 2 2 false).reload.contents (queueTopic sampleFlags) =
      (queue.toDeliver 2 2 false).map queue.read := by
  apply (marked_delivered_iff sampleFlags _ _ (by decide) 2 2 false).2
  · decide
  · intro op among
    simp only [List.mem_cons, List.not_mem_nil, or_false] at among
    rcases among with rfl | rfl | rfl | rfl
    · trivial
    · unfold HistoryOp.Dated Message.Dated
      decide
    · unfold HistoryOp.Dated Message.Dated
      decide
    · trivial

/-- Two messages are unloaded and a load leaves the hint at the last row. Marked pending again, the
first does not come back. -/
theorem mark_lost :
    let queue := run (Queue.historyStep (queueTopic sampleFlags)) Queue.new
      [.op .trqOpen, .op (.append (sampleMessage 7)), .op (.append (sampleMessage 8)),
        .op (.unload 0), .op (.unload 0), .op .load, .op .trqClose]
    (queue.toDeliver 1 2 true).map Prod.snd = [1, 2] ∧
      ((queue.markRange (queueTopic sampleFlags) 1 2 true).reload.contents
        (queueTopic sampleFlags)).map Prod.fst = [2] ∧
      (queue.markRange (queueTopic sampleFlags) 1 2 true).reload.contents (queueTopic sampleFlags) ≠
        (queue.toDeliver 1 2 true).map queue.read := by
  decide

end Yunetas.TrQueue
