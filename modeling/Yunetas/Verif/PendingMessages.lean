import Yunetas.Mqtt.Tr2Queue
import Yunetas.Lib.Run

/-!
# What a queue holds across its runs

The topic of a queue keeps `first_rowid`, the row a load starts at, and `ac_timeout_periodic`
restarts a topic of `backup_queue_size` rows while nothing is in flight. An account is kept of the
messages that are pending, in the order they were appended, with the flags last saved.
-/

namespace Yunetas.Mqtt

namespace MqttQueue

open List

variable {κ : Type} {mid : κ → UInt16}

/-- An open queue, with the variable `first_rowid` of its topic. -/
structure QueueTopic (κ : Type) where
  queue : MqttQueue κ
  /-- `first_rowid`, 0 when it is not set. -/
  firstRowid : Nat

namespace QueueTopic

/-- The first row of a load: `from_rowid` of its match condition, or the first one. -/
def fromRowid (topic : QueueTopic κ) : Nat :=
  if topic.firstRowid ≠ 0 ∧ topic.firstRowid ≤ topic.queue.rows.length then topic.firstRowid else 1

/-- The rows that a load reads. -/
def read (topic : QueueTopic κ) : List (DiskRow κ × Nat) :=
  marked DiskRow.isPending topic.fromRowid (topic.queue.rows.drop (topic.fromRowid - 1))

/-- The first pending row, or the last row when none is pending. -/
def firstPending (topic : QueueTopic κ) : Nat :=
  match topic.read with
  | [] => topic.queue.rows.length
  | entry :: _ => entry.2

/-- `tr2q_load`, which leaves `first_rowid` at the first pending row. -/
def tr2qLoad (mid : κ → UInt16) (topic : QueueTopic κ) : QueueTopic κ where
  queue := { topic.queue with trq := topic.read.foldl (loadRecordCallback mid) topic.queue.trq }
  firstRowid := if topic.firstPending = 0 then topic.firstRowid else topic.firstPending

/-- `tr2q_close`, then `tr2q_open` and `tr2q_load`. -/
def reopen (mid : κ → UInt16) (maxInflightMessages : Nat) (topic : QueueTopic κ) : QueueTopic κ :=
  tr2qLoad mid { topic with queue := { topic.queue with trq := .opened maxInflightMessages } }

/-- `tr2q_check_backup`: a topic with `backup_queue_size` rows starts again. -/
def tr2qCheckBackup (backupQueueSize : Nat) (topic : QueueTopic κ) : QueueTopic κ :=
  if backupQueueSize ≠ 0 ∧ backupQueueSize ≤ topic.queue.rows.length then
    { queue := { topic.queue with rows := [] }, firstRowid := 0 }
  else topic

/-- `ac_timeout_periodic`, on one of its queues. -/
def acTimeoutPeriodic (backupQueueSize : Nat) (topic : QueueTopic κ) : QueueTopic κ :=
  if topic.queue.trq.dlInflight = [] then topic.tr2qCheckBackup backupQueueSize else topic

end QueueTopic

/-- An operation on an open queue. -/
inductive QueueOp (κ : Type)
  | append (kw : κ) (userFlag : UInt16)
  | unload (place : Place)
  | saveHardMark (place : Place) (value : UInt16)
  | moveFirst
  | timeout (backupQueueSize : Nat)
  | reopen (maxInflightMessages : Nat)

/-- A queue, and the messages that are pending in it, in the order they were appended. -/
structure Account (κ : Type) extends QueueTopic κ where
  pending : List (Q2Msg UInt16 κ)

/-- A message after a flag was saved in a row. -/
def flagMsg (rowid : Nat) (userFlag : UInt16) (msg : Q2Msg UInt16 κ) : Q2Msg UInt16 κ :=
  if msg.rowid = rowid then { msg with md := userFlag } else msg

/-- The queue takes a step, and the account notes what it means. -/
def Account.step (mid : κ → UInt16) (account : Account κ) : QueueOp κ → Account κ
  | .append kw userFlag =>
    { account with
      queue := account.queue.tr2qAppend mid kw userFlag
      pending := account.pending ++
        [⟨userFlag ||| tr2qMsgPending, account.queue.rows.length + 1, mid kw, some kw⟩] }
  | .unload place =>
    match account.queue.trq.msgAt place with
    | none => account
    | some msg =>
      { account with
        queue := account.queue.tr2qUnloadMsg place
        pending := account.pending.filter fun other => other.rowid ≠ msg.rowid }
  | .saveHardMark place value =>
    match account.queue.trq.msgAt place with
    | none => account
    | some msg =>
      { account with
        queue := account.queue.tr2qSaveHardMark place value
        pending := account.pending.map (flagMsg msg.rowid (value ||| tr2qMsgPending)) }
  | .moveFirst => { account with queue := account.queue.tr2qMoveFirst }
  | .timeout backupQueueSize =>
    { account with toQueueTopic := account.acTimeoutPeriodic backupQueueSize }
  | .reopen maxInflightMessages =>
    { account with toQueueTopic := account.toQueueTopic.reopen mid maxInflightMessages }

/-- The queue of a new topic. -/
def Account.start (maxInflightMessages : Nat) : Account κ :=
  { queue := ⟨[], .opened maxInflightMessages⟩, firstRowid := 0, pending := [] }

/-- A message with the contents that are read of it. -/
def shown (rows : List (DiskRow κ)) (msg : Q2Msg UInt16 κ) : Q2Msg UInt16 κ :=
  { msg with kwRecord := tr2qMsgJson rows msg }

/-- The messages in memory are the pending rows. -/
def InMemory (mid : κ → UInt16) (queue : MqttQueue κ) : Prop :=
  (queue.trq.all.map (shown queue.rows)).Perm (loaded mid queue.rows)

/-- What is read of a message does not depend on flags and on rows added behind. -/
theorem shown_flagRow (rows : List (DiskRow κ)) (rowid : Nat) (change : UInt16 → UInt16)
    (msg : Q2Msg UInt16 κ) : shown (flagRow rows rowid change) msg = shown rows msg := by
  unfold shown tr2qMsgJson flagRow
  cases msg.kwRecord with
  | some kw => rfl
  | none =>
    rw [getElem?_modify]
    cases rows[msg.rowid - 1]? with
    | none => rfl
    | some row => simp; split <;> rfl

theorem shown_append {rows : List (DiskRow κ)} {msg : Q2Msg UInt16 κ}
    (there : (tr2qMsgJson rows msg).isSome) (added : DiskRow κ) :
    shown (rows ++ [added]) msg = shown rows msg := by
  unfold shown tr2qMsgJson at *
  cases kw : msg.kwRecord with
  | some kw => rfl
  | none =>
    rw [kw] at there
    dsimp only at there ⊢
    rw [getElem?_append_left (by simpa using there)]

/-! ## Places -/

variable {trq : Tr2Queue UInt16 κ} {place : Place} {msg : Q2Msg UInt16 κ}

/-- Where the message at a place stands among all of them. -/
def placeIndex (trq : Tr2Queue UInt16 κ) : Place → Nat
  | .inflight position => position
  | .queued position => trq.dlInflight.length + position

theorem all_getElem (found : trq.msgAt place = some msg) :
    trq.all[placeIndex trq place]? = some msg := by
  cases place <;> grind [Tr2Queue.all, placeIndex, Tr2Queue.msgAt]

theorem all_delete (found : trq.msgAt place = some msg) (nodup : (trq.all.map Q2Msg.rowid).Nodup) :
    (trq.delete place).all = trq.all.filter fun other => other.rowid ≠ msg.rowid := by
  rw [← eraseIdx_eq_filter nodup (all_getElem found)]
  apply ext_getElem?
  intro index
  cases place <;> grind [Tr2Queue.all, placeIndex, Tr2Queue.msgAt, Tr2Queue.delete]

theorem all_change (found : trq.msgAt place = some msg) (nodup : (trq.all.map Q2Msg.rowid).Nodup)
    (userFlag : UInt16) :
    (trq.change (fun msg => { msg with md := userFlag }) place).all =
      trq.all.map (flagMsg msg.rowid userFlag) := by
  have here := all_getElem found
  apply ext_getElem?
  intro index
  have whole : (trq.change (fun msg => { msg with md := userFlag }) place).all[index]? =
      (trq.all.modify (placeIndex trq place) fun msg => { msg with md := userFlag })[index]? := by
    cases place <;> grind [Tr2Queue.all, placeIndex, Tr2Queue.msgAt, Tr2Queue.change]
  rw [whole, getElem?_modify, getElem?_map]
  cases there : trq.all[index]? with
  | none => rfl
  | some other =>
    have same : other.rowid = msg.rowid ↔ placeIndex trq place = index := by
      obtain ⟨low, _⟩ := List.getElem?_eq_some_iff.1 here
      obtain ⟨high, _⟩ := List.getElem?_eq_some_iff.1 there
      have inj := @Nodup.getElem_inj_iff _ _ nodup _ (by simpa using low) _ (by simpa using high)
      grind
    simp only [Option.map_eq_map, Option.map_some, flagMsg, same]

/-! ## Operations -/

variable {queue : MqttQueue κ}

theorem InMemory.nodup (inMemory : InMemory mid queue) :
    (queue.trq.all.map Q2Msg.rowid).Nodup := by
  have same : queue.trq.all.map Q2Msg.rowid =
      (queue.trq.all.map (shown queue.rows)).map Q2Msg.rowid := by
    rw [map_map]
    rfl
  rw [same, (inMemory.map Q2Msg.rowid).nodup_iff]
  exact loaded_nodup mid queue.rows

theorem InMemory.listed (inMemory : InMemory mid queue) {msg : Q2Msg UInt16 κ}
    (among : msg ∈ queue.trq.all) : shown queue.rows msg ∈ loaded mid queue.rows :=
  inMemory.mem_iff.1 (mem_map_of_mem among)

theorem InMemory.append (inMemory : InMemory mid queue) (kw : κ) (userFlag : UInt16) :
    InMemory mid (queue.tr2qAppend mid kw userFlag) := by
  have old : queue.trq.all.map (shown (queue.rows ++ [⟨userFlag ||| tr2qMsgPending, kw⟩])) =
      queue.trq.all.map (shown queue.rows) := by
    apply map_congr_left
    intro msg among
    have ⟨row, _, _, _, same⟩ := mem_loaded (inMemory.listed among)
    exact shown_append (Option.isSome_iff_exists.2 ⟨row.kw, congrArg Q2Msg.kwRecord same⟩) _
  have added : (queue.tr2qAppend mid kw userFlag).trq.all.Perm (queue.trq.all ++
      [⟨userFlag ||| tr2qMsgPending, queue.rows.length + 1, mid kw,
        if queue.trq.HasRoom then some kw else none⟩]) := by
    unfold tr2qAppend Tr2Queue.newMsg Tr2Queue.all
    dsimp only
    split
    · rw [append_assoc, append_assoc]
      exact perm_append_comm.append_left _
    · rw [append_assoc]
  unfold InMemory
  refine (added.map _).trans ?_
  unfold tr2qAppend
  rw [map_append, old, loaded_append]
  refine (inMemory.append_right _).trans (List.Perm.of_eq (congrArg _ ?_))
  unfold shown tr2qMsgJson
  split <;> simp

theorem InMemory.unload (inMemory : InMemory mid queue) (found : queue.trq.msgAt place = some msg) :
    InMemory mid (queue.tr2qUnloadMsg place) ∧ loaded mid (queue.tr2qUnloadMsg place).rows =
      (loaded mid queue.rows).filter fun other => other.rowid ≠ msg.rowid := by
  have cleared := loaded_cleared (inMemory.listed (mem_of_getElem? (all_getElem found)))
  unfold InMemory tr2qUnloadMsg
  rw [found]
  refine ⟨?_, cleared⟩
  dsimp only
  rw [all_delete found inMemory.nodup]
  refine List.Perm.trans (List.Perm.of_eq ?_) ((inMemory.filter _).trans (.of_eq cleared.symm))
  rw [filter_map]
  exact map_congr_left fun other _ => shown_flagRow _ _ _ other

theorem InMemory.saveHardMark (inMemory : InMemory mid queue)
    (found : queue.trq.msgAt place = some msg) (value : UInt16) :
    InMemory mid (queue.tr2qSaveHardMark place value) ∧
      loaded mid (queue.tr2qSaveHardMark place value).rows =
        (loaded mid queue.rows).map (flagMsg msg.rowid (value ||| tr2qMsgPending)) := by
  have ⟨row, stored, positive, pending, _⟩ :=
    mem_loaded (inMemory.listed (mem_of_getElem? (all_getElem found)))
  have flagged : loaded mid (flagRow queue.rows msg.rowid fun _ => value ||| tr2qMsgPending) =
      (loaded mid queue.rows).map (flagMsg msg.rowid (value ||| tr2qMsgPending)) := by
    rw [loaded, loaded, map_map]
    refine marked_agree (length_modify _ _ _) fun index old new before after => ?_
    unfold flagRow at after
    rw [getElem?_modify, before] at after
    obtain rfl := Option.some.inj after
    have positive : 1 ≤ msg.rowid := positive
    by_cases here : msg.rowid - 1 = index
    · have place : 1 + index = msg.rowid := by omega
      have same : row = old := Option.some.inj (stored.symm.trans (here ▸ before))
      simp [here, place, flagMsg, loadedMsg, isPending_or, ← same, pending]
    · have place : 1 + index ≠ msg.rowid := by omega
      simp [here, place, flagMsg, loadedMsg]
  unfold InMemory tr2qSaveHardMark
  rw [found]
  refine ⟨?_, flagged⟩
  dsimp only
  rw [all_change found inMemory.nodup, map_map, flagged]
  refine List.Perm.trans (List.Perm.of_eq ?_) (inMemory.map _)
  rw [map_map]
  apply map_congr_left
  intro other _
  rw [Function.comp_apply, shown_flagRow, Function.comp_apply]
  unfold shown flagMsg
  split <;> rfl

theorem InMemory.moveFirst (inMemory : InMemory mid queue) :
    InMemory mid queue.tr2qMoveFirst ∧ queue.tr2qMoveFirst.rows = queue.rows := by
  unfold InMemory tr2qMoveFirst
  cases queued : queue.trq.dlQueued with
  | nil => exact ⟨inMemory, rfl⟩
  | cons msg rest =>
    have among : msg ∈ queue.trq.all := mem_append_right _ (queued ▸ mem_cons_self)
    have ⟨row, _, _, _, same⟩ := mem_loaded (inMemory.listed among)
    have read : tr2qMsgJson queue.rows msg = some row.kw := congrArg Q2Msg.kwRecord same
    refine ⟨List.Perm.trans (List.Perm.of_eq ?_) inMemory, rfl⟩
    unfold Tr2Queue.all
    rw [queued]
    simp [shown, read]
    rfl

/-- A reopening lists the pending rows in their order, whatever the maximum is. -/
theorem reopen_lists (mid : κ → UInt16) (queue : MqttQueue κ) (maxInflightMessages : Nat) :
    (queue.reopen mid maxInflightMessages).trq.all.map (shown queue.rows) =
      loaded mid queue.rows := by
  have step : ∀ (entries : List (DiskRow κ × Nat)) (trq : Tr2Queue UInt16 κ),
      (∀ entry ∈ entries, queue.rows[entry.2 - 1]? = some entry.1) →
      (trq.dlQueued = [] ∨ ¬trq.HasRoom) →
      (entries.foldl (loadRecordCallback mid) trq).all.map (shown queue.rows) =
        trq.all.map (shown queue.rows) ++ entries.map (loadedMsg mid) := by
    intro entries
    induction entries with
    | nil => exact fun trq _ _ => (append_nil _).symm
    | cons entry rest ih =>
      intro trq stored ready
      have here := stored entry mem_cons_self
      rw [foldl_cons, ih _ fun other among => stored other (mem_cons_of_mem _ among)]
      · unfold loadRecordCallback Tr2Queue.newMsg Tr2Queue.all
        split
        · rename_i room
          simp [ready.resolve_right (not_not_intro room), shown, tr2qMsgJson, loadedMsg]
        · simp [shown, tr2qMsgJson, loadedMsg, here]
      · unfold loadRecordCallback Tr2Queue.newMsg
        split
        · rename_i room
          exact .inl (ready.resolve_right (not_not_intro room))
        · exact .inr ‹_›
  unfold reopen tr2qLoad
  rw [step _ _ (fun entry among => (mem_marked.1 among).2.1) (.inl rfl)]
  rfl

/-! ## The first row -/

/-- No pending row stands before the first row of a load. -/
structure QueueTopic.Skips (mid : κ → UInt16) (topic : QueueTopic κ) : Prop where
  inside : topic.firstRowid ≤ topic.queue.rows.length
  behind : ∀ msg ∈ loaded mid topic.queue.rows, topic.firstRowid ≤ msg.rowid

/-- A load from `first_rowid` on reads the pending rows of the whole topic. -/
theorem QueueTopic.Skips.read {topic : QueueTopic κ} (skips : topic.Skips mid) :
    topic.read = marked DiskRow.isPending 1 topic.queue.rows := by
  unfold QueueTopic.read fromRowid
  split
  · have shift : 1 + (topic.firstRowid - 1) = topic.firstRowid := by omega
    rw [← shift, Nat.add_sub_cancel_left, marked_drop_filter, shift]
    apply filter_eq_self.2
    intro entry among
    exact decide_eq_true (skips.behind _ (mem_map_of_mem among))
  · rfl

theorem QueueTopic.Skips.firstPending {topic : QueueTopic κ} (skips : topic.Skips mid) :
    topic.firstPending ≤ topic.queue.rows.length ∧
      ∀ msg ∈ loaded mid topic.queue.rows, topic.firstPending ≤ msg.rowid := by
  unfold QueueTopic.firstPending loaded
  rw [skips.read]
  have ascending := marked_ascending DiskRow.isPending 1 topic.queue.rows
  cases pending : marked DiskRow.isPending 1 topic.queue.rows with
  | nil =>
    constructor
    · exact Nat.le_refl _
    · intro msg among
      cases among
  | cons first rest =>
    rw [pending] at ascending
    constructor
    · have here := mem_marked.1 (pending ▸ mem_cons_self)
      have ⟨inside, _⟩ := List.getElem?_eq_some_iff.1 here.2.1
      dsimp only
      omega
    · intro msg among
      obtain ⟨entry, listed, rfl⟩ := mem_map.1 among
      rcases mem_cons.1 listed with rfl | later
      · exact Nat.le_refl _
      · exact Nat.le_of_lt ((pairwise_cons.1 ascending).1 _ (mem_map_of_mem later))

/-- A load skips rows as a load of all the rows does, and so does the next one. -/
theorem QueueTopic.Skips.tr2qLoad {topic : QueueTopic κ} (skips : topic.Skips mid) :
    (topic.tr2qLoad mid).queue = topic.queue.tr2qLoad mid ∧ (topic.tr2qLoad mid).Skips mid := by
  have first := skips.firstPending
  unfold QueueTopic.tr2qLoad
  rw [skips.read]
  refine ⟨rfl, ?_⟩
  split
  · exact ⟨skips.inside, skips.behind⟩
  · exact ⟨first.1, first.2⟩

theorem QueueTopic.Skips.reopen {topic : QueueTopic κ} (skips : topic.Skips mid)
    (maxInflightMessages : Nat) :
    (topic.reopen mid maxInflightMessages).queue = topic.queue.reopen mid maxInflightMessages ∧
      (topic.reopen mid maxInflightMessages).Skips mid :=
  QueueTopic.Skips.tr2qLoad ⟨skips.inside, skips.behind⟩

/-! ## Runs -/

/-- The queue and its account agree. -/
structure Account.Agrees (mid : κ → UInt16) (account : Account κ) : Prop where
  inMemory : InMemory mid account.queue
  onDisk : loaded mid account.queue.rows = account.pending
  skips : account.Skips mid

/-- A topic is not restarted while messages are queued. -/
def Account.NoneQueued (account : Account κ) : QueueOp κ → Prop
  | .timeout _ => account.queue.trq.dlInflight = [] → account.queue.trq.dlQueued = []
  | _ => True

theorem Account.Agrees.step {account : Account κ} (agrees : account.Agrees mid) (op : QueueOp κ)
    (noneQueued : account.NoneQueued op) : (account.step mid op).Agrees mid := by
  have inMemory := agrees.inMemory
  have onDisk := agrees.onDisk
  obtain ⟨inside, behind⟩ := agrees.skips
  cases op with
  | append kw userFlag =>
    have added := @loaded_append κ mid account.queue.rows kw userFlag
    refine ⟨inMemory.append kw userFlag, added.trans (congrArg (· ++ _) onDisk), ?_, ?_⟩
    · exact inside.trans (by simp [Account.step, tr2qAppend])
    · intro msg among
      rcases mem_append.1 (added ▸ among) with old | new
      · exact behind msg old
      · rw [mem_singleton.1 new]
        exact Nat.le_succ_of_le inside
  | unload place =>
    cases found : account.queue.trq.msgAt place with
    | none => simpa only [Account.step, found] using agrees
    | some msg =>
      simp only [Account.step, found]
      obtain ⟨kept, cleared⟩ := inMemory.unload found
      refine ⟨kept, cleared.trans (congrArg (filter _) onDisk), ?_, ?_⟩
      · simp [tr2qUnloadMsg, found, flagRow, inside]
      · intro other among
        exact behind other (mem_of_mem_filter (cleared ▸ among))
  | saveHardMark place value =>
    cases found : account.queue.trq.msgAt place with
    | none => simpa only [Account.step, found] using agrees
    | some msg =>
      simp only [Account.step, found]
      obtain ⟨kept, flagged⟩ := inMemory.saveHardMark found value
      refine ⟨kept, flagged.trans (congrArg (map _) onDisk), ?_, ?_⟩
      · simp [tr2qSaveHardMark, found, flagRow, inside]
      · intro other among
        obtain ⟨old, listed, rfl⟩ := mem_map.1 (flagged ▸ among)
        have low := behind old listed
        unfold flagMsg
        split <;> exact low
  | moveFirst =>
    obtain ⟨kept, rows⟩ := inMemory.moveFirst
    exact ⟨kept, (congrArg (loaded mid) rows).trans onDisk, ⟨rows ▸ inside, rows ▸ behind⟩⟩
  | timeout backupQueueSize =>
    simp only [Account.step, QueueTopic.acTimeoutPeriodic, QueueTopic.tr2qCheckBackup]
    split
    · rename_i inflight
      split
      · have empty : account.queue.trq.all = [] := by
          simp [Tr2Queue.all, inflight, noneQueued inflight]
        have nothing : loaded mid account.queue.rows = [] := by
          unfold InMemory at inMemory
          rw [empty] at inMemory
          exact inMemory.symm.eq_nil
        refine ⟨?_, onDisk ▸ nothing.symm, Nat.le_refl 0, fun msg _ => Nat.zero_le _⟩
        simp [InMemory, empty, loaded]
      · exact agrees
    · exact agrees
  | reopen maxInflightMessages =>
    obtain ⟨same, skips⟩ := agrees.skips.reopen maxInflightMessages
    refine ⟨?_, ?_, skips⟩
    · simp only [Account.step, same]
      exact .of_eq (reopen_lists mid account.queue maxInflightMessages)
    · simp only [Account.step, same]
      exact onDisk

/-- In a run in which no topic is restarted while messages are queued, the messages in memory are
the pending ones of the account, and a load at its end lists the account in its order. -/
theorem load_lists_pending (mid : κ → UInt16) (maxInflightMessages : Nat) (ops : List (QueueOp κ))
    (noneQueued : AllSteps (Account.step mid) Account.NoneQueued (.start maxInflightMessages) ops) :
    let account := run (Account.step mid) (.start maxInflightMessages) ops
    (account.queue.trq.all.map (shown account.queue.rows)).Perm account.pending ∧
      ∀ newMaximum, (account.toQueueTopic.reopen mid newMaximum).queue.trq.all.map
        (shown account.queue.rows) = account.pending := by
  have start : (Account.start maxInflightMessages).Agrees mid :=
    ⟨.refl _, rfl, Nat.le_refl 0, fun msg _ => Nat.zero_le _⟩
  have kept := (noneQueued.invariant _ (fun account op agrees ok => agrees.step op ok) start).last
  refine ⟨kept.onDisk ▸ kept.inMemory, fun newMaximum => ?_⟩
  rw [(kept.skips.reopen newMaximum).1, ← kept.onDisk]
  exact reopen_lists mid _ newMaximum

/-- A message comes and goes, the topic is restarted, and another message is marked. -/
theorem load_lists_pending_restarted :
    let ops : List (QueueOp Nat) :=
      [.append 7 0, .unload (.inflight 0), .timeout 1, .append 9 0,
        .saveHardMark (.inflight 0) 0x1000]
    ((run (Account.step Nat.toUInt16) (.start 1) ops).toQueueTopic.reopen Nat.toUInt16
      1).queue.trq.all.map (shown [⟨0x1001, 9⟩]) = [⟨0x1001, 1, 9, some 9⟩] :=
  (load_lists_pending Nat.toUInt16 1 [.append 7 0, .unload (.inflight 0), .timeout 1, .append 9 0,
    .saveHardMark (.inflight 0) 0x1000]
    ⟨trivial, trivial, fun _ => rfl, trivial, trivial, trivial⟩).2 1

end MqttQueue

end Yunetas.Mqtt
