import Yunetas.Timeranger2.Iterator

/-!
# The persistent queue

`tr_queue` keeps the messages of a queue in a topic keyed by rowid whose files all have one name.
A message is pending while the bit `TRQ_MSG_PENDING` of its row is set on disk; the list in memory
holds metadata only. Loading walks the rows from a hint kept in the variables of the topic, which
is the first pending row the last load found.

A write succeeds unless the file would pass the largest offset; other failed writes are the
subject of `Yunetas.Timeranger2`.
-/

namespace Yunetas.TrQueue

open Timeranger2

/-- `TRQ_MSG_PENDING`. -/
def trqMsgPending : UInt16 := 0x0001

/-! ## The topic -/

/-- `gmtime` gives a date: the year of the time, a `time_t`, fits an `int`. -/
def gmtimeAccepts (seconds : Nat) : Bool :=
  seconds ≤ 67768036191676799 ∨ 2 ^ 64 - 67768040609740800 ≤ seconds

/-- `get_file_id` with the mask `queue`: the name is left empty when `gmtime` fails. -/
def queueFileId (seconds : Nat) : String := if gmtimeAccepts seconds then "queue" else ""

/-- `system_flag` of a queue topic: that of the caller, with its key type forced. -/
structure QueueFlags where
  /-- The flags given to `trq_open`. -/
  given : UInt16
  alive : (given &&& ~~~keyTypeMask2 ||| sfRowidKey) &&& sfDeletedInstance = 0

/-- The topic `trq_open` creates. -/
def queueTopic (flags : QueueFlags) : Topic :=
  ⟨flags.given &&& ~~~keyTypeMask2 ||| sfRowidKey, queueFileId, flags.alive⟩

/-! ## Appending -/

/-- The arguments of `trq_append2`, with the clock and what the record yields. -/
structure Message where
  /-- `__t__`, 0 to take the clock. -/
  t : UInt64
  /-- `time_in_seconds` or `time_in_milliseconds`. -/
  now : UInt64
  /-- The value under `tkey`, 0 when there is none. -/
  tm : UInt64
  /-- Flags besides `TRQ_MSG_PENDING`. -/
  userFlag : UInt16
  /-- `json_dumps` of the message, its `__rowid__` included. -/
  text : List UInt8
  noNul : 0 ∉ text

/-- The time a message is stored at. -/
def Message.time (message : Message) : UInt64 :=
  if message.t = 0 then message.now else message.t

/-- The row written for a message whose payload starts at an offset. A time beyond 44 bits loses
the others to the flag. -/
def Message.row (topic : Topic) (message : Message) (offset : Nat) : Md2Record :=
  ((⟨message.time, message.tm, offset, message.text.length + 1⟩ : Md2Record).setUserFlag
    (message.userFlag ||| trqMsgPending)).setSystemFlag (topic.systemFlag &&& ~~~notInheritedMask)

/-- Rows a file holds below the largest offset. -/
def maxRows : Nat := 2 ^ 58 - 1

/-- `tranger2_append_record` on the key `__rowid__`: the metadata of the row, `none` when the file
is full. -/
def appendRecord (topic : Topic) (store : KeyState) (message : Message) :
    KeyState × Option Md2RecordEx :=
  let file := topic.fileOf message.time
  let content := store.dir.bytes file
  let rows := store.dir.rows file
  if maxRows ≤ rows.length then (store, none)
  else
    let row := message.row topic content.length
    let dir : KeyDir :=
      { json := store.dir.json.set file (content ++ (message.text ++ [0]))
        md2 := store.dir.md2.set file (rows ++ [row]) }
    (⟨dir, updateNewRecordFromMem topic store.cache row⟩, some (row.decode (rows.length + 1)))

/-! ## The queue -/

/-- A message in memory, `q_msg_t`. -/
structure QMsg where
  rowid : Nat
  /-- `md_record`. -/
  md : Md2RecordEx
  deriving DecidableEq, Repr

/-- An open queue, `tr_queue_t`. -/
structure Trq where
  /-- `dl_q_msg`. -/
  msgs : List QMsg
  firstRowid : Nat
  deriving DecidableEq, Repr

/-- A queue: its topic on disk and in the master, and its handle while it is open. -/
structure Queue where
  /-- The key `__rowid__` of the topic. -/
  store : KeyState
  /-- The variable `first_rowid` of the topic, 0 when it was never written. -/
  firstRowidVar : Nat
  trq : Option Trq

/-- An integer as `json_int_t`. -/
def jsonInt (value : Nat) : Int := Int.bmod value (2 ^ 64)

theorem jsonInt_bounds (value : Nat) : -2 ^ 63 ≤ jsonInt value ∧ jsonInt value < 2 ^ 63 := by
  constructor
  · have low := Int.le_bmod (x := value) (m := 2 ^ 64) (by decide)
    exact le_trans (by decide) low
  · have high := Int.bmod_lt (x := value) (m := 2 ^ 64) (by decide)
    exact lt_of_lt_of_le high (by decide)

theorem pendingFrom_bounded (rowid : Nat) :
    ∀ value ∈ [jsonInt rowid, 0, 0, 0, 0, 0], -2 ^ 63 ≤ value ∧ value < 2 ^ 63 := by
  intro value among
  have bounds := jsonInt_bounds rowid
  simp only [List.mem_cons, List.not_mem_nil, or_false] at among
  omega

/-- The conditions `trq_load` opens its list with, from a rowid or from the first one. -/
def pendingFrom (rowid : Nat) : MatchCond where
  onlyMd := true
  fromRowid := jsonInt rowid
  userFlagMaskSet := trqMsgPending.toNat
  bounded := pendingFrom_bounded rowid

theorem jsonInt_of_lt {value : Nat} (small : value < 2 ^ 63) : jsonInt value = value := by
  have low : -(((2 ^ 64 : Nat) : Int) / 2) ≤ value := by omega
  have high : (value : Int) < (((2 ^ 64 : Nat) : Int) + 1) / 2 := by omega
  exact Int.bmod_eq_of_le low high

theorem pendingFrom_fields (rowid : Nat) :
    ((pendingFrom rowid).toRowid = 0 ∧ (pendingFrom rowid).fromT = 0 ∧
      (pendingFrom rowid).toT = 0 ∧ (pendingFrom rowid).fromTm = 0 ∧
      (pendingFrom rowid).toTm = 0) ∧
    (pendingFrom rowid).backward = false ∧ (pendingFrom rowid).onlyMd = true := by
  simp [pendingFrom]

theorem pendingFrom_fromRowid (rowid : Nat) : (pendingFrom rowid).fromRowid = jsonInt rowid := by
  simp [pendingFrom]

theorem matchUserFlag_pendingFrom (rowid : Nat) (flag : UInt16) :
    matchUserFlag (pendingFrom rowid) flag = decide (flag &&& trqMsgPending = trqMsgPending) := by
  have zero : asUInt16 0 = 0 := by decide
  have pending : asUInt16 trqMsgPending.toNat = trqMsgPending := by decide
  have mask : trqMsgPending ≠ 0 := by decide
  simp only [matchUserFlag, pendingFrom, zero, pending]
  by_cases set : flag &&& trqMsgPending = trqMsgPending
  · simp [set]
  · simp [set, mask]

theorem rangeOf_bounded (fromRowid toRowid : Int64) :
    ∀ value ∈ [fromRowid.toInt, toRowid.toInt, 0, 0, 0, 0], -2 ^ 63 ≤ value ∧ value < 2 ^ 63 := by
  intro value among
  have low := fromRowid.le_toInt
  have high := fromRowid.toInt_lt
  have low' := toRowid.le_toInt
  have high' := toRowid.toInt_lt
  simp only [List.mem_cons, List.not_mem_nil, or_false] at among
  omega

/-- The conditions `trq_load_all` opens its list with; an end that is 0 is left out. -/
def rangeOf (fromRowid toRowid : Int64) : MatchCond where
  fromRowid := fromRowid.toInt
  toRowid := toRowid.toInt
  bounded := rangeOf_bounded fromRowid toRowid

namespace Queue

/-- A queue that was never opened. -/
def new : Queue := ⟨.empty, 0, none⟩

/-- `tranger2_topic_size`. -/
def topicSize (queue : Queue) : Nat := queue.store.cache.total.rows.toNat

/-- `trq_open`. -/
def trqOpen (queue : Queue) : Queue :=
  match queue.trq with
  | none => { queue with trq := some ⟨[], 0⟩ }
  | some _ => queue

/-- `trq_close`. -/
def trqClose (queue : Queue) : Queue := { queue with trq := none }

/-- Shut the master down and start it again, with the queue closed. -/
def restart (queue : Queue) : Queue :=
  match queue.trq with
  | none => { queue with store := reopen queue.store }
  | some _ => queue

/-- `trq_append2`, with the message added. -/
def trqAppend2 (topic : Topic) (queue : Queue) (message : Message) : Queue × Option QMsg :=
  match queue.trq with
  | none => (queue, none)
  | some trq =>
    match appendRecord topic queue.store message with
    | (store, none) => ({ queue with store := store }, none)
    | (store, some md) =>
      let msg : QMsg := ⟨md.rowid, md⟩
      ({ queue with store := store, trq := some { trq with msgs := trq.msgs ++ [msg] } }, some msg)

/-- `trq_unload_msg` on the message at a position of the queue, with the message. -/
def trqUnloadMsg (topic : Topic) (queue : Queue) (position : Nat) : Queue × Option QMsg :=
  match queue.trq with
  | none => (queue, none)
  | some trq =>
    match trq.msgs[position]? with
    | none => (queue, none)
    | some msg =>
      let store := (setUserFlag topic queue.store (UInt64.ofNat msg.md.t)
        (UInt64.ofNat msg.md.rowid) trqMsgPending false).1
      ({ queue with
          store := store
          trq := some { trq with msgs := trq.msgs.eraseIdx position } },
        some msg)

/-- `load_record_callback`. -/
def loadRecordCallback (trq : Trq) (delivery : Delivery) : Trq where
  firstRowid := if trq.firstRowid = 0 then delivery.rowid.toNat else trq.firstRowid
  msgs := trq.msgs ++ [⟨delivery.rowid.toNat, delivery.md⟩]

/-- `trq_load`. -/
def trqLoad (queue : Queue) : Queue :=
  match queue.trq with
  | none => queue
  | some trq =>
    let fromRowid := if queue.firstRowidVar ≤ queue.topicSize then queue.firstRowidVar else 0
    let loaded := (loadIterator queue.store.dir.rdFiles (pendingFrom fromRowid)
      queue.store.cache).foldl loadRecordCallback { trq with firstRowid := 0 }
    let firstRowid := if loaded.firstRowid = 0 then queue.topicSize else loaded.firstRowid
    { queue with
      firstRowidVar := if firstRowid = 0 then queue.firstRowidVar else firstRowid
      trq := some { loaded with firstRowid := firstRowid } }

/-- `trq_load_all`. -/
def trqLoadAll (queue : Queue) (fromRowid toRowid : Int64) : Queue :=
  match queue.trq with
  | none => queue
  | some trq =>
    { queue with
      trq := some ((loadIterator queue.store.dir.rdFiles (rangeOf fromRowid toRowid)
        queue.store.cache).foldl loadRecordCallback trq) }

/-- `trq_set_hard_flag`. -/
def trqSetHardFlag (topic : Topic) (queue : Queue) (msg : QMsg) (hardMark : UInt16) (set : Bool) :
    Queue :=
  { queue with
    store := (setUserFlag topic queue.store (UInt64.ofNat msg.md.t) (UInt64.ofNat msg.md.rowid)
      hardMark set).1 }

/-- The messages in memory. -/
def msgs (queue : Queue) : List QMsg := (queue.trq.map Trq.msgs).getD []

/-- The loop of `cmd_queue_mark_pending` and `cmd_queue_mark_notpending`. -/
def markMessages (topic : Topic) (queue : Queue) (set : Bool) : Queue :=
  queue.msgs.foldl (fun queue msg => queue.trqSetHardFlag topic msg trqMsgPending set) queue

/-- What both commands do with the queue: open it, load the range, mark each message, close. -/
def markRange (topic : Topic) (queue : Queue) (fromRowid toRowid : Int64) (set : Bool) : Queue :=
  ((queue.restart.trqOpen.trqLoadAll fromRowid toRowid).markMessages topic set).trqClose

/-- `cmd_queue_mark_pending` and `cmd_queue_mark_notpending`. The queue is open while the yuno
plays. -/
def cmdQueueMark (topic : Topic) (queue : Queue) (fromRowid toRowid : Int64) (set : Bool) : Queue :=
  if queue.trq.isSome then queue
  else if fromRowid = 0 then queue
  else queue.markRange topic fromRowid toRowid set

/-- `trq_check_backup`, as the gate calls it: with no message in memory. The topic starts anew. -/
def trqCheckBackup (queue : Queue) (backupQueueSize : Nat) : Queue :=
  match queue.trq with
  | none => queue
  | some trq =>
    if trq.msgs ≠ [] then queue
    else if backupQueueSize ≠ 0 ∧ queue.topicSize ≥ backupQueueSize then
      ⟨.empty, 0, some { trq with firstRowid := 0 }⟩
    else queue

/-- `trq_msg_json`, up to the parse: the text of a message. -/
def trqMsgJson (topic : Topic) (queue : Queue) (msg : QMsg) : Option (List UInt8) :=
  let seconds := if msg.md.systemFlag &&& sfTMs ≠ 0 then msg.md.t / 1000 else msg.md.t
  readRecordContent queue.store.dir.rdFiles (topic.fileId seconds) msg.md

/-- The messages in memory: their rowids and their contents. -/
def contents (topic : Topic) (queue : Queue) : List (Nat × Option (List UInt8)) :=
  ((queue.trq.map Trq.msgs).getD []).map fun msg => (msg.rowid, queue.trqMsgJson topic msg)

end Queue

/-- An operation on a queue. -/
inductive Op where
  | trqOpen
  | trqClose
  | restart
  /-- `trq_load`. -/
  | load
  /-- `trq_append2`. -/
  | append (message : Message)
  /-- `trq_unload_msg` on the message at a position. -/
  | unload (position : Nat)

/-- An operation of the history of a queue, of its yuno or of an operator. -/
inductive HistoryOp where
  | op (op : Op)
  /-- `trq_load_all`. -/
  | loadAll (fromRowid toRowid : Int64)
  /-- `trq_set_hard_flag` on the message at a position. -/
  | setHardFlag (position : Nat) (hardMark : UInt16) (set : Bool)
  /-- `cmd_queue_mark_pending` or `cmd_queue_mark_notpending`. -/
  | mark (fromRowid toRowid : Int64) (set : Bool)
  /-- `trq_check_backup`. -/
  | checkBackup (backupQueueSize : Nat)

/-- The queue after an operation. -/
def Queue.step (topic : Topic) (queue : Queue) : Op → Queue
  | .trqOpen => queue.trqOpen
  | .trqClose => queue.trqClose
  | .restart => queue.restart
  | .load => queue.trqLoad
  | .append message => (queue.trqAppend2 topic message).1
  | .unload position => (queue.trqUnloadMsg topic position).1

/-- The queue after an operation of its history. -/
def Queue.historyStep (topic : Topic) (queue : Queue) : HistoryOp → Queue
  | .op op => queue.step topic op
  | .loadAll fromRowid toRowid => queue.trqLoadAll fromRowid toRowid
  | .setHardFlag position hardMark set =>
    match queue.msgs[position]? with
    | none => queue
    | some msg => queue.trqSetHardFlag topic msg hardMark set
  | .mark fromRowid toRowid set => queue.cmdQueueMark topic fromRowid toRowid set
  | .checkBackup backupQueueSize => queue.trqCheckBackup backupQueueSize

end Yunetas.TrQueue
