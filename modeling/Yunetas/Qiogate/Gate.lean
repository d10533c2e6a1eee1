import Mathlib.Algebra.Order.Ring.Int
import Mathlib.Data.List.Basic

/-!
# The output queue gate

`C_QIOGATE` puts a persistent queue in front of its bottom side. A message is stored, sent as soon
as the bottom side is open and there is room for one more acknowledgement, and unloaded when the
acknowledgement naming its rowid arrives. A soft mark on each queued message says that it was sent
on this connection, `lastMsgSent` points at the last one sent, and `pendingAcks` counts them.

The bottom side does not call back inside a send. Two queued messages never share a rowid, so a
pointer to a message is its rowid. Storing a message is one step, which may fail; the files behind
it are the queue topic of `Yunetas.TrQueue`.
-/

namespace Yunetas.Qiogate

open List

/-- A message of the queue, `q_msg_t`. -/
structure QMsg where
  rowid : Nat
  /-- The soft mark `TRQ_MSG_PENDING`: sent, waiting for its acknowledgement. -/
  pending : Bool := false
  deriving DecidableEq, Repr

/-- Attributes of the gate that do not change while it runs. -/
structure Config where
  /-- `max_pending_acks`, a `uint32_t`; zero means no limit. -/
  maxPendingAcks : Nat
  fits : maxPendingAcks < 2 ^ 32
  /-- `timeout_backup` is positive. -/
  backups : Bool
  /-- `backup_queue_size` of the queue topic; zero means no backup. -/
  backupQueueSize : Nat

/-- Private data of the gate, with the rows of its queue topic. -/
structure Gate where
  /-- `trq_msgs`, in order of arrival. -/
  trqMsgs : List QMsg
  /-- `tranger2_topic_size` of the queue topic. -/
  topicSize : Nat
  /-- `last_msg_sent`, by rowid. -/
  lastMsgSent : Option Nat
  bottomSideOpened : Bool
  /-- `pending_acks`, a `uint32_t`. -/
  pendingAcks : Nat
  deriving DecidableEq, Repr

namespace Gate

/-- The gate `mt_start` leaves: the pending messages of the topic, loaded in order. -/
def start (topicSize : Nat) (loaded : List Nat) : Gate :=
  ⟨loaded.map fun rowid => { rowid := rowid }, topicSize, none, false, 0⟩

/-- `enqueue_message`: the topic gives the message its next rowid. `none` when it is not saved. -/
def enqueueMessage (gate : Gate) (saved : Bool) : Option Gate :=
  if saved then
    some { gate with
      trqMsgs := gate.trqMsgs ++ [{ rowid := gate.topicSize + 1 }]
      topicSize := gate.topicSize + 1 }
  else none

/-- `reset_soft_queue`: no message is marked, no acknowledgement is awaited. -/
def resetSoftQueue (gate : Gate) : Gate :=
  { gate with
    trqMsgs := gate.trqMsgs.map fun msg => { msg with pending := false }
    pendingAcks := 0
    lastMsgSent := none }

end Gate

/-- There is room for one more acknowledgement. -/
def hasRoom (config : Config) (pendingAcks : Nat) : Bool :=
  config.maxPendingAcks = 0 ∨ pendingAcks < config.maxPendingAcks

/-- The message before the last one, if any, was sent; messages are listed last first. -/
def previousSent : List QMsg → Bool
  | [] => true
  | previous :: _ => previous.pending

/-- What the loop of `send_batch_messages` has done so far. -/
structure Batch where
  msgs : List QMsg
  pendingAcks : Nat
  lastMsgSent : Option Nat
  sent : List Nat

/-- The loop of `send_batch_messages` from a message on: marked messages are passed over, the
others are sent and marked until there is no room. -/
def sendFrom (config : Config) (pendingAcks : Nat) (lastMsgSent : Option Nat) :
    List QMsg → Batch
  | [] => ⟨[], pendingAcks, lastMsgSent, []⟩
  | msg :: rest =>
    if msg.pending then
      let batch := sendFrom config pendingAcks lastMsgSent rest
      { batch with msgs := msg :: batch.msgs }
    else if hasRoom config pendingAcks then
      let batch := sendFrom config ((pendingAcks + 1) % 2 ^ 32) (some msg.rowid) rest
      { batch with
        msgs := { msg with pending := true } :: batch.msgs
        sent := msg.rowid :: batch.sent }
    else ⟨msg :: rest, pendingAcks, lastMsgSent, []⟩

theorem sendFrom_rowids (config : Config) (pendingAcks : Nat) (lastMsgSent : Option Nat)
    (msgs : List QMsg) :
    (sendFrom config pendingAcks lastMsgSent msgs).msgs.map QMsg.rowid = msgs.map QMsg.rowid := by
  induction msgs generalizing pendingAcks lastMsgSent with
  | nil => rfl
  | cons msg rest ih =>
    unfold sendFrom
    split
    · simp [ih]
    · split
      · simp [ih]
      · rfl

namespace Gate

/-- `send_batch_messages(gobj, 0)`: from the last message sent, or from the first one, with the
rowids sent. -/
def sendBatchMessages (config : Config) (gate : Gate) : Gate × List Nat :=
  let isLast (msg : QMsg) : Bool := gate.lastMsgSent = some msg.rowid
  let skipped := if gate.lastMsgSent.isSome then gate.trqMsgs.takeWhile (!isLast ·) else []
  let batch := sendFrom config gate.pendingAcks gate.lastMsgSent
    (gate.trqMsgs.drop skipped.length)
  ({ gate with
      trqMsgs := skipped ++ batch.msgs
      pendingAcks := batch.pendingAcks
      lastMsgSent := batch.lastMsgSent },
    batch.sent)

/-- `send_batch_messages(gobj, msg)` with the message just stored, the last of the queue: it is
sent unless the one before it was not, or there is no room. -/
def sendOneMessage (config : Config) (gate : Gate) : Gate × List Nat :=
  match gate.trqMsgs.reverse with
  | [] => (gate, [])
  | msg :: before =>
    if previousSent before && hasRoom config gate.pendingAcks then
      ({ gate with
          trqMsgs := before.reverse ++ [{ msg with pending := true }]
          pendingAcks := (gate.pendingAcks + 1) % 2 ^ 32
          lastMsgSent := some msg.rowid },
        [msg.rowid])
    else (gate, [])

theorem sendBatchMessages_rowids (config : Config) (gate : Gate) :
    (gate.sendBatchMessages config).1.trqMsgs.map QMsg.rowid = gate.trqMsgs.map QMsg.rowid := by
  unfold sendBatchMessages
  simp only [map_append, sendFrom_rowids]
  rw [← map_append]
  split
  · have skipped := prefix_iff_eq_append.1 ( takeWhile_prefix (l := gate.trqMsgs)
      fun msg : QMsg => !decide (gate.lastMsgSent = some msg.rowid))
    exact congrArg _ skipped
  · simp

theorem sendOneMessage_rowids (config : Config) (gate : Gate) :
    (gate.sendOneMessage config).1.trqMsgs.map QMsg.rowid = gate.trqMsgs.map QMsg.rowid := by
  unfold sendOneMessage
  split
  · rfl
  · rename_i msg before reversed
    split
    · rw [← reverse_reverse gate.trqMsgs, reversed]
      simp
    · rfl

/-- `dequeue_msg`: the message named by an acknowledgement leaves the queue. -/
def dequeueMsg (gate : Gate) (rowid : Nat) : Gate :=
  match gate.trqMsgs.find? (·.rowid = rowid) with
  | none => gate
  | some msg =>
    { gate with
      trqMsgs := gate.trqMsgs.eraseP (·.rowid = rowid)
      lastMsgSent := if gate.lastMsgSent = some msg.rowid then none else gate.lastMsgSent
      pendingAcks := if msg.pending && 0 < gate.pendingAcks then gate.pendingAcks - 1
        else gate.pendingAcks }

/-- `trq_check_backup`: a topic of at least `backup_queue_size` rows is moved away and an empty
one takes its place. -/
def checkBackup (config : Config) (gate : Gate) : Option Gate :=
  if config.backupQueueSize ≠ 0 ∧ config.backupQueueSize ≤ gate.topicSize then
    some { gate with topicSize := 0 }
  else none

end Gate

/-- An event of the gate. -/
inductive Event where
  /-- `EV_SEND_MESSAGE`; whether the topic saved the message. -/
  | sendMessage (saved : Bool)
  /-- `EV_ON_MESSAGE` from the bottom side: the acknowledgement of a rowid. -/
  | onMessage (rowid : Nat)
  /-- `EV_ON_OPEN` from the bottom side. -/
  | onOpen
  /-- `EV_ON_CLOSE` from the bottom side. -/
  | onClose
  /-- `EV_TIMEOUT`; whether the backup timer has run out. -/
  | timeout (backupDue : Bool)
  /-- `EV_ON_MESSAGE`, `EV_ON_OPEN` or `EV_ON_CLOSE` from another source, and `EV_STOPPED`. -/
  | ignored
  deriving DecidableEq, Repr

/-- What an event leaves. -/
structure Outcome where
  gate : Gate
  sent : List Nat
  backedUp : Bool := false

namespace Gate

/-- `ac_send_message`. -/
def acSendMessage (config : Config) (gate : Gate) (saved : Bool) : Outcome :=
  match gate.enqueueMessage saved with
  | none => { gate, sent := [] }
  | some gate =>
    if gate.bottomSideOpened then
      let (gate, sent) := gate.sendOneMessage config
      { gate, sent }
    else { gate, sent := [] }

/-- Send what there is room for when the bottom side is open. -/
def sendIfOpened (config : Config) (gate : Gate) : Gate × List Nat :=
  if gate.bottomSideOpened then gate.sendBatchMessages config else (gate, [])

/-- `process_ack`. -/
def processAck (config : Config) (gate : Gate) (rowid : Nat) : Outcome :=
  let (gate, sent) := (gate.dequeueMsg rowid).sendIfOpened config
  { gate, sent }

/-- `ac_on_open`. -/
def acOnOpen (config : Config) (gate : Gate) : Outcome :=
  let (gate, sent) := { gate with bottomSideOpened := true }.sendBatchMessages config
  { gate, sent }

/-- `ac_on_close`. -/
def acOnClose (gate : Gate) : Outcome :=
  { gate := { gate with bottomSideOpened := false }.resetSoftQueue, sent := [] }

/-- `ac_timeout`: the backup is looked at when nothing is queued and nothing is awaited. -/
def acTimeout (config : Config) (gate : Gate) (backupDue : Bool) : Outcome :=
  let (gate, sent) := gate.sendIfOpened config
  if config.backups && backupDue && gate.trqMsgs.isEmpty && gate.pendingAcks = 0 then
    match gate.checkBackup config with
    | none => { gate, sent }
    | some gate => { gate, sent, backedUp := true }
  else { gate, sent }

variable (config : Config)

theorem sendIfOpened_rowids (gate : Gate) :
    (gate.sendIfOpened config).1.trqMsgs.map QMsg.rowid = gate.trqMsgs.map QMsg.rowid := by
  unfold sendIfOpened
  split
  · exact gate.sendBatchMessages_rowids config
  · rfl

theorem acTimeout_cases (gate : Gate) (backupDue : Bool) :
    gate.acTimeout config backupDue =
        { gate := (gate.sendIfOpened config).1, sent := (gate.sendIfOpened config).2 } ∨
      ∃ next, (gate.sendIfOpened config).1.trqMsgs = [] ∧
        (gate.sendIfOpened config).1.checkBackup config = some next ∧
        gate.acTimeout config backupDue =
          { gate := next, sent := (gate.sendIfOpened config).2, backedUp := true } := by
  unfold acTimeout
  by_cases due : (config.backups && backupDue && (gate.sendIfOpened config).1.trqMsgs.isEmpty &&
      (gate.sendIfOpened config).1.pendingAcks = 0) = true
  · cases backup : (gate.sendIfOpened config).1.checkBackup config with
    | none =>
      left
      simp [due, backup, ↓reduceIte]
    | some next =>
      right
      simp only [Bool.and_eq_true, List.isEmpty_iff] at due
      refine ⟨next, due.1.2, rfl, ?_⟩
      simp [due, backup, ↓reduceIte]
  · left
    simp [due, ↓reduceIte]

theorem acTimeout_rowids (gate : Gate) (backupDue : Bool) :
    (gate.acTimeout config backupDue).gate.trqMsgs.map QMsg.rowid =
      gate.trqMsgs.map QMsg.rowid := by
  rcases gate.acTimeout_cases config backupDue with sent | ⟨next, -, backup, moved⟩
  · rw [sent]
    exact gate.sendIfOpened_rowids config
  · rw [moved, ← gate.sendIfOpened_rowids config]
    unfold checkBackup at backup
    split at backup
    · rw [← Option.some.inj backup]
    · cases backup

/-- One event. -/
def step (config : Config) (gate : Gate) : Event → Outcome
  | .sendMessage saved => gate.acSendMessage config saved
  | .onMessage rowid => gate.processAck config rowid
  | .onOpen => gate.acOnOpen config
  | .onClose => gate.acOnClose
  | .timeout backupDue => gate.acTimeout config backupDue
  | .ignored => { gate, sent := [] }

theorem step_kept (gate : Gate) (event : Event) {msg : QMsg}
    (among : msg ∈ gate.trqMsgs) (other : event ≠ .onMessage msg.rowid) :
    msg.rowid ∈ (gate.step config event).gate.trqMsgs.map QMsg.rowid := by
  have here : msg.rowid ∈ gate.trqMsgs.map QMsg.rowid := mem_map_of_mem among
  cases event with
  | sendMessage saved =>
    cases saved with
    | false => exact here
    | true =>
      have stored : msg.rowid ∈
          (gate.trqMsgs ++ [{ rowid := gate.topicSize + 1 : QMsg }]).map QMsg.rowid := by
        rw [map_append]
        exact mem_append_left _ here
      cases opened : gate.bottomSideOpened with
      | false => simpa [step, acSendMessage, enqueueMessage, opened] using stored
      | true =>
        simp only [step, acSendMessage, enqueueMessage, ↓reduceIte, opened, sendOneMessage_rowids]
        exact stored
  | onMessage rowid =>
    show _ ∈ ((gate.dequeueMsg rowid).sendIfOpened config).1.trqMsgs.map QMsg.rowid
    rw [sendIfOpened_rowids]
    unfold dequeueMsg
    split
    · exact here
    · have kept : msg ∈ gate.trqMsgs.eraseP (·.rowid = rowid) := by
        refine (mem_eraseP_of_neg ?_).2 among
        have differs : rowid ≠ msg.rowid := fun same => other (by rw [same])
        simpa using Ne.symm differs
      exact mem_map_of_mem kept
  | onOpen =>
    show _ ∈ (sendBatchMessages config { gate with bottomSideOpened := true }).1.trqMsgs.map
      QMsg.rowid
    rw [sendBatchMessages_rowids]
    exact here
  | onClose =>
    have reset : (gate.step config .onClose).gate.trqMsgs.map QMsg.rowid =
        gate.trqMsgs.map QMsg.rowid := by
      simp [step, acOnClose, resetSoftQueue]
    rw [reset]
    exact here
  | timeout backupDue =>
    show _ ∈ (gate.acTimeout config backupDue).gate.trqMsgs.map QMsg.rowid
    rw [acTimeout_rowids]
    exact here
  | ignored => exact here

end Gate

end Yunetas.Qiogate
