import Yunetas.Lib.Marked
import Yunetas.Mqtt.Property

/-!
# The queue of MQTT messages

`tr2q_mqtt.c` keeps the messages of a queue in a topic, one row a message, and in two lists: the
messages in flight, in memory with their contents, and the queued ones, whose contents are on disk
only. What a row says of its message is packed in the sixteen bits of its `user_flag`. Rows are
numbered from 1, and a message is pending while the bit `TR2Q_MSG_PENDING` of its row is set.
-/

namespace Yunetas.Mqtt

open List Option

/-! ## The bits of `user_flag` -/

/-- `TR2Q_MSG_PENDING`. -/
def tr2qMsgPending : UInt16 := 0x0001
/-- `TR2Q_QOS_MASK`. -/
def tr2qQosMask : UInt16 := 0x0030
/-- `TR2Q_RETAIN_MASK`. -/
def tr2qRetainMask : UInt16 := 0x0040
/-- `TR2Q_DUP_MASK`. -/
def tr2qDupMask : UInt16 := 0x0080

/-- `TR2Q_STATE_MASK`. -/
def tr2qStateMask : UInt16 := 0xF000

/-- `mqtt_msg_direction`. -/
inductive MqttMsgDirection where
  | mosqMdIn
  | mosqMdOut
  deriving DecidableEq, Repr

/-- The bits of a direction. -/
def MqttMsgDirection.bits : MqttMsgDirection → UInt16
  | .mosqMdIn => 0x0100
  | .mosqMdOut => 0x0200

/-- `mqtt_msg_origin`. -/
inductive MqttMsgOrigin where
  | mosqMoClient
  | mosqMoBroker
  deriving DecidableEq, Repr

/-- The bits of an origin. -/
def MqttMsgOrigin.bits : MqttMsgOrigin → UInt16
  | .mosqMoClient => 0x0400
  | .mosqMoBroker => 0x0800

/-- `mqtt_msg_state`. -/
inductive MqttMsgState where
  | mosqMsInvalid
  | mosqMsPublishQos0
  | mosqMsPublishQos1
  | mosqMsWaitForPuback
  | mosqMsPublishQos2
  | mosqMsWaitForPubrec
  | mosqMsResendPubrel
  | mosqMsWaitForPubrel
  | mosqMsResendPubcomp
  | mosqMsWaitForPubcomp
  | mosqMsSendPubrec
  | mosqMsQueued
  deriving DecidableEq, Repr

/-- The bits of a state. -/
def MqttMsgState.bits : MqttMsgState → UInt16
  | .mosqMsInvalid => 0x0000
  | .mosqMsPublishQos0 => 0x1000
  | .mosqMsPublishQos1 => 0x2000
  | .mosqMsWaitForPuback => 0x3000
  | .mosqMsPublishQos2 => 0x4000
  | .mosqMsWaitForPubrec => 0x5000
  | .mosqMsResendPubrel => 0x6000
  | .mosqMsWaitForPubrel => 0x7000
  | .mosqMsResendPubcomp => 0x8000
  | .mosqMsWaitForPubcomp => 0x9000
  | .mosqMsSendPubrec => 0xA000
  | .mosqMsQueued => 0xB000

/-- `mosq_m_qos0`, `mosq_m_qos1` and `mosq_m_qos2`, as the publishers of a message set them. -/
def mosqMQos (qos : Nat) : UInt16 :=
  if qos = 1 then 0x0010 else if qos = 2 then 0x0020 else 0x0000

/-- `msg_flag_get_qos_level`. -/
def msgFlagGetQosLevel (userFlag : UInt16) : Nat :=
  if userFlag &&& tr2qQosMask = 0x0020 then 2
  else if userFlag &&& tr2qQosMask = 0x0010 then 1 else 0

/-- `msg_flag_set_state`. -/
def msgFlagSetState (userFlag : UInt16) (state : MqttMsgState) : UInt16 :=
  (userFlag &&& ~~~tr2qStateMask) ||| (state.bits &&& tr2qStateMask)

/-! ## The lists in memory -/

/-- A message in memory, `q2_msg_t`: `μ` is what it holds of the metadata of its row, `κ` is its
contents. Its field `inflight` is the list it is in. -/
structure Q2Msg (μ κ : Type) where
  /-- `md_record`. -/
  md : μ
  rowid : Nat
  mid : UInt16
  kwRecord : Option κ
  deriving DecidableEq, Repr

/-- An open queue, `tr2_queue_t`. -/
structure Tr2Queue (μ κ : Type) where
  /-- `max_inflight_messages`, 0 for no maximum. -/
  maxInflightMessages : Nat
  dlInflight : List (Q2Msg μ κ)
  dlQueued : List (Q2Msg μ κ)
  deriving DecidableEq, Repr

/-- Where a message of a queue is. -/
inductive Place where
  /-- In `dl_inflight`. -/
  | inflight (position : Nat)
  /-- In `dl_queued`. -/
  | queued (position : Nat)
  deriving DecidableEq, Repr

namespace Tr2Queue

variable {μ κ : Type}

/-- The queue `tr2q_open` gives. -/
def opened (maxInflightMessages : Nat) : Tr2Queue μ κ := ⟨maxInflightMessages, [], []⟩

/-- There is a place in flight for one message more. -/
def HasRoom (trq : Tr2Queue μ κ) : Prop :=
  trq.maxInflightMessages = 0 ∨ trq.dlInflight.length < trq.maxInflightMessages

instance (trq : Tr2Queue μ κ) : Decidable trq.HasRoom :=
  inferInstanceAs (Decidable (_ ∨ _))

/-- `new_msg`. -/
def newMsg (trq : Tr2Queue μ κ) (rowid : Nat) (mid : UInt16) (md : μ) (kwRecord : κ) :
    Tr2Queue μ κ :=
  if trq.HasRoom then
    { trq with dlInflight := trq.dlInflight ++ [⟨md, rowid, mid, some kwRecord⟩] }
  else { trq with dlQueued := trq.dlQueued ++ [⟨md, rowid, mid, none⟩] }

/-- The messages in memory, those in flight first. -/
def all (trq : Tr2Queue μ κ) : List (Q2Msg μ κ) := trq.dlInflight ++ trq.dlQueued

/-- The message at a place. -/
def msgAt (trq : Tr2Queue μ κ) : Place → Option (Q2Msg μ κ)
  | .inflight position => trq.dlInflight[position]?
  | .queued position => trq.dlQueued[position]?

/-- `dl_delete`, from the list the message is in. -/
def delete (trq : Tr2Queue μ κ) : Place → Tr2Queue μ κ
  | .inflight position => { trq with dlInflight := trq.dlInflight.eraseIdx position }
  | .queued position => { trq with dlQueued := trq.dlQueued.eraseIdx position }

/-- Change the message at a place. -/
def change (trq : Tr2Queue μ κ) (update : Q2Msg μ κ → Q2Msg μ κ) : Place → Tr2Queue μ κ
  | .inflight position => { trq with dlInflight := trq.dlInflight.modify position update }
  | .queued position => { trq with dlQueued := trq.dlQueued.modify position update }

/-- `tr2q_get_by_mid`. -/
def getByMid (trq : Tr2Queue μ κ) (mid : UInt16) : Option Place :=
  match trq.dlInflight.findIdx? fun msg => msg.mid = mid with
  | some position => some (.inflight position)
  | none => (trq.dlQueued.findIdx? fun msg => msg.mid = mid).map .queued

end Tr2Queue

/-! ## The rows -/

/-- A row of the topic of a queue: its metadata, and its record. -/
structure DiskRow (κ : Type) where
  userFlag : UInt16
  kw : κ
  deriving DecidableEq, Repr

/-- The test of `tr2q_load` on a row. -/
def DiskRow.isPending {κ : Type} (row : DiskRow κ) : Bool :=
  row.userFlag &&& tr2qMsgPending = tr2qMsgPending

/-- A queue on its rows: the topic, and the open queue. -/
structure MqttQueue (κ : Type) where
  rows : List (DiskRow κ)
  trq : Tr2Queue UInt16 κ
  deriving DecidableEq, Repr

namespace MqttQueue

variable {κ : Type}

/-- Change the flag of the row with a rowid. -/
def flagRow (rows : List (DiskRow κ)) (rowid : Nat) (change : UInt16 → UInt16) :
    List (DiskRow κ) :=
  rows.modify (rowid - 1) fun row => { row with userFlag := change row.userFlag }

/-- `tr2q_append`; `mid` reads the packet identifier of a record. -/
def tr2qAppend (mid : κ → UInt16) (queue : MqttQueue κ) (kw : κ) (userFlag : UInt16) :
    MqttQueue κ where
  rows := queue.rows ++ [⟨userFlag ||| tr2qMsgPending, kw⟩]
  trq := queue.trq.newMsg (queue.rows.length + 1) (mid kw) (userFlag ||| tr2qMsgPending) kw

/-- `tr2q_msg_json`: the contents in memory, or those of the row. -/
def tr2qMsgJson (rows : List (DiskRow κ)) (msg : Q2Msg UInt16 κ) : Option κ :=
  match msg.kwRecord with
  | some kw => some kw
  | none => (rows[msg.rowid - 1]?).map DiskRow.kw

/-- `tr2q_unload_msg`. -/
def tr2qUnloadMsg (queue : MqttQueue κ) (place : Place) : MqttQueue κ :=
  match queue.trq.msgAt place with
  | none => queue
  | some msg =>
    { rows := flagRow queue.rows msg.rowid fun flag => flag &&& ~~~tr2qMsgPending
      trq := queue.trq.delete place }

/-- `tr2q_save_hard_mark`. -/
def tr2qSaveHardMark (queue : MqttQueue κ) (place : Place) (value : UInt16) : MqttQueue κ :=
  match queue.trq.msgAt place with
  | none => queue
  | some msg =>
    { rows := flagRow queue.rows msg.rowid fun _ => value ||| tr2qMsgPending
      trq := queue.trq.change (fun msg => { msg with md := value ||| tr2qMsgPending }) place }

/-- `tr2q_move_from_queued_to_inflight` of the first queued message. -/
def tr2qMoveFirst (queue : MqttQueue κ) : MqttQueue κ :=
  match queue.trq.dlQueued with
  | [] => queue
  | msg :: rest =>
    let moved := { msg with kwRecord := tr2qMsgJson queue.rows msg }
    { queue with trq :=
        { queue.trq with dlInflight := queue.trq.dlInflight ++ [moved], dlQueued := rest } }

/-- The message `load_record_callback` adds for a row. -/
def loadRecordCallback (mid : κ → UInt16) (trq : Tr2Queue UInt16 κ) (entry : DiskRow κ × Nat) :
    Tr2Queue UInt16 κ :=
  trq.newMsg entry.2 (mid entry.1.kw) entry.1.userFlag entry.1.kw

/-- `tr2q_load`. -/
def tr2qLoad (mid : κ → UInt16) (queue : MqttQueue κ) : MqttQueue κ :=
  let pending := marked DiskRow.isPending 1 queue.rows
  { queue with trq := pending.foldl (loadRecordCallback mid) queue.trq }

/-- `tr2q_close`, then `tr2q_open` and `tr2q_load`. -/
def reopen (mid : κ → UInt16) (maxInflightMessages : Nat) (queue : MqttQueue κ) : MqttQueue κ :=
  tr2qLoad mid { queue with trq := .opened maxInflightMessages }

end MqttQueue

/-! ## The messages -/

/-- What a publisher gives a message. -/
structure Publication where
  topic : List UInt8
  /-- The bytes of `gbuffer`. -/
  payload : List UInt8
  retain : Bool
  properties : Option Props
  expiryInterval : Nat

/-- The message of `new_mqtt_message`. -/
structure MqttMsg extends Publication where
  qos : Nat
  mid : UInt16
  /-- `tm`, in seconds. -/
  tm : Nat

/-- The settings of a connection that its queues read. -/
structure ProtConf where
  /-- `iamServer`: the broker, else the client. -/
  iamServer : Bool
  maxInflightMessages : Nat
  maxInflightBytes : Nat
  deriving DecidableEq, Repr

/-- `mqtt_mid_generate`: what follows a `last_mid`. -/
def mqttMidGenerate (lastMid : UInt16) : UInt16 := if lastMid + 1 = 0 then 1 else lastMid + 1

/-- `db__ready_for_flight`. -/
def dbReadyForFlight {μ κ : Type} (conf : ProtConf) (trq : Tr2Queue μ κ) (qos : Nat) : Bool :=
  if conf.maxInflightMessages = 0 ∧ conf.maxInflightBytes = 0 then true
  else if qos = 0 then true
  else trq.HasRoom

/-- `message__remove`: the message taken out, with its contents; `none` when there is none. -/
def messageRemove (queue : MqttQueue MqttMsg) (mid : UInt16) :
    Option (Option MqttMsg) × MqttQueue MqttMsg :=
  match queue.trq.getByMid mid with
  | none => (none, queue)
  | some place => (some ((queue.trq.msgAt place).bind (MqttQueue.tr2qMsgJson queue.rows)),
      queue.tr2qUnloadMsg place)

/-! ## What the operations do -/

theorem eraseIdx_eq_filter {α β : Type} [DecidableEq β] {key : α → β} {entries : List α}
    (nodup : (entries.map key).Nodup) {position : Nat} {entry : α}
    (found : entries[position]? = some entry) :
    entries.eraseIdx position = entries.filter fun other => key other ≠ key entry := by
  induction entries generalizing position with
  | nil => cases found
  | cons first rest ih =>
    rw [map_cons, nodup_cons] at nodup
    cases position with
    | zero =>
      obtain rfl := some.inj found
      have others : ∀ other ∈ rest, key other ≠ key first := by
        intro other among same
        exact nodup.1 (same ▸ mem_map_of_mem among)
      have kept : rest.filter (fun other => key other ≠ key first) = rest := by
        apply filter_eq_self.2
        intro other among
        exact decide_eq_true (others other among)
      rw [filter_cons_of_neg (by simp), kept]
      rfl
    | succ position =>
      have among : entry ∈ rest := mem_of_getElem? found
      have differs : key first ≠ key entry := by
        intro same
        exact nodup.1 (same ▸ mem_map_of_mem among)
      have kept : decide (key first ≠ key entry) = true := decide_eq_true differs
      rw [filter_cons, if_pos kept, ← ih nodup.2 found]
      rfl

namespace Tr2Queue

variable {μ κ : Type} {trq : Tr2Queue μ κ} {mid : UInt16}

theorem getByMid_some {place : Place} (found : trq.getByMid mid = some place) :
    ∃ msg, trq.msgAt place = some msg ∧ msg.mid = mid := by
  unfold getByMid at found
  split at found
  · rename_i position first
    obtain rfl := some.inj found
    have ⟨inside, same, _⟩ := findIdx?_eq_some_iff_getElem.1 first
    exact ⟨_, getElem?_eq_getElem inside, of_decide_eq_true same⟩
  · obtain ⟨position, first, rfl⟩ := map_eq_some_iff.1 found
    have ⟨inside, same, _⟩ := findIdx?_eq_some_iff_getElem.1 first
    exact ⟨_, getElem?_eq_getElem inside, of_decide_eq_true same⟩

theorem getByMid_eq_none : trq.getByMid mid = none ↔ ∀ msg ∈ trq.all, msg.mid ≠ mid := by
  unfold getByMid all
  split
  · rename_i position first
    have ⟨inside, same, _⟩ := findIdx?_eq_some_iff_getElem.1 first
    constructor
    · intro absurdity
      cases absurdity
    · intro none
      exact absurd (of_decide_eq_true same) (none _ (mem_append_left _ (getElem_mem inside)))
  · rename_i first
    rw [findIdx?_eq_none_iff] at first
    rw [map_eq_none_iff, findIdx?_eq_none_iff]
    constructor
    · intro second msg among
      rcases mem_append.1 among with flying | waiting
      · exact of_decide_eq_false (first msg flying)
      · exact of_decide_eq_false (second msg waiting)
    · intro none msg among
      exact decide_eq_false (none msg (mem_append_right _ among))

end Tr2Queue

namespace MqttQueue

variable {κ : Type} {mid : κ → UInt16}

/-- The message in memory of a pending row. -/
def loadedMsg (mid : κ → UInt16) (entry : DiskRow κ × Nat) : Q2Msg UInt16 κ :=
  ⟨entry.1.userFlag, entry.2, mid entry.1.kw, some entry.1.kw⟩

/-- The messages of the pending rows. -/
def loaded (mid : κ → UInt16) (rows : List (DiskRow κ)) : List (Q2Msg UInt16 κ) :=
  (marked DiskRow.isPending 1 rows).map (loadedMsg mid)

theorem foldl_load_fits {entries : List (DiskRow κ × Nat)} {trq : Tr2Queue UInt16 κ}
    (fits : trq.maxInflightMessages = 0 ∨
      trq.dlInflight.length + entries.length ≤ trq.maxInflightMessages) :
    entries.foldl (loadRecordCallback mid) trq =
      { trq with dlInflight := trq.dlInflight ++ entries.map (loadedMsg mid) } := by
  induction entries generalizing trq with
  | nil => simp
  | cons entry rest ih =>
    rw [length_cons] at fits
    have room : trq.HasRoom := by
      unfold Tr2Queue.HasRoom
      omega
    have first : loadRecordCallback mid trq entry =
        { trq with dlInflight := trq.dlInflight ++ [loadedMsg mid entry] } := if_pos room
    rw [foldl_cons, first, ih]
    · simp
    · simp only [length_append, length_singleton]
      omega

theorem loaded_ascending (mid : κ → UInt16) (rows : List (DiskRow κ)) :
    ((loaded mid rows).map Q2Msg.rowid).Pairwise (· < ·) := by
  have same : (loaded mid rows).map Q2Msg.rowid =
      (marked DiskRow.isPending 1 rows).map Prod.snd := by
    rw [loaded, List.map_map]
    rfl
  rw [same]
  exact marked_ascending _ _ _

theorem loaded_nodup (mid : κ → UInt16) (rows : List (DiskRow κ)) :
    ((loaded mid rows).map Q2Msg.rowid).Nodup :=
  (loaded_ascending mid rows).imp Nat.ne_of_lt

theorem mem_loaded {rows : List (DiskRow κ)} {msg : Q2Msg UInt16 κ}
    (among : msg ∈ loaded mid rows) :
    ∃ row, rows[msg.rowid - 1]? = some row ∧ 1 ≤ msg.rowid ∧ row.isPending = true ∧
      msg = loadedMsg mid (row, msg.rowid) := by
  obtain ⟨entry, pending, rfl⟩ := mem_map.1 among
  have ⟨positive, stored, isPending⟩ := mem_marked.1 pending
  exact ⟨entry.1, stored, positive, isPending, rfl⟩

theorem isPending_or (userFlag : UInt16) (kw : κ) :
    (⟨userFlag ||| tr2qMsgPending, kw⟩ : DiskRow κ).isPending = true := by
  apply decide_eq_true
  apply UInt16.eq_of_toBitVec_eq
  simp only [UInt16.toBitVec_and, UInt16.toBitVec_or]
  ext bit
  simp only [BitVec.getElem_and, BitVec.getElem_or]
  cases userFlag.toBitVec[bit] <;> simp

theorem isPending_cleared (userFlag : UInt16) (kw : κ) :
    (⟨userFlag &&& ~~~tr2qMsgPending, kw⟩ : DiskRow κ).isPending = false := by
  apply decide_eq_false
  rw [UInt16.and_assoc]
  have nothing : ~~~tr2qMsgPending &&& tr2qMsgPending = 0 := by decide
  rw [nothing, UInt16.and_zero]
  decide

theorem loaded_append (rows : List (DiskRow κ)) (kw : κ) (userFlag : UInt16) :
    loaded mid (rows ++ [⟨userFlag ||| tr2qMsgPending, kw⟩]) = loaded mid rows ++
      [⟨userFlag ||| tr2qMsgPending, rows.length + 1, mid kw, some kw⟩] := by
  rw [loaded, marked_append, map_append, marked_cons, if_pos (isPending_or userFlag kw),
    Nat.add_comm 1 rows.length]
  rfl

theorem loaded_cleared {rows : List (DiskRow κ)} {msg : Q2Msg UInt16 κ}
    (among : msg ∈ loaded mid rows) :
    loaded mid (flagRow rows msg.rowid fun flag => flag &&& ~~~tr2qMsgPending) =
      (loaded mid rows).filter fun other => other.rowid ≠ msg.rowid := by
  have ⟨row, stored, positive, _⟩ := mem_loaded among
  have cleared : flagRow rows msg.rowid (fun flag => flag &&& ~~~tr2qMsgPending) =
      rows.set (msg.rowid - 1) ⟨row.userFlag &&& ~~~tr2qMsgPending, row.kw⟩ := by
    have inhabited : Inhabited (DiskRow κ) := ⟨row⟩
    unfold flagRow
    rw [List.modify_eq_set, stored]
    rfl
  have index : 1 + (msg.rowid - 1) = msg.rowid := by omega
  rw [cleared, loaded, marked_set (isPending_cleared row.userFlag row.kw), index, loaded,
    List.filter_map]
  rfl

/-! ## The rows and the lists -/

namespace Mirrors

variable {rows : List (DiskRow κ)} {msgs : List (Q2Msg UInt16 κ)} {qmsg : Q2Msg UInt16 κ}

end Mirrors

end MqttQueue

end Yunetas.Mqtt
