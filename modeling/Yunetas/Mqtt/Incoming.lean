import Yunetas.Mqtt.Tr2Queue

/-!
# Receiving with QoS 2

A QoS 2 message waits in the input queue from its PUBLISH to its PUBREL, which dispatches it. A
PUBLISH with DUP first takes out the copy an earlier one left: the broker looks for its packet
identifier, the client for a row with that number.
-/

namespace Yunetas.Mqtt

open List

/-- An acknowledgement of the intake. -/
inductive Reply where
  | pubrec (mid : UInt16)
  | pubcomp (mid : UInt16)
  deriving DecidableEq, Repr

/-- The receiver of a connection. -/
structure Intake where
  /-- `trq_in_msgs`. -/
  queue : MqttQueue MqttMsg
  lastMid : UInt16
  /-- The QoS 2 messages given in `EV_MQTT_MESSAGE`, the oldest first. -/
  dispatched : List MqttMsg
  sent : List Reply
  /-- `ws_close` was called. -/
  closed : Bool

/-- The flag of a received QoS 2 message. -/
def incomingFlag (conf : ProtConf) (dup retain : Bool) : UInt16 :=
  (if conf.iamServer then MqttMsgOrigin.mosqMoClient.bits else MqttMsgOrigin.mosqMoBroker.bits) |||
    MqttMsgDirection.mosqMdIn.bits ||| mosqMQos 2 ||| (if retain then tr2qRetainMask else 0) |||
    (if dup then tr2qDupMask else 0) ||| MqttMsgState.mosqMsWaitForPubrel.bits

/-- `db__message_remove_incoming_dup`: the first message in flight whose rowid is the packet
identifier is taken out. -/
def dbMessageRemoveIncomingDup (queue : MqttQueue MqttMsg) (mid : UInt16) : MqttQueue MqttMsg :=
  match queue.trq.dlInflight.findIdx? fun qmsg => qmsg.rowid = mid.toNat with
  | some position => queue.tr2qUnloadMsg (.inflight position)
  | none => queue

/-- `db__message_write_queued_in`: the first queued message goes in flight with a packet identifier
of its own. The walk then follows the other list, so it moves one message at most. -/
def dbMessageWriteQueuedIn (intake : Intake) : Intake :=
  let queue := intake.queue
  match queue.trq.dlQueued with
  | [] => intake
  | qmsg :: _ =>
    if 0 < queue.trq.maxInflightMessages ∧ queue.trq.dlInflight.length = 0 then intake
    else
      let place : Place := .inflight queue.trq.dlInflight.length
      let moved := queue.tr2qMoveFirst
      match MqttQueue.tr2qMsgJson queue.rows qmsg with
      | none => { intake with queue := moved }
      | some _ =>
        let mid := mqttMidGenerate intake.lastMid
        let named := { moved with trq := moved.trq.change (fun msg => { msg with mid := mid }) place }
        { intake with
          queue := named.tr2qSaveHardMark place (msgFlagSetState qmsg.md .mosqMsWaitForPubrel)
          lastMid := mid
          sent := intake.sent ++ [.pubrec mid] }

/-- The search for the copy of a PUBLISH with DUP, as the broker and as the client. -/
def removeDup (conf : ProtConf) (queue : MqttQueue MqttMsg) (mid : UInt16) : MqttQueue MqttMsg :=
  if conf.iamServer then (messageRemove queue mid).2 else dbMessageRemoveIncomingDup queue mid

/-- `handle__publish_s` and `handle__publish_c` from the point where the message is processed, for
QoS 2. -/
def handlePublish2 (conf : ProtConf) (intake : Intake) (dup : Bool) (kwMqttMsg : MqttMsg) :
    Intake :=
  let queue := if dup then removeDup conf intake.queue kwMqttMsg.mid else intake.queue
  if dbReadyForFlight conf queue.trq 2 then
    dbMessageWriteQueuedIn { intake with
      queue := queue.tr2qAppend MqttMsg.mid kwMqttMsg (incomingFlag conf dup kwMqttMsg.retain)
      sent := intake.sent ++ [.pubrec kwMqttMsg.mid] }
  else { intake with queue := queue, closed := true }

/-- `handle__pubrel` as the broker: `db__message_release_incoming`, and the answer. A message of
another QoS is an error of the protocol, which closes the connection. -/
def handlePubrelBroker (intake : Intake) (mid : UInt16) : Intake :=
  let answer (released : Intake) : Intake :=
    { released with sent := released.sent ++ [.pubcomp mid] }
  match intake.queue.trq.getByMid mid with
  | none => answer (dbMessageWriteQueuedIn intake)
  | some place =>
    match intake.queue.trq.msgAt place with
    | none => answer (dbMessageWriteQueuedIn intake)
    | some qmsg =>
      if msgFlagGetQosLevel qmsg.md ≠ 2 then { intake with closed := true }
      else
        let dispatched := match MqttQueue.tr2qMsgJson intake.queue.rows qmsg with
          | some kw => if kw.topic = [] then [] else [kw]
          | none => []
        answer (dbMessageWriteQueuedIn { intake with
          queue := intake.queue.tr2qUnloadMsg place
          dispatched := intake.dispatched ++ dispatched })

/-- `handle__pubrel` as the client. -/
def handlePubrelClient (intake : Intake) (mid : UInt16) : Intake :=
  let removed := messageRemove intake.queue mid
  { intake with
    queue := removed.2
    sent := intake.sent ++ [.pubcomp mid]
    dispatched := intake.dispatched ++ (removed.1.join).toList }

/-- `handle__pubrel`. -/
def handlePubrelQueued (conf : ProtConf) (intake : Intake) (mid : UInt16) : Intake :=
  if conf.iamServer then handlePubrelBroker intake mid else handlePubrelClient intake mid

/-- A connection that resumes the session: its queues are opened, and it counts from a `last_mid`
of its own. -/
def resume (conf : ProtConf) (intake : Intake) (lastMid : UInt16) : Intake :=
  { intake with
    queue := intake.queue.reopen MqttMsg.mid conf.maxInflightMessages
    lastMid := lastMid
    closed := false }

/-! ## The queue of a receiver -/

/-- A queue all of whose pending rows are in flight. -/
structure AllInFlight (queue : MqttQueue MqttMsg) : Prop where
  inflight : queue.trq.dlInflight = MqttQueue.loaded MqttMsg.mid queue.rows
  queued : queue.trq.dlQueued = []
  bounded : queue.trq.maxInflightMessages = 0 ∨
    queue.trq.dlInflight.length ≤ queue.trq.maxInflightMessages

namespace AllInFlight

variable {queue : MqttQueue MqttMsg}

theorem opened (maxInflightMessages : Nat) :
    AllInFlight ⟨[], .opened maxInflightMessages⟩ :=
  ⟨rfl, rfl, .inr (Nat.zero_le _)⟩

theorem all_eq (kept : AllInFlight queue) : queue.trq.all = queue.trq.dlInflight := by
  rw [Tr2Queue.all, kept.queued, append_nil]

theorem nodup (kept : AllInFlight queue) : (queue.trq.dlInflight.map Q2Msg.rowid).Nodup := by
  rw [kept.inflight]
  exact MqttQueue.loaded_nodup _ _

variable {qmsg : Q2Msg UInt16 MqttMsg}

theorem unload (kept : AllInFlight queue) {position : Nat}
    (found : queue.trq.dlInflight[position]? = some qmsg) :
    AllInFlight (queue.tr2qUnloadMsg (.inflight position)) ∧
      (queue.tr2qUnloadMsg (.inflight position)).trq =
        { queue.trq with dlInflight :=
            queue.trq.dlInflight.filter fun other => other.rowid ≠ qmsg.rowid } := by
  have among : qmsg ∈ MqttQueue.loaded MqttMsg.mid queue.rows :=
    kept.inflight ▸ mem_of_getElem? found
  have erased := eraseIdx_eq_filter kept.nodup found
  have unloaded : queue.tr2qUnloadMsg (.inflight position) =
      ⟨MqttQueue.flagRow queue.rows qmsg.rowid fun flag => flag &&& ~~~tr2qMsgPending,
        { queue.trq with dlInflight :=
            queue.trq.dlInflight.filter fun other => other.rowid ≠ qmsg.rowid }⟩ := by
    rw [← erased]
    unfold MqttQueue.tr2qUnloadMsg
    rw [show queue.trq.msgAt (.inflight position) = some qmsg from found]
    rfl
  rw [unloaded]
  refine ⟨⟨?_, kept.queued, ?_⟩, rfl⟩
  · rw [MqttQueue.loaded_cleared among, kept.inflight]
  · have fewer := length_filter_le (fun other => decide (other.rowid ≠ qmsg.rowid))
      queue.trq.dlInflight
    rcases kept.bounded with unbounded | bound
    · exact .inl unbounded
    · exact .inr (Nat.le_trans fewer bound)

theorem append (kept : AllInFlight queue) (room : queue.trq.HasRoom) (kw : MqttMsg)
    (userFlag : UInt16) :
    AllInFlight (queue.tr2qAppend MqttMsg.mid kw userFlag) ∧
      (queue.tr2qAppend MqttMsg.mid kw userFlag).trq =
        { queue.trq with dlInflight := queue.trq.dlInflight ++
            [⟨userFlag ||| tr2qMsgPending, queue.rows.length + 1, kw.mid, some kw⟩] } := by
  have appended : (queue.tr2qAppend MqttMsg.mid kw userFlag).trq =
      { queue.trq with dlInflight := queue.trq.dlInflight ++
          [⟨userFlag ||| tr2qMsgPending, queue.rows.length + 1, kw.mid, some kw⟩] } :=
    if_pos room
  refine ⟨⟨?_, ?_, ?_⟩, appended⟩
  · rw [appended]
    show _ = MqttQueue.loaded MqttMsg.mid (queue.rows ++ [⟨userFlag ||| tr2qMsgPending, kw⟩])
    rw [MqttQueue.loaded_append, ← kept.inflight]
  · rw [appended]
    exact kept.queued
  · rw [appended]
    rcases room with unbounded | room
    · exact .inl unbounded
    · right
      rw [length_append, length_singleton]
      exact room

theorem reopen (kept : AllInFlight queue) :
    AllInFlight (queue.reopen MqttMsg.mid queue.trq.maxInflightMessages) ∧
      (queue.reopen MqttMsg.mid queue.trq.maxInflightMessages).trq = queue.trq := by
  have length : (marked DiskRow.isPending 1 queue.rows).length = queue.trq.dlInflight.length := by
    rw [kept.inflight, MqttQueue.loaded, length_map]
  have same : (queue.reopen MqttMsg.mid queue.trq.maxInflightMessages).trq = queue.trq := by
    show (marked DiskRow.isPending 1 queue.rows).foldl (MqttQueue.loadRecordCallback MqttMsg.mid)
      (Tr2Queue.opened queue.trq.maxInflightMessages) = queue.trq
    rw [MqttQueue.foldl_load_fits]
    · show Tr2Queue.mk _ (MqttQueue.loaded MqttMsg.mid queue.rows) [] = queue.trq
      rw [← kept.inflight, ← kept.queued]
      rfl
    · show queue.trq.maxInflightMessages = 0 ∨ 0 + _ ≤ queue.trq.maxInflightMessages
      rw [length, Nat.zero_add]
      exact kept.bounded
  refine ⟨⟨?_, ?_, ?_⟩, same⟩
  · rw [same]
    exact kept.inflight
  · rw [same]
    exact kept.queued
  · rw [same]
    exact kept.bounded

theorem filter_mid (single : (queue.trq.dlInflight.map Q2Msg.mid).Nodup)
    (kept : AllInFlight queue)
    (among : qmsg ∈ queue.trq.dlInflight) :
    queue.trq.dlInflight.filter (fun other => other.rowid ≠ qmsg.rowid) =
      queue.trq.dlInflight.filter fun other => other.mid ≠ qmsg.mid := by
  apply filter_congr
  intro other there
  have rows : other.rowid = qmsg.rowid → other = qmsg :=
    inj_on_of_nodup_map kept.nodup there among
  have mids : other.mid = qmsg.mid → other = qmsg :=
    inj_on_of_nodup_map single there among
  apply decide_eq_decide.2
  constructor
  · intro differs same
    exact differs (congrArg Q2Msg.rowid (mids same))
  · intro differs same
    exact differs (congrArg Q2Msg.mid (rows same))

theorem filter_mid_self {mid : UInt16} (absent : ∀ qmsg ∈ queue.trq.dlInflight, qmsg.mid ≠ mid) :
    queue.trq.dlInflight.filter (fun other => other.mid ≠ mid) = queue.trq.dlInflight := by
  apply filter_eq_self.2
  intro other among
  exact decide_eq_true (absent other among)

theorem place (kept : AllInFlight queue) {place : Place}
    (found : queue.trq.msgAt place = some qmsg) :
    ∃ position, place = .inflight position ∧ queue.trq.dlInflight[position]? = some qmsg := by
  cases place with
  | inflight position => exact ⟨position, rfl, found⟩
  | queued position =>
    have nothing : queue.trq.dlQueued[position]? = some qmsg := found
    rw [kept.queued] at nothing
    cases nothing

section

variable (kept : AllInFlight queue) (single : (queue.trq.dlInflight.map Q2Msg.mid).Nodup)
include kept single

theorem messageRemove (mid : UInt16) :
    AllInFlight (messageRemove queue mid).2 ∧
      (Mqtt.messageRemove queue mid).2.trq = { queue.trq with
        dlInflight := queue.trq.dlInflight.filter fun other => other.mid ≠ mid } := by
  unfold Mqtt.messageRemove
  split
  · rename_i none
    have absent := Tr2Queue.getByMid_eq_none.1 none
    rw [kept.all_eq] at absent
    rw [filter_mid_self absent]
    exact ⟨kept, rfl⟩
  · rename_i place found
    have ⟨qmsg, there, same⟩ := Tr2Queue.getByMid_some found
    obtain ⟨position, rfl, here⟩ := kept.place there
    have filtered := kept.filter_mid single (mem_of_getElem? here)
    rw [same] at filtered
    rw [← filtered]
    exact kept.unload here

/-- `db__message_remove_incoming_dup` does the same where the rowid tells the message with the
packet identifier. -/
theorem removeIncomingDup {mid : UInt16}
    (told : ∀ qmsg ∈ queue.trq.dlInflight, qmsg.mid = mid ↔ qmsg.rowid = mid.toNat) :
    AllInFlight (dbMessageRemoveIncomingDup queue mid) ∧
      (dbMessageRemoveIncomingDup queue mid).trq = { queue.trq with
        dlInflight := queue.trq.dlInflight.filter fun other => other.mid ≠ mid } := by
  unfold dbMessageRemoveIncomingDup
  split
  · rename_i position first
    have ⟨inside, numbered, _⟩ := findIdx?_eq_some_iff_getElem.1 first
    have here := getElem?_eq_getElem inside
    have among := mem_of_getElem? here
    have same : (queue.trq.dlInflight[position]).mid = mid :=
      (told _ among).2 (of_decide_eq_true numbered)
    have filtered := kept.filter_mid single among
    rw [same] at filtered
    rw [← filtered]
    exact kept.unload here
  · rename_i none
    have absent : ∀ qmsg ∈ queue.trq.dlInflight, qmsg.mid ≠ mid := by
      intro qmsg among same
      have unnumbered := of_decide_eq_false (findIdx?_eq_none_iff.1 none qmsg among)
      exact unnumbered ((told qmsg among).1 same)
    rw [filter_mid_self absent]
    exact ⟨kept, rfl⟩

end

end AllInFlight

theorem dbMessageWriteQueuedIn_nil {intake : Intake} (none : intake.queue.trq.dlQueued = []) :
    dbMessageWriteQueuedIn intake = intake := by
  unfold dbMessageWriteQueuedIn
  dsimp only
  rw [none]

end Yunetas.Mqtt
