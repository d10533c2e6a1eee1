import Yunetas.Lib.Run
import Yunetas.Mqtt.Incoming

/-!
# QoS 2 messages are received once

A conforming sender and a receiver on connections that may lose what was sent last: a packet and an
acknowledgement each arrive or not, in the order they were sent, and the session is resumed on
another connection. A PUBLISH that is refused before it is processed has no part in this.

The client looks for the copy of a PUBLISH with DUP by its row number, so it is exact where the row
numbers of what waits tell the packet identifiers.
-/

namespace Yunetas.Mqtt

open List Option

/-! ## The sender -/

/-- A QoS 2 message on its way, from its first PUBLISH until the sender has the PUBCOMP. -/
structure Exchange where
  mid : UInt16
  publication : Publication
  received : Bool
  released : Bool
  reached : Bool
  completed : Bool

/-- A sender and a receiver. -/
structure Qos2Link where
  intake : Intake
  exchanges : List Exchange
  firstReleases : List (UInt16 × Publication)

/-- What happens between the two. -/
inductive Qos2Event where
  | publish (mid : UInt16) (publication : Publication) (tm : Nat) (arrives : Bool)
  | retransmit (mid : UInt16) (tm : Nat) (arrives : Bool)
  | pubrecArrives (mid : UInt16)
  | pubrel (mid : UInt16) (arrives : Bool)
  | pubcompArrives (mid : UInt16)
  | lowerPublish
  | resume (lastMid : UInt16)

/-- The kw the receiver makes of a PUBLISH. -/
def Publication.received (publication : Publication) (mid : UInt16) (tm : Nat) : MqttMsg :=
  ⟨publication, 2, mid, tm⟩

/-- The receiver sent an acknowledgement in a step. -/
def answered (before after : Intake) (reply : Reply) : Bool :=
  (after.sent.drop before.sent.length).contains reply

namespace Qos2Link

/-- Change the exchange with a packet identifier. -/
def update (link : Qos2Link) (mid : UInt16) (change : Exchange → Exchange) : List Exchange :=
  link.exchanges.map fun exchange => if exchange.mid = mid then change exchange else exchange

/-- The exchange with a packet identifier. -/
def exchange? (link : Qos2Link) (mid : UInt16) : Option Exchange :=
  link.exchanges.find? fun exchange => exchange.mid = mid

/-- One event. What a conforming sender does not do, or what did not happen, changes nothing. -/
def step (conf : ProtConf) (link : Qos2Link) : Qos2Event → Qos2Link
  | .publish mid publication tm arrives =>
    if mid = 0 ∨ publication.topic = [] ∨ (link.exchange? mid).isSome then link
    else
      let after := if arrives ∧ ¬link.intake.closed then
        handlePublish2 conf link.intake false (publication.received mid tm) else link.intake
      { link with
        intake := after
        exchanges := link.exchanges ++
          [⟨mid, publication, answered link.intake after (.pubrec mid), false, false, false⟩] }
  | .retransmit mid tm arrives =>
    match link.exchange? mid with
    | none => link
    | some exchange =>
      if exchange.released ∨ ¬arrives ∨ link.intake.closed then link
      else
        let after := handlePublish2 conf link.intake true (exchange.publication.received mid tm)
        { link with
          intake := after
          exchanges := link.update mid fun exchange => { exchange with
            received := exchange.received || answered link.intake after (.pubrec mid) } }
  | .pubrecArrives mid =>
    { link with exchanges := link.update mid fun exchange =>
        { exchange with released := exchange.received } }
  | .pubrel mid arrives =>
    match link.exchange? mid with
    | none => link
    | some exchange =>
      if ¬exchange.released ∨ ¬arrives ∨ link.intake.closed then link
      else
        let after := handlePubrelQueued conf link.intake mid
        { link with
          intake := after
          exchanges := link.update mid fun exchange => { exchange with
            reached := true
            completed := exchange.completed || answered link.intake after (.pubcomp mid) }
          firstReleases := if exchange.reached then link.firstReleases
            else link.firstReleases ++ [(mid, exchange.publication)] }
  | .pubcompArrives mid =>
    { link with exchanges := link.exchanges.filter fun exchange =>
        exchange.mid ≠ mid ∨ exchange.completed = false }
  | .lowerPublish => { link with intake := dbMessageWriteQueuedIn link.intake }
  | .resume lastMid => { link with intake := Mqtt.resume conf link.intake lastMid }

/-- A receiver with an empty queue, and a sender that has not published. -/
def start (conf : ProtConf) : Qos2Link :=
  ⟨⟨⟨[], .opened conf.maxInflightMessages⟩, 0, [], [], false⟩, [], []⟩

end Qos2Link

/-- The packet identifier of the PUBLISH with DUP that reaches the receiver in a step. -/
def duplicateReaching (link : Qos2Link) : Qos2Event → Option UInt16
  | .retransmit mid _ arrives =>
    match link.exchange? mid with
    | none => none
    | some exchange =>
      if exchange.released ∨ ¬arrives ∨ link.intake.closed then none else some mid
  | _ => none

/-- A PUBLISH with DUP that reaches a client finds that the messages with its packet identifier
are those whose row has that number. -/
def RowTellsMid (conf : ProtConf) (link : Qos2Link) (event : Qos2Event) : Prop :=
  conf.iamServer = false → ∀ mid ∈ duplicateReaching link event,
    ∀ qmsg ∈ link.intake.queue.trq.dlInflight, qmsg.mid = mid ↔ qmsg.rowid = mid.toNat

instance (conf : ProtConf) (link : Qos2Link) (event : Qos2Event) :
    Decidable (RowTellsMid conf link event) :=
  letI := Option.decidableForallMem (p := fun mid : UInt16 =>
    ∀ qmsg ∈ link.intake.queue.trq.dlInflight, qmsg.mid = mid ↔ qmsg.rowid = mid.toNat)
    (duplicateReaching link event)
  inferInstanceAs (Decidable (conf.iamServer = false → _))

/-- What was dispatched is what was released, each at its first PUBREL, with its own contents; and
what waits in the input queue is there once, of an exchange that no PUBREL has reached. -/
structure ExactlyOnce (link : Qos2Link) : Prop where
  dispatched : link.intake.dispatched.map (fun kw => (kw.mid, kw.toPublication)) =
    link.firstReleases
  waiting : ∀ qmsg ∈ link.intake.queue.trq.all, ∃ exchange ∈ link.exchanges,
    exchange.mid = qmsg.mid ∧ exchange.reached = false ∧
      (MqttQueue.tr2qMsgJson link.intake.queue.rows qmsg).map MqttMsg.toPublication =
        some exchange.publication
  single : (link.intake.queue.trq.all.map Q2Msg.mid).Nodup

/-! ## What the receiver does -/

/-- The contents with their packet identifiers, as they wait. -/
def waitingMids (queue : MqttQueue MqttMsg) : List UInt16 := queue.trq.dlInflight.map Q2Msg.mid

/-- The messages in flight besides the one with a packet identifier. -/
def othersThan (queue : MqttQueue MqttMsg) (mid : UInt16) : List (Q2Msg UInt16 MqttMsg) :=
  queue.trq.dlInflight.filter fun other => other.mid ≠ mid

/-- A message that waits for its PUBREL. -/
structure Waits (qmsg : Q2Msg UInt16 MqttMsg) (kw : MqttMsg) : Prop where
  mid : qmsg.mid = kw.mid
  content : qmsg.kwRecord = some kw
  qos : msgFlagGetQosLevel qmsg.md = 2

/-- Only the queue and the acknowledgements change. -/
structure SameLog (before after : Intake) : Prop where
  dispatched : after.dispatched = before.dispatched
  maximum : after.queue.trq.maxInflightMessages = before.queue.trq.maxInflightMessages

theorem qos_incomingFlag (conf : ProtConf) (dup retain : Bool) :
    msgFlagGetQosLevel (incomingFlag conf dup retain ||| tr2qMsgPending) = 2 := by
  unfold incomingFlag
  cases conf.iamServer <;> cases dup <;> cases retain <;> decide

theorem dbReadyForFlight_eq {conf : ProtConf} {trq : Tr2Queue UInt16 MqttMsg}
    (maximum : trq.maxInflightMessages = conf.maxInflightMessages) :
    dbReadyForFlight conf trq 2 = decide trq.HasRoom := by
  unfold dbReadyForFlight
  split
  · rename_i none
    have room : trq.HasRoom := .inl (maximum.trans none.1)
    exact (decide_eq_true room).symm
  · rfl

section Receiving

variable {conf : ProtConf} {intake : Intake} {mid : UInt16}

/-- The search for the copy of a PUBLISH with DUP takes out the message with its packet
identifier. -/
theorem removeDup_others (kept : AllInFlight intake.queue)
    (single : (waitingMids intake.queue).Nodup)
    (told : conf.iamServer = false → ∀ qmsg ∈ intake.queue.trq.dlInflight,
      qmsg.mid = mid ↔ qmsg.rowid = mid.toNat) :
    AllInFlight (removeDup conf intake.queue mid) ∧ (removeDup conf intake.queue mid).trq =
        { intake.queue.trq with dlInflight := othersThan intake.queue mid } := by
  unfold removeDup
  split
  · exact kept.messageRemove single mid
  · rename_i client
    exact kept.removeIncomingDup single (told (Bool.eq_false_iff.2 client))

/-- A PUBLISH is stored behind the others and answered, or there is no room and the connection is
closed. -/
theorem handlePublish2_cases (dup : Bool) (kw : MqttMsg) (kept : AllInFlight intake.queue)
    (maximum : intake.queue.trq.maxInflightMessages = conf.maxInflightMessages)
    (single : (waitingMids intake.queue).Nodup)
    (told : dup = true → conf.iamServer = false → ∀ qmsg ∈ intake.queue.trq.dlInflight,
      qmsg.mid = kw.mid ↔ qmsg.rowid = kw.mid.toNat)
    (fresh : dup = false → ∀ qmsg ∈ intake.queue.trq.dlInflight, qmsg.mid ≠ kw.mid) :
    let after := handlePublish2 conf intake dup kw
    AllInFlight after.queue ∧ SameLog intake after ∧ ((∃ qmsg, Waits qmsg kw ∧
          after.queue.trq.dlInflight = othersThan intake.queue kw.mid ++ [qmsg] ∧
          answered intake after (.pubrec kw.mid) = true) ∨
        after.queue.trq.dlInflight = othersThan intake.queue kw.mid ∧
          answered intake after (.pubrec kw.mid) = false ∧
          ∀ qmsg ∈ intake.queue.trq.dlInflight, qmsg.mid ≠ kw.mid) := by
  generalize cleared :
    (if dup then removeDup conf intake.queue kw.mid else intake.queue) = queue
  have removed : AllInFlight queue ∧ queue.trq =
      { intake.queue.trq with dlInflight := othersThan intake.queue kw.mid } := by
    rw [← cleared]
    cases dup with
    | true => exact removeDup_others kept single (told rfl)
    | false =>
      refine ⟨kept, ?_⟩
      show intake.queue.trq = { intake.queue.trq with dlInflight := othersThan intake.queue kw.mid }
      rw [othersThan, AllInFlight.filter_mid_self (fresh rfl)]
  have ⟨left, trq⟩ := removed
  have same : queue.trq.maxInflightMessages = conf.maxInflightMessages := by
    rw [trq]
    exact maximum
  have handled : handlePublish2 conf intake dup kw =
      if queue.trq.HasRoom then
        dbMessageWriteQueuedIn { intake with
          queue := queue.tr2qAppend MqttMsg.mid kw (incomingFlag conf dup kw.retain)
          sent := intake.sent ++ [.pubrec kw.mid] }
      else { intake with queue := queue, closed := true } := by
    unfold handlePublish2
    simp [cleared, dbReadyForFlight_eq same]
  by_cases room : queue.trq.HasRoom
  · rw [handled, if_pos room]
    have ⟨stored, appended⟩ := left.append room kw (incomingFlag conf dup kw.retain)
    rw [dbMessageWriteQueuedIn_nil stored.queued]
    refine ⟨stored, ⟨rfl, ?_⟩, .inl ⟨⟨incomingFlag conf dup kw.retain ||| tr2qMsgPending,
      queue.rows.length + 1, kw.mid, some kw⟩, ⟨rfl, rfl, qos_incomingFlag _ _ _⟩, ?_, ?_⟩⟩
    · rw [appended, trq]
    · rw [appended, trq]
    · show ((intake.sent ++ [Reply.pubrec kw.mid]).drop intake.sent.length).contains _ = true
      rw [drop_left]
      simp
  · rw [handled, if_neg room]
    have absent : ∀ qmsg ∈ intake.queue.trq.dlInflight, qmsg.mid ≠ kw.mid := by
      intro qmsg among here
      -- a copy that was there has left a place
      apply room
      have fewer : (othersThan intake.queue kw.mid).length < intake.queue.trq.dlInflight.length := by
        apply length_filter_lt_length_iff_exists.2
        exact ⟨qmsg, among, by simp [here]⟩
      rcases kept.bounded with unbounded | bound
      · left
        rw [trq]
        exact unbounded
      · right
        rw [trq]
        exact Nat.lt_of_lt_of_le fewer bound
    refine ⟨left, ⟨rfl, ?_⟩, .inr ⟨?_, ?_, absent⟩⟩
    · rw [trq]
    · rw [trq]
    · show (intake.sent.drop intake.sent.length).contains _ = false
      rw [drop_length]
      rfl

variable (conf) in
/-- A PUBREL dispatches the message with its packet identifier and takes it out, and it is
answered. -/
theorem handlePubrel_found (kept : AllInFlight intake.queue)
    (single : (waitingMids intake.queue).Nodup) {qmsg : Q2Msg UInt16 MqttMsg} {kw : MqttMsg}
    (among : qmsg ∈ intake.queue.trq.dlInflight) (waits : Waits qmsg kw)
    (some_topic : kw.topic ≠ []) :
    let after := handlePubrelQueued conf intake kw.mid
    AllInFlight after.queue ∧ after.queue.trq =
        { intake.queue.trq with dlInflight := othersThan intake.queue kw.mid } ∧
      after.dispatched = intake.dispatched ++ [kw] ∧
      answered intake after (.pubcomp kw.mid) = true := by
  have ⟨left, trq⟩ := kept.messageRemove single kw.mid
  have found : ∃ position, intake.queue.trq.getByMid kw.mid = some (.inflight position) ∧
      intake.queue.trq.dlInflight[position]? = some qmsg := by
    cases search : intake.queue.trq.getByMid kw.mid with
    | none =>
      have absent := Tr2Queue.getByMid_eq_none.1 search
      rw [kept.all_eq] at absent
      exact absurd waits.mid (absent qmsg among)
    | some place =>
      have ⟨other, there, same⟩ := Tr2Queue.getByMid_some search
      obtain ⟨position, rfl, here⟩ := kept.place there
      have unique : other = qmsg := inj_on_of_nodup_map single (mem_of_getElem? here)
        among (same.trans waits.mid.symm)
      exact ⟨position, rfl, unique ▸ here⟩
  have ⟨position, search, here⟩ := found
  have content : MqttQueue.tr2qMsgJson intake.queue.rows qmsg = some kw := by
    unfold MqttQueue.tr2qMsgJson
    rw [waits.content]
  have there : intake.queue.trq.msgAt (.inflight position) = some qmsg := here
  have removed : messageRemove intake.queue kw.mid =
      (some (some kw), intake.queue.tr2qUnloadMsg (.inflight position)) := by
    unfold messageRemove
    rw [search]
    dsimp only
    rw [there, bind_some, content]
  have acknowledged : ((intake.sent ++ [Reply.pubcomp kw.mid]).drop intake.sent.length).contains
      (.pubcomp kw.mid) = true := by
    rw [drop_left]
    simp
  rw [removed] at left trq
  unfold handlePubrelQueued
  split
  · have handled : handlePubrelBroker intake kw.mid = { intake with
          queue := intake.queue.tr2qUnloadMsg (.inflight position)
          dispatched := intake.dispatched ++ [kw]
          sent := intake.sent ++ [.pubcomp kw.mid] } := by
      unfold handlePubrelBroker
      simp only [search, there, waits.qos, content, some_topic, ne_eq, not_true_eq_false, ↓reduceIte]
      rw [dbMessageWriteQueuedIn_nil left.queued]
    rw [handled]
    exact ⟨left, trq, rfl, acknowledged⟩
  · unfold handlePubrelClient
    simp only [removed]
    exact ⟨left, trq, rfl, acknowledged⟩

variable (conf) in
theorem handlePubrel_absent (kept : AllInFlight intake.queue)
    (absent : ∀ qmsg ∈ intake.queue.trq.dlInflight, qmsg.mid ≠ mid) :
    let after := handlePubrelQueued conf intake mid
    after.queue = intake.queue ∧ after.dispatched = intake.dispatched ∧
      answered intake after (.pubcomp mid) = true := by
  have search : intake.queue.trq.getByMid mid = none := by
    apply Tr2Queue.getByMid_eq_none.2
    rw [kept.all_eq]
    exact absent
  have removed : messageRemove intake.queue mid = (none, intake.queue) := by
    unfold messageRemove
    rw [search]
  have acknowledged : ((intake.sent ++ [Reply.pubcomp mid]).drop intake.sent.length).contains
      (.pubcomp mid) = true := by
    rw [drop_left]
    simp
  unfold handlePubrelQueued
  split
  · unfold handlePubrelBroker
    simp only [search]
    rw [dbMessageWriteQueuedIn_nil kept.queued]
    exact ⟨rfl, rfl, acknowledged⟩
  · unfold handlePubrelClient
    rw [removed]
    exact ⟨rfl, append_nil _, acknowledged⟩

end Receiving

/-! ## The invariant -/

/-- An exchange goes from one answer to the next. -/
structure Exchange.InOrder (exchange : Exchange) : Prop where
  received : exchange.released = true → exchange.received = true
  released : exchange.reached = true → exchange.released = true
  completed : exchange.completed = exchange.reached

/-- What waits is what was received and not yet released, and the dispatches are the releases. -/
structure Steady (conf : ProtConf) (link : Qos2Link) : Prop where
  queue : AllInFlight link.intake.queue
  maximum : link.intake.queue.trq.maxInflightMessages = conf.maxInflightMessages
  single : (waitingMids link.intake.queue).Nodup
  mids : (link.exchanges.map Exchange.mid).Nodup
  topics : ∀ exchange ∈ link.exchanges, exchange.publication.topic ≠ []
  order : ∀ exchange ∈ link.exchanges, exchange.InOrder
  held : ∀ qmsg ∈ link.intake.queue.trq.dlInflight, ∃ exchange ∈ link.exchanges, ∃ tm,
    Waits qmsg (exchange.publication.received exchange.mid tm) ∧ exchange.received = true ∧
      exchange.reached = false
  waits : ∀ exchange ∈ link.exchanges, exchange.received = true → exchange.reached = false →
    ∃ qmsg ∈ link.intake.queue.trq.dlInflight, qmsg.mid = exchange.mid
  dispatched : link.intake.dispatched.map (fun kw => (kw.mid, kw.toPublication)) =
    link.firstReleases

namespace Qos2Link

variable {link : Qos2Link} {mid : UInt16}

theorem exchange?_some {exchange : Exchange} (found : link.exchange? mid = some exchange) :
    exchange ∈ link.exchanges ∧ exchange.mid = mid := by
  have same : decide (exchange.mid = mid) = true :=
    find?_some (p := fun other : Exchange => decide (other.mid = mid)) found
  exact ⟨mem_of_find?_eq_some found, of_decide_eq_true same⟩

theorem exchange?_none (none : ¬(link.exchange? mid).isSome) :
    ∀ exchange ∈ link.exchanges, exchange.mid ≠ mid := by
  intro exchange among same
  have nothing : link.exchange? mid = .none := not_isSome_iff_eq_none.1 none
  have differs := find?_eq_none.1 nothing exchange among
  exact differs (decide_eq_true same)

theorem mem_update {change : Exchange → Exchange} {exchange : Exchange}
    (among : exchange ∈ link.update mid change) :
    (∃ before ∈ link.exchanges, before.mid = mid ∧ exchange = change before) ∨
      exchange ∈ link.exchanges ∧ exchange.mid ≠ mid := by
  obtain ⟨before, there, rfl⟩ := mem_map.1 among
  by_cases same : before.mid = mid
  · exact .inl ⟨before, there, same, if_pos same⟩
  · rw [if_neg same]
    exact .inr ⟨there, same⟩

theorem update_mem {change : Exchange → Exchange} {before : Exchange}
    (among : before ∈ link.exchanges) :
    (if before.mid = mid then change before else before) ∈ link.update mid change :=
  mem_map_of_mem among

theorem update_mids (change : Exchange → Exchange)
    (keeps : ∀ exchange, (change exchange).mid = exchange.mid) :
    (link.update mid change).map Exchange.mid = link.exchanges.map Exchange.mid := by
  rw [update, List.map_map]
  apply map_congr_left
  intro exchange _
  simp only [Function.comp_apply]
  split
  · exact keeps exchange
  · rfl

end Qos2Link

section Steps

variable {conf : ProtConf} {link : Qos2Link} {mid : UInt16}

section

variable (steady : Steady conf link)
include steady

theorem Steady.unique {one other : Exchange}
    (here : one ∈ link.exchanges) (there : other ∈ link.exchanges) (same : one.mid = other.mid) :
    one = other :=
  inj_on_of_nodup_map steady.mids here there same

theorem Steady.mid_free (free : ∀ exchange ∈ link.exchanges, exchange.mid = mid →
      exchange.received = false ∨ exchange.reached = true) :
    ∀ qmsg ∈ link.intake.queue.trq.dlInflight, qmsg.mid ≠ mid := by
  intro qmsg among same
  have ⟨exchange, here, tm, waits, received, unreached⟩ := steady.held qmsg among
  have its : exchange.mid = mid := waits.mid.symm.trans same
  rcases free exchange here its with missing | reached
  · rw [missing] at received
    cases received
  · rw [reached] at unreached
    cases unreached

theorem Steady.others_held {qmsg : Q2Msg UInt16 MqttMsg}
    (among : qmsg ∈ othersThan link.intake.queue mid) :
    ∃ exchange ∈ link.exchanges, exchange.mid ≠ mid ∧ ∃ tm,
      Waits qmsg (exchange.publication.received exchange.mid tm) ∧ exchange.received = true ∧
        exchange.reached = false := by
  have ⟨there, differs⟩ := mem_filter.1 among
  have ⟨exchange, here, tm, waits, flags⟩ := steady.held qmsg there
  refine ⟨exchange, here, ?_, tm, waits, flags⟩
  intro same
  exact of_decide_eq_true differs (waits.mid.trans same)

theorem Steady.others_single : ((othersThan link.intake.queue mid).map Q2Msg.mid).Nodup :=
  steady.single.sublist (filter_sublist.map Q2Msg.mid)

end

theorem others_append_single {others : List (Q2Msg UInt16 MqttMsg)}
    {qmsg : Q2Msg UInt16 MqttMsg} (single : (others.map Q2Msg.mid).Nodup)
    (absent : ∀ other ∈ others, other.mid ≠ qmsg.mid) :
    ((others ++ [qmsg]).map Q2Msg.mid).Nodup := by
  rw [map_append, map_singleton]
  apply nodup_append.2
  refine ⟨single, nodup_singleton _, ?_⟩
  intro one here other there
  obtain ⟨message, among, rfl⟩ := mem_map.1 here
  rw [mem_singleton.1 there]
  exact absent message among

/-- A PUBLISH for an exchange in `exchanges`: it waits afterwards when it was answered. -/
theorem Steady.published (steady : Steady conf link) {exchanges : List Exchange}
    {exchange : Exchange} {dup : Bool} {tm : Nat}
    (told : dup = true → conf.iamServer = false → ∀ qmsg ∈ link.intake.queue.trq.dlInflight,
        qmsg.mid = exchange.mid ↔ qmsg.rowid = exchange.mid.toNat)
    (fresh : dup = false → ∀ qmsg ∈ link.intake.queue.trq.dlInflight, qmsg.mid ≠ exchange.mid)
    (mids : (exchanges.map Exchange.mid).Nodup)
    (topics : ∀ other ∈ exchanges, other.publication.topic ≠ [])
    (order : ∀ other ∈ exchanges, other.InOrder)
    (among : exchange ∈ exchanges) (unreached : exchange.reached = false)
    (received : exchange.received = true ↔ answered link.intake (handlePublish2 conf link.intake dup
        (exchange.publication.received exchange.mid tm)) (.pubrec exchange.mid) = true ∨
      ∃ qmsg ∈ link.intake.queue.trq.dlInflight, qmsg.mid = exchange.mid)
    (rest : ∀ other, other.mid ≠ exchange.mid → (other ∈ exchanges ↔ other ∈ link.exchanges)) :
    Steady conf { link with
      intake := handlePublish2 conf link.intake dup (exchange.publication.received exchange.mid tm)
      exchanges := exchanges } := by
  have ⟨queue, log, outcome⟩ := handlePublish2_cases dup
    (exchange.publication.received exchange.mid tm) steady.queue steady.maximum steady.single
    told fresh
  generalize taken : handlePublish2 conf link.intake dup
    (exchange.publication.received exchange.mid tm) = after at queue log outcome received ⊢
  have its : (exchange.publication.received exchange.mid tm).mid = exchange.mid := rfl
  rw [its] at outcome
  have maximum : after.queue.trq.maxInflightMessages = conf.maxInflightMessages :=
    log.maximum.trans steady.maximum
  have dispatched : after.dispatched.map (fun kw => (kw.mid, kw.toPublication)) =
      link.firstReleases := by
    rw [log.dispatched]
    exact steady.dispatched
  have others : ∀ qmsg ∈ othersThan link.intake.queue exchange.mid, ∃ other ∈ exchanges, ∃ tm,
      Waits qmsg (other.publication.received other.mid tm) ∧ other.received = true ∧
        other.reached = false := by
    intro qmsg here
    have ⟨other, there, differs, holds⟩ := steady.others_held here
    exact ⟨other, (rest other differs).2 there, holds⟩
  have unique : ∀ other ∈ exchanges, other.mid = exchange.mid → other = exchange :=
    fun other here same => inj_on_of_nodup_map mids here among same
  have remain : ∀ other ∈ exchanges, other.mid ≠ exchange.mid → other.received = true →
      other.reached = false →
      ∃ qmsg ∈ othersThan link.intake.queue exchange.mid, qmsg.mid = other.mid := by
    intro other here differs wasReceived wasUnreached
    have ⟨qmsg, there, same⟩ :=
      steady.waits other ((rest other differs).1 here) wasReceived wasUnreached
    refine ⟨qmsg, mem_filter.2 ⟨there, decide_eq_true ?_⟩, same⟩
    rw [same]
    exact differs
  rcases outcome with ⟨qmsg, waits, stored, reply⟩ | ⟨left, noReply, absent⟩
  · have isReceived : exchange.received = true := received.2 (.inl reply)
    have mid : qmsg.mid = exchange.mid := waits.mid
    refine ⟨queue, maximum, ?_, mids, topics, order, ?_, ?_, dispatched⟩
    · show (after.queue.trq.dlInflight.map Q2Msg.mid).Nodup
      rw [stored]
      apply others_append_single steady.others_single
      intro other here
      rw [mid]
      exact of_decide_eq_true (mem_filter.1 here).2
    · intro other here
      rw [stored] at here
      rcases mem_append.1 here with old | new
      · exact others other old
      · rw [mem_singleton.1 new]
        exact ⟨exchange, among, tm, waits, isReceived, unreached⟩
    · intro other here wasReceived wasUnreached
      rw [stored]
      by_cases same : other.mid = exchange.mid
      · exact ⟨qmsg, mem_append_right _ mem_cons_self, mid.trans same.symm⟩
      · have ⟨message, there, its⟩ := remain other here same wasReceived wasUnreached
        exact ⟨message, mem_append_left _ there, its⟩
  · have notReceived : exchange.received = false := by
      apply Bool.eq_false_iff.2
      intro isReceived
      rcases received.1 isReceived with reply | ⟨qmsg, here, same⟩
      · rw [noReply] at reply
        cases reply
      · exact absent qmsg here same
    refine ⟨queue, maximum, ?_, mids, topics, order, ?_, ?_, dispatched⟩
    · show (after.queue.trq.dlInflight.map Q2Msg.mid).Nodup
      rw [left]
      exact steady.others_single
    · intro other here
      rw [left] at here
      exact others other here
    · intro other here wasReceived wasUnreached
      rw [left]
      by_cases same : other.mid = exchange.mid
      · rw [unique other here same, notReceived] at wasReceived
        cases wasReceived
      · exact remain other here same wasReceived wasUnreached

section

variable (steady : Steady conf link)
include steady

theorem Steady.lost {exchange : Exchange} (new : ∀ other ∈ link.exchanges, other.mid ≠ exchange.mid)
    (some_topic : exchange.publication.topic ≠ [])
    (missing : exchange.received = false) (order : exchange.InOrder) :
    Steady conf { link with exchanges := link.exchanges ++ [exchange] } := by
  refine ⟨steady.queue, steady.maximum, steady.single, ?_, ?_, ?_, ?_, ?_, steady.dispatched⟩
  · rw [map_append, map_singleton]
    apply nodup_append.2
    refine ⟨steady.mids, nodup_singleton _, ?_⟩
    intro one here other there
    obtain ⟨old, among, rfl⟩ := mem_map.1 here
    rw [mem_singleton.1 there]
    exact new old among
  · intro other among
    rcases mem_append.1 among with old | same
    · exact steady.topics other old
    · rw [mem_singleton.1 same]
      exact some_topic
  · intro other among
    rcases mem_append.1 among with old | same
    · exact steady.order other old
    · rw [mem_singleton.1 same]
      exact order
  · intro qmsg among
    have ⟨other, here, holds⟩ := steady.held qmsg among
    exact ⟨other, mem_append_left _ here, holds⟩
  · intro other among received unreached
    rcases mem_append.1 among with old | same
    · exact steady.waits other old received unreached
    · rw [mem_singleton.1 same, missing] at received
      cases received

theorem Steady.publish (publication : Publication) (tm : Nat)
    (arrives : Bool) : Steady conf (link.step conf (.publish mid publication tm arrives)) := by
  unfold Qos2Link.step
  dsimp only
  split
  · exact steady
  · rename_i allowed
    have some_topic : publication.topic ≠ [] := fun empty => allowed (.inr (.inl empty))
    have new := Qos2Link.exchange?_none fun used => allowed (.inr (.inr used))
    by_cases reaches : arrives = true ∧ ¬link.intake.closed = true
    · rw [if_pos reaches]
      have free := steady.mid_free fun exchange among same => absurd same (new exchange among)
      refine @Steady.published _ _ steady _ ⟨mid, publication, answered link.intake
        (handlePublish2 conf link.intake false (publication.received mid tm)) (.pubrec mid),
        false, false, false⟩ false tm nofun (fun _ => free) ?_ ?_ ?_
        (mem_append_right _ mem_cons_self) rfl ?_ ?_
      · rw [map_append, map_singleton]
        apply nodup_append.2
        refine ⟨steady.mids, nodup_singleton _, ?_⟩
        intro one here other there
        obtain ⟨old, among, rfl⟩ := mem_map.1 here
        rw [mem_singleton.1 there]
        exact new old among
      · intro other among
        rcases mem_append.1 among with old | same
        · exact steady.topics other old
        · rw [mem_singleton.1 same]
          exact some_topic
      · intro other among
        rcases mem_append.1 among with old | same
        · exact steady.order other old
        · rw [mem_singleton.1 same]
          exact ⟨nofun, nofun, rfl⟩
      · constructor
        · exact .inl
        · rintro (reply | ⟨qmsg, among, same⟩)
          · exact reply
          · exact absurd same (free qmsg among)
      · intro other differs
        rw [mem_append, mem_singleton]
        constructor
        · rintro (old | same)
          · exact old
          · exact absurd (congrArg Exchange.mid same) differs
        · exact .inl
    · rw [if_neg reaches]
      have silent : answered link.intake link.intake (.pubrec mid) = false := by
        unfold answered
        rw [drop_length]
        rfl
      rw [silent]
      exact steady.lost new some_topic rfl ⟨nofun, nofun, rfl⟩

theorem Steady.retransmit {tm : Nat} {arrives : Bool}
    (told : RowTellsMid conf link (.retransmit mid tm arrives)) :
    Steady conf (link.step conf (.retransmit mid tm arrives)) := by
  unfold RowTellsMid duplicateReaching at told
  unfold Qos2Link.step
  dsimp only at told ⊢
  split
  · exact steady
  · rename_i exchange found
    rw [found] at told
    dsimp only at told
    split
    · exact steady
    · rename_i reaches
      rw [if_neg reaches] at told
      have unreleased : exchange.released = false :=
        Bool.eq_false_iff.2 fun released => reaches (.inl released)
      have ⟨among, its⟩ := Qos2Link.exchange?_some found
      subst its
      have order := steady.order exchange among
      have unreached : exchange.reached = false :=
        Bool.eq_false_iff.2 fun reached => Bool.eq_false_iff.1 unreleased (order.released reached)
      generalize answer : answered link.intake (handlePublish2 conf link.intake true
        (exchange.publication.received exchange.mid tm)) (.pubrec exchange.mid) = reply
      let mark (other : Exchange) : Exchange := { other with received := other.received || reply }
      have here : mark exchange ∈ link.update exchange.mid mark := by
        have changed : (if exchange.mid = exchange.mid then mark exchange else exchange) ∈
            link.update exchange.mid mark := Qos2Link.update_mem among
        rw [if_pos rfl] at changed
        exact changed
      refine @Steady.published _ _ steady _ (mark exchange) true tm (fun _ client => ?_)
        nofun ?_ ?_ ?_ here unreached ?_ ?_
      · exact told client exchange.mid rfl
      · rw [Qos2Link.update_mids mark fun _ => rfl]
        exact steady.mids
      · intro other there
        obtain ⟨before, old, -, rfl⟩ | ⟨old, -⟩ := Qos2Link.mem_update there
        · exact steady.topics before old
        · exact steady.topics other old
      · intro other there
        obtain ⟨before, old, -, rfl⟩ | ⟨old, -⟩ := Qos2Link.mem_update there
        · have order := steady.order before old
          refine ⟨fun released => ?_, order.released, order.completed⟩
          rw [order.received released]
          rfl
        · exact steady.order other old
      · rw [answer, Bool.or_eq_true, or_comm]
        apply or_congr_right
        constructor
        · intro received
          exact steady.waits exchange among received unreached
        · rintro ⟨qmsg, there, same⟩
          have ⟨other, old, tm, waits, received, _⟩ := steady.held qmsg there
          rw [← steady.unique old among (waits.mid.symm.trans same)]
          exact received
      · intro other differs
        constructor
        · intro there
          obtain ⟨before, old, same, rfl⟩ | ⟨old, -⟩ := Qos2Link.mem_update there
          · exact absurd same differs
          · exact old
        · intro old
          have changed : (if other.mid = exchange.mid then mark other else other) ∈
              link.update exchange.mid mark := Qos2Link.update_mem old
          rw [if_neg differs] at changed
          exact changed

theorem Steady.pubrecArrives : Steady conf (link.step conf (.pubrecArrives mid)) := by
  let mark (exchange : Exchange) : Exchange := { exchange with released := exchange.received }
  refine ⟨steady.queue, steady.maximum, steady.single, ?_, ?_, ?_, ?_, ?_, steady.dispatched⟩
  · show ((link.update mid mark).map Exchange.mid).Nodup
    rw [Qos2Link.update_mids mark fun _ => rfl]
    exact steady.mids
  · intro other there
    obtain ⟨before, old, -, rfl⟩ | ⟨old, -⟩ := Qos2Link.mem_update there
    · exact steady.topics before old
    · exact steady.topics other old
  · intro other there
    obtain ⟨before, old, -, rfl⟩ | ⟨old, -⟩ := Qos2Link.mem_update there
    · have order := steady.order before old
      exact ⟨id, fun reached => order.received (order.released reached), order.completed⟩
    · exact steady.order other old
  · intro qmsg among
    have ⟨exchange, old, tm, waits, received, unreached⟩ := steady.held qmsg among
    refine ⟨_, Qos2Link.update_mem old, tm, ?_⟩
    split
    · exact ⟨waits, received, unreached⟩
    · exact ⟨waits, received, unreached⟩
  · intro other there received unreached
    obtain ⟨before, old, -, rfl⟩ | ⟨old, -⟩ := Qos2Link.mem_update there
    · exact steady.waits before old received unreached
    · exact steady.waits other old received unreached

theorem Steady.pubrel (arrives : Bool) : Steady conf (link.step conf (.pubrel mid arrives)) := by
  unfold Qos2Link.step
  dsimp only
  split
  · exact steady
  · rename_i exchange found
    split
    · exact steady
    · rename_i reaches
      have released : exchange.released = true := by
        by_contra unreleased
        exact reaches (.inl unreleased)
      have ⟨among, its⟩ := Qos2Link.exchange?_some found
      subst its
      have order := steady.order exchange among
      let mark (other : Exchange) : Exchange := { other with
        reached := true
        completed := true }
      have mids : ((link.update exchange.mid mark).map Exchange.mid).Nodup := by
        rw [Qos2Link.update_mids mark fun _ => rfl]
        exact steady.mids
      have topics : ∀ other ∈ link.update exchange.mid mark, other.publication.topic ≠ [] := by
        intro other there
        obtain ⟨before, old, -, rfl⟩ | ⟨old, -⟩ := Qos2Link.mem_update there
        · exact steady.topics before old
        · exact steady.topics other old
      have orders : ∀ other ∈ link.update exchange.mid mark, other.InOrder := by
        intro other there
        obtain ⟨before, old, same, rfl⟩ | ⟨old, -⟩ := Qos2Link.mem_update there
        · rw [steady.unique old among same]
          exact ⟨order.received, fun _ => released, rfl⟩
        · exact steady.order other old
      have kept : ∀ other ∈ link.exchanges, other.mid ≠ exchange.mid →
          other ∈ link.update exchange.mid mark := by
        intro other old differs
        have changed : (if other.mid = exchange.mid then mark other else other) ∈
            link.update exchange.mid mark := Qos2Link.update_mem old
        rw [if_neg differs] at changed
        exact changed
      cases reached : exchange.reached with
      | false =>
        have ⟨qmsg, here, same⟩ := steady.waits exchange among (order.received released) reached
        have ⟨other, old, tm, waits, _⟩ := steady.held qmsg here
        rw [steady.unique old among (waits.mid.symm.trans same)] at waits
        have ⟨queue, trq, dispatched, reply⟩ := handlePubrel_found conf steady.queue
          steady.single here waits (steady.topics exchange among)
        generalize handled : handlePubrelQueued conf link.intake
          (exchange.publication.received exchange.mid tm).mid = after at queue trq dispatched reply
        change handlePubrelQueued conf link.intake exchange.mid = after at handled
        change answered link.intake after (.pubcomp exchange.mid) = true at reply
        rw [handled, reply]
        simp only [Bool.or_true, Bool.false_eq_true, ↓reduceIte]
        refine ⟨queue, ?_, ?_, mids, topics, orders, ?_, ?_, ?_⟩
        · rw [trq]
          exact steady.maximum
        · show (after.queue.trq.dlInflight.map Q2Msg.mid).Nodup
          rw [trq]
          exact steady.others_single
        · intro message there
          rw [trq] at there
          have ⟨other, old, differs, holds⟩ := steady.others_held there
          exact ⟨other, kept other old differs, holds⟩
        · intro other there received unreached
          obtain ⟨before, old, -, rfl⟩ | ⟨old, differs⟩ := Qos2Link.mem_update there
          · cases unreached
          · have ⟨message, waiting, its⟩ := steady.waits other old received unreached
            refine ⟨message, ?_, its⟩
            rw [trq]
            refine mem_filter.2 ⟨waiting, decide_eq_true ?_⟩
            rw [its]
            exact differs
        · rw [dispatched, map_append, steady.dispatched]
          rfl
      | true =>
        have absent : ∀ qmsg ∈ link.intake.queue.trq.dlInflight, qmsg.mid ≠ exchange.mid := by
          apply steady.mid_free
          intro other old same
          rw [steady.unique old among same]
          exact .inr reached
        have ⟨queue, dispatched, reply⟩ := handlePubrel_absent conf steady.queue absent
        rw [reply]
        simp only [Bool.or_true, ↓reduceIte]
        refine ⟨?_, ?_, ?_, mids, topics, orders, ?_, ?_, ?_⟩
        · exact queue ▸ steady.queue
        · rw [queue]
          exact steady.maximum
        · rw [queue]
          exact steady.single
        · intro message there
          rw [queue] at there
          have ⟨other, old, tm, waits, flags⟩ := steady.held message there
          refine ⟨other, kept other old fun same => absent message there ?_, tm, waits, flags⟩
          exact waits.mid.trans same
        · intro other there received unreached
          rw [queue]
          obtain ⟨before, old, -, rfl⟩ | ⟨old, differs⟩ := Qos2Link.mem_update there
          · cases unreached
          · exact steady.waits other old received unreached
        · rw [dispatched]
          exact steady.dispatched

theorem Steady.pubcompArrives : Steady conf (link.step conf (.pubcompArrives mid)) := by
  have old : ∀ other ∈ link.exchanges.filter (fun exchange =>
      exchange.mid ≠ mid ∨ exchange.completed = false), other ∈ link.exchanges :=
    fun other there => mem_of_mem_filter there
  refine ⟨steady.queue, steady.maximum, steady.single, ?_, ?_, ?_, ?_, ?_, steady.dispatched⟩
  · exact steady.mids.sublist (filter_sublist.map Exchange.mid)
  · exact fun other there => steady.topics other (old other there)
  · exact fun other there => steady.order other (old other there)
  · intro qmsg among
    have ⟨exchange, here, tm, waits, received, unreached⟩ := steady.held qmsg among
    refine ⟨exchange, mem_filter.2 ⟨here, decide_eq_true (.inr ?_)⟩, tm, waits, received, unreached⟩
    rw [(steady.order exchange here).completed]
    exact unreached
  · exact fun other there => steady.waits other (old other there)

theorem Steady.resume (lastMid : UInt16) : Steady conf (link.step conf (.resume lastMid)) := by
  have ⟨queue, same⟩ := steady.queue.reopen
  rw [steady.maximum] at queue same
  refine ⟨queue, ?_, ?_, steady.mids, steady.topics, steady.order, ?_, ?_, steady.dispatched⟩
  · show (link.intake.queue.reopen MqttMsg.mid conf.maxInflightMessages).trq.maxInflightMessages = _
    rw [same]
    exact steady.maximum
  · show (((link.intake.queue.reopen MqttMsg.mid conf.maxInflightMessages).trq.dlInflight).map
      Q2Msg.mid).Nodup
    rw [same]
    exact steady.single
  · intro qmsg among
    change qmsg ∈ (link.intake.queue.reopen MqttMsg.mid conf.maxInflightMessages).trq.dlInflight
      at among
    rw [same] at among
    exact steady.held qmsg among
  · intro exchange here received unreached
    show ∃ qmsg ∈ (link.intake.queue.reopen MqttMsg.mid conf.maxInflightMessages).trq.dlInflight, _
    rw [same]
    exact steady.waits exchange here received unreached

end

end Steps

section

variable {conf : ProtConf} {link : Qos2Link} (steady : Steady conf link)
include steady

theorem Steady.step (event : Qos2Event) (told : RowTellsMid conf link event) :
    Steady conf (link.step conf event) := by
  cases event with
  | publish mid publication tm arrives => exact steady.publish publication tm arrives
  | retransmit mid tm arrives => exact steady.retransmit told
  | pubrecArrives mid => exact steady.pubrecArrives
  | pubrel mid arrives => exact steady.pubrel arrives
  | pubcompArrives mid => exact steady.pubcompArrives
  | lowerPublish =>
    have same : link.step conf .lowerPublish = link := by
      show { link with intake := dbMessageWriteQueuedIn link.intake } = link
      rw [dbMessageWriteQueuedIn_nil steady.queue.queued]
    rw [same]
    exact steady
  | resume lastMid => exact steady.resume lastMid

theorem Steady.exactlyOnce :
    ExactlyOnce link where
  dispatched := steady.dispatched
  waiting qmsg among := by
    rw [steady.queue.all_eq] at among
    have ⟨exchange, here, tm, waits, _, unreached⟩ := steady.held qmsg among
    refine ⟨exchange, here, waits.mid.symm, unreached, ?_⟩
    unfold MqttQueue.tr2qMsgJson
    rw [waits.content]
    rfl
  single := by
    rw [steady.queue.all_eq]
    exact steady.single

end

theorem Steady.start (conf : ProtConf) : Steady conf (Qos2Link.start conf) where
  queue := .opened conf.maxInflightMessages
  maximum := rfl
  single := nodup_nil
  mids := nodup_nil
  topics _ among := absurd among not_mem_nil
  order _ among := absurd among not_mem_nil
  held _ among := absurd among not_mem_nil
  waits _ among := absurd among not_mem_nil
  dispatched := rfl

/-- In every state of every run with a conforming sender, in which a PUBLISH with DUP reaches a
client only when row numbers tell the packet identifier, each message is dispatched exactly once,
at its first PUBREL, and nothing of it waits from then on. -/
theorem qos2_exactly_once (conf : ProtConf) (events : List Qos2Event)
    (told : AllSteps (Qos2Link.step conf) (RowTellsMid conf) (Qos2Link.start conf) events) :
    AllStates (Qos2Link.step conf) ExactlyOnce (Qos2Link.start conf) events := by
  have steady := told.invariant _ (fun link event steady met => steady.step event met)
    (Steady.start conf)
  exact steady.mono _ fun link holds => holds.exactlyOnce

/-! ## Sample runs -/

/-- A message with a payload of one byte. -/
def sampleMessage (payload : UInt8) : Publication := ⟨[116], [payload], false, none, 0⟩

/-- A client with a window of 20 messages. -/
def sampleClient : ProtConf := ⟨false, 20, 0⟩

/-- A client whose first message has the packet identifier 1 and the row 1. -/
theorem qos2_exactly_once_sample :
    AllStates (Qos2Link.step sampleClient) ExactlyOnce (Qos2Link.start sampleClient)
      [.publish 1 (sampleMessage 65) 5 true, .retransmit 1 6 true, .pubrecArrives 1,
        .pubrel 1 true, .pubrel 1 true, .pubcompArrives 1] := by
  apply qos2_exactly_once
  exact ⟨by decide, by decide, by decide, by decide, by decide, by decide, trivial⟩

/-- A message with the packet identifier 7 that is published twice to a client leaves a copy behind,
and the next message with that identifier is not dispatched: its PUBREL dispatches the copy. -/
theorem stale_copy_dispatched :
    ¬AllStates (Qos2Link.step sampleClient) ExactlyOnce (Qos2Link.start sampleClient)
      [.publish 7 (sampleMessage 65) 5 true, .retransmit 7 6 true, .pubrecArrives 7,
        .pubrel 7 true, .pubcompArrives 7, .publish 7 (sampleMessage 66) 8 true, .pubrecArrives 7,
        .pubrel 7 true] := by
  intro all
  have payloads := congrArg (List.map fun entry : UInt16 × Publication => entry.2.payload)
    all.last.dispatched
  have dispatched : ¬[[65], [65]] = ([[65], [66]] : List (List UInt8)) := by decide
  exact dispatched payloads

end Yunetas.Mqtt
