import Yunetas.Verif.SessionExpiry

/-!
# The publication of wills

A ledger has every will a client gave: those published, those that a normal DISCONNECT or a resumed
session spared, and the one still held. The broker publishes what the ledger does as long as no
connection with a will ends with a normal DISCONNECT, whose mark in the protocol layer the broker never
reads, and no resumed session comes with a will that is due.
-/

namespace Yunetas.Mqtt

open List Option

open Json

/-- A will that the broker holds for a client. -/
structure HeldWill where
  number : Nat
  message : WillMessage
  delay : Nat

/-- More than the delay has passed since the disconnection, or the session has expired. -/
def HeldWill.Ended (will : HeldWill) (since expiry now : Nat) : Prop :=
  since + will.delay < now ∨ (expiry ≠ uint32Max ∧ since + expiry ≤ now)

instance (will : HeldWill) (since expiry now : Nat) : Decidable (will.Ended since expiry now) :=
  inferInstanceAs (Decidable (_ ∨ _))

/-- How a client stands with the broker. -/
inductive Standing
  | away
  | connected (channel expiry : Nat) (will : Option HeldWill)
  | left (since expiry : Nat) (will : HeldWill)

/-- The number of the will that is held. -/
def Standing.held : Standing → List Nat
  | .away => []
  | .connected _ _ will => will.toList.map HeldWill.number
  | .left _ _ will => [will.number]

/-- The wills of a client. -/
structure Ledger where
  opened : Nat
  standing : Standing
  normal : List Nat
  resumed : List Nat
  sent : List (Nat × WillMessage)
  checked : Nat

/-- The numbers of the wills that are not held any more. -/
def Ledger.done (ledger : Ledger) : List Nat :=
  ledger.sent.map Prod.fst ++ ledger.normal ++ ledger.resumed

/-- A will is published. -/
def Ledger.send (ledger : Ledger) (will : HeldWill) : Ledger :=
  { ledger with sent := ledger.sent ++ [(will.number, will.message)] }

/-- A will is not published, because the client resumed its session. -/
def Ledger.spare (ledger : Ledger) (will : HeldWill) : Ledger :=
  { ledger with resumed := ledger.resumed ++ [will.number] }

/-- What becomes of the will that is held when the client opens a new connection: a connection that is
taken over ends there, so its delay has ended when it is 0. -/
def Ledger.settle (ledger : Ledger) (resumed : Bool) (now : Nat) : Ledger :=
  match ledger.standing with
  | .away => ledger
  | .connected _ _ none => ledger
  | .connected _ _ (some will) =>
    if resumed ∧ will.delay ≠ 0 then ledger.spare will else ledger.send will
  | .left since expiry will =>
    if resumed ∧ ¬will.Ended since expiry now then ledger.spare will else ledger.send will

/-- The message of the will of a CONNECT packet. -/
def WillPacket.message (will : WillPacket) (clientId : String) (protocol : Protocol) :
    WillMessage where
  clientId := clientId
  topic := will.topic
  payload := will.payload.getD (.object [])
  qos := will.qos
  retain := will.retain
  properties := .object (if protocol = .mqtt5 then will.properties else [])

/-- The will of a CONNECT packet, held under a number. -/
def ConnectPacket.heldWill (packet : ConnectPacket) (number : Nat) : Option HeldWill :=
  packet.will.map fun will =>
    { number := number
      message := will.message packet.clientId packet.protocolVersion
      delay := if packet.protocolVersion = .mqtt5 then will.delayInterval.toNat else 0 }

/-- A connection is opened. -/
def Ledger.connect (ledger : Ledger) (channel : Nat) (packet : ConnectPacket) : Ledger :=
  { ledger with
    opened := ledger.opened + (if packet.will.isSome then 1 else 0)
    standing := .connected channel packet.sessionExpiryInterval (packet.heldWill ledger.opened) }

/-- A DISCONNECT packet for a normal disconnection, one that is accepted and has reason code 0. -/
def DisconnectPacket.Normal (packet : DisconnectPacket) (attrs : ChannelAttrs) : Prop :=
  (handleDisconnectS attrs packet).1 = true ∧
    (attrs.protocolVersion = .mqtt5 → packet.reasonCode = 0)

instance (packet : DisconnectPacket) (attrs : ChannelAttrs) : Decidable (packet.Normal attrs) :=
  inferInstanceAs (Decidable (_ ∧ (_ → _)))

/-- A DISCONNECT packet of the connection: a normal one takes the will along. -/
def Ledger.disconnect (ledger : Ledger) (broker : Broker) (channel : Nat)
    (packet : DisconnectPacket) : Ledger :=
  match ledger.standing, broker.reading channel with
  | .connected own expiry will, some attrs =>
    if own ≠ channel then ledger
    else if packet.Normal attrs then
      { ledger with
        standing := .connected own (askedInterval attrs packet expiry) none
        normal := ledger.normal ++ will.toList.map HeldWill.number }
    else
      { ledger with standing := .connected own (askedInterval attrs packet expiry) will }
  | _, _ => ledger

/-- The close of the connection: the will is published unless it has a delay, which ends with the
session at the latest. -/
def Ledger.close (ledger : Ledger) (channel now : Nat) : Ledger :=
  match ledger.standing with
  | .connected own expiry will =>
    if own ≠ channel then ledger
    else
      match will with
      | none => { ledger with standing := .away }
      | some will =>
        if expiry = 0 ∨ will.delay = 0 then { ledger.send will with standing := .away }
        else { ledger with standing := .left now expiry will }
  | _ => ledger

/-- A check: the will that is held is published when its delay has ended. -/
def Ledger.timeout (ledger : Ledger) (now : Nat) : Ledger :=
  match ledger.standing with
  | .left since expiry will =>
    if will.Ended since expiry now then
      { ledger.send will with standing := .away, checked := now }
    else { ledger with checked := now }
  | _ => { ledger with checked := now }

/-- A broker, and the ledger of one client. -/
structure Wills where
  broker : Broker
  ledger : Ledger

/-- The ledger after a step. -/
def Ledger.step (clientId : String) (broker : Broker) (ledger : Ledger) : BrokerCall → Ledger
  | .connect channel packet wallClock =>
    if packet.clientId = clientId ∧ broker.Opens channel clientId then
      let resumed : Bool := (broker.connect channel packet wallClock).1 = 1
      (ledger.settle resumed broker.now).connect channel packet
    else ledger
  | .disconnect channel packet => ledger.disconnect broker channel packet
  | .close channel => ledger.close channel broker.now
  | .timeout => ledger.timeout broker.now
  | _ => ledger

/-- The broker takes a step, and so does the ledger. -/
def Wills.step (clientId : String) (state : Wills) (call : BrokerCall) : Wills where
  broker := state.broker.step call
  ledger := state.ledger.step clientId state.broker call

/-- The ledger of a client that never was there. -/
def Ledger.blank (now : Nat) : Ledger where
  opened := 0
  standing := .away
  normal := []
  resumed := []
  sent := []
  checked := now

/-- The wills of a client are published exactly when they must be. -/
structure Exactly (clientId : String) (state : Wills) : Prop where
  published : state.broker.sentBy clientId = state.ledger.sent.map Prod.snd
  partition : (state.ledger.done ++ state.ledger.standing.held).Perm
    (List.range state.ledger.opened)
  /-- The delay of a will that is held after the connection had not ended at the last check. -/
  prompt : ∀ since expiry will, state.ledger.standing = .left since expiry will →
    ¬will.Ended since expiry state.ledger.checked

/-- The wills stored and the packets that do not reach a defect: no normal DISCONNECT, and none with
the interval `UINT32_MAX`, on a connection with a will; the clock past 0 at a close; and a will that a
new connection finds and that is not published at once is that of a session resumed before the delay
ended, and leaves no payload or properties to a will without them. -/
def Careful (clientId : String) (state : Wills) : BrokerCall → Prop
  | .disconnect channel packet =>
    ∀ attrs ∈ state.broker.reading channel, ∀ session ∈ state.broker.sessions.get? clientId,
      session.gobjChannel = some channel → session.will.willTopic ≠ "" →
        ¬packet.Normal attrs ∧
          ∀ value ∈ packet.sessionExpiry, value.toNat = uint32Max →
            attrs.sessionExpiryInterval = 0 ∨ attrs.sessionExpiryInterval = uint32Max
  | .close _ => 0 < state.broker.now
  | .connect _ packet _ =>
    packet.clientId = clientId → ∀ session ∈ state.broker.sessions.get? clientId,
      session.will.willTopic ≠ "" → ¬session.Replaced packet.toKw →
        packet.protocolVersion ≠ .mqtt31 ∧ ¬session.TooOld state.broker.now ∧
          (session.gobjChannel ≠ none → session.will.willDelayInterval ≠ 0) ∧
          (session.gobjChannel = none →
            (state.broker.now : Int) - session.willDelayTime ≤ session.will.willDelayInterval) ∧
          ∀ will ∈ packet.toKw.will,
            (will.willPayload = none → session.will.willPayload = .object []) ∧
              (will.willProperties = none → session.will.willProperties = .object [])
  | _ => True

/-- The session stores the will of its connection. -/
def Stores (clientId : String) (session : SessionNode) : Option HeldWill → Prop
  | none => session.will = StoredWill.cleared
  | some will =>
    session.will.willTopic ≠ "" ∧ session.willMessage clientId = will.message ∧
      session.will.willDelayInterval = will.delay ∧ will.delay ≤ uint32Max

/-- The interval of a connection with a will is the one that `ac_on_close` will read. -/
def Agrees (session : SessionNode) (interval expiry : Nat) (will : Option HeldWill) : Prop :=
  if session.protocolVersion = .mqtt5 then will.isSome → interval = expiry
  else session.sessionExpiryInterval = expiry ∧ (session.cleanStart = true ↔ expiry = 0)

/-- The session of a client is as it stands. -/
def Stands (clientId : String) (broker : Broker) : Standing → Prop
  | .away =>
    ∀ session ∈ broker.sessions.get? clientId,
      session.gobjChannel = none ∧ session.will = StoredWill.cleared
  | .connected channel expiry will =>
    ∃ session interval, broker.sessions.get? clientId = some session ∧
      session.gobjChannel = some channel ∧
      broker.core channel = some (clientId, session.protocolVersion, interval) ∧
      Stores clientId session will ∧ Agrees session interval expiry will
  | .left since expiry will =>
    ∃ session, broker.sessions.get? clientId = some session ∧ session.gobjChannel = none ∧
      ¬session.Temporary ∧ session.sessionExpiryInterval = expiry ∧ expiry ≠ 0 ∧
      session.willDelayTime = since ∧ 0 < since ∧ session.will.willTopic ≠ "" ∧
      session.willMessage clientId = will.message ∧
      session.will.willDelayInterval = min will.delay expiry ∧ will.delay ≠ 0 ∧
      will.delay ≤ uint32Max

/-- What every careful step keeps. -/
structure Balanced (clientId : String) (broker : Broker) (ledger : Ledger) : Prop where
  known : (broker.sessions.get? clientId).isSome → (broker.clients.get? clientId).isSome
  published : broker.sentBy clientId = ledger.sent.map Prod.snd
  partition : (ledger.done ++ ledger.standing.held).Perm (List.range ledger.opened)
  prompt : ∀ since expiry will, ledger.standing = .left since expiry will →
    ¬will.Ended since expiry ledger.checked
  past : ledger.checked ≤ broker.now
  stands : Stands clientId broker ledger.standing

/-! ## The ledger -/

section

variable (ledger : Ledger)
include ledger

theorem done_send (will : HeldWill) :
    (ledger.send will).done.Perm (ledger.done ++ [will.number]) := by
  unfold Ledger.send Ledger.done
  rw [perm_iff_count]
  intro number
  simp only [map_append, map_cons, map_nil, count_append]
  omega

theorem sent_send (will : HeldWill) :
    (ledger.send will).sent.map Prod.snd = ledger.sent.map Prod.snd ++ [will.message] :=
  map_append

theorem done_spare (will : HeldWill) :
    (ledger.spare will).done.Perm (ledger.done ++ [will.number]) := by
  unfold Ledger.spare Ledger.done
  rw [perm_iff_count]
  intro number
  simp only [count_append]
  omega

theorem done_settle (resumed : Bool) (now : Nat) :
    (ledger.settle resumed now).done.Perm (ledger.done ++ ledger.standing.held) := by
  unfold Ledger.settle
  cases standing : ledger.standing with
  | away =>
    show ledger.done.Perm (ledger.done ++ [])
    rw [append_nil]
  | connected channel expiry will =>
    cases will with
    | none =>
      show ledger.done.Perm (ledger.done ++ [])
      rw [append_nil]
    | some will =>
      dsimp only
      split
      · exact done_spare ledger will
      · exact done_send ledger will
  | left since expiry will =>
    dsimp only
    split
    · exact done_spare ledger will
    · exact done_send ledger will

theorem settle_opened (resumed : Bool) (now : Nat) :
    (ledger.settle resumed now).opened = ledger.opened ∧
      (ledger.settle resumed now).checked = ledger.checked := by
  unfold Ledger.settle
  cases ledger.standing with
  | away => exact ⟨rfl, rfl⟩
  | connected channel expiry will =>
    cases will with
    | none => exact ⟨rfl, rfl⟩
    | some will =>
      dsimp only
      split <;> exact ⟨rfl, rfl⟩
  | left since expiry will =>
    dsimp only
    split <;> exact ⟨rfl, rfl⟩

end

variable {ledger : Ledger} {clientId : String} {session : SessionNode} {attrs : ChannelAttrs}
  {broker : Broker} {will : HeldWill} {channel : Nat} {packet : ConnectPacket}

theorem partition_connect {opened : Nat}
    (settled : ledger.done.Perm (List.range opened)) (same : ledger.opened = opened)
    (channel : Nat) (packet : ConnectPacket) :
    ((ledger.connect channel packet).done ++ (ledger.connect channel packet).standing.held).Perm
      (List.range (ledger.connect channel packet).opened) := by
  unfold Ledger.connect ConnectPacket.heldWill
  cases packet.will with
  | none =>
    show (ledger.done ++ []).Perm (List.range ledger.opened)
    rwa [append_nil, same]
  | some will =>
    show (ledger.done ++ [ledger.opened]).Perm (List.range (ledger.opened + 1))
    rw [range_succ, same]
    exact settled.append_right [opened]

/-! ## What does not concern the client -/

theorem Stands.same {broker later : Broker} {standing : Standing}
    (stands : Stands clientId broker standing)
    (session : later.sessions.get? clientId = broker.sessions.get? clientId)
    (core : ∀ channel expiry will, standing = .connected channel expiry will →
      later.core channel = broker.core channel) : Stands clientId later standing := by
  cases standing with
  | away =>
    intro node found
    rw [session] at found
    exact stands node found
  | connected channel expiry will =>
    have ⟨node, interval, found, own, attrs, rest⟩ := stands
    exact ⟨node, interval, session.trans found, own, (core channel expiry will rfl).trans attrs,
      rest⟩
  | left since expiry will =>
    have ⟨node, found, rest⟩ := stands
    exact ⟨node, session.trans found, rest⟩

theorem Balanced.same {broker later : Broker}
    (balanced : Balanced clientId broker ledger)
    (seen : later.seen clientId = broker.seen clientId)
    (clients : (broker.clients.get? clientId).isSome → (later.clients.get? clientId).isSome)
    (core : ∀ channel expiry will, ledger.standing = .connected channel expiry will →
      later.core channel = broker.core channel) : Balanced clientId later ledger where
  known := fun there => clients (balanced.known (by rwa [(seen_eq.1 seen).2.1] at there))
  published := (seen_eq.1 seen).2.2.trans balanced.published
  partition := balanced.partition
  prompt := balanced.prompt
  past := by
    rw [(seen_eq.1 seen).1]
    exact balanced.past
  stands := balanced.stands.same (seen_eq.1 seen).2.1 core

/-! ## DISCONNECT packets -/

theorem Agrees.disconnect {expiry : Nat}
    {will : Option HeldWill} (agrees : Agrees session attrs.sessionExpiryInterval expiry will)
    (protocol : attrs.protocolVersion = session.protocolVersion) {packet : DisconnectPacket}
    (fine : will.isSome → ∀ value ∈ packet.sessionExpiry, value.toNat = uint32Max →
      attrs.sessionExpiryInterval = 0 ∨ attrs.sessionExpiryInterval = uint32Max) :
    Agrees session (attrs.intervalAfter packet) (askedInterval attrs packet expiry) will := by
  unfold Agrees at agrees ⊢
  unfold ChannelAttrs.intervalAfter askedInterval
  rw [protocol]
  by_cases mqtt5 : session.protocolVersion = .mqtt5
  · rw [if_pos mqtt5] at agrees ⊢
    rw [if_neg (not_not_intro mqtt5)]
    intro there
    obtain rfl := agrees there
    cases property : packet.sessionExpiry with
    | none =>
      dsimp only [map_none, getD_none]
      rw [ite_self]
    | some value =>
      dsimp only [map_some, getD_some]
      by_cases zero : attrs.sessionExpiryInterval = 0
      · rw [if_pos (.inr zero), if_neg fun both => both.2 zero]
      · by_cases max : value.toNat = uint32Max
        · rw [if_pos (.inl max), if_pos ⟨mqtt5, zero⟩, max]
          exact (fine there value property max).resolve_left zero
        · rw [if_neg (not_or.2 ⟨max, zero⟩), if_pos ⟨mqtt5, zero⟩]
  · rw [if_neg mqtt5] at agrees ⊢
    rw [if_neg fun both => mqtt5 both.1]
    exact agrees

theorem Balanced.disconnect
    (balanced : Balanced clientId broker ledger) (channel : Nat) (packet : DisconnectPacket)
    (careful : Careful clientId ⟨broker, ledger⟩ (.disconnect channel packet)) :
    Balanced clientId (broker.disconnect channel packet)
      (ledger.disconnect broker channel packet) := by
  have seen := disconnect_seen broker channel packet clientId
  have clients := disconnect_clients broker channel packet
  unfold Ledger.disconnect
  cases reading : broker.reading channel with
  | none =>
    rw [disconnect_ignored reading]
    cases ledger.standing <;> exact balanced
  | some attrs =>
    have cores := disconnect_core reading packet
    have apart : (∀ expiry will, ledger.standing ≠ .connected channel expiry will) →
        Balanced clientId (broker.disconnect channel packet) ledger := by
      intro others
      refine balanced.same seen (by rw [clients]; exact id) fun own expiry will connected => ?_
      rw [cores, if_neg]
      rintro rfl
      exact others expiry will connected
    cases standing : ledger.standing with
    | away => exact apart fun _ _ same => by rw [standing] at same; cases same
    | left since expiry will => exact apart fun _ _ same => by rw [standing] at same; cases same
    | connected own expiry will =>
      dsimp only
      by_cases mine : own = channel
      · subst mine
        have stands := balanced.stands
        rw [standing] at stands
        have ⟨session, interval, found, chosen, core, stores, agrees⟩ := stands
        have ⟨client, protocol, agreed⟩ := core_of_channel (reading_some reading).1 core
        rw [← agreed] at agrees
        rw [if_neg (not_not_intro rfl)]
        have known : ((broker.disconnect own packet).sessions.get? clientId).isSome →
            ((broker.disconnect own packet).clients.get? clientId).isSome := by
          intro there
          rw [clients]
          exact balanced.known (by rwa [(seen_eq.1 seen).2.1] at there)
        have past : ledger.checked ≤ (broker.disconnect own packet).now := by
          rw [(seen_eq.1 seen).1]
          exact balanced.past
        have partition := balanced.partition
        rw [standing] at partition
        have next : Agrees session (attrs.intervalAfter packet)
            (askedInterval attrs packet expiry) will →
            Stands clientId (broker.disconnect own packet)
              (.connected own (askedInterval attrs packet expiry) will) := by
          intro agrees
          refine ⟨session, attrs.intervalAfter packet, (seen_eq.1 seen).2.1.trans found, chosen, ?_,
            stores, agrees⟩
          rw [cores, if_pos rfl, handleDisconnectS_core, client, protocol]
        cases will with
        | none =>
          have stands := next (agrees.disconnect protocol fun some => by cases some)
          have published := (seen_eq.1 seen).2.2.trans balanced.published
          split
          · refine ⟨known, published, ?_, (fun _ _ _ same => by cases same), past, stands⟩
            show (ledger.sent.map Prod.fst ++ (ledger.normal ++ []) ++ ledger.resumed ++ []).Perm _
            rw [append_nil ledger.normal]
            exact partition
          · exact ⟨known, published, partition, (fun _ _ _ same => by cases same), past, stands⟩
        | some will =>
          have ⟨unusual, finite⟩ :=
            careful attrs reading session found chosen stores.1
          rw [if_neg unusual]
          have stands := next (agrees.disconnect protocol fun _ => finite)
          exact ⟨known, (seen_eq.1 seen).2.2.trans balanced.published, partition,
            (fun _ _ _ same => by cases same), past, stands⟩
      · rw [if_pos mine]
        exact apart fun _ _ same => mine (by rw [standing] at same; cases same; rfl)

/-! ## Checks -/

theorem ended_iff {since expiry : Nat}
    (alone : session.gobjChannel = none) (interval : session.sessionExpiryInterval = expiry)
    (lasting : expiry ≠ 0) (time : session.willDelayTime = since) (positive : 0 < since)
    (topic : session.will.willTopic ≠ "")
    (clamped : session.will.willDelayInterval = min will.delay expiry) (delayed : will.delay ≠ 0)
    (short : will.delay ≤ uint32Max) (now : Nat) :
    session.Expired now ∨ session.WillDue now ↔ will.Ended since expiry now := by
  unfold SessionNode.Expired SessionNode.WillDue HeldWill.Ended
  rw [interval, time, clamped]
  constructor
  · rintro (⟨-, -, finite, -, elapsed⟩ | ⟨-, -, -, -, late⟩)
    · exact .inr ⟨finite, by omega⟩
    · by_cases within : will.delay ≤ expiry
      · exact .inl (by omega)
      · exact .inr ⟨by omega, by omega⟩
  · rintro (late | ⟨finite, elapsed⟩)
    · exact .inr ⟨alone, topic, by omega, by omega, by omega⟩
    · exact .inl ⟨alone, lasting, finite, by omega, by omega⟩

theorem owed_held (topic : session.will.willTopic ≠ "")
    (clientId : String) : session.owed clientId = [session.willMessage clientId] :=
  if_neg topic

theorem owed_cleared (cleared : session.will = StoredWill.cleared)
    (clientId : String) : session.owed clientId = [] :=
  if_pos (by rw [cleared]; rfl)

theorem clear_cleared (session : SessionNode) (topic : session.will.willTopic ≠ "") :
    session.clear.will = StoredWill.cleared := by
  unfold SessionNode.clear
  rw [if_neg topic]

theorem Balanced.timeout
    (balanced : Balanced clientId broker ledger) :
    Balanced clientId (acTimeout broker) (ledger.timeout broker.now) := by
  have clients : (acTimeout broker).clients = broker.clients :=
    (untouched_clients.stable _).acTimeout rfl
  have cores : ∀ channel, (acTimeout broker).core channel = broker.core channel := fun channel =>
    ((untouched_core channel).stable _).acTimeout rfl
  have known : (broker.sessions.get? clientId).isSome →
      ((acTimeout broker).clients.get? clientId).isSome := by
    intro there
    rw [clients]
    exact balanced.known there
  have stays : (acTimeout broker).seen clientId = broker.seen clientId →
      (∀ since expiry will, ledger.standing = .left since expiry will →
        ¬will.Ended since expiry broker.now) →
      Balanced clientId (acTimeout broker) { ledger with checked := broker.now } := by
    intro seen prompt
    have ⟨clock, session, sent⟩ := seen_eq.1 seen
    exact
      { known := fun there => known (by rwa [session] at there)
        published := sent.trans balanced.published
        partition := balanced.partition
        prompt := prompt
        past := Nat.le_of_eq clock.symm
        stands := balanced.stands.same session fun channel _ _ _ => cores channel }
  have stands := balanced.stands
  have ⟨opened, standing, normal, resumed, sent, checked⟩ := ledger
  unfold Ledger.timeout
  cases standing with
  | away =>
    cases found : broker.sessions.get? clientId with
    | none => exact stays (acTimeout_none found) fun _ _ _ same => by cases same
    | some session =>
      have ⟨alone, cleared⟩ := stands session found
      have quiet : ¬session.WillDue broker.now := fun due => due.2.1 (by rw [cleared]; rfl)
      have seen := acTimeout_some found
      rw [if_neg quiet] at seen
      split at seen
      · have ⟨clock, gone, published⟩ := seen_eq.1 seen
        rw [owed_cleared cleared, append_nil] at published
        have absent : ∀ {node}, node ∉ (acTimeout broker).sessions.get? clientId := by
          intro node there
          rw [gone] at there
          cases there
        exact
          { known := fun there => known (by rw [found]; rfl)
            published := published.trans balanced.published
            partition := balanced.partition
            prompt := fun _ _ _ same => by cases same
            past := Nat.le_of_eq clock.symm
            stands := fun node there => absurd there absent }
      · exact stays seen fun _ _ _ same => by cases same
  | connected channel expiry will =>
    have ⟨session, interval, found, own, _⟩ := stands
    exact stays (acTimeout_connected found own) fun _ _ _ same => by cases same
  | left since expiry will =>
    obtain ⟨session, found, alone, -, interval, lasting, time, positive, topic, message, clamped,
      delayed, short⟩ := stands
    have due := ended_iff alone interval lasting time positive topic clamped delayed short broker.now
    have seen := acTimeout_some found
    dsimp only
    split
    · rename_i ended
      have result : (acTimeout broker).now = broker.now ∧
          (∀ node ∈ (acTimeout broker).sessions.get? clientId,
            node.gobjChannel = none ∧ node.will = StoredWill.cleared) ∧
          (acTimeout broker).sentBy clientId =
            broker.sentBy clientId ++ session.owed clientId := by
        split at seen
        · have ⟨clock, gone, published⟩ := seen_eq.1 seen
          refine ⟨clock, fun node there => ?_, published⟩
          rw [gone] at there
          cases there
        · rename_i alive
          rw [if_pos ((due.2 ended).resolve_left alive)] at seen
          have ⟨clock, cleared, published⟩ := seen_eq.1 seen
          refine ⟨clock, fun node there => ?_, published⟩
          rw [cleared] at there
          obtain rfl := some.inj there
          exact ⟨(clear_gobjChannel session).trans alone, clear_cleared session topic⟩
      have ⟨clock, away, published⟩ := result
      exact
        { known := fun _ => known (by rw [found]; rfl)
          published := by
            rw [published, balanced.published, owed_held topic, message]
            exact (sent_send _ will).symm
          partition := by
            show (Ledger.done (Ledger.send ⟨opened, _, normal, resumed, sent, checked⟩ will) ++
              []).Perm _
            rw [append_nil]
            exact (done_send _ will).trans balanced.partition
          prompt := fun _ _ _ same => by cases same
          past := Nat.le_of_eq clock.symm
          stands := away }
    · rename_i waiting
      have quiet := mt due.1 waiting
      rw [not_or] at quiet
      rw [if_neg quiet.1, if_neg quiet.2] at seen
      refine stays seen fun _ _ _ same => ?_
      cases same
      exact waiting

/-! ## Closes -/

theorem clampDelay_delay (lasting : session.sessionExpiryInterval ≠ 0) :
    session.clampDelay.will.willDelayInterval =
      min session.will.willDelayInterval session.sessionExpiryInterval := by
  unfold SessionNode.clampDelay
  dsimp only
  split
  · show session.sessionExpiryInterval = _
    omega
  · omega

@[simp] theorem clampDelay_willMessage (session : SessionNode) (clientId : String) :
    session.clampDelay.willMessage clientId = session.willMessage clientId := by
  unfold SessionNode.clampDelay
  dsimp only
  split <;> rfl

theorem left_cleared (cleared : session.will = StoredWill.cleared)
    (now : Nat) : (session.left now).will = StoredWill.cleared := by
  have empty : session.will.willTopic = "" := by
    rw [cleared]
    rfl
  unfold SessionNode.left
  rw [if_pos empty]
  exact cleared

theorem left_sent (topic : session.will.willTopic ≠ "")
    (atOnce : session.clampDelay.will.willDelayInterval = 0) (now : Nat) :
    (session.left now).will = StoredWill.cleared := by
  unfold SessionNode.left
  rw [if_neg topic, if_neg (by omega)]
  exact clear_cleared _ (by rwa [clampDelay_willTopic])

theorem left_delayed (topic : session.will.willTopic ≠ "")
    (delayed : session.clampDelay.will.willDelayInterval ≠ 0) (now : Nat) :
    (session.left now).will = session.clampDelay.will := by
  unfold SessionNode.left
  rw [if_neg topic, if_pos (by omega)]

theorem left_cleanStart (session : SessionNode) (now : Nat) :
    (session.left now).cleanStart = session.cleanStart := by
  have clamped : session.clampDelay.cleanStart = session.cleanStart := by
    unfold SessionNode.clampDelay
    dsimp only
    split <;> rfl
  have cleared : session.clampDelay.clear.cleanStart = session.cleanStart := by
    unfold SessionNode.clear
    split <;> exact clamped
  unfold SessionNode.left
  split
  · rfl
  · split
    · exact clamped
    · exact cleared

theorem left_temporary (session : SessionNode) (now : Nat) :
    (session.left now).Temporary ↔ session.Temporary := by
  have ⟨_, protocol, interval, _⟩ := left_fields session now
  unfold SessionNode.Temporary
  rw [protocol, interval, left_cleanStart]

theorem Agrees.sync {expiry : Nat}
    (agrees : Agrees session attrs.sessionExpiryInterval expiry (some will)) :
    (session.sync attrs).sessionExpiryInterval = expiry ∧
      ((session.sync attrs).Temporary ↔ expiry = 0) := by
  unfold Agrees at agrees
  unfold SessionNode.sync SessionNode.Temporary
  by_cases mqtt5 : session.protocolVersion = .mqtt5
  · rw [if_pos mqtt5] at agrees ⊢
    obtain rfl := agrees rfl
    exact ⟨rfl, fun temporary => temporary.elim And.right fun both => absurd mqtt5 both.1,
      fun zero => .inl ⟨mqtt5, zero⟩⟩
  · rw [if_neg mqtt5] at agrees ⊢
    rw [← agrees.2]
    exact ⟨agrees.1, fun temporary => temporary.elim (fun both => absurd both.1 mqtt5) And.right,
      fun clean => .inr ⟨mqtt5, clean⟩⟩

theorem sync_will (session : SessionNode) (attrs : ChannelAttrs) :
    (session.sync attrs).will = session.will := by
  unfold SessionNode.sync
  split <;> rfl

theorem Balanced.close_stale
    (balanced : Balanced clientId broker ledger)
    (stale : (broker.sessions.get? clientId).bind SessionNode.gobjChannel ≠ some channel)
    (apart : ∀ expiry will, ledger.standing ≠ .connected channel expiry will) :
    Balanced clientId (broker.close channel) ledger := by
  cases found : broker.channels.get? channel with
  | none => rwa [close_absent found]
  | some attrs =>
    have seen : (broker.close channel).seen clientId = broker.seen clientId := by
      by_cases mine : attrs.clientId = clientId
      · subst mine
        exact Mqtt.close_stale found stale attrs.clientId
      · exact close_other found (Ne.symm mine)
    have ⟨clock, session, sent⟩ := seen_eq.1 seen
    refine ⟨fun there => ?_, sent.trans balanced.published, balanced.partition, balanced.prompt,
      by rw [clock]; exact balanced.past, balanced.stands.same session fun own expiry will same => ?_⟩
    · exact close_clients found (balanced.known (by rwa [session] at there)) there
    · rw [close_core found, if_neg]
      rintro rfl
      exact apart expiry will same

theorem close_without
    (found : broker.channels.get? channel = some attrs)
    (client : attrs.clientId = clientId) (known : (broker.clients.get? clientId).isSome)
    (stored : broker.sessions.get? clientId = some session)
    (own : session.gobjChannel = some channel) (cleared : session.will = StoredWill.cleared) :
    (broker.close channel).now = broker.now ∧
      (∀ node ∈ (broker.close channel).sessions.get? clientId,
        node.gobjChannel = none ∧ node.will = StoredWill.cleared) ∧
      (broker.close channel).sentBy clientId = broker.sentBy clientId := by
  subst client
  have still : (session.sync attrs).will = StoredWill.cleared := (sync_will session attrs).trans cleared
  have nothing : (session.sync attrs).owed attrs.clientId = [] := owed_cleared still attrs.clientId
  have later : (session.sync attrs).leftOwed attrs.clientId = [] := by
    unfold SessionNode.leftOwed
    rw [nothing, ite_self]
  have seen := close_own found known stored own
  rw [nothing, later, append_nil] at seen
  split at seen
  · have ⟨clock, gone, sent⟩ := seen_eq.1 seen
    refine ⟨clock, fun node there => ?_, sent⟩
    rw [gone] at there
    cases there
  · have ⟨clock, left, sent⟩ := seen_eq.1 seen
    refine ⟨clock, fun node there => ?_, sent⟩
    rw [left] at there
    obtain rfl := some.inj there
    exact ⟨(left_fields _ broker.now).1, left_cleared still broker.now⟩

section

variable {expiry : Nat} (found : broker.channels.get? channel = some attrs)
  (client : attrs.clientId = clientId) (known : (broker.clients.get? clientId).isSome)
  (stored : broker.sessions.get? clientId = some session) (own : session.gobjChannel = some channel)
  (stores : Stores clientId session (some will))
  (agrees : Agrees session attrs.sessionExpiryInterval expiry (some will))
include found client known stored own stores agrees

theorem close_at_once (soon : expiry = 0 ∨ will.delay = 0) :
    (broker.close channel).now = broker.now ∧
      (∀ node ∈ (broker.close channel).sessions.get? clientId,
        node.gobjChannel = none ∧ node.will = StoredWill.cleared) ∧
      (broker.close channel).sentBy clientId = broker.sentBy clientId ++ [will.message] := by
  subst client
  have ⟨topic, message, delay, _⟩ := stores
  have same := sync_will session attrs
  have still : (session.sync attrs).will.willTopic ≠ "" := by rwa [same]
  have owed : (session.sync attrs).owed attrs.clientId = [will.message] := by
    rw [owed_held still, ← message]
    unfold SessionNode.willMessage
    rw [same]
  have ⟨interval, temporary⟩ := agrees.sync
  have seen := close_own found known stored own
  rw [owed] at seen
  split at seen
  · have ⟨clock, gone, sent⟩ := seen_eq.1 seen
    refine ⟨clock, fun node there => ?_, sent⟩
    rw [gone] at there
    cases there
  · rename_i lasting
    have some : expiry ≠ 0 := mt temporary.2 lasting
    have clamped : (session.sync attrs).clampDelay.will.willDelayInterval = 0 := by
      rw [clampDelay_delay (by rwa [interval]), same, delay]
      omega
    have later : (session.sync attrs).leftOwed attrs.clientId = [will.message] := by
      unfold SessionNode.leftOwed
      rw [if_neg (by omega), owed]
    rw [later] at seen
    have ⟨clock, left, sent⟩ := seen_eq.1 seen
    refine ⟨clock, fun node there => ?_, sent⟩
    rw [left] at there
    obtain rfl := Option.some.inj there
    exact ⟨(left_fields _ broker.now).1, left_sent still clamped broker.now⟩

theorem close_delayed (lasting : expiry ≠ 0) (delayed : will.delay ≠ 0) (running : 0 < broker.now) :
    (broker.close channel).now = broker.now ∧
      Stands clientId (broker.close channel) (.left broker.now expiry will) ∧
      (broker.close channel).sentBy clientId = broker.sentBy clientId := by
  subst client
  have ⟨topic, message, delay, short⟩ := stores
  have same := sync_will session attrs
  have still : (session.sync attrs).will.willTopic ≠ "" := by rwa [same]
  have ⟨interval, temporary⟩ := agrees.sync
  have clamped : (session.sync attrs).clampDelay.will.willDelayInterval = min will.delay expiry := by
    rw [clampDelay_delay (by rwa [interval]), same, delay, interval]
  have later : (session.sync attrs).leftOwed attrs.clientId = [] := if_pos (by omega)
  have seen := close_own found known stored own
  rw [if_neg (mt temporary.1 lasting), later, append_nil] at seen
  have ⟨clock, left, sent⟩ := seen_eq.1 seen
  have ⟨alone, _, kept, time⟩ := left_fields (session.sync attrs) broker.now
  have stays := left_delayed still (by omega) broker.now
  refine ⟨clock, ⟨_, left, alone, ?_, kept.trans interval, lasting, time, running, ?_, ?_, ?_,
    delayed, short⟩, sent⟩
  · rw [left_temporary, temporary]
    exact lasting
  · rw [stays, clampDelay_willTopic]
    exact still
  · unfold SessionNode.willMessage
    rw [stays]
    show (session.sync attrs).clampDelay.willMessage attrs.clientId = will.message
    rw [clampDelay_willMessage, ← message]
    unfold SessionNode.willMessage
    rw [same]
  · rw [stays]
    exact clamped

end

theorem Balanced.close
    (balanced : Balanced clientId broker ledger) (channel : Nat) (running : 0 < broker.now) :
    Balanced clientId (broker.close channel) (ledger.close channel broker.now) := by
  have stands := balanced.stands
  have stale : (broker.sessions.get? clientId).bind SessionNode.gobjChannel ≠ some channel →
      (∀ expiry will, ledger.standing ≠ .connected channel expiry will) →
      Balanced clientId (broker.close channel) ledger := balanced.close_stale
  have ⟨opened, standing, normal, resumed, sent, checked⟩ := ledger
  unfold Ledger.close
  cases standing with
  | away =>
    refine stale ?_ fun _ _ same => by cases same
    cases found : broker.sessions.get? clientId with
    | none => exact some_ne_none channel ∘ Eq.symm
    | some session =>
      rw [bind_some, (stands session found).1]
      exact some_ne_none channel ∘ Eq.symm
  | left since expiry will =>
    have ⟨session, found, alone, _⟩ := stands
    refine stale ?_ fun _ _ same => by cases same
    rw [found, bind_some, alone]
    exact some_ne_none channel ∘ Eq.symm
  | connected own expiry will =>
    have ⟨session, interval, stored, chosen, core, stores, agrees⟩ := stands
    dsimp only
    by_cases mine : own = channel
    · subst mine
      rw [if_neg (not_not_intro rfl)]
      have known := balanced.known (by rw [stored]; rfl)
      cases found : broker.channels.get? own with
      | none =>
        unfold Broker.core at core
        rw [found] at core
        cases core
      | some attrs =>
        have ⟨client, _, agreed⟩ := core_of_channel found core
        have stays : ((broker.close own).sessions.get? clientId).isSome →
            ((broker.close own).clients.get? clientId).isSome := close_clients found known
        rw [← agreed] at agrees
        cases will with
        | none =>
          have ⟨clock, away, published⟩ := close_without found client known stored chosen stores
          exact
            { known := stays
              published := published.trans balanced.published
              partition := balanced.partition
              prompt := fun _ _ _ same => by cases same
              past := balanced.past.trans_eq clock.symm
              stands := away }
        | some will =>
          dsimp only
          by_cases soon : expiry = 0 ∨ will.delay = 0
          · rw [if_pos soon]
            have ⟨clock, away, published⟩ :=
              close_at_once found client known stored chosen stores agrees soon
            exact
              { known := stays
                published := by
                  rw [published, balanced.published]
                  exact (sent_send _ will).symm
                partition := by
                  show (Ledger.done (Ledger.send ⟨opened, _, normal, resumed, sent, checked⟩ will) ++
                    []).Perm _
                  rw [append_nil]
                  exact (done_send _ will).trans balanced.partition
                prompt := fun _ _ _ same => by cases same
                past := balanced.past.trans_eq clock.symm
                stands := away }
          · rw [if_neg soon]
            rw [not_or] at soon
            have ⟨clock, left, published⟩ :=
              close_delayed found client known stored chosen stores agrees soon.1 soon.2 running
            exact
              { known := stays
                published := published.trans balanced.published
                partition := balanced.partition
                prompt := by
                  intro since interval held same
                  cases same
                  have past : checked ≤ broker.now := balanced.past
                  show ¬(broker.now + will.delay < checked ∨ _ ∧ broker.now + expiry ≤ checked)
                  omega
                past := balanced.past.trans_eq clock.symm
                stands := left }
    · rw [if_pos mine]
      refine stale ?_ fun _ _ same => mine (by cases same; rfl)
      rw [stored, bind_some, chosen]
      exact fun same => mine (some.inj same)

/-! ## Opens -/

theorem WillPacket.topic_ne (will : WillPacket) : will.topic ≠ "" := by
  intro empty
  have accepted := will.accepted
  rw [empty] at accepted
  exact absurd accepted (by decide)

/-- What is left of a stored will leaves no payload or properties to the will of a CONNECT packet. -/
def StoredWill.Leaves (stored : StoredWill) (packet : ConnectPacket) : Prop :=
  ∀ will ∈ packet.toKw.will,
    (will.willPayload = none → stored.willPayload = .object []) ∧
      (will.willProperties = none → stored.willProperties = .object [])

theorem leaves_cleared {stored : StoredWill} (cleared : stored = StoredWill.cleared)
    (packet : ConnectPacket) : stored.Leaves packet := by
  intro will _
  rw [cleared]
  exact ⟨fun _ => rfl, fun _ => rfl⟩

theorem update_stores {session : SessionNode} {stored : StoredWill} {packet : ConnectPacket}
    (leaves : stored.Leaves packet) (updated : session.will = stored.update packet.toKw.will)
    (number : Nat) : Stores packet.clientId session (packet.heldWill number) := by
  unfold StoredWill.Leaves at leaves
  unfold ConnectPacket.heldWill
  have same : packet.toKw.will = packet.will.map (·.toKw packet.protocolVersion) := rfl
  rw [same] at leaves updated
  cases brought : packet.will with
  | none =>
    rw [brought] at updated
    exact updated
  | some will =>
    rw [brought] at leaves updated
    have ⟨payload, properties⟩ := leaves _ rfl
    have brief := will.delayInterval.toNat_lt
    refine ⟨?_, ?_, ?_, ?_⟩
    · rw [updated]
      exact will.topic_ne
    · unfold SessionNode.willMessage WillPacket.message
      rw [updated]
      congr 1
      · show (will.payload).getD stored.willPayload = will.payload.getD (.object [])
        cases there : will.payload with
        | none => exact payload there
        | some bytes => rfl
      · show Option.getD (if packet.protocolVersion = .mqtt5 ∧ will.properties ≠ [] then
          some (Json.object will.properties) else none) stored.willProperties = _
        by_cases mqtt5 : packet.protocolVersion = .mqtt5
        · rw [if_pos mqtt5]
          by_cases empty : will.properties = []
          · have absent : (will.toKw packet.protocolVersion).willProperties = none :=
              if_neg fun both => both.2 empty
            rw [if_neg fun both => both.2 empty, empty]
            exact properties absent
          · rw [if_pos ⟨mqtt5, empty⟩]
            rfl
        · have absent : (will.toKw packet.protocolVersion).willProperties = none :=
            if_neg fun both => mqtt5 both.1
          rw [if_neg fun both => mqtt5 both.1, if_neg mqtt5]
          exact properties absent
    · rw [updated]
      rfl
    · show (if packet.protocolVersion = .mqtt5 then will.delayInterval.toNat else 0) ≤ uint32Max
      unfold uint32Max
      split <;> omega

theorem replaced_not_resumed {kw : OpenKw} (replaced : session.Replaced kw)
    (brief : session.Temporary → session.sessionExpiryInterval = 0) (now : Nat) :
    ¬(session.prepared kw).Resumed kw now := by
  unfold SessionNode.prepared
  rw [if_pos replaced]
  rintro ⟨dirty, lasting, -, -⟩
  rcases replaced with temporary | clean
  · rw [clear_sessionExpiryInterval, brief temporary] at lasting
    exact Nat.lt_irrefl 0 lasting
  · rw [dirty] at clean
    cases clean

theorem kept_resumed {kw : OpenKw} {now : Nat}
    (kept : ¬session.Replaced kw) (lasting : session.sessionExpiryInterval ≠ 0)
    (young : ¬session.TooOld now) (protocol : kw.protocolVersion ≠ .mqtt31) :
    (session.prepared kw).Resumed kw now := by
  unfold SessionNode.prepared
  rw [if_neg kept]
  unfold SessionNode.Replaced at kept
  rw [not_or, Bool.not_eq_true] at kept
  exact ⟨kept.2, Nat.pos_of_ne_zero lasting, young, protocol⟩

theorem Agrees.temporary {interval expiry : Nat} {will : Option HeldWill}
    (agrees : Agrees session interval expiry will) :
    session.Temporary ↔ session.sessionExpiryInterval = 0 := by
  unfold Agrees at agrees
  by_cases mqtt5 : session.protocolVersion = .mqtt5
  · exact ⟨fun temporary => temporary.elim And.right fun both => absurd mqtt5 both.1,
      fun zero => .inl ⟨mqtt5, zero⟩⟩
  · rw [if_neg mqtt5] at agrees
    rw [agrees.1, ← agrees.2]
    exact ⟨fun temporary => temporary.elim (fun both => absurd both.1 mqtt5) And.right,
      fun clean => .inr ⟨mqtt5, clean⟩⟩

theorem openAnswer_eq_one (session : SessionNode) (kw : OpenKw) (now : Nat) :
    openAnswer (some session) kw now = 1 ↔ (session.prepared kw).Resumed kw now := by
  unfold openAnswer
  dsimp only
  split
  · exact iff_of_true rfl ‹_›
  · exact iff_of_false (by decide) ‹_›

theorem replacedOwed_cleared (cleared : session.will = StoredWill.cleared)
    (kw : OpenKw) :
    session.replacedOwed kw = [] ∧ (session.prepared kw).will = StoredWill.cleared := by
  unfold SessionNode.replacedOwed SessionNode.prepared
  refine ⟨?_, ?_⟩
  · split
    · exact owed_cleared cleared kw.id
    · rfl
  · split
    · unfold SessionNode.clear
      split
      · exact cleared
      · rfl
    · exact cleared

theorem replacedOwed_replaced {kw : OpenKw}
    (topic : session.will.willTopic ≠ "") (replaced : session.Replaced kw) :
    session.replacedOwed kw = [session.willMessage kw.id] ∧
      (session.prepared kw).will = StoredWill.cleared := by
  unfold SessionNode.replacedOwed SessionNode.prepared
  rw [if_pos replaced, if_pos replaced]
  exact ⟨owed_held topic kw.id, clear_cleared session topic⟩

/-- A previous session with a will when nothing speaks against resuming it, unless it is replaced: the
will is sent exactly when the session is not resumed. -/
theorem settles_held
    (topic : session.will.willTopic ≠ "")
    (message : session.willMessage packet.clientId = will.message)
    (brief : session.Temporary ↔ session.sessionExpiryInterval = 0) (now : Nat)
    (keeps : ¬session.Replaced packet.toKw → packet.protocolVersion ≠ .mqtt31 ∧
      ¬session.TooOld now ∧ session.will.Leaves packet) :
    session.replacedOwed packet.toKw =
        (if openAnswer (some session) packet.toKw now = 1 then [] else [will.message]) ∧
      (session.prepared packet.toKw).will.Leaves packet ∧
      (openAnswer (some session) packet.toKw now = 1 ↔ ¬session.Replaced packet.toKw) := by
  by_cases replaced : session.Replaced packet.toKw
  · have ⟨owed, cleared⟩ := replacedOwed_replaced topic replaced
    have gone := mt (openAnswer_eq_one session packet.toKw now).1
      (replaced_not_resumed replaced brief.1 now)
    rw [if_neg gone, owed]
    exact ⟨congrArg (fun message => [message]) message, leaves_cleared cleared packet,
      iff_of_false gone (not_not_intro replaced)⟩
  · have ⟨protocol, young, leaves⟩ := keeps replaced
    have lasting : session.sessionExpiryInterval ≠ 0 := fun zero => replaced (.inl (brief.2 zero))
    have resumed := (openAnswer_eq_one session packet.toKw now).2
      (kept_resumed replaced lasting young protocol)
    rw [if_pos resumed]
    refine ⟨if_neg replaced, ?_, iff_of_true resumed replaced⟩
    unfold SessionNode.prepared
    rwa [if_neg replaced]

/-- The wills published when a client opens a connection are those the ledger settles, and nothing is
left of them to the next will. -/
theorem Balanced.settles
    {wallClock : Nat}
    (balanced : Balanced packet.clientId broker ledger)
    (careful : Careful packet.clientId ⟨broker, ledger⟩ (.connect channel packet wallClock)) :
    broker.sentBy packet.clientId ++ openOwed (broker.sessions.get? packet.clientId) packet.toKw =
        (ledger.settle (openAnswer (broker.sessions.get? packet.clientId) packet.toKw
          broker.now = 1) broker.now).sent.map Prod.snd ∧
      ∀ session ∈ broker.sessions.get? packet.clientId,
        (session.prepared packet.toKw).will.Leaves packet := by
  have stands := balanced.stands
  have published := balanced.published
  have ⟨opened, standing, normal, spared, sent, checked⟩ := ledger
  unfold Ledger.settle
  rw [published]
  have plain : ∀ session, broker.sessions.get? packet.clientId = some session →
      session.will = StoredWill.cleared →
      sent.map Prod.snd ++ openOwed (broker.sessions.get? packet.clientId) packet.toKw =
          sent.map Prod.snd ∧
        ∀ session ∈ broker.sessions.get? packet.clientId,
          (session.prepared packet.toKw).will.Leaves packet := by
    intro session found cleared
    have ⟨nothing, prepared⟩ := replacedOwed_cleared cleared packet.toKw
    rw [found]
    refine ⟨?_, fun node there => ?_⟩
    · show sent.map Prod.snd ++ session.replacedOwed packet.toKw = _
      rw [nothing, append_nil]
    · obtain rfl := some.inj there
      exact leaves_cleared prepared packet
  cases standing with
  | away =>
    cases found : broker.sessions.get? packet.clientId with
    | none => exact ⟨append_nil _, fun node there => by cases there⟩
    | some session =>
      have both := plain session found (stands session found).2
      rwa [found] at both
  | connected own expiry will =>
    have ⟨session, interval, found, chosen, _, stores, agrees⟩ := stands
    cases will with
    | none => exact plain session found stores
    | some will =>
      have ⟨topic, message, delay, _⟩ := stores
      have keeps := careful rfl session found topic
      have ⟨owed, leaves, resumed⟩ := settles_held topic message agrees.temporary broker.now
        fun kept => ⟨(keeps kept).1, (keeps kept).2.1, (keeps kept).2.2.2.2⟩
      rw [found]
      refine ⟨?_, fun node there => ?_⟩
      · show sent.map Prod.snd ++ session.replacedOwed packet.toKw = _
        rw [owed]
        dsimp only
        by_cases answer : openAnswer (some session) packet.toKw broker.now = 1
        · have delayed : will.delay ≠ 0 := by
            rw [← delay]
            exact (keeps (resumed.1 answer)).2.2.1 (by rw [chosen]; exact some_ne_none own)
          rw [if_pos answer, if_pos ⟨decide_eq_true answer, delayed⟩, append_nil]
          rfl
        · rw [if_neg answer, if_neg fun both => answer (of_decide_eq_true both.1)]
          exact (sent_send ⟨opened, _, normal, spared, sent, checked⟩ will).symm
      · obtain rfl := some.inj there
        exact leaves
  | left since expiry will =>
    obtain ⟨session, found, alone, lasts, interval, lasting, time, positive, topic, message, clamped,
      -, -⟩ := stands
    have keeps := careful rfl session found topic
    have brief : session.Temporary ↔ session.sessionExpiryInterval = 0 := by
      rw [interval]
      exact iff_of_false lasts lasting
    have ⟨owed, leaves, resumed⟩ := settles_held topic message brief broker.now
      fun kept => ⟨(keeps kept).1, (keeps kept).2.1, (keeps kept).2.2.2.2⟩
    rw [found]
    refine ⟨?_, fun node there => ?_⟩
    · show sent.map Prod.snd ++ session.replacedOwed packet.toKw = _
      rw [owed]
      dsimp only
      by_cases answer : openAnswer (some session) packet.toKw broker.now = 1
      · have waiting : ¬will.Ended since expiry broker.now := by
          have ⟨_, young, _, within, _⟩ := keeps (resumed.1 answer)
          have early := within alone
          unfold SessionNode.TooOld at young
          unfold HeldWill.Ended
          dsimp only at young early
          rw [time] at young early
          rw [interval] at young
          rw [clamped] at early
          omega
        rw [if_pos answer, if_pos ⟨decide_eq_true answer, waiting⟩, append_nil]
        rfl
      · rw [if_neg answer, if_neg fun both => answer (of_decide_eq_true both.1)]
        exact (sent_send ⟨opened, _, normal, spared, sent, checked⟩ will).symm
    · obtain rfl := some.inj there
      exact leaves

theorem openedSession_interval (previous : Option SessionNode) (kw : OpenKw)
    (now channel wallClock : Nat) :
    (openedSession previous kw now channel wallClock).sessionExpiryInterval =
      kw.sessionExpiryInterval := by
  unfold openedSession
  cases previous with
  | none => rfl
  | some session =>
    dsimp only
    split <;> rfl

theorem openedSession_will {previous : Option SessionNode}
    (leaves : ∀ session ∈ previous, (session.prepared packet.toKw).will.Leaves packet)
    (now channel wallClock number : Nat) :
    Stores packet.clientId (openedSession previous packet.toKw now channel wallClock)
      (packet.heldWill number) := by
  unfold openedSession
  have created := @update_stores (SessionNode.create packet.toKw channel wallClock) _ packet
    (leaves_cleared rfl packet) rfl number
  cases previous with
  | none => exact created
  | some session =>
    dsimp only
    split
    · exact update_stores (leaves session rfl) rfl number
    · exact created

theorem Balanced.connect
    (balanced : Balanced clientId broker ledger)
    {wallClock : Nat}
    (careful : Careful clientId ⟨broker, ledger⟩ (.connect channel packet wallClock)) :
    Balanced clientId (broker.connect channel packet wallClock).2
      (ledger.step clientId broker (.connect channel packet wallClock)) := by
  unfold Ledger.step
  dsimp only
  by_cases opens : broker.Opens channel packet.clientId
  · by_cases mine : packet.clientId = clientId
    · subst mine
      rw [if_pos ⟨rfl, opens⟩]
      have ⟨answer, seen⟩ := connect_own opens wallClock
      have ⟨clock, stored, sent⟩ := seen_eq.1 seen
      have ⟨published, leaves⟩ := balanced.settles careful
      have ⟨own, protocol, clean⟩ := openedSession_fields
        (broker.sessions.get? packet.clientId) packet.toKw broker.now channel wallClock
      have interval := openedSession_interval (broker.sessions.get? packet.clientId) packet.toKw
        broker.now channel wallClock
      rw [answer]
      generalize resumed :
        decide (openAnswer (broker.sessions.get? packet.clientId) packet.toKw broker.now = 1) = again
        at published ⊢
      have ⟨opened, checked⟩ := settle_opened ledger again broker.now
      exact
        { known := fun _ => connect_clients opens wallClock (.inr rfl)
          published := sent.trans published
          partition := by
            refine partition_connect ?_ opened channel packet
            exact (done_settle ledger again broker.now).trans balanced.partition
          prompt := fun _ _ _ same => by cases same
          past := by
            rw [clock]
            exact checked.trans_le balanced.past
          stands := by
            refine ⟨_, packet.sessionExpiryInterval, stored, own, ?_,
              openedSession_will leaves broker.now channel wallClock _, ?_⟩
            · rw [connect_core opens, if_pos rfl, protocol]
              rfl
            · unfold Agrees
              rw [protocol, interval, clean]
              show if packet.protocolVersion = .mqtt5 then _ else _
              by_cases mqtt5 : packet.protocolVersion = .mqtt5
              · rw [if_pos mqtt5]
                exact fun _ => rfl
              · rw [if_neg mqtt5]
                refine ⟨rfl, ?_⟩
                show packet.cleanStart = true ↔ _
                unfold ConnectPacket.sessionExpiryInterval
                rw [if_neg mqtt5]
                cases packet.cleanStart <;> decide }
    · rw [if_neg fun both => mine both.1]
      refine balanced.same (connect_other broker channel wallClock (Ne.symm mine))
        (fun there => connect_clients opens wallClock (.inl there))
        fun own expiry will connected => ?_
      rw [connect_core opens, if_neg]
      rintro rfl
      have stands := balanced.stands
      rw [connected] at stands
      have ⟨session, interval, _, _, core, _⟩ := stands
      unfold Broker.core at core
      rw [opens.1] at core
      cases core
  · rw [connect_refused opens, if_neg]
    · exact balanced
    · rintro ⟨rfl, there⟩
      exact opens there

/-! ## Runs -/

theorem Balanced.step {state : Wills}
    (balanced : Balanced clientId state.broker state.ledger) {call : BrokerCall}
    (careful : Careful clientId state call) :
    Balanced clientId (state.step clientId call).broker (state.step clientId call).ledger := by
  cases call with
  | wait seconds =>
    exact
      { known := balanced.known
        published := balanced.published
        partition := balanced.partition
        prompt := balanced.prompt
        past := balanced.past.trans (Nat.le_add_right _ seconds)
        stands := balanced.stands.same rfl fun _ _ _ _ => rfl }
  | connect channel packet wallClock => exact balanced.connect careful
  | disconnect channel packet => exact balanced.disconnect channel packet careful
  | close channel => exact balanced.close channel careful
  | timeout => exact balanced.timeout
  | subscribe channel filter info =>
    show Balanced clientId (state.broker.step (.subscribe channel filter info)) state.ledger
    unfold Broker.step
    dsimp only
    split
    · exact balanced
    · exact balanced.same rfl id fun _ _ _ _ => rfl
  | unsubscribe channel filter =>
    show Balanced clientId (state.broker.step (.unsubscribe channel filter)) state.ledger
    unfold Broker.step
    dsimp only
    split
    · exact balanced
    · exact balanced.same rfl id fun _ _ _ _ => rfl

theorem balanced_start (clientId : String) (now : Nat) (enableNewClients : Bool) :
    Balanced clientId (Broker.start now enableNewClients) (Ledger.blank now) where
  known := fun there => by cases there
  published := rfl
  partition := List.Perm.refl []
  prompt := fun _ _ _ same => by cases same
  past := Nat.le_refl now
  stands := fun node there => by cases there

/-- Along every run of careful steps, from any instant, the wills of a client are published exactly when
they must be. -/
theorem wills_published_along (clientId : String) (now : Nat) (enableNewClients : Bool)
    (calls : List BrokerCall)
    (careful : AllSteps (Wills.step clientId) (Careful clientId)
      ⟨Broker.start now enableNewClients, Ledger.blank now⟩ calls) :
    AllStates (Wills.step clientId) (Exactly clientId)
      ⟨Broker.start now enableNewClients, Ledger.blank now⟩ calls := by
  have keeps : ∀ state call, Balanced clientId state.broker state.ledger →
      Careful clientId state call → Balanced clientId (Wills.step clientId state call).broker
        (Wills.step clientId state call).ledger := fun _ _ balanced fine => balanced.step fine
  have balanced := careful.invariant (Wills.step clientId) keeps
    (balanced_start clientId now enableNewClients)
  exact balanced.mono (Wills.step clientId) fun state balanced =>
    ⟨balanced.published, balanced.partition, balanced.prompt⟩

/-- A will is spared when its session is resumed after three seconds of its five, and the next one is
published by a check six seconds after a DISCONNECT packet with reason code 4. -/
theorem wills_published_along_five :
    AllStates (Wills.step "client") (Exactly "client") ⟨Broker.start 100 true, Ledger.blank 100⟩
      [.connect 1 (tenSeconds (some fiveSeconds)) 1700000000, .close 1, .wait 3,
        .connect 2 (tenSeconds (some fiveSeconds)) 1700000003,
        .disconnect 2 ⟨disconnectWithWillMsg, none, false, 0⟩, .close 2, .wait 6, .timeout] := by
  refine wills_published_along "client" 100 true _ ⟨?_, ?_, trivial, fun _ session there _ _ => ?_,
    fun attrs reading session there _ _ => ?_, ?_, trivial, trivial, trivial⟩
  · exact fun _ session there => by cases there
  · show (0 : Nat) < _
    decide
  · obtain rfl := Option.some.inj there
    refine ⟨by decide, by decide, by decide, by decide, fun will brought => ?_⟩
    obtain rfl := Option.some.inj brought
    exact ⟨fun _ => rfl, fun _ => rfl⟩
  · obtain rfl := Option.some.inj reading
    exact ⟨by decide, fun value asked => by cases asked⟩
  · show (0 : Nat) < _
    decide

theorem accepted_atOnce : mqttPubTopicCheck2 "will" = 0 := by decide

/-- A will without delay. -/
def atOnce : WillPacket := ⟨"will", none, 0, false, 0, [], accepted_atOnce⟩

/-- The will of a connection that ends with a normal DISCONNECT packet is published at its close. -/
theorem normal_disconnect_publishes :
    ¬AllStates (Wills.step "client") (Exactly "client") ⟨Broker.start 100 true, Ledger.blank 100⟩
      [.connect 1 (tenSeconds (some atOnce)) 1700000000, .disconnect 1 ⟨0, none, false, 0⟩,
        .close 1] := by
  rintro ⟨-, -, -, exactly⟩
  have lengths := congrArg List.length exactly.published
  rw [List.length_map] at lengths
  exact absurd lengths (by decide)

end Yunetas.Mqtt
