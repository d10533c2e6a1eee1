import Yunetas.Mqtt.Will

/-!
# Connections

How connections of `c_prot_mqtt2.c` open and close sessions of `c_mqtt_broker.c`: the CONNECT and
DISCONNECT packets, `ac_on_open`, `ac_on_close`, and the steps of a run of the broker.
-/

namespace Yunetas.Mqtt

open Json

/-- The will of a CONNECT packet that `will__read` accepts. -/
structure WillPacket where
  topic : String
  payload : Option Json
  qos : Nat
  retain : Bool
  delayInterval : UInt32
  properties : List (String × Json)
  /-- `mqtt_pub_topic_check2` accepts the topic. -/
  accepted : mqttPubTopicCheck2 topic = 0

/-- A CONNECT packet that `handle__connect` accepts. -/
structure ConnectPacket where
  clientId : String
  assignedId : Bool
  cleanStart : Bool
  protocolVersion : Protocol
  sessionExpiry : Option UInt32
  will : Option WillPacket

/-- The will fields of the event `EV_ON_OPEN`. -/
structure WillKw where
  willTopic : String
  /-- `will_payload`, when there is a gbuffer. -/
  willPayload : Option Json
  willQos : Nat
  willRetain : Bool
  willDelayInterval : Nat
  /-- `will_properties`, when there are some. -/
  willProperties : Option Json

/-- The event `EV_ON_OPEN`. -/
structure OpenKw where
  id : String
  assignedId : Bool
  cleanStart : Bool
  protocolVersion : Protocol
  sessionExpiryInterval : Nat
  /-- `will` and its fields. -/
  will : Option WillKw

/-- The session expiry interval of a CONNECT packet: before MQTT 5 a session without clean start never
expires. -/
def ConnectPacket.sessionExpiryInterval (packet : ConnectPacket) : Nat :=
  if packet.protocolVersion = .mqtt5 then (packet.sessionExpiry.map UInt32.toNat).getD 0
  else if packet.cleanStart then 0
  else uint32Max

/-- The will fields `handle__connect` puts in the event; only MQTT 5 has will properties. -/
def WillPacket.toKw (will : WillPacket) (protocolVersion : Protocol) : WillKw where
  willTopic := will.topic
  willPayload := will.payload
  willQos := will.qos
  willRetain := will.retain
  willDelayInterval := if protocolVersion = .mqtt5 then will.delayInterval.toNat else 0
  willProperties :=
    if protocolVersion = .mqtt5 ∧ will.properties ≠ [] then some (.object will.properties) else none

/-- The event that the end of `handle__connect` publishes. -/
def ConnectPacket.toKw (packet : ConnectPacket) : OpenKw where
  id := packet.clientId
  assignedId := packet.assignedId
  cleanStart := packet.cleanStart
  protocolVersion := packet.protocolVersion
  sessionExpiryInterval := packet.sessionExpiryInterval
  will := packet.will.map (·.toKw packet.protocolVersion)

/-- The attributes of the channel after a CONNECT packet. -/
def ConnectPacket.attrs (packet : ConnectPacket) : ChannelAttrs where
  clientId := packet.clientId
  cleanStart := packet.cleanStart
  protocolVersion := packet.protocolVersion
  sessionExpiryInterval := packet.sessionExpiryInterval
  will := packet.will.isSome
  queuesOpen := true
  dropped := false

/-- A DISCONNECT packet. -/
structure DisconnectPacket where
  reasonCode : UInt8
  sessionExpiry : Option UInt32
  leftover : Bool
  flags : UInt8

/-- `MQTT_RC_DISCONNECT_WITH_WILL_MSG`. -/
def disconnectWithWillMsg : UInt8 := 4

/-- The properties of a DISCONNECT packet, which only MQTT 5 has: an interval of 0 cannot become another
one. The cast to `int` makes `UINT32_MAX` -1, the value of an absent property. -/
def disconnectProperties (attrs : ChannelAttrs) (packet : DisconnectPacket) :
    Option ChannelAttrs :=
  match if attrs.protocolVersion = .mqtt5 then packet.sessionExpiry else none with
  | none => some attrs
  | some value =>
    if value.toNat = uint32Max then some attrs
    else if attrs.sessionExpiryInterval = 0 ∧ value.toNat ≠ 0 then none
    else some { attrs with sessionExpiryInterval := value.toNat }

/-- `handle__disconnect_s`: whether the packet is accepted, and the attributes of the channel. -/
def handleDisconnectS (attrs : ChannelAttrs) (packet : DisconnectPacket) : Bool × ChannelAttrs :=
  let reasonCode := if attrs.protocolVersion = .mqtt5 then packet.reasonCode else 0
  match disconnectProperties attrs packet with
  | none => (false, attrs)
  | some attrs =>
    if packet.leftover then (false, attrs)
    else if attrs.protocolVersion ≠ .mqtt31 ∧ packet.flags ≠ 0 then (false, attrs)
    else if reasonCode = disconnectWithWillMsg then (true, attrs)
    else (true, { attrs with will := false })

/-- The will fields a resumed session gets: what the event does not have stays. -/
def StoredWill.update (stored : StoredWill) : Option WillKw → StoredWill
  | none => StoredWill.cleared
  | some will =>
    { willTopic := will.willTopic
      willPayload := will.willPayload.getD stored.willPayload
      willQos := will.willQos
      willRetain := will.willRetain
      willProperties := will.willProperties.getD stored.willProperties
      willDelayInterval := will.willDelayInterval }

/-- `gobj_update_node` of a session that is there, with the event of an open. -/
def SessionNode.update (session : SessionNode) (kw : OpenKw) (channel : Nat) : SessionNode :=
  { session with
    protocolVersion := kw.protocolVersion
    cleanStart := kw.cleanStart
    sessionExpiryInterval := kw.sessionExpiryInterval
    gobjChannel := some channel
    will := session.will.update kw.will }

/-- A new node: `will_delay_time` is a column with the flag `time`, so it gets the wall clock. -/
def SessionNode.create (kw : OpenKw) (channel wallClock : Nat) : SessionNode where
  protocolVersion := kw.protocolVersion
  cleanStart := kw.cleanStart
  sessionExpiryInterval := kw.sessionExpiryInterval
  gobjChannel := some channel
  will := StoredWill.cleared.update kw.will
  willDelayTime := wallClock

/-- The end of `ac_on_open`: the session is updated, or created. -/
def openSession (broker : Broker) (channel : Nat) (kw : OpenKw) (wallClock : Nat) : Broker :=
  let session :=
    match broker.sessions.get? kw.id with
    | none => SessionNode.create kw channel wallClock
    | some session => session.update kw channel
  { broker with sessions := broker.sessions.set kw.id session }

/-- `close_queues` of a channel. -/
def closeQueues (broker : Broker) (channel : Nat) (attrs : ChannelAttrs) : Broker :=
  if attrs.queuesOpen then
    let broker := if attrs.cleanStart then deleteQueues broker attrs.clientId else broker
    { broker with channels := broker.channels.set channel { attrs with queuesOpen := false } }
  else broker

/-- `EV_DROP` of a channel that is in a session: unless the session is taken over its queues are closed,
and it waits for the close. -/
def evDrop (broker : Broker) (channel : Nat) (sessionTakeOver : Bool) : Broker :=
  match broker.channels.get? channel with
  | none => broker
  | some attrs =>
    if attrs.dropped then broker
    else
      let broker := if sessionTakeOver then broker else closeQueues broker channel attrs
      let attrs := { attrs with queuesOpen := attrs.queuesOpen && sessionTakeOver, dropped := true }
      { broker with channels := broker.channels.set channel attrs }

/-- `assigned_id`, which an id that starts with `auto-` sets. -/
def OpenKw.assigned (kw : OpenKw) : Bool :=
  kw.assignedId || "auto-".toList.isPrefixOf kw.id.toList

/-- `clean_start`, which an assigned id sets. -/
def OpenKw.startsClean (kw : OpenKw) : Bool := kw.assigned || kw.cleanStart

/-- The session does not outlive its connection (`session_is_temporary`). -/
def SessionNode.Temporary (session : SessionNode) : Prop :=
  (session.protocolVersion = .mqtt5 ∧ session.sessionExpiryInterval = 0) ∨
    (session.protocolVersion ≠ .mqtt5 ∧ session.cleanStart = true)

instance (session : SessionNode) : Decidable session.Temporary :=
  inferInstanceAs (Decidable (_ ∨ _))

/-- The previous session is replaced, and its will is sent. -/
def SessionNode.Replaced (session : SessionNode) (kw : OpenKw) : Prop :=
  session.Temporary ∨ kw.startsClean = true

instance (session : SessionNode) (kw : OpenKw) : Decidable (session.Replaced kw) :=
  inferInstanceAs (Decidable (_ ∨ _))

/-- `session_expired`. -/
def SessionNode.TooOld (session : SessionNode) (now : Nat) : Prop :=
  session.willDelayTime > 0 ∧
    (now : Int) - session.willDelayTime ≥ session.sessionExpiryInterval

instance (session : SessionNode) (now : Nat) : Decidable (session.TooOld now) :=
  inferInstanceAs (Decidable (_ ∧ _))

/-- The previous session is resumed. -/
def SessionNode.Resumed (session : SessionNode) (kw : OpenKw) (now : Nat) : Prop :=
  kw.startsClean = false ∧ session.sessionExpiryInterval > 0 ∧ ¬session.TooOld now ∧
    kw.protocolVersion ≠ .mqtt31

instance (session : SessionNode) (kw : OpenKw) (now : Nat) : Decidable (session.Resumed kw now) :=
  inferInstanceAs (Decidable (_ ∧ _))

/-- The will of a session that is replaced is sent and cleared. -/
def sendReplaced (broker : Broker) (kw : OpenKw) (session : SessionNode) : Broker × SessionNode :=
  if session.Replaced kw then willClear (willSend broker kw.id session) kw.id session
  else (broker, session)

/-- The connection of the previous session is dropped. -/
def dropPrevious (broker : Broker) (session : SessionNode) (resumed : Bool) : Broker :=
  match session.gobjChannel with
  | none => broker
  | some previous => evDrop broker previous resumed

/-- The previous session is deleted, with the queues when it is not connected. -/
def deletePrevious (broker : Broker) (kw : OpenKw) (session : SessionNode) : Broker :=
  let broker := deleteSession broker kw.id
  if session.gobjChannel.isNone then deleteQueues broker kw.id else broker

/-- What `ac_on_open` does with a previous session, and its answer. -/
def openPrevious (broker : Broker) (kw : OpenKw) (session : SessionNode) : Int × Broker :=
  let (broker, session) := sendReplaced broker kw session
  if session.Resumed kw broker.now then (1, dropPrevious broker session true)
  else (0, deletePrevious (dropPrevious broker session false) kw session)

/-- `ac_on_open`. -/
def acOnOpen (broker : Broker) (channel : Nat) (kw : OpenKw) (wallClock : Nat) : Int × Broker :=
  let client := broker.clients.get? kw.id
  if client = none ∧ ¬broker.enableNewClients then (-1, broker)
  else
    let broker :=
      if client = none then { broker with clients := broker.clients.set kw.id kw.assigned }
      else broker
    match broker.sessions.get? kw.id with
    | none => (0, openSession broker channel kw wallClock)
    | some session =>
      let previous := openPrevious broker kw session
      (previous.1, openSession previous.2 channel kw wallClock)

/-- The end of a session that does not outlive its connection. -/
def closeTemporary (broker : Broker) (attrs : ChannelAttrs) (assignedId : Bool)
    (session : SessionNode) : Broker :=
  let clientId := attrs.clientId
  let broker := deleteSession (willSend broker clientId session) clientId
  let broker :=
    if assignedId then { broker with clients := broker.clients.erase clientId } else broker
  if ¬attrs.cleanStart then deleteQueues broker clientId else broker

/-- The disconnection of a session that outlives its connection. -/
def closePersistent (broker : Broker) (attrs : ChannelAttrs) (session : SessionNode) : Broker :=
  let processed := willProcessDisconnect broker attrs.clientId session true
  updateNode processed.1 attrs.clientId
    { processed.2 with gobjChannel := none, willDelayTime := broker.now }

/-- The session with the interval of the channel, which a DISCONNECT packet may have changed. -/
def SessionNode.sync (session : SessionNode) (attrs : ChannelAttrs) : SessionNode :=
  if session.protocolVersion = .mqtt5 then
    { session with sessionExpiryInterval := attrs.sessionExpiryInterval }
  else session

/-- `ac_on_close`. -/
def acOnClose (broker : Broker) (channel : Nat) (attrs : ChannelAttrs) : Broker :=
  match broker.clients.get? attrs.clientId with
  | none => broker
  | some assignedId =>
    match broker.sessions.get? attrs.clientId with
    | none => broker
    | some session =>
      if session.gobjChannel ≠ some channel then broker
      else if (session.sync attrs).Temporary then
        closeTemporary broker attrs assignedId (session.sync attrs)
      else closePersistent broker attrs (session.sync attrs)

/-- What happens to the broker. -/
inductive BrokerCall
  | wait (seconds : Nat)
  | connect (channel : Nat) (packet : ConnectPacket) (wallClock : Nat)
  | disconnect (channel : Nat) (packet : DisconnectPacket)
  | close (channel : Nat)
  | timeout
  | subscribe (channel : Nat) (filter : String) (info : SubInfo)
  | unsubscribe (channel : Nat) (filter : String)

/-- The attributes of a channel whose packets are read. -/
def Broker.reading (broker : Broker) (channel : Nat) : Option ChannelAttrs :=
  (broker.channels.get? channel).filter (!·.dropped)

/-- A CONNECT packet: `ac_on_open`, and on success `open_queues`. A channel in a session refuses a second
one. -/
def Broker.connect (broker : Broker) (channel : Nat) (packet : ConnectPacket) (wallClock : Nat) :
    Int × Broker :=
  match broker.channels.get? channel with
  | some _ => (-1, broker)
  | none =>
    let opened := acOnOpen broker channel packet.toKw wallClock
    if opened.1 < 0 then opened
    else
      (opened.1,
        { opened.2 with
          channels := opened.2.channels.set channel packet.attrs
          queues := insert ⟨packet.clientId, .mdIn⟩
            (insert ⟨packet.clientId, .mdOut⟩ opened.2.queues) })

/-- A DISCONNECT packet; the connection is dropped when it is refused. -/
def Broker.disconnect (broker : Broker) (channel : Nat) (packet : DisconnectPacket) : Broker :=
  match broker.reading channel with
  | none => broker
  | some attrs =>
    let (accepted, attrs) := handleDisconnectS attrs packet
    { broker with channels := broker.channels.set channel { attrs with dropped := !accepted } }

/-- `ac_disconnected`: the queues are closed, and the broker is told. -/
def Broker.close (broker : Broker) (channel : Nat) : Broker :=
  match broker.channels.get? channel with
  | none => broker
  | some attrs =>
    let broker := acOnClose (closeQueues broker channel attrs) channel attrs
    { broker with channels := broker.channels.erase channel }

/-- One step of a run. -/
def Broker.step (broker : Broker) : BrokerCall → Broker
  | .wait seconds => { broker with now := broker.now + seconds }
  | .connect channel packet wallClock => (broker.connect channel packet wallClock).2
  | .disconnect channel packet => broker.disconnect channel packet
  | .close channel => broker.close channel
  | .timeout => acTimeout broker
  | .subscribe channel filter info =>
    match broker.reading channel with
    | none => broker
    | some attrs => { broker with subs := (subAdd broker.subs filter attrs.clientId info).2 }
  | .unsubscribe channel filter =>
    match broker.reading channel with
    | none => broker
    | some attrs => { broker with subs := (subRemove broker.subs filter attrs.clientId).2.2 }

/-- A broker without clients, at an instant. -/
def Broker.start (now : Nat) (enableNewClients : Bool) : Broker where
  now := now
  enableNewClients := enableNewClients
  clients := Dict.empty
  sessions := Dict.empty
  channels := Dict.empty
  subs := noSubs
  queues := ∅
  published := []

end Yunetas.Mqtt
