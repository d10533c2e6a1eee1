import Yunetas.Mqtt.Publish
import Yunetas.Lib.Sweep
import Mathlib.Data.Finset.Basic

/-!
# Sessions and wills

The nodes of the topic `sessions` of `c_mqtt_broker.c`, and the functions that send and clear the will
a node stores, at a disconnection and in the periodic checks. A session read from the treedb is a copy:
a function that changes it gives the changed copy back, and `gobj_update_node` stores it.
-/

namespace Yunetas.Mqtt

open Json

/-- `UINT32_MAX`, the session expiry interval of a session that never expires. -/
def uint32Max : Nat := 2 ^ 32 - 1

/-- `mosq_p_mqtt31`, `mosq_p_mqtt311` and `mosq_p_mqtt5`. -/
inductive Protocol
  | mqtt31
  | mqtt311
  | mqtt5
  deriving DecidableEq

/-- The will a session stores; no will is stored when the topic is empty. -/
structure StoredWill where
  willTopic : String
  /-- `will_payload`, the serialized gbuffer. -/
  willPayload : Json
  willQos : Nat
  willRetain : Bool
  willProperties : Json
  willDelayInterval : Nat

/-- The will fields of a session without will. -/
def StoredWill.cleared : StoredWill where
  willTopic := ""
  willPayload := .object []
  willQos := 0
  willRetain := false
  willProperties := .object []
  willDelayInterval := 0

/-- A node of the topic `sessions`, without the fields that no function here reads. -/
structure SessionNode where
  protocolVersion : Protocol
  cleanStart : Bool
  sessionExpiryInterval : Nat
  /-- `_gobj_channel`, the channel of the connection; none is 0. -/
  gobjChannel : Option Nat
  will : StoredWill
  /-- `will_delay_time`, which is the disconnect time too. -/
  willDelayTime : Nat

/-- `mosq_md_in` and `mosq_md_out`. -/
inductive MsgDirection
  | mdIn
  | mdOut
  deriving DecidableEq

/-- The name `build_queue_name` gives a queue. -/
structure QueueName where
  clientId : String
  /-- The suffix, `-IN` or `-OUT`. -/
  direction : MsgDirection
  deriving DecidableEq

/-- The message `will__send` publishes. -/
structure WillMessage where
  clientId : String
  topic : String
  payload : Json
  qos : Nat
  retain : Bool
  properties : Json

/-- The attributes of the `C_PROT_MQTT2` of a channel that is in a session. -/
structure ChannelAttrs where
  clientId : String
  /-- `clean_start`, as the CONNECT packet has it. -/
  cleanStart : Bool
  protocolVersion : Protocol
  sessionExpiryInterval : Nat
  will : Bool
  queuesOpen : Bool
  /-- The state is `ST_DISCONNECTED`, and the close of the connection is awaited. -/
  dropped : Bool

/-- What the broker has. -/
structure Broker where
  /-- `mosquitto_time`. -/
  now : Nat
  enableNewClients : Bool
  /-- The nodes of the topic `clients`, with `assigned_id`. -/
  clients : Dict String Bool
  /-- The nodes of the topic `sessions`. -/
  sessions : Dict String SessionNode
  channels : Dict Nat ChannelAttrs
  subs : Subs
  /-- The topics of `tranger_queues`. -/
  queues : Finset QueueName
  published : List WillMessage

/-- The sessions as `subs__send` sees them. -/
def Broker.connected (broker : Broker) (clientId : String) : Option Session :=
  (broker.sessions.get? clientId).map fun session => ⟨session.gobjChannel.isSome⟩

/-- The deliveries of a message to normal subscribers. -/
def normalDeliveries (subs : Subs) (sessions : String → Option Session) (message : Message) :
    List (String × Handed) :=
  (normalSubscribers subs message.topic).filterMap fun entry =>
    (subsSend sessions message entry.1 entry.2).2.map (entry.1, ·)

/-- The queue a delivery opens. -/
def queueOpened : String × Handed → Option QueueName
  | (clientId, .queued _) => some ⟨clientId, .mdOut⟩
  | _ => none

/-- `sub__messages_queue` for a will: the subscribers get it, and the queues of those that are not
connected are opened. -/
def subMessagesQueue (broker : Broker) (message : WillMessage) : Broker :=
  let plain : Message := ⟨message.topic, message.qos, message.clientId⟩
  let deliveries := normalDeliveries broker.subs broker.connected plain ++
    sharedDeliveries broker.subs broker.connected plain
  { broker with
    queues := broker.queues ∪ (deliveries.filterMap queueOpened).toFinset
    published := broker.published ++ [message] }

/-- `gobj_update_node` of a session that is there. -/
def updateNode (broker : Broker) (clientId : String) (session : SessionNode) : Broker :=
  match broker.sessions.get? clientId with
  | none => broker
  | some _ => { broker with sessions := broker.sessions.set clientId session }

/-- The message made of the will of a session. -/
def SessionNode.willMessage (session : SessionNode) (clientId : String) : WillMessage where
  clientId := clientId
  topic := session.will.willTopic
  payload := session.will.willPayload
  qos := session.will.willQos
  retain := session.will.willRetain
  properties := session.will.willProperties

/-- `will__send`. -/
def willSend (broker : Broker) (clientId : String) (session : SessionNode) : Broker :=
  if session.will.willTopic = "" then broker
  else subMessagesQueue broker (session.willMessage clientId)

/-- `will__clear`. -/
def willClear (broker : Broker) (clientId : String) (session : SessionNode) :
    Broker × SessionNode :=
  if session.will.willTopic = "" then (broker, session)
  else
    let session := { session with will := StoredWill.cleared, willDelayTime := 0 }
    (updateNode broker clientId session, session)

/-- The will delay interval, clamped to the session expiry interval. -/
def SessionNode.clampDelay (session : SessionNode) : SessionNode :=
  let expiry := session.sessionExpiryInterval
  if expiry > 0 ∧ session.will.willDelayInterval > expiry then
    { session with will := { session.will with willDelayInterval := expiry } }
  else session

/-- `will__process_disconnect`. -/
def willProcessDisconnect (broker : Broker) (clientId : String) (session : SessionNode)
    (sendWill : Bool) : Broker × SessionNode :=
  if session.will.willTopic = "" then (broker, session)
  else if ¬sendWill then willClear broker clientId session
  else
    let session := session.clampDelay
    if session.will.willDelayInterval > 0 then
      (broker, { session with willDelayTime := broker.now })
    else willClear (willSend broker clientId session) clientId session

/-- `tranger2_delete_topic` of the two queues of a client. -/
def deleteQueues (broker : Broker) (clientId : String) : Broker :=
  { broker with queues := (broker.queues.erase ⟨clientId, .mdIn⟩).erase ⟨clientId, .mdOut⟩ }

/-- `gobj_delete_node` of a session, and `sub__remove_client`. -/
def deleteSession (broker : Broker) (clientId : String) : Broker :=
  { broker with
    sessions := broker.sessions.erase clientId
    subs := (subRemoveClient broker.subs clientId).2 }

/-- The tests of `session_expiry__check`: not connected, a finite interval, a known disconnect time,
and the interval is over. -/
def SessionNode.Expired (session : SessionNode) (now : Nat) : Prop :=
  session.gobjChannel = none ∧ session.sessionExpiryInterval ≠ 0 ∧
    session.sessionExpiryInterval ≠ uint32Max ∧ session.willDelayTime ≠ 0 ∧
    ¬((now : Int) - session.willDelayTime < session.sessionExpiryInterval)

instance (session : SessionNode) (now : Nat) : Decidable (session.Expired now) :=
  inferInstanceAs (Decidable (_ ∧ _))

/-- One turn of the loop of `session_expiry__check`. -/
def sessionExpiryOne (broker : Broker) (entry : String × SessionNode) : Broker :=
  let (clientId, session) := entry
  if session.Expired broker.now then
    let broker := willSend broker clientId session
    let broker := (willClear broker clientId session).1
    deleteQueues (deleteSession broker clientId) clientId
  else broker

/-- `session_expiry__check`. -/
def sessionExpiryCheck (broker : Broker) : Broker := broker.sessions.sweep sessionExpiryOne broker

/-- The tests of `will_delay__check`: not connected, a will with a delay, a known disconnect time,
and more than the delay has passed. -/
def SessionNode.WillDue (session : SessionNode) (now : Nat) : Prop :=
  session.gobjChannel = none ∧ session.will.willTopic ≠ "" ∧ session.will.willDelayInterval ≠ 0 ∧
    session.willDelayTime ≠ 0 ∧
    (now : Int) - session.willDelayTime > session.will.willDelayInterval

instance (session : SessionNode) (now : Nat) : Decidable (session.WillDue now) :=
  inferInstanceAs (Decidable (_ ∧ _))

/-- One turn of the loop of `will_delay__check`. -/
def willDelayOne (broker : Broker) (entry : String × SessionNode) : Broker :=
  let (clientId, session) := entry
  if session.WillDue broker.now then
    (willClear (willSend broker clientId session) clientId session).1
  else broker

/-- `will_delay__check`. -/
def willDelayCheck (broker : Broker) : Broker := broker.sessions.sweep willDelayOne broker

/-- `ac_timeout`, without `retain__expire`. -/
def acTimeout (broker : Broker) : Broker := willDelayCheck (sessionExpiryCheck broker)

end Yunetas.Mqtt
