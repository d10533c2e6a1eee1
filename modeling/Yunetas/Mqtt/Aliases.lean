import Yunetas.Mqtt.Acks

/-!
# Topic aliases

How `send__publish` writes a PUBLISH and assigns topic aliases, and how `handle__publish_s` and
`handle__publish_c` find the topic of one they receive. The sender keeps the alias of each topic, the
receiver the topic of each alias.
-/

namespace Yunetas.Mqtt

/-! ## The sender -/

/-- The arguments of `send__publish`. -/
structure OutMessage where
  mid : Nat
  topic : List UInt8
  /-- The bytes of `gbuf_payload`. -/
  payload : List UInt8
  qos : Nat
  retain : Bool
  dup : Bool
  properties : Option Props
  expiryInterval : Nat

/-- What a connection was told, and the memory there is. -/
structure PublishConf where
  protocolVersion : Protocol
  /-- `outgoing_alias_max`: `client_topic_alias_max` of a broker, `server_topic_alias_max` of a client. -/
  outgoingAliasMax : Nat
  maximumPacketSize : Nat
  retainAvailable : Bool
  /-- `gbmem_get_maximum_block`. -/
  maxBlock : Nat

/-- The aliases a connection assigned. -/
structure AliasSender where
  jnOutgoingAliasMap : Dict (List UInt8) Nat
  nextOutgoingAlias : Nat

/-- Why a PUBLISH is not sent. -/
inductive SendError
  /-- `MOSQ_ERR_OVERSIZE_PACKET`. -/
  | oversizePacket
  /-- `MOSQ_ERR_NOMEM`. -/
  | nomem
  /-- `strlen` is called on `NULL`. -/
  | crashed
  deriving DecidableEq

/-- `packet__check_oversize`, when it is not negative. -/
def packetCheckOversize (maximumPacketSize remainingLength : Nat) : Bool :=
  maximumPacketSize = 0 ||
    remainingLength + packetVarintBytes remainingLength ≤ maximumPacketSize

/-- The alias of a PUBLISH. -/
structure AliasChoice where
  sender : AliasSender
  aliasId : Option Nat
  topic : List UInt8

/-- The outgoing topic alias of `send__publish`: jansson stores no key that is not UTF-8. -/
def outgoingAlias (outgoingAliasMax : Nat) (sender : AliasSender) (topic : List UInt8) :
    AliasChoice :=
  if outgoingAliasMax > 0 then
    match sender.jnOutgoingAliasMap.get? topic with
    | some aliasId => ⟨sender, some aliasId, []⟩
    | none =>
      if sender.nextOutgoingAlias ≤ outgoingAliasMax then
        ⟨{ jnOutgoingAliasMap :=
              if utf8CheckString topic then
                sender.jnOutgoingAliasMap.set topic sender.nextOutgoingAlias
              else sender.jnOutgoingAliasMap
           nextOutgoingAlias := sender.nextOutgoingAlias + 1 },
          some sender.nextOutgoingAlias, topic⟩
      else ⟨sender, none, topic⟩
  else ⟨sender, none, topic⟩

/-- The properties without `message-expiry-interval`. -/
def withoutExpiry (properties : Option Props) : Props :=
  (propsOf properties).erase (mqttPropertyIdentifierToString .messageExpiryInterval)

/-- `expiry_prop`. -/
def expiryProp (expiryInterval : Nat) : Props :=
  if expiryInterval > 0 then
    Dict.empty.set (mqttPropertyIdentifierToString .messageExpiryInterval)
      (.plain (.integer (expiryInterval % 2 ^ 32)))
  else Dict.empty

/-- `topic_alias_prop`. -/
def topicAliasProp : Option Nat → Props
  | none => Dict.empty
  | some aliasId =>
    Dict.empty.set (mqttPropertyIdentifierToString .topicAlias) (.plain (.integer (aliasId % 2 ^ 16)))

/-- `proplen` of a PUBLISH. -/
def publishProplen (message : OutMessage) (aliasId : Option Nat) : Nat :=
  (propertyGetLengthAll (withoutExpiry message.properties) +
    propertyGetLengthAll (expiryProp message.expiryInterval) +
    propertyGetLengthAll (topicAliasProp aliasId)) % 2 ^ 32

/-- The properties of a PUBLISH, as three calls of `property__write_all` write them. -/
def writePublishProperties (message : OutMessage) (aliasId : Option Nat) : Option (List UInt8) :=
  (propertyWriteEntries (withoutExpiry message.properties).entries).bind fun properties =>
    (propertyWriteEntries (expiryProp message.expiryInterval).entries).bind fun expiry =>
      (propertyWriteEntries (topicAliasProp aliasId).entries).map fun topicAlias =>
        properties ++ expiry ++ topicAlias

/-- The flags of a PUBLISH. -/
def publishFlags (retainAvailable : Bool) (message : OutMessage) : UInt8 :=
  (if message.dup then 8 else 0) ||| UInt8.ofNat (message.qos * 2) |||
    (if message.retain && retainAvailable then 1 else 0)

/-- The start of the variable header. -/
def publishStart (message : OutMessage) (topic : List UInt8) : List UInt8 :=
  mqttWriteString topic ++ if message.qos > 0 then toBigEndian 2 message.mid else []

/-- `packetlen` without properties. -/
def publishPacketlen (message : OutMessage) (topic : List UInt8) : Nat :=
  2 + (cString topic).length + message.payload.length + if message.qos > 0 then 2 else 0

/-- The packet is built when it is not too large. -/
def buildPublish (conf : PublishConf) (message : OutMessage) (packetlen : Nat)
    (body : Option (List UInt8)) : Except SendError (List UInt8) :=
  if packetCheckOversize conf.maximumPacketSize packetlen = false then .error .oversizePacket
  else
    match buildMqttPacket conf.maxBlock (cmdPublish ||| publishFlags conf.retainAvailable message)
      packetlen with
    | none => .error .nomem
    | some gbuf =>
      match body with
      | none => .error .crashed
      | some body => .ok (gbuf ++ body)

/-- `send__publish`: the packet, and the aliases assigned, also when it is not sent. -/
def sendPublish (conf : PublishConf) (sender : AliasSender) (message : OutMessage) :
    AliasSender × Except SendError (List UInt8) :=
  if conf.protocolVersion = .mqtt5 then
    let choice := outgoingAlias conf.outgoingAliasMax sender message.topic
    let proplen := publishProplen message choice.aliasId
    let varbytes := packetVarintBytes proplen
    (choice.sender,
      if varbytes > 4 then .error .oversizePacket
      else
        buildPublish conf message
          ((publishPacketlen message choice.topic + (proplen + varbytes)) % 2 ^ 32)
          ((writePublishProperties message choice.aliasId).map fun properties =>
            publishStart message choice.topic ++ (mqttWriteVarint proplen ++ properties) ++
              message.payload))
  else
    (sender,
      buildPublish conf message (publishPacketlen message message.topic % 2 ^ 32)
        (some (publishStart message message.topic ++ message.payload)))

/-! ## The receiver -/

/-- Why a PUBLISH is refused. -/
inductive PublishError
  /-- `MOSQ_ERR_MALFORMED_PACKET`. -/
  | malformedPacket
  /-- `MOSQ_ERR_DUPLICATE_PROPERTY`. -/
  | duplicateProperty
  /-- `MOSQ_ERR_PROTOCOL`. -/
  | protocol
  /-- `MOSQ_ERR_TOPIC_ALIAS_INVALID`. -/
  | topicAliasInvalid
  deriving DecidableEq

/-- The error of `property_read_all` is given back. -/
def PropError.publish : PropError → PublishError
  | .malformedPacket => .malformedPacket
  | .duplicateProperty => .duplicateProperty

/-- What the handlers read of a PUBLISH before they resolve its alias. -/
structure PublishRead where
  /-- `topic`; `none` is `NULL`. -/
  topic : Option (List UInt8)
  /-- `topic_alias`; `none` is -1. -/
  topicAlias : Option Nat
  rest : List UInt8
  deriving DecidableEq

/-- The loop over the properties, for the alias. -/
def topicAliasOf : List (String × Property) → Option Nat → Option Nat
  | [], topicAlias => topicAlias
  | entry :: rest, topicAlias =>
    topicAliasOf rest
      (if checkedIdentifier entry.2 = MqttProp.topicAlias.code then
        some (jsonIntegerValue entry.2.value?)
      else topicAlias)

/-- The packet identifier of a PUBLISH, where there is one; it is not 0. -/
def readPublishMid (qos : UInt8) (gbuf : List UInt8) : Except PublishError (List UInt8) :=
  if qos > 0 then
    match mqttReadUint16 gbuf with
    | none => .error .malformedPacket
    | some (mid, gbuf) => if mid = 0 then .error .protocol else .ok gbuf
  else .ok gbuf

/-- The topic, the packet identifier and the properties of a PUBLISH, which both handlers read alike. -/
def readPublish (memory : List UInt8) (protocolVersion : Protocol) (packet : Packet) :
    Except PublishError PublishRead :=
  match mqttReadString memory packet.payload with
  | none => .error .malformedPacket
  | some (text, gbuf) =>
    if text = [] ∧ protocolVersion ≠ .mqtt5 then .error .malformedPacket
    else
      let topic := if text = [] then none else some text
      match readPublishMid ((packet.flags &&& 0x06) >>> 1) gbuf with
      | .error error => .error error
      | .ok gbuf =>
        if protocolVersion = .mqtt5 then
          match propertyReadAll memory cmdPublish.toNat gbuf with
          | .error error => .error error.publish
          | .ok (properties, gbuf) => .ok ⟨topic, topicAliasOf properties.entries none, gbuf⟩
        else .ok ⟨topic, none, gbuf⟩

/-- An alias that was received: the topic is stored under it, or found there. -/
def resolveAlias (maxTopicAlias : Nat) (jnAliasList : Dict Nat (List UInt8))
    (topic : Option (List UInt8)) (topicAlias : Nat) :
    Except PublishError (Option (List UInt8) × Dict Nat (List UInt8)) :=
  if topicAlias = 0 ∨ topicAlias > maxTopicAlias then .error .topicAliasInvalid
  else
    match topic with
    | some topic =>
      .ok (some topic,
        if utf8CheckString topic then jnAliasList.set topicAlias topic else jnAliasList)
    | none =>
      match jnAliasList.get? topicAlias with
      | none => .error .protocol
      | some topic => .ok (some topic, jnAliasList)

/-- The alias resolution of `handle__publish_s`: without an alias the topic may be missing. -/
def resolveTopicAliasS (maxTopicAlias : Nat) (jnAliasList : Dict Nat (List UInt8))
    (read : PublishRead) : Except PublishError (Option (List UInt8) × Dict Nat (List UInt8)) :=
  match read.topicAlias with
  | none => .ok (read.topic, jnAliasList)
  | some topicAlias => resolveAlias maxTopicAlias jnAliasList read.topic topicAlias

/-- The alias resolution of `handle__publish_c`, in MQTT 5. -/
def resolveTopicAliasC (maxTopicAlias : Nat) (jnAliasList : Dict Nat (List UInt8))
    (read : PublishRead) : Except PublishError (Option (List UInt8) × Dict Nat (List UInt8)) :=
  match read.topicAlias with
  | none => if read.topic = none then .error .malformedPacket else .ok (read.topic, jnAliasList)
  | some topicAlias => resolveAlias maxTopicAlias jnAliasList read.topic topicAlias

/-- The topic of a PUBLISH, and the aliases stored by now: `server` tells which side receives. -/
def handlePublishTopic (server : Bool) (memory : List UInt8) (protocolVersion : Protocol)
    (maxTopicAlias : Nat) (jnAliasList : Dict Nat (List UInt8)) (packet : Packet) :
    Except PublishError (Option (List UInt8) × Dict Nat (List UInt8)) :=
  match readPublish memory protocolVersion packet with
  | .error error => .error error
  | .ok read =>
    if server then resolveTopicAliasS maxTopicAlias jnAliasList read
    else if protocolVersion = .mqtt5 then resolveTopicAliasC maxTopicAlias jnAliasList read
    else .ok (read.topic, jnAliasList)

/-! ## A connection -/

/-- The packet of one frame. -/
def framePacket : List UInt8 → Packet
  | [] => ⟨0, 0, []⟩
  | first :: rest => ⟨first &&& 0xF0, first &&& 0x0F, (rest.dropWhile continues).drop 1⟩

/-- A PUBLISH that was sent. -/
structure Delivery where
  topic : List UInt8
  bytes : List UInt8
  resolved : Except PublishError (Option (List UInt8))

/-- The two ends of a connection. -/
structure AliasLink where
  sender : AliasSender
  /-- `jn_alias_list` of the receiver. -/
  jnAliasList : Dict Nat (List UInt8)
  closed : Bool
  deliveries : List Delivery

/-- Which side receives, and what lies behind the packets in its memory. -/
structure ReceiverConf where
  server : Bool
  memory : List UInt8

/-- The connection with a packet received. -/
def AliasLink.receive (conf : PublishConf) (receiver : ReceiverConf) (link : AliasLink)
    (sender : AliasSender) (topic bytes : List UInt8) : AliasLink :=
  match handlePublishTopic receiver.server receiver.memory conf.protocolVersion
    conf.outgoingAliasMax link.jnAliasList (framePacket bytes) with
  | .error error =>
    { sender, jnAliasList := link.jnAliasList, closed := true,
      deliveries := link.deliveries ++ [⟨topic, bytes, .error error⟩] }
  | .ok (found, jnAliasList) =>
    { sender, jnAliasList, closed := false,
      deliveries := link.deliveries ++ [⟨topic, bytes, .ok found⟩] }

/-- A message is passed to `send__publish`, and its packet is received. -/
def AliasLink.publish (conf : PublishConf) (receiver : ReceiverConf) (link : AliasLink)
    (message : OutMessage) : AliasLink :=
  if link.closed then link
  else
    match sendPublish conf link.sender message with
    | (sender, .error _) => { link with sender }
    | (sender, .ok bytes) => link.receive conf receiver sender message.topic bytes

/-- A connection as `ac_connected` leaves it. -/
def AliasLink.start : AliasLink := ⟨⟨Dict.empty, 1⟩, Dict.empty, false, []⟩

end Yunetas.Mqtt
