import Yunetas.Mqtt.Carried
import Yunetas.Mqtt.Will

/-!
# Acknowledgements

PUBACK, PUBREC, PUBREL and PUBCOMP: how `send_command_with_mid` writes one, and how the handlers of the
peer read one. A handler gets the packet the frame reader recovered, and is modelled up to the point
where the message is looked for.
-/

namespace Yunetas.Mqtt

/-- `CMD_PUBACK`. -/
def cmdPuback : UInt8 := 0x40

/-- `CMD_PUBREC`. -/
def cmdPubrec : UInt8 := 0x50

/-- `CMD_PUBREL`. -/
def cmdPubrel : UInt8 := 0x60

/-- `CMD_PUBCOMP`. -/
def cmdPubcomp : UInt8 := 0x70

/-- `MQTT_RC_SUCCESS`. -/
def rcSuccess : UInt8 := 0

/-- `MQTT_RC_NO_MATCHING_SUBSCRIBERS`. -/
def rcNoMatchingSubscribers : UInt8 := 16

/-- `MQTT_RC_UNSPECIFIED`. -/
def rcUnspecified : UInt8 := 128

/-- `MQTT_RC_IMPLEMENTATION_SPECIFIC`. -/
def rcImplementationSpecific : UInt8 := 131

/-- `MQTT_RC_NOT_AUTHORIZED`. -/
def rcNotAuthorized : UInt8 := 135

/-- `MQTT_RC_TOPIC_NAME_INVALID`. -/
def rcTopicNameInvalid : UInt8 := 144

/-- `MQTT_RC_PACKET_ID_IN_USE`. -/
def rcPacketIdInUse : UInt8 := 145

/-- `MQTT_RC_PACKET_ID_NOT_FOUND`. -/
def rcPacketIdNotFound : UInt8 := 146

/-- `MQTT_RC_QUOTA_EXCEEDED`. -/
def rcQuotaExceeded : UInt8 := 151

/-- `MQTT_RC_PAYLOAD_FORMAT_INVALID`. -/
def rcPayloadFormatInvalid : UInt8 := 153

/-! ## The writer -/

/-- `packet__varint_bytes`. -/
def packetVarintBytes (word : Nat) : Nat :=
  if word < 128 then 1 else if word < 16384 then 2 else if word < 2097152 then 3
  else if word < 268435456 then 4 else 5

theorem length_varint_bytes {number : Nat} (fits : number < 2 ^ 28) :
    (varint 4 number).length = packetVarintBytes number := by
  rw [length_varint fits]
  unfold idLength packetVarintBytes
  split_ifs <;> first | rfl | omega

/-- The properties at a pointer that may be `NULL`. -/
def propsOf (properties : Option Props) : Props := properties.getD Dict.empty

/-- `property__get_remaining_length`. -/
def propertyGetRemainingLength (props : Props) : Nat :=
  propertyGetLengthAll props + packetVarintBytes (propertyGetLengthAll props)

theorem buildMqttPacket_some {maxBlock size : Nat} {command : UInt8} {gbuf : List UInt8}
    (built : buildMqttPacket maxBlock command size = some gbuf) :
    gbuf = command :: varint 5 size := by
  unfold buildMqttPacket at built
  dsimp only at built
  split at built
  · cases built
  · split at built
    · cases built
    · exact (Option.some.inj built).symm

/-- The reason code and the properties are sent. -/
def sendsReason (protocolVersion : Protocol) (reasonCode : UInt8) (properties : Option Props) :
    Bool :=
  protocolVersion = .mqtt5 && (reasonCode ≠ 0 || properties.isSome)

/-- `send_command_with_mid`: the packet that is sent. -/
def sendCommandWithMid (maxBlock : Nat) (protocolVersion : Protocol) (command : UInt8) (mid : Nat)
    (dup : Bool) (reasonCode : UInt8) (properties : Option Props) : Option (List UInt8) :=
  let command := if dup then command ||| 8 else command
  let remainingLength :=
    if sendsReason protocolVersion reasonCode properties then
      2 + 1 + propertyGetRemainingLength (propsOf properties)
    else 2
  (buildMqttPacket maxBlock command remainingLength).bind fun gbuf =>
    if sendsReason protocolVersion reasonCode properties then
      (propertyWriteAll (propsOf properties)).map fun bytes =>
        gbuf ++ (toBigEndian 2 mid ++ reasonCode :: bytes)
    else some (gbuf ++ toBigEndian 2 mid)

/-- `send__puback`. -/
def sendPuback (maxBlock : Nat) (protocolVersion : Protocol) (mid : Nat) (reasonCode : UInt8)
    (properties : Option Props) : Option (List UInt8) :=
  sendCommandWithMid maxBlock protocolVersion cmdPuback mid false reasonCode properties

/-- `send__pubcomp`. -/
def sendPubcomp (maxBlock : Nat) (protocolVersion : Protocol) (mid : Nat)
    (properties : Option Props) : Option (List UInt8) :=
  sendCommandWithMid maxBlock protocolVersion cmdPubcomp mid false 0 properties

/-- `send__pubrec`. -/
def sendPubrec (maxBlock : Nat) (protocolVersion : Protocol) (mid : Nat) (reasonCode : UInt8)
    (properties : Option Props) : Option (List UInt8) :=
  sendCommandWithMid maxBlock protocolVersion cmdPubrec mid false reasonCode properties

/-- `send__pubrel`. -/
def sendPubrel (maxBlock : Nat) (protocolVersion : Protocol) (mid : Nat)
    (properties : Option Props) : Option (List UInt8) :=
  sendCommandWithMid maxBlock protocolVersion (cmdPubrel ||| 2) mid false 0 properties

/-! ## The readers -/

/-- Why an acknowledgement is refused. -/
inductive AckError
  /-- `MOSQ_ERR_MALFORMED_PACKET`. -/
  | malformedPacket
  /-- `MOSQ_ERR_DUPLICATE_PROPERTY`. -/
  | duplicateProperty
  /-- `MOSQ_ERR_PROTOCOL`. -/
  | protocol
  deriving DecidableEq

/-- The error of `property_read_all` is given back. -/
def PropError.ack : PropError → AckError
  | .malformedPacket => .malformedPacket
  | .duplicateProperty => .duplicateProperty

/-- What a handler recovers. -/
structure AckRead where
  mid : Nat
  /-- `reason_code`, when it has a value: `handle__pubrel` declares it without one. -/
  reasonCode : Option UInt8
  deriving DecidableEq

/-- The packet identifier, and what is left. -/
def readMid (gbuf : List UInt8) : Except AckError (Nat × List UInt8) :=
  match mqttReadUint16 gbuf with
  | none => .error .malformedPacket
  | some (mid, gbuf) => if mid = 0 then .error .protocol else .ok (mid, gbuf)

/-- The properties, where more than three bytes are left. -/
def readAckProperties (memory : List UInt8) (command : UInt8) (gbuf : List UInt8) :
    Except AckError (List UInt8) :=
  if gbuf.length > 3 then
    match propertyReadAll memory command.toNat gbuf with
    | .error error => .error error.ack
    | .ok (_, gbuf) => .ok gbuf
  else .ok gbuf

/-- No byte may be left. -/
def ackEnd (mid : Nat) (reasonCode : Option UInt8) (gbuf : List UInt8) : Except AckError AckRead :=
  if gbuf.length > 0 then .error .malformedPacket else .ok ⟨mid, reasonCode⟩

/-- The reason codes of PUBACK and PUBREC. -/
def pubackReasons : List UInt8 :=
  [rcSuccess, rcNoMatchingSubscribers, rcUnspecified, rcImplementationSpecific, rcNotAuthorized,
    rcTopicNameInvalid, rcPacketIdInUse, rcQuotaExceeded, rcPayloadFormatInvalid]

/-- The reason codes of PUBREL and PUBCOMP. -/
def pubrelReasons : List UInt8 := [rcSuccess, rcPacketIdNotFound]

/-- `handle__pubackcomp`, to the end of the packet: the properties are read before the reason code is
checked, those of a PUBCOMP as those of a PUBACK. -/
def handlePubackcomp (memory : List UInt8) (protocolVersion : Protocol) (command : UInt8)
    (packet : Packet) : Except AckError AckRead :=
  if protocolVersion ≠ .mqtt31 ∧ packet.flags ≠ 0x00 then .error .malformedPacket
  else
    match readMid packet.payload with
    | .error error => .error error
    | .ok (mid, gbuf) =>
      if protocolVersion = .mqtt5 ∧ gbuf.length > 2 then
        match mqttReadByte gbuf with
        | none => .error .malformedPacket
        | some (reasonCode, gbuf) =>
          match readAckProperties memory cmdPuback gbuf with
          | .error error => .error error
          | .ok gbuf =>
            if reasonCode ∉ (if command = cmdPuback then pubackReasons else pubrelReasons) then
              .error .protocol
            else ackEnd mid (some reasonCode) gbuf
      else ackEnd mid (some 0) gbuf

/-- The reason code and the properties of PUBREC and PUBREL: the reason code is checked before the
properties are read. -/
def readCheckedReason (memory : List UInt8) (command : UInt8) (reasons : List UInt8) (mid : Nat)
    (gbuf : List UInt8) : Except AckError AckRead :=
  match mqttReadByte gbuf with
  | none => .error .malformedPacket
  | some (reasonCode, gbuf) =>
    if reasonCode ∉ reasons then .error .protocol
    else
      match readAckProperties memory command gbuf with
      | .error error => .error error
      | .ok gbuf => ackEnd mid (some reasonCode) gbuf

/-- `handle__pubrec`, to the end of the packet: flags are refused in every version. -/
def handlePubrec (memory : List UInt8) (protocolVersion : Protocol) (packet : Packet) :
    Except AckError AckRead :=
  if packet.flags ≠ 0 then .error .malformedPacket
  else
    match readMid packet.payload with
    | .error error => .error error
    | .ok (mid, gbuf) =>
      if protocolVersion = .mqtt5 ∧ gbuf.length > 2 then
        readCheckedReason memory cmdPubrec pubackReasons mid gbuf
      else ackEnd mid (some 0) gbuf

/-- `handle__pubrel`, to the end of the packet. -/
def handlePubrel (memory : List UInt8) (protocolVersion : Protocol) (packet : Packet) :
    Except AckError AckRead :=
  if protocolVersion ≠ .mqtt31 ∧ packet.flags ≠ 0x02 then .error .malformedPacket
  else
    match readMid packet.payload with
    | .error error => .error error
    | .ok (mid, gbuf) =>
      if protocolVersion = .mqtt5 ∧ gbuf.length > 2 then
        readCheckedReason memory cmdPubrel pubrelReasons mid gbuf
      else ackEnd mid none gbuf

end Yunetas.Mqtt
