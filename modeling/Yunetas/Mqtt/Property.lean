import Yunetas.Gobj.Base64
import Yunetas.Lib.Bytes
import Yunetas.Lib.Dict
import Yunetas.Mqtt.Frames
import Yunetas.Mqtt.Utf8

/-!
# Properties of MQTT 5

The properties of a packet are a json object. `property_read_all` reads it from a packet,
`property__write_all` writes it to one, and `property__get_length_all` tells how many bytes will be
written. The switches of the three group the 27 identifiers alike, by the types of
`mosquitto_string_to_property_info`, so each is written here as a match on that type.
-/

namespace Yunetas.Mqtt

open Yunetas.Gobj

/-! ## Identifiers -/

/-- `MQTT_PROP_TYPE_*`. -/
inductive PropType
  | byte
  | int16
  | int32
  | varint
  | binary
  | string
  | stringPair
  deriving DecidableEq

/-- The number of a type. -/
def PropType.code : PropType → Nat
  | .byte => 1
  | .int16 => 2
  | .int32 => 3
  | .varint => 4
  | .binary => 5
  | .string => 6
  | .stringPair => 7

/-- `MQTT_PROP_*`. -/
inductive MqttProp
  | payloadFormatIndicator
  | messageExpiryInterval
  | contentType
  | responseTopic
  | correlationData
  | subscriptionIdentifier
  | sessionExpiryInterval
  | assignedClientIdentifier
  | serverKeepAlive
  | authenticationMethod
  | authenticationData
  | requestProblemInformation
  | willDelayInterval
  | requestResponseInformation
  | responseInformation
  | serverReference
  | reasonString
  | receiveMaximum
  | topicAliasMaximum
  | topicAlias
  | maximumQos
  | retainAvailable
  | userProperty
  | maximumPacketSize
  | wildcardSubAvailable
  | subscriptionIdAvailable
  | sharedSubAvailable
  deriving DecidableEq

/-- The number of an identifier. -/
def MqttProp.code : MqttProp → Nat
  | .payloadFormatIndicator => 1
  | .messageExpiryInterval => 2
  | .contentType => 3
  | .responseTopic => 8
  | .correlationData => 9
  | .subscriptionIdentifier => 11
  | .sessionExpiryInterval => 17
  | .assignedClientIdentifier => 18
  | .serverKeepAlive => 19
  | .authenticationMethod => 21
  | .authenticationData => 22
  | .requestProblemInformation => 23
  | .willDelayInterval => 24
  | .requestResponseInformation => 25
  | .responseInformation => 26
  | .serverReference => 28
  | .reasonString => 31
  | .receiveMaximum => 33
  | .topicAliasMaximum => 34
  | .topicAlias => 35
  | .maximumQos => 36
  | .retainAvailable => 37
  | .userProperty => 38
  | .maximumPacketSize => 39
  | .wildcardSubAvailable => 40
  | .subscriptionIdAvailable => 41
  | .sharedSubAvailable => 42

/-- `mqtt_property_identifier_to_string`. -/
def mqttPropertyIdentifierToString : MqttProp → String
  | .payloadFormatIndicator => "payload-format-indicator"
  | .messageExpiryInterval => "message-expiry-interval"
  | .contentType => "content-type"
  | .responseTopic => "response-topic"
  | .correlationData => "correlation-data"
  | .subscriptionIdentifier => "subscription-identifier"
  | .sessionExpiryInterval => "session-expiry-interval"
  | .assignedClientIdentifier => "assigned-client-identifier"
  | .serverKeepAlive => "server-keep-alive"
  | .authenticationMethod => "authentication-method"
  | .authenticationData => "authentication-data"
  | .requestProblemInformation => "request-problem-information"
  | .willDelayInterval => "will-delay-interval"
  | .requestResponseInformation => "request-response-information"
  | .responseInformation => "response-information"
  | .serverReference => "server-reference"
  | .reasonString => "reason-string"
  | .receiveMaximum => "receive-maximum"
  | .topicAliasMaximum => "topic-alias-maximum"
  | .topicAlias => "topic-alias"
  | .maximumQos => "maximum-qos"
  | .retainAvailable => "retain-available"
  | .userProperty => "user-property"
  | .maximumPacketSize => "maximum-packet-size"
  | .wildcardSubAvailable => "wildcard-subscription-available"
  | .subscriptionIdAvailable => "subscription-identifier-available"
  | .sharedSubAvailable => "shared-subscription-available"

/-- The identifiers in the order `mosquitto_string_to_property_info` tries them. -/
def MqttProp.all : List MqttProp :=
  [.payloadFormatIndicator, .messageExpiryInterval, .contentType, .responseTopic, .correlationData,
    .subscriptionIdentifier, .sessionExpiryInterval, .assignedClientIdentifier, .serverKeepAlive,
    .authenticationMethod, .authenticationData, .requestProblemInformation, .willDelayInterval,
    .requestResponseInformation, .responseInformation, .serverReference, .reasonString,
    .receiveMaximum, .topicAliasMaximum, .topicAlias, .maximumQos, .retainAvailable, .userProperty,
    .maximumPacketSize, .wildcardSubAvailable, .subscriptionIdAvailable, .sharedSubAvailable]

/-- The type that `mosquitto_string_to_property_info` gives an identifier. -/
def MqttProp.type : MqttProp → PropType
  | .payloadFormatIndicator | .requestProblemInformation | .requestResponseInformation
  | .maximumQos | .retainAvailable | .wildcardSubAvailable | .subscriptionIdAvailable
  | .sharedSubAvailable => .byte
  | .serverKeepAlive | .receiveMaximum | .topicAliasMaximum | .topicAlias => .int16
  | .messageExpiryInterval | .sessionExpiryInterval | .willDelayInterval
  | .maximumPacketSize => .int32
  | .subscriptionIdentifier => .varint
  | .correlationData | .authenticationData => .binary
  | .contentType | .responseTopic | .assignedClientIdentifier | .authenticationMethod
  | .responseInformation | .serverReference | .reasonString => .string
  | .userProperty => .stringPair

/-- The identifier of a number. -/
def MqttProp.ofCode? (identifier : Nat) : Option MqttProp := all.find? fun prop =>
  prop.code = identifier

/-- `mosquitto_string_to_property_info`: names are compared without case. -/
def mosquittoStringToPropertyInfo (propname : String) : Option MqttProp :=
  MqttProp.all.find? fun prop =>
    propname.toList.map Char.toLower = (mqttPropertyIdentifierToString prop).toList

/-! ## The json object -/

/-- A json value, as far as properties use one. The integers read and set are not negative. -/
inductive Value
  | integer (number : Nat)
  | string (bytes : List UInt8)
  deriving DecidableEq

/-- An item of `user-property`. -/
structure UserProperty where
  identifier : Nat
  name : List UInt8
  type : Nat
  /-- `value`, when the object has it. -/
  value : Option (List UInt8)
  deriving DecidableEq

/-- What is stored under the name of a property. -/
inductive Property
  | plain (value : Value)
  /-- The object `property_read` makes; it may lack its `value`. -/
  | object (identifier : Nat) (name : String) (type : Nat) (value : Option Value)
  | users (items : List UserProperty)
  | ids (items : List Nat)
  deriving DecidableEq

/-- A json object of properties. -/
abbrev Props := Dict String Property

/-- The value of a property, of its object when it is one. -/
def Property.value? : Property → Option Value
  | .plain value => some value
  | .object _ _ _ value => value
  | .users _ | .ids _ => none

/-- `json_integer_value`. -/
def jsonIntegerValue : Option Value → Nat
  | some (.integer number) => number
  | _ => 0

/-- `json_string_value`. -/
def jsonStringValue : Option Value → Option (List UInt8)
  | some (.string bytes) => some bytes
  | _ => none

/-- The bytes of a C string before its end. -/
def cString (bytes : List UInt8) : List UInt8 := bytes.takeWhile (· ≠ 0)

/-- Ascii characters as bytes. -/
def asciiBytes (text : List Char) : List UInt8 := text.map fun ch => UInt8.ofNat ch.toNat

/-- Bytes as ascii characters. -/
def asciiChars (bytes : List UInt8) : List Char := bytes.map fun byte => Char.ofNat byte.toNat

/-- The bytes of `gbuffer_base64_to_binary`. -/
def gbufferBase64ToBinary (base64 : List UInt8) : List UInt8 :=
  (b64Decode (b64OutputDecodeLen base64.length) ⟨[], 0, 0⟩ (asciiChars base64)).getD []

/-- The text of `gbuffer_binary_to_base64`. -/
def gbufferBinaryToBase64 (src : List UInt8) : List UInt8 :=
  asciiBytes ((b64Encode (b64OutputEncodeLen src.length) src 0).getD [])

/-- `json_stringn`: a text of no bytes is at `NULL`, and no string is made of it. -/
def jsonStringn (str : List UInt8) : Option (List UInt8) :=
  if str = [] then none else if utf8CheckString str then some str else none

/-! ## The length -/

/-- The identifier that the length and the writer use; 0 when there is none. -/
def identifierOf (propertyName : String) (value : Property) : Nat :=
  match mosquittoStringToPropertyInfo propertyName with
  | some prop => prop.code
  | none =>
    match value with
    | .object identifier _ _ _ => identifier
    | _ => 0

/-- The bytes of a number of seven bits a byte, none for one too large. -/
def idLength (id : Nat) : Nat :=
  if id < 128 then 1 else if id < 16384 then 2 else if id < 2097152 then 3
  else if id < 268435456 then 4 else 0

/-- `str_len` of `property__get_length`. -/
def strLen (type : PropType) (value : Option Value) : Nat :=
  match jsonStringValue value with
  | none => 0
  | some bytes =>
    if type = .binary then (gbufferBase64ToBinary (cString bytes)).length
    else (cString bytes).length

/-- The switch of `property__get_length`. -/
def lengthOf (type : PropType) (value : Property) : Nat :=
  match type with
  | .byte => 2
  | .int16 => 3
  | .int32 => 5
  | .varint =>
    match value with
    | .ids items => (items.map fun id => 1 + idLength id).sum
    | _ =>
      if jsonIntegerValue value.value? < 268435456 then
        1 + idLength (jsonIntegerValue value.value?)
      else 0
  | .binary | .string => 3 + strLen type value.value?
  | .stringPair =>
    match value with
    | .users items =>
      (items.map fun item =>
        5 + (cString item.name).length + (cString (item.value.getD [])).length).sum
    | _ => 5 + strLen type value.value?

/-- `property__get_length`. -/
def propertyGetLength (propertyName : String) (value : Property) : Nat :=
  match MqttProp.ofCode? (identifierOf propertyName value) with
  | none => 0
  | some prop => lengthOf prop.type value

/-- `property__get_length_all`. -/
def propertyGetLengthAll (props : Props) : Nat :=
  (props.entries.map fun entry => propertyGetLength entry.1 entry.2).sum % 2 ^ 32

/-! ## The writer -/

/-- The bytes of `mqtt_write_string`. -/
def mqttWriteString (str : List UInt8) : List UInt8 :=
  toBigEndian 2 ((cString str).length % 2 ^ 16) ++
    (cString str).take ((cString str).length % 2 ^ 16)

/-- The bytes of `mqtt_write_varint`. -/
def mqttWriteVarint (word : Nat) : List UInt8 := varint 5 (word % 2 ^ 32)

/-- The items of an array, each but the first behind the identifier again. -/
def writeItems {α : Type} (identifier : Nat) (write : α → List UInt8) : List α → List UInt8
  | [] => []
  | first :: rest => write first ++ rest.flatMap fun item => mqttWriteVarint identifier ++ write item

/-- The name of an object. -/
def Property.name : Property → List UInt8
  | .object _ name _ _ => asciiBytes name.toList
  | _ => []

/-- The switch of `property__write`; nothing when `strlen` is called on `NULL`. -/
def writeValue (identifier : Nat) (type : PropType) (value : Property) : Option (List UInt8) :=
  match type with
  | .byte => some (toBigEndian 1 (jsonIntegerValue value.value?))
  | .int16 => some (toBigEndian 2 (jsonIntegerValue value.value?))
  | .int32 => some (toBigEndian 4 (jsonIntegerValue value.value?))
  | .varint =>
    match value with
    | .ids items => some (writeItems identifier mqttWriteVarint items)
    | _ => some (mqttWriteVarint (jsonIntegerValue value.value?))
  | .string => (jsonStringValue value.value?).map mqttWriteString
  | .binary =>
    (jsonStringValue value.value?).map fun base64 =>
      let data := gbufferBase64ToBinary (cString base64)
      toBigEndian 2 data.length ++ data.take (data.length % 2 ^ 16)
  | .stringPair =>
    match value with
    | .users items =>
      some (writeItems identifier
        (fun item => mqttWriteString item.name ++ mqttWriteString (item.value.getD [])) items)
    | _ =>
      (jsonStringValue value.value?).map fun str =>
        mqttWriteString value.name ++ mqttWriteString str

/-- `property__write`. -/
def propertyWrite (propertyName : String) (value : Property) : Option (List UInt8) :=
  let identifier := identifierOf propertyName value
  if identifier = 0 then some []
  else
    match MqttProp.ofCode? identifier with
    | none => some (mqttWriteVarint identifier)
    | some prop => (writeValue identifier prop.type value).map (mqttWriteVarint identifier ++ ·)

/-- The properties of `property__write_all`, one after another. -/
def propertyWriteEntries : List (String × Property) → Option (List UInt8)
  | [] => some []
  | entry :: rest =>
    (propertyWrite entry.1 entry.2).bind fun bytes => (propertyWriteEntries rest).map (bytes ++ ·)

/-- `property__write_all` with their length in front. -/
def propertyWriteAll (props : Props) : Option (List UInt8) :=
  (propertyWriteEntries props.entries).map (mqttWriteVarint (propertyGetLengthAll props) ++ ·)

/-! ## The reader

What is left of the packet is a list of bytes; `memory` is what lies behind the packet. -/

/-- `mqtt_read_byte`. -/
def mqttReadByte : List UInt8 → Option (UInt8 × List UInt8)
  | byte :: rest => some (byte, rest)
  | [] => none

/-- `mqtt_read_uint16`. -/
def mqttReadUint16 : List UInt8 → Option (Nat × List UInt8)
  | msb :: lsb :: rest => some (msb.toNat * 256 + lsb.toNat, rest)
  | _ => none

/-- `mqtt_read_uint32`. -/
def mqttReadUint32 (gbuf : List UInt8) : Option (Nat × List UInt8) :=
  if gbuf.length < 4 then none else some (ofBigEndian (gbuf.take 4), gbuf.drop 4)

/-- `mqtt_read_binary`; no bytes are at `NULL`. -/
def mqttReadBinary (gbuf : List UInt8) : Option (List UInt8 × List UInt8) :=
  match mqttReadUint16 gbuf with
  | none => none
  | some (slen, gbuf) =>
    if gbuf.length < slen then none else some (gbuf.take slen, gbuf.drop slen)

/-- `mqtt_read_string`. -/
def mqttReadString (memory gbuf : List UInt8) : Option (List UInt8 × List UInt8) :=
  match mqttReadBinary gbuf with
  | none => none
  | some (str, gbuf) =>
    if str ≠ [] ∧ mqttValidateUtf8 (gbuf ++ memory) str = false then none else some (str, gbuf)

/-- The loop of `mqtt_read_varint`: the number, its bytes and what is left. -/
def readVarintBytes : Nat → Nat → Nat → Nat → List UInt8 → Option (Nat × Nat × List UInt8)
  | 0, _, _, _, _ => none
  | _ + 1, _, _, _, [] => none
  | left + 1, lbytes, mult, lword, byte :: gbuf =>
    let lword := lword + sevenBits byte * mult
    if continues byte then readVarintBytes left (lbytes + 1) (mult * 128) lword gbuf
    -- A last byte of nothing is an overlong encoding.
    else if lbytes + 1 > 1 ∧ byte = 0 then none
    else some (lword, lbytes + 1, gbuf)

/-- `mqtt_read_varint`. -/
def mqttReadVarint (gbuf : List UInt8) : Option (Nat × Nat × List UInt8) :=
  readVarintBytes 4 0 1 0 gbuf

/-- Why properties are refused. -/
inductive PropError
  /-- `MOSQ_ERR_MALFORMED_PACKET`. -/
  | malformedPacket
  /-- `MOSQ_ERR_DUPLICATE_PROPERTY`. -/
  | duplicateProperty
  deriving DecidableEq

/-- `*len -= consumed` on a `uint32_t`. -/
def lenMinus (len consumed : Nat) : Nat := (len + 2 ^ 32 - consumed) % 2 ^ 32

/-- `property_len_consume`. -/
def propertyLenConsume (len consumed : Nat) : Option Nat :=
  if len < consumed then none else some (lenMinus len consumed)

/-- The value of a string that was read. -/
def stringValue (str : List UInt8) : Option Value := (jsonStringn str).map .string

/-- The switch of `property_read` but for user properties: what is left, the length and the value. -/
def readValue (memory : List UInt8) (type : PropType) (gbuf : List UInt8) (len : Nat) :
    Option (List UInt8 × Nat × Option Value) :=
  match type with
  | .byte =>
    (mqttReadByte gbuf).map fun (byte, gbuf) =>
      (gbuf, lenMinus len 1, some (.integer byte.toNat))
  | .int16 =>
    (mqttReadUint16 gbuf).map fun (word, gbuf) => (gbuf, lenMinus len 2, some (.integer word))
  | .int32 =>
    (mqttReadUint32 gbuf).map fun (word, gbuf) => (gbuf, lenMinus len 4, some (.integer word))
  | .varint =>
    (mqttReadVarint gbuf).map fun (word, byteCount, gbuf) =>
      (gbuf, lenMinus len byteCount, some (.integer word))
  | .string =>
    (mqttReadString memory gbuf).bind fun (str, gbuf) =>
      (propertyLenConsume len (2 + str.length)).map fun len => (gbuf, len, stringValue str)
  | .binary =>
    (mqttReadBinary gbuf).bind fun (data, gbuf) =>
      (propertyLenConsume len (2 + data.length)).map fun len =>
        (gbuf, len, some (.string (gbufferBinaryToBase64 data)))
  | .stringPair => none

/-- The item of the two texts of a user property. The name of the property stays where no string is
made of the name read. -/
def UserProperty.ofTexts (name value : List UInt8) : UserProperty where
  identifier := MqttProp.userProperty.code
  name := (jsonStringn name).getD (asciiBytes (mqttPropertyIdentifierToString .userProperty).toList)
  type := MqttProp.userProperty.type.code
  value := jsonStringn value

/-- The two strings of a user property. -/
def readUserProperty (memory gbuf : List UInt8) (len : Nat) :
    Option (List UInt8 × Nat × UserProperty) :=
  (mqttReadString memory gbuf).bind fun (name, gbuf) =>
    (propertyLenConsume len (2 + name.length)).bind fun len =>
      (mqttReadString memory gbuf).bind fun (value, gbuf) =>
        (propertyLenConsume len (2 + value.length)).map fun len =>
          (gbuf, len, UserProperty.ofTexts name value)

/-- The user properties read so far. -/
def userItems (allProperties : Props) : List UserProperty :=
  match allProperties.get? (mqttPropertyIdentifierToString .userProperty) with
  | some (.users items) => items
  | _ => []

/-- The object of a property that was read. -/
def MqttProp.object (prop : MqttProp) (value : Option Value) : Property :=
  .object prop.code (mqttPropertyIdentifierToString prop) prop.type.code value

/-- `property_read`: what is left of the packet and of the length, and the properties. -/
def propertyRead (memory gbuf : List UInt8) (len : Nat) (allProperties : Props) :
    Except PropError (List UInt8 × Nat × Props) :=
  match mqttReadVarint gbuf with
  | none => .error .malformedPacket
  | some (identifier, _, gbuf) =>
    match MqttProp.ofCode? identifier with
    | none => .error .malformedPacket
    | some prop =>
      if prop = .userProperty then
        match readUserProperty memory gbuf (lenMinus len 1) with
        | none => .error .malformedPacket
        | some (gbuf, len, item) =>
          .ok (gbuf, len, allProperties.set (mqttPropertyIdentifierToString .userProperty)
            (.users (userItems allProperties ++ [item])))
      else if (allProperties.get? (mqttPropertyIdentifierToString prop)).isSome then
        .error .duplicateProperty
      else
        match readValue memory prop.type gbuf (lenMinus len 1) with
        | none => .error .malformedPacket
        | some (gbuf, len, value) =>
          .ok (gbuf, len, allProperties.set (mqttPropertyIdentifierToString prop)
            (prop.object value))

/-- The loop of `property_read_all`. Each turn reads a byte at least, so as many turns as there are
bytes are enough: a turn more would find none. -/
def readProperties (memory : List UInt8) : Nat → List UInt8 → Nat → Props →
    Except PropError (List UInt8 × Props)
  | turns, gbuf, len, allProperties =>
    if len = 0 then .ok (gbuf, allProperties)
    else
      match turns with
      | 0 => .error .malformedPacket
      | turns + 1 =>
        match propertyRead memory gbuf len allProperties with
        | .error error => .error error
        | .ok (gbuf, len, allProperties) => readProperties memory turns gbuf len allProperties

/-! ## The check of what was read -/

/-- `CMD_PUBLISH`. -/
def cmdPublish : UInt8 := 0x30

/-- `CMD_SUBSCRIBE`. -/
def cmdSubscribe : UInt8 := 0x80

/-- `CMD_UNSUBSCRIBE`. -/
def cmdUnsubscribe : UInt8 := 0xA0

/-- `CMD_WILL`: the properties of a will have a number of their own. -/
def cmdWill : Nat := 0x100

/-- `mosquitto_property_check_command`. -/
def mosquittoPropertyCheckCommand (command : Nat) (prop : MqttProp) : Bool :=
  match prop with
  | .payloadFormatIndicator | .messageExpiryInterval | .contentType | .responseTopic
  | .correlationData => command = cmdPublish.toNat || command = cmdWill
  | .subscriptionIdentifier => command = cmdPublish.toNat || command = cmdSubscribe.toNat
  | .sessionExpiryInterval =>
    command = cmdConnect.toNat || command = cmdConnack.toNat || command = cmdDisconnect.toNat
  | .authenticationMethod | .authenticationData =>
    command = cmdConnect.toNat || command = cmdConnack.toNat || command = cmdAuth.toNat
  | .assignedClientIdentifier | .serverKeepAlive | .responseInformation | .maximumQos
  | .retainAvailable | .wildcardSubAvailable | .subscriptionIdAvailable | .sharedSubAvailable =>
    command = cmdConnack.toNat
  | .willDelayInterval => command = cmdWill
  | .requestProblemInformation | .requestResponseInformation => command = cmdConnect.toNat
  | .serverReference => command = cmdConnack.toNat || command = cmdDisconnect.toNat
  | .reasonString =>
    !(command = cmdConnect.toNat || command = cmdPublish.toNat || command = cmdSubscribe.toNat ||
      command = cmdUnsubscribe.toNat)
  | .receiveMaximum | .topicAliasMaximum | .maximumPacketSize =>
    command = cmdConnect.toNat || command = cmdConnack.toNat
  | .topicAlias => command = cmdPublish.toNat
  | .userProperty => true

/-- The tests of `mqtt_property_check_all` on the value of a property. -/
def valueAdmitted (prop : MqttProp) (value : Nat) : Bool :=
  match prop.type with
  | .byte => value ≤ 1
  | _ =>
    if prop = .maximumPacketSize ∨ prop = .receiveMaximum ∨ prop = .topicAlias then value ≠ 0
    else true

/-- The identifier that `mqtt_property_check_all` sees. -/
def checkedIdentifier : Property → Nat
  | .users _ | .ids _ => MqttProp.userProperty.code
  | .object identifier _ _ _ => identifier
  | .plain _ => 0

/-- `mqtt_property_check_all` on one property. -/
def propertyChecked (command : Nat) (property : Property) : Bool :=
  match MqttProp.ofCode? (checkedIdentifier property) with
  | none => false
  | some prop =>
    valueAdmitted prop (jsonIntegerValue property.value?) &&
      mosquittoPropertyCheckCommand command prop

/-- `mqtt_property_check_all`. -/
def mqttPropertyCheckAll (command : Nat) (allProperties : Props) : Bool :=
  allProperties.entries.all fun entry => propertyChecked command entry.2

/-- `property_read_all`: the properties and what is left of the packet. -/
def propertyReadAll (memory : List UInt8) (command : Nat) (gbuf : List UInt8) :
    Except PropError (Props × List UInt8) :=
  match mqttReadVarint gbuf with
  | none => .error .malformedPacket
  | some (proplen, _, gbuf) =>
    match readProperties memory gbuf.length gbuf proplen Dict.empty with
    | .error error => .error error
    | .ok (gbuf, allProperties) =>
      if mqttPropertyCheckAll command allProperties then .ok (allProperties, gbuf)
      else .error .malformedPacket

end Yunetas.Mqtt
