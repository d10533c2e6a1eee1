import Yunetas.Gobj.IStream
import Yunetas.Lib.Varint

/-!
# Frames of the MQTT protocol

How `c_prot_mqtt2.c` cuts the bytes of a connection into packets, chunk by chunk, and how it starts a packet
to send. The packet handlers are a parameter: what they answer depends on the packets before.
-/

namespace Yunetas.Mqtt

open Gobj (IStream)

/-- `CMD_CONNECT`. -/
def cmdConnect : UInt8 := 0x10

/-- `CMD_CONNACK`. -/
def cmdConnack : UInt8 := 0x20

/-- `CMD_PINGREQ`. -/
def cmdPingreq : UInt8 := 0xC0

/-- `CMD_PINGRESP`. -/
def cmdPingresp : UInt8 := 0xD0

/-- `CMD_DISCONNECT`. -/
def cmdDisconnect : UInt8 := 0xE0

/-- `CMD_AUTH`. -/
def cmdAuth : UInt8 := 0xF0

/-- `FRAME_HEAD`. -/
structure FrameHead where
  command : UInt8 := 0
  flags : UInt8 := 0
  busy : Bool := false
  mustReadRemainingLength2 : Bool := false
  mustReadRemainingLength3 : Bool := false
  mustReadRemainingLength4 : Bool := false
  frameLength : Nat := 0
  deriving DecidableEq

/-- A packet that is recovered. -/
structure Packet where
  command : UInt8
  flags : UInt8
  payload : List UInt8
  deriving DecidableEq

/-- What becomes of a packet in `frame_completed`. -/
inductive Handled
  | accepted
  | refused
  | disconnected
  deriving DecidableEq

/-- What a connection depends on. -/
structure FrameConf where
  iamServer : Bool
  maxPacketSize : Int
  /-- `gbmem_get_maximum_block`. -/
  maxBlock : Nat
  /-- `in_session`, after some packets. -/
  inSession : List Packet → Bool
  handles : List Packet → Packet → Handled

/-- The states of `C_PROT_MQTT2`. -/
inductive FrameState
  /-- `ST_WAIT_HANDSHAKE`. -/
  | waitHandshake
  /-- `ST_WAIT_FRAME_HEADER`. -/
  | waitFrameHeader
  /-- `ST_WAIT_PAYLOAD`. -/
  | waitPayload
  /-- `ST_DISCONNECTED`. -/
  | disconnected
  | crashed
  deriving DecidableEq

/-- The side of a connection that receives. -/
structure Receiver where
  state : FrameState
  frameHead : FrameHead
  istreamFrame : IStream
  /-- The bytes of `istream_payload`. -/
  istreamPayload : List UInt8
  packets : List Packet
  deriving DecidableEq

/-- `decode_head`, after `framehead_prepare_new_frame`. -/
def decodeHead (byte1 byte2 : UInt8) : FrameHead where
  command := byte1 &&& 0xF0
  flags := byte1 &&& 0x0F
  busy := true
  mustReadRemainingLength2 := continues byte2
  frameLength := sevenBits byte2

/-- What `framehead_consume` comes to: what is not consumed is left only by a header that is complete. -/
inductive Consumed
  | waits (frame : FrameHead) (istream : IStream)
  | refused
  | crashed
  | done (frame : FrameHead) (istream : IStream) (bf : List UInt8)

/-- Go on when a part of the header is complete. -/
def Consumed.andThen (part : Consumed)
    (next : FrameHead → IStream → List UInt8 → Consumed) : Consumed :=
  match part with
  | .done frame istream bf => next frame istream bf
  | other => other

/-- The first two bytes of a header. -/
def readHead (conf : FrameConf) (packets : List Packet) (frame : FrameHead) (istream : IStream)
    (bf : List UInt8) : Consumed :=
  if frame.busy then .done frame istream bf
  else
    match istream.consume 2 bf with
    | (false, istream, _) => .waits frame istream
    | (true, istream, bf) =>
      match istream.extract with
      | some ([byte1, byte2], istream) =>
        let frame := decodeHead byte1 byte2
        if !conf.inSession packets && conf.iamServer && frame.command != cmdConnect then .refused
        else .done frame istream bf
      | _ => .crashed

/-- One more byte of the remaining length, where it must be read. The flag that it must be read is not
cleared. -/
def readRemainingLength (must : FrameHead → Bool) (factor : Nat)
    (continued : FrameHead → Option FrameHead) (frame : FrameHead) (istream : IStream)
    (bf : List UInt8) : Consumed :=
  if must frame then
    match istream.consume 1 bf with
    | (false, istream, _) => .waits frame istream
    | (true, istream, bf) =>
      match istream.extract with
      | some (byte :: _, istream) =>
        let frame := { frame with frameLength := frame.frameLength + sevenBits byte * factor }
        if continues byte then
          (continued frame).elim .refused fun frame => .done frame istream bf
        else .done frame istream bf
      | _ => .crashed
  else .done frame istream bf

/-- The second byte of the remaining length. -/
def readRemainingLength2 : FrameHead → IStream → List UInt8 → Consumed :=
  readRemainingLength FrameHead.mustReadRemainingLength2 (1 * 128)
    fun frame => some { frame with mustReadRemainingLength3 := true }

/-- The third byte. -/
def readRemainingLength3 : FrameHead → IStream → List UInt8 → Consumed :=
  readRemainingLength FrameHead.mustReadRemainingLength3 (128 * 128)
    fun frame => some { frame with mustReadRemainingLength4 := true }

/-- The fourth byte, the last one. -/
def readRemainingLength4 : FrameHead → IStream → List UInt8 → Consumed :=
  readRemainingLength FrameHead.mustReadRemainingLength4 (128 * 128 * 128) fun _ => none

/-- The checks of a header that is complete. -/
def headerAdmitted (conf : FrameConf) (command : UInt8) (frameLength : Nat) : Bool :=
  !((command == cmdPingreq || command == cmdPingresp) && frameLength != 0) &&
  !(frameLength == 0 && command != cmdDisconnect && command != cmdAuth && command != cmdPingreq &&
      command != cmdPingresp) &&
  !(conf.iamServer && conf.maxPacketSize > 0 && (frameLength : Int) > conf.maxPacketSize)

/-- `framehead_consume`. -/
def frameheadConsume (conf : FrameConf) (packets : List Packet) (frame : FrameHead)
    (istream : IStream) (bf : List UInt8) : Consumed :=
  ((((readHead conf packets frame istream bf).andThen readRemainingLength2).andThen
    readRemainingLength3).andThen readRemainingLength4).andThen fun frame istream bf =>
      if headerAdmitted conf frame.command frame.frameLength then .done frame istream bf
      else .refused

/-- `ws_close`, of the state. -/
def Receiver.wsClose (receiver : Receiver) : Receiver := { receiver with state := .disconnected }

/-- `start_wait_frame_header`. -/
def Receiver.startWaitFrameHeader (receiver : Receiver) : Receiver :=
  { receiver with
    state := .waitFrameHeader
    frameHead := {}
    istreamFrame := receiver.istreamFrame.reset }

/-- `frame_completed`, and `ws_close` where it is negative. -/
def frameCompleted (conf : FrameConf) (receiver : Receiver) : Receiver :=
  let packet : Packet :=
    ⟨receiver.frameHead.command, receiver.frameHead.flags, receiver.istreamPayload⟩
  let handled := conf.handles receiver.packets packet
  let receiver :=
    { receiver with packets := receiver.packets ++ [packet], istreamPayload := [] }
  match handled with
  | .accepted => receiver.startWaitFrameHeader
  | .refused => receiver.wsClose
  | .disconnected => receiver.wsClose

/-- The checks of `ac_process_handshake` on a header. -/
def handshakeAdmits (conf : FrameConf) (command : UInt8) (frameLength : Nat) : Bool :=
  (command == if conf.iamServer then cmdConnect else cmdConnack) && !(frameLength > 1000)

/-- What is done with a header that is complete: `istream_payload` is created, or the packet has no
payload. -/
def headerCompleted (conf : FrameConf) (admits : UInt8 → Nat → Bool) (receiver : Receiver) :
    Receiver :=
  if !admits receiver.frameHead.command receiver.frameHead.frameLength then receiver.wsClose
  else if receiver.frameHead.frameLength ≠ 0 then
    if receiver.frameHead.frameLength + 1 > conf.maxBlock then receiver.wsClose
    else { receiver with state := .waitPayload, istreamPayload := [] }
  else frameCompleted conf { receiver with istreamPayload := [] }

/-- One round of the loop over the bytes of a chunk where a header is waited for: the bytes left for
the next one, none once the connection is closed. -/
def headerRound (conf : FrameConf) (admits : UInt8 → Nat → Bool) (receiver : Receiver)
    (gbuf : List UInt8) : Receiver × List UInt8 :=
  match frameheadConsume conf receiver.packets receiver.frameHead receiver.istreamFrame gbuf with
  | .refused => (receiver.wsClose, [])
  | .crashed => ({ receiver with state := .crashed }, [])
  | .waits frame istream => ({ receiver with frameHead := frame, istreamFrame := istream }, [])
  | .done frame istream bf =>
    if bf.length = gbuf.length then (receiver.wsClose, [])
    else
      (headerCompleted conf admits { receiver with frameHead := frame, istreamFrame := istream }, bf)

/-- `ac_process_handshake`. A packet of the handshake has a payload, so its loop has one round. -/
def acProcessHandshake (conf : FrameConf) : Receiver → List UInt8 → Receiver × List UInt8 :=
  headerRound conf (handshakeAdmits conf)

/-- `ac_process_frame_header`. -/
def acProcessFrameHeader (conf : FrameConf) : Receiver → List UInt8 → Receiver × List UInt8 :=
  headerRound conf fun _ _ => true

/-- `ac_process_payload_data`. -/
def acProcessPayloadData (conf : FrameConf) (receiver : Receiver) (gbuf : List UInt8) :
    Receiver × List UInt8 :=
  let needed := receiver.frameHead.frameLength - receiver.istreamPayload.length
  let receiver := { receiver with istreamPayload := receiver.istreamPayload ++ gbuf.take needed }
  if needed > gbuf.length then (receiver, [])
  else (frameCompleted conf receiver, gbuf.drop needed)

/-- The action of `EV_RX_DATA` in a state, up to the next change of state. -/
def Receiver.action (conf : FrameConf) (receiver : Receiver) (gbuf : List UInt8) :
    Receiver × List UInt8 :=
  match receiver.state with
  | .waitHandshake => acProcessHandshake conf receiver gbuf
  | .waitFrameHeader => acProcessFrameHeader conf receiver gbuf
  | .waitPayload => acProcessPayloadData conf receiver gbuf
  | .disconnected => (receiver, [])
  | .crashed => (receiver, [])

/-- `EV_RX_DATA` is sent again while bytes are left, each time with fewer. -/
def Receiver.rounds (conf : FrameConf) : Nat → Receiver → List UInt8 → Receiver
  | 0, receiver, _ => receiver
  | fuel + 1, receiver, gbuf =>
    if gbuf = [] then receiver
    else
      let next := receiver.action conf gbuf
      Receiver.rounds conf fuel next.1 next.2

/-- `EV_RX_DATA`. -/
def Receiver.rxData (conf : FrameConf) (receiver : Receiver) (gbuf : List UInt8) : Receiver :=
  receiver.rounds conf gbuf.length gbuf

/-- `build_mqtt_packet`: the start of the packet. -/
def buildMqttPacket (maxBlock : Nat) (command : UInt8) (size : Nat) : Option (List UInt8) :=
  let remainingBytes := varint 5 size
  if remainingBytes.length = 5 then none
  else if size + 1 + remainingBytes.length + 1 > maxBlock then none
  else some (command :: remainingBytes)

/-- A packet is written. -/
def writePacket (maxBlock : Nat) (packet : Packet) : Option (List UInt8) :=
  (buildMqttPacket maxBlock (packet.command ||| packet.flags) packet.payload.length).map
    (· ++ packet.payload)

/-- A connection as `start_wait_handshake` leaves it. -/
def Receiver.start : Receiver where
  state := .waitHandshake
  frameHead := {}
  istreamFrame := { size := 5 }
  istreamPayload := []
  packets := []

end Yunetas.Mqtt
