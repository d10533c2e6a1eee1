import Yunetas.Gobj.Gbuffer
import Yunetas.Gobj.IStream
import Yunetas.Lib.Bytes
import Yunetas.Lib.Chunked

/-!
# The tcp4h protocol

A message goes behind a header of 4 bytes, the length of both in network order. A receiver waits for a
header or for a payload, and hands the rest of a chunk to itself. The timers are left out: no action of
the receiver depends on them.
-/

namespace Yunetas.Tcp4h

open Gobj (IStream gbufferCreate gbufferAppend)

/-- `sizeof(HEADER_ERPL4)`. -/
def headerSize : Nat := 4

/-- The states of the machine. `ST_WAIT_HANDSHAKE` is not used in this protocol. -/
inductive State
  | disconnected
  | waitFrameHeader
  | waitPayload
  deriving DecidableEq

/-- `FRAME_HEAD`. -/
structure FrameHead where
  busy : Bool := false
  headerComplete : Bool := false
  mustReadPayload : Bool := false
  frameLength : Nat := 0
  deriving DecidableEq

/-- What the actions of a receiver read. -/
structure Conf where
  /-- The attribute `max_pkt_size`. -/
  maxPktSizeAttr : Int
  /-- `gbmem_get_maximum_block`. -/
  maxBlock : Nat
  /-- `istream_create` of the header did not fail in `mt_create`. -/
  created : headerSize + 1 ≤ maxBlock
  /-- Whether the subscriber drops the connection when it gets the last of these messages. -/
  drops : List (List UInt8) → Bool

/-- `priv->max_pkt_size`, as `mt_create` and `mt_writing` set it. -/
def Conf.maxPktSize (conf : Conf) : Nat :=
  let size := (conf.maxPktSizeAttr % 2 ^ 32).toNat
  if size = 0 then conf.maxBlock % 2 ^ 32 else size

/-- `PRIVATE_DATA` of a receiver. -/
structure Receiver where
  state : State
  frameHead : FrameHead
  istreamFrame : IStream
  istreamPayload : Option IStream
  /-- The messages of `EV_ON_MESSAGE`. -/
  messages : List (List UInt8)
  deriving DecidableEq

/-- `start_wait_frame_header`. -/
def startWaitFrameHeader (receiver : Receiver) : Receiver :=
  { receiver with
    state := .waitFrameHeader
    istreamFrame := receiver.istreamFrame.reset
    frameHead := {} }

/-- `ws_close`: the events that arrive until the connection is down are not defined in the state. -/
def wsClose (receiver : Receiver) : Receiver := { receiver with state := .disconnected }

/-- `ac_disconnected`. -/
def acDisconnected (receiver : Receiver) : Receiver :=
  { receiver with state := .disconnected, istreamPayload := none }

/-- `decode_head`: the length without the header, in 32 bits; `none` is an error. -/
def decodeHead (conf : Conf) (frame : FrameHead) (data : List UInt8) : Option FrameHead :=
  let len := (2 ^ 32 + ofBigEndian data - headerSize) % 2 ^ 32
  if len > conf.maxPktSize then none
  else some { frame with frameLength := len, mustReadPayload := true }

/-- What `framehead_consume` returns and leaves. -/
structure Consumed where
  total : Int
  /-- `frame_head`. -/
  frame : FrameHead
  /-- `istream_frame`. -/
  istream : IStream

/-- `framehead_consume`. The bytes of a header that is complete are there to be extracted. -/
def frameheadConsume (conf : Conf) (frame : FrameHead) (istream : IStream) (bf : List UInt8) :
    Consumed :=
  if frame.busy then ⟨0, { frame with headerComplete := true }, istream⟩
  else
    let consumed := istream.consume headerSize bf
    let total : Int := bf.length - consumed.2.2.length
    if !consumed.1 then ⟨total, frame, consumed.2.1⟩
    else
      let frame : FrameHead := { busy := true }
      let matched := consumed.2.1.extract.getD ([], consumed.2.1)
      match decodeHead conf frame matched.1 with
      | none => ⟨-1, frame, matched.2⟩
      | some frame => ⟨total, { frame with headerComplete := true }, matched.2⟩

/-- A turn of the loop of `ac_process_frame_header`, and the bytes that are left: for the next turn, or
for `EV_RX_DATA` in the state of the payload. -/
def acProcessFrameHeader (conf : Conf) (receiver : Receiver) (gbuf : List UInt8) :
    Receiver × List UInt8 :=
  let consumed := frameheadConsume conf receiver.frameHead receiver.istreamFrame gbuf
  let receiver := { receiver with frameHead := consumed.frame, istreamFrame := consumed.istream }
  if consumed.total ≤ 0 then (wsClose receiver, [])
  else
    let gbuf := gbuf.drop consumed.total.toNat
    if !receiver.frameHead.headerComplete then (receiver, gbuf)
    else
      let frameLength := receiver.frameHead.frameLength
      if frameLength ≠ 0 then
        match gbufferCreate conf.maxBlock frameLength frameLength with
        | none => (wsClose { receiver with istreamPayload := none }, [])
        | some _ =>
          ({ receiver with
            istreamPayload := some ⟨frameLength, 0, []⟩
            state := .waitPayload }, gbuf)
      else (wsClose receiver, [])

/-- `frame_completed`. -/
def frameCompleted (conf : Conf) (receiver : Receiver) (istream : IStream) : Receiver :=
  let receiver :=
    { receiver with istreamPayload := none, messages := receiver.messages ++ [istream.left] }
  let receiver := if conf.drops receiver.messages then acDisconnected receiver else receiver
  if receiver.state ≠ .disconnected then startWaitFrameHeader receiver else receiver

/-- `ac_process_payload_data`, and the bytes that are left. There is an `istream_payload` in the state of
the payload. -/
def acProcessPayloadData (conf : Conf) (receiver : Receiver) (gbuf : List UInt8) :
    Receiver × List UInt8 :=
  match receiver.istreamPayload with
  | none => (receiver, [])
  | some istream =>
    let consumed := istream.consume receiver.frameHead.frameLength gbuf
    let receiver := { receiver with istreamPayload := some consumed.2.1 }
    if consumed.1 then
      let receiver := frameCompleted conf receiver consumed.2.1
      if receiver.state = .disconnected then (receiver, []) else (receiver, consumed.2.2)
    else (receiver, consumed.2.2)

/-- The action of `EV_RX_DATA` in each state. -/
def Receiver.action (conf : Conf) (receiver : Receiver) (gbuf : List UInt8) :
    Receiver × List UInt8 :=
  match receiver.state with
  | .disconnected => (receiver, [])
  | .waitFrameHeader => acProcessFrameHeader conf receiver gbuf
  | .waitPayload => acProcessPayloadData conf receiver gbuf

/-- `EV_RX_DATA`, with those that the receiver sends to itself. -/
def Receiver.rxData (conf : Conf) (receiver : Receiver) (gbuf : List UInt8) : Receiver :=
  Chunked.drain (Receiver.action conf) receiver gbuf

/-- A receiver that waits for a header behind some messages. -/
def Receiver.waiting (messages : List (List UInt8)) : Receiver where
  state := .waitFrameHeader
  frameHead := {}
  istreamFrame := ⟨headerSize, 0, []⟩
  istreamPayload := none
  messages := messages

/-- `ac_connected`. -/
def Receiver.connected : Receiver := .waiting []

/-- What a read of the connection delivers: some bytes, and no more than its result, an `int`, counts. -/
structure Chunk where
  bytes : List UInt8
  some_bytes : bytes ≠ []
  counted : bytes.length < 2 ^ 31

/-- Chunks arrive. -/
def Receiver.receive (conf : Conf) (receiver : Receiver) (chunks : List Chunk) : Receiver :=
  chunks.foldl (fun receiver chunk => receiver.rxData conf chunk.bytes) receiver

/-- The stream that was cut. -/
def streamOf (chunks : List Chunk) : List UInt8 := (chunks.map Chunk.bytes).flatten

/-- What can be seen of a receiver: the messages, and whether it is closed. -/
structure Outcome where
  messages : List (List UInt8)
  closed : Bool
  deriving DecidableEq

/-- What can be seen of a receiver. -/
def Receiver.outcome (receiver : Receiver) : Outcome :=
  ⟨receiver.messages, receiver.state = .disconnected⟩

/-- `ac_send_message`: the bytes of `EV_TX_DATA`. Without memory for both, nothing is sent. -/
def acSendMessage (maxBlock : Nat) (message : List UInt8) : Option (List UInt8) :=
  let len := message.length + headerSize
  (gbufferCreate maxBlock len len).map fun gbuf =>
    let gbuf := gbufferAppend maxBlock gbuf (toBigEndian headerSize len)
    (gbufferAppend maxBlock gbuf message).leftBytes

/-- The stream of some messages. -/
def sentStream (maxBlock : Nat) (messages : List (List UInt8)) : List UInt8 :=
  messages.flatMap fun message => (acSendMessage maxBlock message).getD []

end Yunetas.Tcp4h
