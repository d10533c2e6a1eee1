import Yunetas.Gobj.Gbuffer
import Yunetas.Gobj.IStream
import Yunetas.Lib.Bytes
import Yunetas.Lib.Chunked
import Yunetas.Lib.Run
import Yunetas.Modbus.Config
import Yunetas.Modbus.Crc

/-!
# The Modbus master

A master reads the maps of its slaves one after another and publishes the variables behind the last one.
It has one request on the wire at a time. Requests to write wait in a queue, which is looked at between
two maps. The timers are left out: one of them is armed whenever the master is connected.
-/

namespace Yunetas.Modbus

open Gobj (IStream Gbuffer gbufferCreate gbufferAppend)

/-- The protocols of the attribute `modbus_protocol`. -/
inductive Protocol
  | tcp
  | rtu
  | ascii
  deriving DecidableEq

/-- What the actions of a master read. -/
structure Conf where
  /-- `modbus_protocol`. -/
  protocol : Protocol
  /-- `gbmem_get_maximum_block`. -/
  maxBlock : Nat
  large : 2 ^ 16 < maxBlock

/-- TCP, with blocks of 16 MiB. -/
def Conf.tcp : Conf where
  protocol := .tcp
  maxBlock := 2 ^ 24
  large := by decide

/-- `value` of a request to write. -/
inductive Value
  | number (value : Int)
  | array (values : List Int)
  | other
  deriving DecidableEq

/-- A request to write, as `kw_get_int`, `kw_get_str` and `kw_get_dict_value` read it. -/
structure Request where
  id : Int := 1
  address : Int
  size : Int := 1
  value : Option Value
  type : String
  deriving DecidableEq

/-- An element of `jn_request_queue`. -/
structure Queued where
  request : Request
  freed : Bool := false
  deriving DecidableEq

/-- `FRAME_HEAD`. -/
structure FrameHead where
  slaveId : Nat := 0
  function : Nat := 0
  byteCount : Nat := 0
  errorCode : Nat := 0
  busy : Bool := false
  headerComplete : Bool := false
  payloadLength : Nat := 0
  deriving DecidableEq

/-- The states of the machine, and what follows a read of memory that was freed. -/
inductive State
  | disconnected
  | connected
  | waitResponse
  | undefined
  deriving DecidableEq

/-- What a master publishes and sends to its bottom gobj. -/
inductive Entry
  | publish
  | read (slave : Option Slave) (map : Map) (bytes : List UInt8)
  | write (request : Request) (bytes : List UInt8)
  /-- `EV_TX_DATA` without a gbuffer. -/
  | nothing
  /-- `EV_DROP`. -/
  | drop
  deriving DecidableEq

/-- `PRIVATE_DATA` of a master, with what it sent. -/
structure Master where
  state : State
  slaves : List Slave
  slaveData : List SlaveData
  idxSlaves : Nat
  curSlave : Option Slave
  mapping : List Map
  idxMapping : Int
  maxMapping : Nat
  curMap : Option Map
  tId : Nat
  /-- `modbus_function`; `none` is -1. -/
  modbusFunction : Option Nat
  frameHead : FrameHead
  istreamHead : IStream
  /-- The bytes that were read from `istream_head`. -/
  head : List UInt8
  istreamPayload : Option IStream
  /-- Whether `st` is `WAIT_PAYLOAD`. -/
  waitPayload : Bool
  /-- `jn_request_queue`. -/
  queue : List Queued
  log : List Entry

/-- Something is published or sent. -/
def Master.tell (master : Master) (entry : Entry) : Master :=
  { master with log := master.log ++ [entry] }

/-- `RESET_MACHINE`. -/
def resetMachine (master : Master) : Master :=
  { master with
    istreamPayload := none
    istreamHead := master.istreamHead.reset
    head := []
    frameHead := {}
    modbusFunction := none
    waitPayload := false }

/-! ## The cursor -/

/-- `load_slave_mapping`. -/
def loadSlaveMapping (master : Master) : Master :=
  match master.slaves[master.idxSlaves]? with
  | none => { master with curSlave := none, idxMapping := 0, maxMapping := 0 }
  | some slave =>
    { master with
      curSlave := some slave
      mapping := slave.mapping
      idxMapping := -1
      maxMapping := slave.mapping.length }

/-- The cursor of a master on a map. -/
def Master.onMap (master : Master) (idxMapping : Int) : Master := { master with idxMapping }

/-- The cursor of a master on a slave. -/
def Master.onSlave (master : Master) (idxSlaves : Nat) : Master := { master with idxSlaves }

/-- The index behind an index; -1 is before the first one. -/
def nextIndex (idxMapping : Int) : Int := if idxMapping < 0 then 0 else idxMapping + 1

/-- The beginning of `next_map`. -/
def Master.advance (master : Master) : Master :=
  { master with curMap := none, idxMapping := nextIndex master.idxMapping }

/-- `next_map`, and whether it returns 0. -/
def nextMap (master : Master) : Master × Bool :=
  let master := master.advance
  if master.idxMapping < master.maxMapping then (master, true)
  else
    let master := master.onSlave (master.idxSlaves + 1)
    if master.idxSlaves < master.slaves.length then ((loadSlaveMapping master).onMap 0, true)
    else (loadSlaveMapping ((master.tell .publish).onSlave 0), false)

/-- `json_array_get`; a negative index is out of any array. -/
def jsonArrayGet {α : Type} (array : List α) (index : Int) : Option α :=
  if index < 0 then none else array[index.toNat]?

/-! ## The requests -/

/-- The transaction id is increased. -/
def nextTId (tId : Nat) : Nat := if tId < 0xFFFF then tId + 1 else 0

/-- The function that reads a type. -/
def readFunction : ObjectType → Nat
  | .coil => 0x01
  | .discreteInput => 0x02
  | .holdingRegister => 0x03
  | .inputRegister => 0x04

/-- `MODBUS_MAX_READ_BITS` or `MODBUS_MAX_READ_REGISTERS`. -/
def maxRead : ObjectType → Nat
  | .coil | .discreteInput => 2000
  | .holdingRegister | .inputRegister => 125

/-- The bytes of a request to read, in the protocols that are implemented. -/
def readBytes (protocol : Protocol) (tId slaveId function address size : Nat) : List UInt8 :=
  match protocol with
  | .tcp =>
    toBigEndian 2 tId ++ [0, 0] ++ toBigEndian 2 (12 - 6) ++
      [UInt8.ofNat slaveId, UInt8.ofNat function] ++ toBigEndian 2 address ++ toBigEndian 2 size
  | .rtu =>
    let request := [UInt8.ofNat slaveId, UInt8.ofNat function] ++ toBigEndian 2 address ++
      toBigEndian 2 size
    request ++ [(crc16 request).1, (crc16 request).2]
  | .ascii => []

/-- Bytes in a gbuffer of 32 bytes. -/
def inGbuffer (conf : Conf) (pieces : List (List UInt8)) : Option (List UInt8) :=
  (gbufferCreate conf.maxBlock 32 32).map fun gbuf =>
    (pieces.foldl (gbufferAppend conf.maxBlock) gbuf).leftBytes

/-- `build_modbus_request_read_message`, and the gbuffer if there is one. -/
def buildModbusRequestReadMessage (conf : Conf) (master : Master) (slave : Option Slave) (map : Map) :
    Master × Option (List UInt8) :=
  match getObjectType map.type with
  | none => (master, none)
  | some type =>
    let size := min (uint16 map.size) (maxRead type)
    let tId := if conf.protocol = .tcp then nextTId master.tId else master.tId
    let bytes := readBytes conf.protocol tId (uint8 ((slave.map Slave.id).getD 0)) (readFunction type)
      (uint16 map.address) size
    ({ master with tId := tId, modbusFunction := some (readFunction type) }, inGbuffer conf [bytes])

/-- `poll_modbus`, and whether it returns 0. -/
def pollModbus (conf : Conf) (master : Master) : Master × Bool :=
  let master := { master with curMap := jsonArrayGet master.mapping master.idxMapping }
  match master.curMap with
  | none => (master, false)
  | some map =>
    if map.disabled then (master, false)
    else
      let master := { master with state := .waitResponse }
      let built := buildModbusRequestReadMessage conf master master.curSlave map
      match built.2 with
      | none => (built.1.tell .nothing, true)
      | some bytes => (built.1.tell (.read master.curSlave map bytes), true)

/-- The function that writes a number of values of a type. -/
def writeFunction (type : Option ObjectType) (size : Nat) : Option Nat :=
  match type with
  | some .coil => some (if size = 1 then 0x05 else 0x0F)
  | some .holdingRegister => some (if size = 1 then 0x06 else 0x10)
  | _ => none

/-- A value of a request, as `json_array_get` and `jn2integer` read it. -/
def Value.get : Value → Nat → Int
  | .array values, index => values.getD index 0
  | _, _ => 0

/-- The first value of a request to write, where there is one. -/
def Request.first (request : Request) : Option Nat :=
  match request.value with
  | some (.number value) => some (uint16 value)
  | some (.array values) =>
    if values.length ≠ uint16 request.size then none else some (uint16 (values.getD 0 0))
  | _ => none

/-- The loop over the other values, which takes one from the size for each. -/
def otherValues (value : Value) : Nat → Nat → Nat → List (List UInt8)
  | fuel + 1, i, size =>
    if i < size then toBigEndian 2 (uint16 (value.get i)) :: otherValues value fuel (i + 1) (size - 1)
    else []
  | 0, _, _ => []

/-- The pieces of a request to write, in the protocol that is implemented. -/
def writePieces (protocol : Protocol) (tId slaveId function address value size : Nat)
    (values : Value) : List (List UInt8) :=
  match protocol with
  | .tcp =>
    (toBigEndian 2 tId ++ [0, 0] ++ toBigEndian 2 (10 - 6 + size * 2) ++
      [UInt8.ofNat slaveId, UInt8.ofNat function] ++ toBigEndian 2 address ++ toBigEndian 2 value) ::
      otherValues values size 1 size
  | .rtu | .ascii => []

/-- `build_modbus_request_write_message`, and the gbuffer if there is one. -/
def buildModbusRequestWriteMessage (conf : Conf) (master : Master) (request : Request) :
    Master × Option (List UInt8) :=
  let size := uint16 request.size
  if size = 0 ∨ size > 123 then (master, none)
  else
    match request.first, writeFunction (getObjectType request.type) size with
    | some value, some function =>
      let tId := if conf.protocol = .tcp then nextTId master.tId else master.tId
      ({ master with tId := tId, modbusFunction := some function },
        inGbuffer conf (writePieces conf.protocol tId (uint8 request.id) function
          (uint16 request.address) value size (request.value.getD .other)))
    | _, _ => (master, none)

/-- `send_request`; `none` is `FALSE`. The head of the queue is released and stays. -/
def sendRequest (conf : Conf) (master : Master) : Option Master :=
  match master.queue with
  | [] => none
  | first :: rest =>
    if first.freed then some { master with state := .undefined }
    else
      let master := { master with state := .waitResponse }
      let built := buildModbusRequestWriteMessage conf master first.request
      let master := { built.1 with queue := { first with freed := true } :: rest }
      match built.2 with
      | none => some (master.tell .nothing)
      | some bytes => some (master.tell (.write first.request bytes))

/-- The cursor moves on and the map it finds is read; where that fails, it moves on again. -/
def cycle (conf : Conf) (master : Master) : Master :=
  let next := nextMap master
  if !next.2 then next.1
  else
    let polled := pollModbus conf next.1
    if polled.2 then polled.1 else (nextMap polled.1).1

/-- The next request to write, or else the next map. -/
def nextTurn (conf : Conf) (master : Master) : Master :=
  match sendRequest conf master with
  | some master => master
  | none => cycle conf master

/-! ## The responses -/

/-- `sizeof(head_tcp_t)` or `sizeof(head_rtu_t)`. -/
def headSize : Protocol → Nat
  | .tcp => 9
  | .rtu | .ascii => 3

/-- A byte of a header. -/
def byteAt (bytes : List UInt8) (index : Nat) : Nat := (bytes.getD index 0).toNat

/-- The end of `framehead_consume`, where the header is complete. -/
def headerComplete (frame : FrameHead) : FrameHead :=
  if 0x80 ≤ frame.function then
    { frame with errorCode := frame.byteCount, payloadLength := 2, headerComplete := true }
  else { frame with headerComplete := true }

/-- The fields of a header; `none` is a bad length. -/
def decodeHead (protocol : Protocol) (head : List UInt8) : FrameHead × Bool :=
  match protocol with
  | .tcp =>
    let frame : FrameHead :=
      { slaveId := byteAt head 6, function := byteAt head 7, byteCount := byteAt head 8, busy := true }
    let length := ofBigEndian ((head.drop 4).take 2)
    if length < 3 then (frame, false) else ({ frame with payloadLength := length - 3 }, true)
  | .rtu | .ascii =>
    ({ slaveId := byteAt head 0
       function := byteAt head 1
       byteCount := byteAt head 2
       busy := true
       payloadLength := byteAt head 2 + 2 }, true)

/-- `framehead_consume`, and what it returns. -/
def frameheadConsume (conf : Conf) (master : Master) (bf : List UInt8) : Master × Int :=
  if master.frameHead.busy then ({ master with frameHead := headerComplete master.frameHead }, 0)
  else
    let consumed := master.istreamHead.consume (headSize conf.protocol) bf
    let total : Int := bf.length - consumed.2.2.length
    if !consumed.1 then ({ master with istreamHead := consumed.2.1 }, total)
    else
      let matched := consumed.2.1.extract.getD ([], consumed.2.1)
      let master := { master with istreamHead := matched.2, head := matched.1 }
      let decoded := decodeHead conf.protocol matched.1
      if decoded.2 then ({ master with frameHead := headerComplete decoded.1 }, total)
      else ({ master with frameHead := decoded.1 }, -1)

/-- `store_slave_bit` and `store_slave_word`: the cell of the first slave with the id, if there is one. -/
def storeCell (slaveId : Nat) (type : ObjectType) (address : Nat) (change : Cell → Cell) :
    List SlaveData → List SlaveData
  | [] => []
  | slave :: rest =>
    if slave.slaveId = slaveId then
      (match slave.cells type address with
        | none => slave
        | some cell => { slave with cells := slave.cells.set type address (change cell) }) :: rest
    else slave :: storeCell slaveId type address change rest

/-- The type that a function reads. -/
def readType : Nat → Option ObjectType
  | 0x01 => some .coil
  | 0x02 => some .discreteInput
  | 0x03 => some .holdingRegister
  | 0x04 => some .inputRegister
  | _ => none

/-- The bits of a byte, the lowest first. -/
def bitsOf (byte : UInt8) : List Bool := (List.range 8).map byte.toNat.testBit

/-- The words of some bytes, as they are on the wire. -/
def wordsOf : List UInt8 → List (UInt8 × UInt8)
  | high :: low :: rest => (high, low) :: wordsOf rest
  | _ => []

/-- A cell that takes a bit. -/
def Cell.withBit (value : Bool) (cell : Cell) : Cell := { cell with bitValue := value }

/-- A cell that takes a word. -/
def Cell.withWord (type : ObjectType) (word : UInt8 × UInt8) (cell : Cell) : Cell :=
  match type with
  | .inputRegister => { cell with inputRegister := word }
  | .holdingRegister => { cell with holdingRegister := word }
  | .coil | .discreteInput => cell

/-- The changes of the cells of a type by the bytes of a response, in the order of their addresses. -/
def changesOf (type : ObjectType) (size : Nat) (bf : List UInt8) : List (Cell → Cell) :=
  match type with
  | .coil | .discreteInput => ((bf.flatMap bitsOf).take size).map Cell.withBit
  | .holdingRegister | .inputRegister => (wordsOf bf).map (Cell.withWord type)

/-- The loops over the values of a response. -/
def storeCells (slaveId : Nat) (type : ObjectType) :
    Nat → List (Cell → Cell) → List SlaveData → List SlaveData
  | _, [], slaves => slaves
  | address, change :: rest, slaves =>
    storeCells slaveId type (address + 1) rest (storeCell slaveId type address change slaves)

/-- `req_nb_value` of a function that reads. -/
def reqNbValue (function size : Nat) : Nat :=
  if function = 0x01 ∨ function = 0x02 then size / 8 + (if size % 8 ≠ 0 then 1 else 0) else size

/-- `rsp_nb_value` of a function that reads. -/
def rspNbValue (function byteCount : Nat) : Nat :=
  if function = 0x01 ∨ function = 0x02 then byteCount else byteCount / 2

/-- `store_modbus_response_data`. -/
def storeModbusResponseData (master : Master) (bf : List UInt8) : Master :=
  let function := master.frameHead.function
  let byteCount := master.frameHead.byteCount
  let reqSize := uint16 ((master.curMap.map Map.size).getD 0)
  if function ∉ [0x01, 0x02, 0x03, 0x04, 0x17] then master
  else if byteCount ≠ bf.length then master
  else if uint8 ((master.curSlave.map Slave.id).getD 0) ≠ master.frameHead.slaveId then master
  else if master.modbusFunction ≠ some function then master
  else if reqNbValue function reqSize ≠ rspNbValue function byteCount then master
  else
    match readType function with
    | none => master
    | some type =>
      { master with
        slaveData := storeCells master.frameHead.slaveId type
          (uint16 ((master.curMap.map Map.address).getD 0)) (changesOf type reqSize bf)
          master.slaveData }

/-- `crc16_rx`. -/
def crc16Rx (frame : FrameHead) (buffer : List UInt8) : UInt8 × UInt8 :=
  crc16 ([UInt8.ofNat frame.slaveId, UInt8.ofNat frame.function, UInt8.ofNat frame.byteCount] ++ buffer)

/-- `frame_completed`. -/
def frameCompleted (conf : Conf) (master : Master) (bf : List UInt8) : Master :=
  match conf.protocol with
  | .tcp => if master.frameHead.errorCode = 0 then storeModbusResponseData master bf else master
  | .rtu =>
    let len := bf.length
    if len < 2 then master
    else if crc16Rx master.frameHead (bf.take (len - 2)) ≠ (bf.getD (len - 2) 0, bf.getD (len - 1) 0)
    then master
    else if master.frameHead.errorCode = 0 then storeModbusResponseData master (bf.take (len - 2))
    else master
  | .ascii => master

/-- A turn of the loop of `ac_rx_data` in `WAIT_HEAD`, and the bytes that are left. -/
def waitHead (conf : Conf) (master : Master) (responseCompleted : Bool) (bf : List UInt8) :
    (Master × Bool) × List UInt8 :=
  let consumed := frameheadConsume conf master bf
  let master := consumed.1
  if consumed.2 ≤ 0 then ((master.tell .drop, responseCompleted), [])
  else
    let bf := bf.drop consumed.2.toNat
    let payloadLength := master.frameHead.payloadLength
    if !master.frameHead.headerComplete then ((master, responseCompleted), bf)
    else if payloadLength = 0 then ((master, true), bf)
    else
      match gbufferCreate conf.maxBlock payloadLength payloadLength with
      | none => ((master, true), bf)
      | some _ =>
        (({ master with istreamPayload := some ⟨payloadLength, 0, []⟩, waitPayload := true },
          responseCompleted), bf)

/-- A turn of the loop of `ac_rx_data` in `WAIT_PAYLOAD`, where there is an `istream_payload`, and the
bytes that are left. -/
def waitPayload (conf : Conf) (master : Master) (responseCompleted : Bool) (bf : List UInt8) :
    (Master × Bool) × List UInt8 :=
  match master.istreamPayload with
  | none => ((master, responseCompleted), [])
  | some istream =>
    let consumed := istream.consume master.frameHead.payloadLength bf
    let master := { master with istreamPayload := some consumed.2.1 }
    if consumed.1 then ((frameCompleted conf master consumed.2.1.left, true), [])
    else ((master, responseCompleted), consumed.2.2)

/-- A turn of the loop of `ac_rx_data`, and the bytes that are left; where `fin` is set, none. -/
def rxTurn (conf : Conf) (state : Master × Bool) (bf : List UInt8) : (Master × Bool) × List UInt8 :=
  if state.1.waitPayload then waitPayload conf state.1 state.2 bf else waitHead conf state.1 state.2 bf

/-- The end of `ac_rx_data` behind a complete response. -/
def nextRequest (conf : Conf) (master : Master) : Master :=
  nextTurn conf { resetMachine master with state := .connected }

/-- `ac_rx_data`. -/
def acRxData (conf : Conf) (master : Master) (bf : List UInt8) : Master :=
  let looped := Chunked.drain (rxTurn conf) (master, false) bf
  if looped.2 then nextRequest conf looped.1 else looped.1

/-! ## The machine -/

/-- `ac_connected`. -/
def acConnected (master : Master) : Master := { resetMachine master with state := .connected }

/-- `ac_disconnected`. -/
def acDisconnected (master : Master) : Master := { resetMachine master with state := .disconnected }

/-- `ac_enqueue_tx_message`. -/
def acEnqueueTxMessage (master : Master) (request : Request) : Master :=
  { master with queue := master.queue ++ [{ request }] }

/-- `ac_timeout_response`. -/
def acTimeoutResponse (conf : Conf) (master : Master) : Master :=
  cycle conf { resetMachine master with state := .connected }

/-- The events of a master. -/
inductive Op
  | connected
  | disconnected
  | rxData (bf : List UInt8)
  | sendMessage (request : Request)
  | timeout
  deriving DecidableEq

/-- The action of an event in the current state. -/
def Master.step (conf : Conf) (master : Master) (op : Op) : Master :=
  match master.state, op with
  | .disconnected, .connected => acConnected master
  | .connected, .disconnected | .waitResponse, .disconnected => acDisconnected master
  | .connected, .rxData bf | .waitResponse, .rxData bf => acRxData conf master bf
  | .connected, .sendMessage request | .waitResponse, .sendMessage request =>
    acEnqueueTxMessage master request
  | .connected, .timeout => nextTurn conf master
  | .waitResponse, .timeout => acTimeoutResponse conf master
  | _, _ => master

/-- A master with its slaves, whose maps `build_slave_data` checked. -/
def Master.created (conf : Conf) (slaves : List Slave) : Master where
  state := .disconnected
  slaves := (buildSlaveData slaves).2
  slaveData := (buildSlaveData slaves).1
  idxSlaves := 0
  curSlave := none
  mapping := []
  idxMapping := 0
  maxMapping := 0
  curMap := none
  tId := 0
  modbusFunction := none
  frameHead := {}
  istreamHead := ⟨headSize conf.protocol, 0, []⟩
  head := []
  istreamPayload := none
  waitPayload := false
  queue := []
  log := []

/-- `mt_start`, with `load_modbus_config`. -/
def Master.start (conf : Conf) (slaves : List Slave) : Master :=
  loadSlaveMapping (.created conf slaves)

/-- Events arrive. -/
def Master.run (conf : Conf) (master : Master) (ops : List Op) : Master :=
  Yunetas.run (Master.step conf) master ops

end Yunetas.Modbus
