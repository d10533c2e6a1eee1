import Yunetas.Modbus.Answers
import Yunetas.Verif.WriteQueue

/-!
# The values of the cells

A cell takes a value only from a response to the request that is pending, and a well-formed response is
recognised complete at its last byte, as long as the frames that arrive are for that request, exceptions
come over RTU, registers come in whole, the request asks for its whole map and no timer cuts a response
in two. None of this is checked by the master.
-/

namespace Yunetas.Modbus

open List Option Bool

variable {conf : Conf} {master : Master}

/-! ## Requests that are pending -/

/-- What the request to read that is pending asks for. -/
def pending (conf : Conf) (master : Master) : Option Asked :=
  match master.state, (requestsOf master.log).getLast? with
  | .waitResponse, some (.read _ _ bytes) => some (.ofBytes conf.protocol bytes)
  | _, _ => none

/-- A master and the bytes that arrived on its connection behind the last complete response. -/
structure Link where
  master : Master
  before : List UInt8
  since : List UInt8

/-- An event arrives. -/
def Link.step (conf : Conf) (link : Link) (op : Op) : Link :=
  let master := link.master.step conf op
  match link.master.state, op with
  | .disconnected, .connected | .connected, .disconnected | .waitResponse, .disconnected =>
    ⟨master, [], []⟩
  | .connected, .rxData bf | .waitResponse, .rxData bf =>
    if (turnOf conf link.master op).isSome then ⟨master, [], []⟩
    else ⟨master, link.before, link.since ++ bf⟩
  | .connected, .timeout | .waitResponse, .timeout => ⟨master, link.before ++ link.since, []⟩
  | _, _ => { link with master }

/-- A master that starts. -/
def Link.start (conf : Conf) (slaves : List Slave) : Link := ⟨Master.start conf slaves, [], []⟩

@[simp] theorem Link.step_master (conf : Conf) (link : Link) (op : Op) :
    (link.step conf op).master = link.master.step conf op := by
  unfold Link.step
  repeat' split
  all_goals rfl

/-- The values of a response are in the cells that were asked for. -/
def Stored (asked : Asked) (data : List UInt8) (before after : List SlaveData) : Prop :=
  ∃ type, readType asked.function = some type ∧ CellsTake asked type data before after

/-- What an event does to the cells. -/
structure CellsHold (conf : Conf) (link : Link) (op : Op) : Prop where
  /-- Cells change by a complete response that answers the request that is pending: those that were asked
  for take its values. -/
  cells : (link.step conf op).master.slaveData = link.master.slaveData ∨
    ∃ asked data response rest bf, pending conf link.master = some asked ∧ op = .rxData bf ∧
      link.since ++ bf = response ++ rest ∧ Answers conf.protocol asked data response ∧
      Stored asked data link.master.slaveData (link.step conf op).master.slaveData
  complete : ∀ asked response front rest, pending conf link.master = some asked →
    op = .rxData (front ++ rest) → front ≠ [] → link.since ++ front = response →
    WellFormed conf.protocol asked response → (turnOf conf link.master op).isSome
  stored : ∀ asked data front rest, pending conf link.master = some asked →
    op = .rxData (front ++ rest) → front ≠ [] → data.length = asked.dataLength →
    link.since ++ front = framed conf.protocol asked.tId [0, 0] (asked.response data) →
    Stored asked data link.master.slaveData (link.step conf op).master.slaveData
  incomplete : ∀ asked response bf missing, pending conf link.master = some asked →
    op = .rxData bf → link.since ++ bf ++ missing = response → missing ≠ [] →
    WellFormed conf.protocol asked response → turnOf conf link.master op = none

/-- A frame that completes a request to read a map and should. -/
structure FrameFits (protocol : Protocol) (asked : Asked) (map : Map) (frame : List UInt8) : Prop where
  own : ¬ Foreign protocol asked frame
  normal : protocol = .tcp → (decodeHead protocol frame).1.function < 0x80
  even : (decodeHead protocol frame).1.slaveId = asked.slaveId →
    (decodeHead protocol frame).1.function = asked.function → asked.function = 0x03 ∨ asked.function = 0x04 →
    (decodeHead protocol frame).1.byteCount ≠ 2 * asked.quantity + 1
  quantity : (decodeHead protocol frame).1.slaveId = asked.slaveId →
    (decodeHead protocol frame).1.function = asked.function → uint16 map.size = asked.quantity

/-- Where bytes arrive for a request, no timer has cut a response in two, and the frame that they complete
fits. -/
def ArrivalFits (conf : Conf) (link : Link) (op : Op) : Prop :=
  ∀ bf asked map, op = .rxData bf → bf ≠ [] → pending conf link.master = some asked →
    link.master.curMap = some map →
    link.before = [] ∧ ∀ frame rest, link.since ++ bf = frame ++ rest → Whole conf.protocol frame →
      FrameFits conf.protocol asked map frame

/-! ## Cells -/

/-- A response is stored. -/
structure Stores (master : Master) (data : List UInt8) (type : ObjectType) : Prop where
  function : master.frameHead.function = readFunction type
  byteCount : master.frameHead.byteCount = data.length
  slaveId : uint8 ((master.curSlave.map Slave.id).getD 0) = master.frameHead.slaveId
  asked : master.modbusFunction = some master.frameHead.function
  quantity : reqNbValue master.frameHead.function (uint16 ((master.curMap.map Map.size).getD 0)) =
    rspNbValue master.frameHead.function master.frameHead.byteCount

/-- The cells behind a response that is stored. -/
def storedCells (master : Master) (data : List UInt8) (type : ObjectType) : List SlaveData :=
  storeCells master.frameHead.slaveId type (uint16 ((master.curMap.map Map.address).getD 0))
    (changesOf type (uint16 ((master.curMap.map Map.size).getD 0)) data) master.slaveData

theorem readType_eq_some {function : Nat} {type : ObjectType} :
    readType function = some type ↔ function = readFunction type := by
  constructor
  · intro read
    unfold readType at read
    split at read <;> cases read <;> rfl
  · intro same
    rw [same]
    cases type <;> rfl

theorem slaveData_store (master : Master) (data : List UInt8) :
    (storeModbusResponseData master data).slaveData = master.slaveData ∨
      ∃ type, Stores master data type ∧
        (storeModbusResponseData master data).slaveData = storedCells master data type := by
  unfold storeModbusResponseData
  dsimp only
  split
  · exact .inl rfl
  split
  · exact .inl rfl
  split
  · exact .inl rfl
  split
  · exact .inl rfl
  split
  · exact .inl rfl
  rename_i count slave asked quantity
  split
  · exact .inl rfl
  rename_i type read
  exact .inr ⟨type, ⟨readType_eq_some.1 read, not_not.1 count, not_not.1 slave, not_not.1 asked,
    not_not.1 quantity⟩, rfl⟩

theorem Stores.slaveData {data : List UInt8} {type : ObjectType} (stores : Stores master data type) :
    (storeModbusResponseData master data).slaveData = storedCells master data type := by
  have known : master.frameHead.function ∈ [0x01, 0x02, 0x03, 0x04, 0x17] := by
    rw [stores.function]
    cases type <;> decide
  unfold storeModbusResponseData
  rw [if_neg (not_not.2 known), if_neg (not_not.2 stores.byteCount), if_neg (not_not.2 stores.slaveId),
    if_neg (not_not.2 stores.asked), if_neg (not_not.2 stores.quantity),
    readType_eq_some.2 stores.function]
  rfl

theorem slaveData_frameCompleted (implemented : conf.protocol ≠ .ascii) (master : Master)
    (payload : List UInt8) :
    (frameCompleted conf master payload).slaveData = master.slaveData ∨
      Checked conf.protocol master.frameHead payload ∧
        (frameCompleted conf master payload).slaveData =
          (storeModbusResponseData master (dataOf conf.protocol payload)).slaveData := by
  unfold frameCompleted Checked dataOf
  cases protocol : conf.protocol with
  | ascii => exact absurd protocol implemented
  | tcp =>
    dsimp only
    split
    · exact .inr ⟨trivial, rfl⟩
    · exact .inl rfl
  | rtu =>
    dsimp only
    split
    · exact .inl rfl
    split
    · exact .inl rfl
    rename_i checked
    split
    · exact .inr ⟨not_not.1 checked, rfl⟩
    · exact .inl rfl

theorem slaveData_checked (master : Master) {payload : List UInt8}
    (long : conf.protocol ≠ .tcp → 2 ≤ payload.length) (implemented : conf.protocol ≠ .ascii)
    (no_error : master.frameHead.errorCode = 0) (checked : Checked conf.protocol master.frameHead payload) :
    (frameCompleted conf master payload).slaveData =
      (storeModbusResponseData master (dataOf conf.protocol payload)).slaveData := by
  unfold Checked at checked
  unfold frameCompleted dataOf
  cases protocol : conf.protocol with
  | ascii => exact absurd protocol implemented
  | tcp =>
    rw [if_pos no_error]
  | rtu =>
    have enough := long (by rw [protocol]; decide)
    rw [protocol] at checked
    dsimp only at checked ⊢
    rw [if_neg (by omega), if_neg (not_not.2 checked), if_pos no_error]

/-! ## What a master waits for -/

/-- A master waits for nothing that it would store, or for the response to the request to read a map. -/
inductive Waits (conf : Conf) (master : Master) : Prop
  | nothing (no_function : master.modbusFunction = none) (none_pending : pending conf master = none)
  | read (map : Map) (type : ObjectType) (state : master.state = .waitResponse)
      (curMap : master.curMap = some map)
      (modbusFunction : master.modbusFunction = some (readFunction type))
      (asked : pending conf master = some (askedOf conf master.tId master.curSlave type map))

theorem pending_none (idle : master.state ≠ .waitResponse) : pending conf master = none := by
  unfold pending
  split
  · rename_i here _
    exact absurd here idle
  · rfl

theorem pending_read (state : master.state = .waitResponse) {slave : Option Slave} {map : Map}
    {bytes : List UInt8} (log : List Entry) (last : master.log = log ++ [.read slave map bytes]) :
    pending conf master = some (.ofBytes conf.protocol bytes) := by
  have request : (requestsOf master.log).getLast? = some (.read slave map bytes) := by
    unfold requestsOf
    rw [last, filterMap_append]
    exact getLast?_concat
  unfold pending
  rw [state, request]

theorem Waits.received {before after : Master} (waits : Waits conf before)
    (received : Received before after) : Waits conf after := by
  have same : pending conf after = pending conf before := by
    unfold pending
    rw [received.state, received.toStill.requests.1]
  cases waits with
  | nothing no_function none_pending =>
    exact .nothing (received.modbusFunction.trans no_function) (same.trans none_pending)
  | read map type state curMap modbusFunction asked =>
    refine .read map type (received.state.trans state) (received.curMap.trans curMap)
      (received.modbusFunction.trans modbusFunction) ?_
    rw [same, asked, received.tId, received.curSlave]

theorem Waits.asked (waits : Waits conf master) {asked : Asked}
    (here : pending conf master = some asked) : ∃ map type, master.curMap = some map ∧
      master.modbusFunction = some (readFunction type) ∧
      asked = askedOf conf master.tId master.curSlave type map := by
  cases waits with
  | nothing no_function none_pending =>
    rw [none_pending] at here
    exact absurd here nofun
  | read map type state curMap modbusFunction read =>
    rw [read] at here
    exact ⟨map, type, curMap, modbusFunction, (some.inj here).symm⟩

theorem waits_cycle (implemented : conf.protocol ≠ .ascii) (state : master.state = .connected)
    (no_function : master.modbusFunction = none) : Waits conf (cycle conf master) := by
  have idle (other : Master) (moved : Moved master other) : Waits conf other := by
    apply Waits.nothing (moved.modbusFunction.trans no_function)
    apply pending_none
    rw [moved.state, state]
    decide
  have next := moved_nextMap master
  unfold cycle
  dsimp only
  split
  · exact idle _ next
  by_cases on : ∃ map, jsonArrayGet (nextMap master).1.mapping (nextMap master).1.idxMapping = some map ∧
      map.disabled = false
  · have ⟨map, here, on⟩ := on
    cases known : getObjectType map.type with
    | none =>
      have polled : pollModbus conf (nextMap master).1 =
          ({ (nextMap master).1 with curMap := some map, state := .waitResponse }.tell .nothing, true) := by
        unfold pollModbus buildModbusRequestReadMessage
        rw [here]
        dsimp only
        rw [on, known]
        rfl
      rw [polled, if_pos rfl]
      refine .nothing (next.modbusFunction.trans no_function) ?_
      unfold pending requestsOf Master.tell
      rw [filterMap_append]
      have last : List.filterMap Entry.request [.nothing] = [.nothing] := rfl
      rw [last, getLast?_concat]
    | some type =>
      rw [pollModbus_enabled here on known, if_pos rfl]
      refine .read map type rfl rfl rfl ?_
      rw [pending_read rfl (nextMap master).1.log rfl, ofBytes_requestOf implemented]
  · have off (map : Map)
        (here : jsonArrayGet (nextMap master).1.mapping (nextMap master).1.idxMapping = some map) :
        map.disabled = true := by
      cases disabled : map.disabled with
      | true => rfl
      | false => exact absurd ⟨map, here, disabled⟩ on
    rw [pollModbus_disabled off, if_neg Bool.false_ne_true]
    have passed : Moved (nextMap master).1 { (nextMap master).1 with
          curMap := jsonArrayGet (nextMap master).1.mapping (nextMap master).1.idxMapping } :=
      .of_fields _ _ _ _ _ _ _ _
    exact idle _ ((next.trans passed).trans (moved_nextMap _))

/-! ## Links -/

/-- What holds of a link. -/
structure Linked (conf : Conf) (link : Link) : Prop where
  framed : Framed conf link.master
  waits : Waits conf link.master
  queue : link.master.queue = []
  state : link.master.state ≠ .undefined
  bytes : link.before = [] → link.since = received link.master ∨
    ∃ head rest, link.since = head ++ rest ∧ head.length = headSize conf.protocol ∧
      (decodeHead conf.protocol head).2 = false ∧ received link.master = head

theorem Waits.idle (waits : Waits conf master) (idle : master.state ≠ .waitResponse) :
    master.modbusFunction = none := by
  cases waits with
  | nothing no_function _ => exact no_function
  | read map type state _ _ _ => exact absurd state idle

theorem Framed.of_kept {before after : Master} (framed : Framed conf before) (kept : Kept before after) :
    Framed conf after ∧ received after = received before := by
  constructor
  · cases framed with
    | head left less waitPayload istreamPayload frameHead none_read istreamHead =>
      exact .head left less (kept.waitPayload.trans waitPayload)
        (kept.istreamPayload.trans istreamPayload) (kept.frameHead.trans frameHead)
        (kept.head.trans none_read) (kept.istreamHead.trans istreamHead)
    | payload head left length decoded less waitPayload read frameHead istreamPayload istreamHead size =>
      exact .payload head left length decoded less (kept.waitPayload.trans waitPayload)
        (kept.head.trans read) (kept.frameHead.trans frameHead)
        (kept.istreamPayload.trans istreamPayload) (by rw [kept.istreamHead, istreamHead])
        (by rw [kept.istreamHead, size])
    | broken head length decoded waitPayload istreamPayload read busy istreamHead size =>
      exact .broken head length decoded (kept.waitPayload.trans waitPayload)
        (kept.istreamPayload.trans istreamPayload) (kept.head.trans read)
        (by rw [kept.frameHead, busy]) (by rw [kept.istreamHead, istreamHead])
        (by rw [kept.istreamHead, size])
  · unfold received
    rw [kept.head, kept.istreamHead, kept.istreamPayload]

theorem Framed.bad (framed : Framed conf master) {head rest : List UInt8}
    (bytes : received master = head ++ rest) (length : head.length = headSize conf.protocol)
    (decoded : (decodeHead conf.protocol head).2 = false) : received master = head := by
  cases framed with
  | head left less waitPayload istreamPayload frameHead none_read istreamHead =>
    have here : received master = left := by
      unfold received
      rw [none_read, istreamHead, istreamPayload]
      exact append_nil left
    have count := congrArg List.length (here.symm.trans bytes)
    rw [length_append] at count
    omega
  | payload other left same_length other_decoded less waitPayload read frameHead istreamPayload
      istreamHead size =>
    have here : received master = other ++ left := by
      unfold received
      rw [read, istreamHead, istreamPayload, append_nil]
      rfl
    have same := append_inj (here.symm.trans bytes) (by omega)
    rw [same.1, decoded] at other_decoded
    exact absurd other_decoded (by decide)
  | broken other same_length bad waitPayload istreamPayload read busy istreamHead size =>
    have here : received master = other := by
      unfold received
      rw [read, istreamHead, istreamPayload, append_nil]
      exact append_nil other
    have plain := (append_nil other).trans (here.symm.trans bytes)
    have same := append_inj plain (by omega)
    rw [here, same.1]

theorem Linked.synced {link : Link} (linked : Linked conf link) (none_before : link.before = [])
    {head bf rest : List UInt8} (bytes : link.since ++ bf = head ++ rest)
    (length : head.length = headSize conf.protocol)
    (decoded : (decodeHead conf.protocol head).2 = true) : link.since = received link.master := by
  rcases linked.bytes none_before with same | ⟨other, behind, since, other_length, bad, _⟩
  · exact same
  · rw [since, append_assoc] at bytes
    have same := append_inj bytes (by omega)
    rw [same.1, decoded] at bad
    exact absurd bad (by decide)

theorem linked_cycle (implemented : conf.protocol ≠ .ascii) (framed : Framed conf master)
    (none_read : received master = []) (state : master.state = .connected)
    (no_function : master.modbusFunction = none) (queue : master.queue = []) (before : List UInt8) :
    Linked conf ⟨cycle conf master, before, []⟩ := by
  have kept := kept_cycle conf master
  have same := framed.of_kept kept
  refine ⟨same.1, waits_cycle implemented state no_function, kept.queue.trans queue, ?_, ?_⟩
  · rcases cycle_state conf state with here | here
    · rw [here]
      decide
    · rw [here]
      decide
  · intro _
    exact .inl (same.2.trans none_read).symm

theorem nextTurn_empty (conf : Conf) (queue : master.queue = []) :
    nextTurn conf master = cycle conf master := by
  unfold nextTurn sendRequest
  rw [queue]

theorem step_rxData (state : master.state = .connected ∨ master.state = .waitResponse)
    (bf : List UInt8) :
    master.step conf (.rxData bf) = acRxData conf master bf ∧ turnOf conf master (.rxData bf) =
        if (Chunked.drain (rxTurn conf) (master, false) bf).2 then
          some { resetMachine (Chunked.drain (rxTurn conf) (master, false) bf).1 with
            state := .connected }
        else none := by
  rcases state with here | here
  · unfold Master.step turnOf
    rw [here]
    exact ⟨rfl, rfl⟩
  · unfold Master.step turnOf
    rw [here]
    exact ⟨rfl, rfl⟩

/-! ## Runs -/

theorem linked_reset (size : master.istreamHead.size = headSize conf.protocol) (queue : master.queue = [])
    {state : State} (idle : state ≠ .waitResponse) (defined : state ≠ .undefined) :
    Linked conf ⟨{ resetMachine master with state }, [], []⟩ := by
  have reset := @framed_reset conf _ size state
  refine ⟨reset.1, .nothing rfl (pending_none idle), queue, defined, ?_⟩
  intro _
  exact .inl reset.2.symm

theorem linked_nextRequest (implemented : conf.protocol ≠ .ascii)
    (size : master.istreamHead.size = headSize conf.protocol) (queue : master.queue = []) :
    Linked conf ⟨nextRequest conf master, [], []⟩ ∧
      (nextRequest conf master).slaveData = master.slaveData := by
  have reset := @framed_reset conf _ size .connected
  have next : nextRequest conf master = cycle conf { resetMachine master with state := .connected } := by
    exact nextTurn_empty conf queue
  rw [next]
  exact ⟨linked_cycle implemented reset.1 reset.2 rfl rfl queue [], (kept_cycle conf _).slaveData⟩

theorem Drained.size {bf : List UInt8} {after : Master × Bool} (drained : Drained conf master bf after) :
    after.1.istreamHead.size = headSize conf.protocol := by
  cases drained with
  | waits framed _ _ _ _ => exact framed.size
  | broken _ _ _ _ _ framed _ _ _ => exact framed.size
  | bare _ _ _ _ _ _ _ _ size => exact size
  | whole _ _ _ _ _ _ _ _ _ _ size => exact size

theorem Linked.arrives {link : Link} (linked : Linked conf link) {bf : List UInt8}
    {after : Master × Bool} (drained : Drained conf link.master bf after)
    (received : Received link.master after.1) (incomplete : after.2 = false) :
    Linked conf ⟨after.1, link.before, link.since ++ bf⟩ := by
  have waits := linked.waits.received received
  have queue := received.queue.trans linked.queue
  have state : after.1.state ≠ .undefined := by
    rw [received.state]
    exact linked.state
  cases drained with
  | waits framed bytes _ _ _ =>
    refine ⟨framed, waits, queue, state, ?_⟩
    intro none_before
    rcases linked.bytes none_before with same | ⟨head, rest, since, length, bad, read⟩
    · exact .inl ((congrArg (· ++ bf) same).trans bytes.symm)
    · refine .inr ⟨head, rest ++ bf, ?_, length, bad, ?_⟩
      · rw [since, append_assoc]
      · rw [read] at bytes
        exact framed.bad bytes length bad
  | broken head rest bytes length bad framed read _ _ =>
    refine ⟨framed, waits, queue, state, ?_⟩
    intro none_before
    rcases linked.bytes none_before with same | ⟨other, behind, since, other_length, other_bad, other_read⟩
    · refine .inr ⟨head, rest, ?_, length, bad, read⟩
      rw [same, bytes]
    · have heads := append_inj (other_read ▸ bytes) (by omega)
      refine .inr ⟨head, behind ++ bf, ?_, length, bad, read⟩
      rw [since, heads.1, append_assoc]
  | bare _ _ _ _ _ _ complete _ _ =>
    rw [incomplete] at complete
    exact absurd complete false_ne_true
  | whole _ _ _ _ _ _ _ _ complete _ _ =>
    rw [incomplete] at complete
    exact absurd complete false_ne_true

section

variable {link : Link} (implemented : conf.protocol ≠ .ascii) (linked : Linked conf link)
include implemented linked

theorem Linked.rxData
    (state : link.master.state = .connected ∨ link.master.state = .waitResponse) (bf : List UInt8) :
    Linked conf (link.step conf (.rxData bf)) ∧ (link.step conf (.rxData bf)).master.slaveData =
        (Chunked.drain (rxTurn conf) (link.master, false) bf).1.slaveData := by
  have drained := linked.framed.drained bf
  have received := received_drain conf link.master bf
  have ⟨step, turn⟩ := @step_rxData conf _ state bf
  have here : link.step conf (.rxData bf) =
      if (turnOf conf link.master (.rxData bf)).isSome then
        ⟨link.master.step conf (.rxData bf), [], []⟩
      else ⟨link.master.step conf (.rxData bf), link.before, link.since ++ bf⟩ := by
    unfold Link.step
    rcases state with same | same
    · rw [same]
    · rw [same]
  rw [here, turn, step]
  unfold acRxData
  dsimp only
  cases complete : (Chunked.drain (rxTurn conf) (link.master, false) bf).2 with
  | true =>
    rw [if_pos rfl, if_pos rfl]
    exact linked_nextRequest implemented drained.size (received.queue.trans linked.queue)
  | false =>
    rw [if_neg Bool.false_ne_true, if_neg Bool.false_ne_true]
    exact ⟨linked.arrives drained received complete, rfl⟩

theorem Linked.timeout (state : link.master.state = .connected) :
    Linked conf ⟨cycle conf link.master, link.before ++ link.since, []⟩ := by
  have kept := kept_cycle conf link.master
  have same := linked.framed.of_kept kept
  have no_function := linked.waits.idle (by rw [state]; decide)
  refine ⟨same.1, waits_cycle implemented state no_function, kept.queue.trans linked.queue, ?_, ?_⟩
  · have cycled : (cycle conf link.master).state = .connected ∨
        (cycle conf link.master).state = .waitResponse := cycle_state conf state
    rcases cycled with here | here
    · rw [here]
      decide
    · rw [here]
      decide
  · intro nothing
    have ⟨none_before, none_since⟩ := append_eq_nil_iff.1 nothing
    rcases linked.bytes none_before with read | ⟨head, rest, since, length, _, _⟩
    · exact .inl (none_since.symm.trans (read.trans same.2.symm))
    · have positive : 0 < headSize conf.protocol := by
        cases conf.protocol <;> decide
      have count := congrArg List.length (none_since.symm.trans since)
      rw [length_append, length_nil] at count
      omega

theorem Linked.step {op : Op} (no_write : ∀ request, op ≠ .sendMessage request) :
    Linked conf (link.step conf op) ∧
      ((∀ bf, op ≠ .rxData bf) → (link.step conf op).master.slaveData = link.master.slaveData) := by
  have size := linked.framed.size
  have disconnects := @linked_reset conf _ size linked.queue .disconnected (by decide) (by decide)
  cases state : link.master.state with
  | undefined => exact absurd state linked.state
  | disconnected =>
    by_cases event : op = .connected
    · subst event
      have here : link.step conf .connected = ⟨acConnected link.master, [], []⟩ := by
        unfold Link.step Master.step
        rw [state]
      rw [here]
      exact ⟨linked_reset size linked.queue (by decide) (by decide), fun _ => rfl⟩
    · have here : link.step conf op = link := by
        unfold Link.step Master.step
        rw [state]
        cases op with
        | connected => exact absurd rfl event
        | disconnected | rxData bf | sendMessage request | timeout => rfl
      rw [here]
      exact ⟨linked, fun _ => rfl⟩
  | connected =>
    cases op with
    | sendMessage request => exact absurd rfl (no_write request)
    | connected =>
      have here : link.step conf .connected = link := by
        unfold Link.step Master.step
        rw [state]
      rw [here]
      exact ⟨linked, fun _ => rfl⟩
    | disconnected =>
      have here : link.step conf .disconnected = ⟨acDisconnected link.master, [], []⟩ := by
        unfold Link.step Master.step
        rw [state]
      rw [here]
      exact ⟨disconnects, fun _ => rfl⟩
    | rxData bf => exact ⟨(linked.rxData implemented (.inl state) bf).1, fun other => absurd rfl (other bf)⟩
    | timeout =>
      have here : link.step conf .timeout = ⟨cycle conf link.master, link.before ++ link.since, []⟩ := by
        unfold Link.step Master.step
        rw [state]
        rw [nextTurn_empty conf linked.queue]
      rw [here]
      exact ⟨linked.timeout implemented state, fun _ => (kept_cycle conf link.master).slaveData⟩
  | waitResponse =>
    cases op with
    | sendMessage request => exact absurd rfl (no_write request)
    | connected =>
      have here : link.step conf .connected = link := by
        unfold Link.step Master.step
        rw [state]
      rw [here]
      exact ⟨linked, fun _ => rfl⟩
    | disconnected =>
      have here : link.step conf .disconnected = ⟨acDisconnected link.master, [], []⟩ := by
        unfold Link.step Master.step
        rw [state]
      rw [here]
      exact ⟨disconnects, fun _ => rfl⟩
    | rxData bf => exact ⟨(linked.rxData implemented (.inr state) bf).1, fun other => absurd rfl (other bf)⟩
    | timeout =>
      have here : link.step conf .timeout =
          ⟨acTimeoutResponse conf link.master, link.before ++ link.since, []⟩ := by
        unfold Link.step Master.step
        rw [state]
      have reset := @framed_reset conf _ size .connected
      rw [here]
      exact ⟨linked_cycle implemented reset.1 reset.2 rfl rfl linked.queue _,
        fun _ => (kept_cycle conf _).slaveData⟩

end

/-! ## Responses -/

theorem waiting_of_pending {asked : Asked} (here : pending conf master = some asked) :
    master.state = .waitResponse := by
  by_cases waiting : master.state = .waitResponse
  · exact waiting
  · rw [pending_none waiting] at here
    exact absurd here nofun

theorem frameOf_fields (conf : Conf) (head : List UInt8) :
    (frameOf conf head).slaveId = (decodeHead conf.protocol head).1.slaveId ∧
      (frameOf conf head).function = (decodeHead conf.protocol head).1.function ∧
      (frameOf conf head).byteCount = (decodeHead conf.protocol head).1.byteCount := by
  unfold frameOf headerComplete
  split <;> exact ⟨rfl, rfl, rfl⟩

theorem frameOf_errorCode {head : List UInt8}
    (low : (decodeHead conf.protocol head).1.function < 0x80) : (frameOf conf head).errorCode = 0 := by
  have none_before : (decodeHead conf.protocol head).1.errorCode = 0 := by
    unfold decodeHead
    dsimp only
    repeat' split
    all_goals rfl
  unfold frameOf headerComplete
  rw [if_neg (Nat.not_le_of_lt low)]
  exact none_before

theorem decodeHead_serial {protocol : Protocol} (serial : protocol ≠ .tcp) (head : List UInt8) :
    2 ≤ (decodeHead protocol head).1.payloadLength := by
  cases protocol with
  | tcp => exact absurd rfl serial
  | rtu | ascii => exact Nat.le_add_left 2 _

theorem Checked.of_fields {protocol : Protocol} {frame other : FrameHead} {payload : List UInt8}
    (checked : Checked protocol frame payload) (slaveId : frame.slaveId = other.slaveId)
    (function : frame.function = other.function) (count : frame.byteCount = other.byteCount) :
    Checked protocol other payload := by
  unfold Checked crc16Rx at checked ⊢
  rw [← slaveId, ← function, ← count]
  exact checked

theorem length_of_quantity {type : ObjectType} {size count : Nat}
    (same : reqNbValue (readFunction type) size = rspNbValue (readFunction type) count)
    (even : readFunction type = 0x03 ∨ readFunction type = 0x04 → count ≠ 2 * size + 1) :
    count = valuesLength type size := by
  have bits (counted : size / 8 + (if size % 8 ≠ 0 then 1 else 0) = count) : count = (size + 7) / 8 := by
    split at counted
    · omega
    · omega
  have words (counted : size = count / 2) (more : count ≠ 2 * size + 1) : count = 2 * size := by omega
  cases type with
  | coil => exact bits same
  | discreteInput => exact bits same
  | holdingRegister => exact words same (even (.inl rfl))
  | inputRegister => exact words same (even (.inr rfl))

theorem quantity_of_length {type : ObjectType} {size count : Nat} (same : count = valuesLength type size) :
    reqNbValue (readFunction type) size = rspNbValue (readFunction type) count := by
  have bits : size / 8 + (if size % 8 ≠ 0 then 1 else 0) = (size + 7) / 8 := by
    split <;> omega
  have words : size = 2 * size / 2 := by omega
  rw [same]
  cases type with
  | coil => exact bits
  | discreteInput => exact bits
  | holdingRegister => exact words
  | inputRegister => exact words

theorem Stores.answers {before : Master} {head payload : List UInt8} {map : Map} {type other : ObjectType}
    (same : before.frameHead = frameOf conf head)
    (stores : Stores before (dataOf conf.protocol payload) type)
    (length : head.length = headSize conf.protocol)
    (decoded : (decodeHead conf.protocol head).2 = true)
    (gathered : payload.length = (frameOf conf head).payloadLength)
    (curMap : before.curMap = some map) (asked : before.modbusFunction = some (readFunction other))
    (checked : Checked conf.protocol before.frameHead payload)
    (fits : Whole conf.protocol (head ++ payload) →
      FrameFits conf.protocol (askedOf conf before.tId before.curSlave other map) map (head ++ payload)) :
    Answers conf.protocol (askedOf conf before.tId before.curSlave other map)
        (dataOf conf.protocol payload) (head ++ payload) ∧
      Stored (askedOf conf before.tId before.curSlave other map) (dataOf conf.protocol payload)
        before.slaveData (storedCells before (dataOf conf.protocol payload) type) := by
  have ⟨slaveId, function, count⟩ := frameOf_fields conf head
  have fields := decodeHead_append length payload
  have read := stores.function
  have type_same : other = type := by
    have functions : readFunction type = readFunction other := by
      rw [← read]
      exact some.inj (stores.asked.symm.trans asked)
    have types := readType_eq_some.2 functions
    rw [readType_eq_some.2 rfl] at types
    exact (some.inj types).symm
  subst type_same
  have low : readFunction other < 0x80 := by cases other <;> decide
  have behind : payload.length = (decodeHead conf.protocol head).1.payloadLength := by
    rw [gathered, frameOf_payloadLength, ← function, ← same, read, if_neg (by omega)]
  have whole : Whole conf.protocol (head ++ payload) := by
    constructor
    · rw [length_append]
      omega
    · rw [frameLength_append length decoded, length_append, length, behind, ← function, ← same, read,
        if_neg fun both => absurd both.2 (by omega)]
  have frame := fits whole
  have slave_same : (decodeHead conf.protocol head).1.slaveId =
      (askedOf conf before.tId before.curSlave other map).slaveId := by
    rw [← slaveId, ← same]
    exact stores.slaveId.symm
  have function_same : (decodeHead conf.protocol head).1.function =
      (askedOf conf before.tId before.curSlave other map).function := by
    rw [← function, ← same]
    exact read
  have count_same : (decodeHead conf.protocol head).1.byteCount =
      (dataOf conf.protocol payload).length := by
    rw [← count, ← same]
    exact stores.byteCount
  have size := frame.quantity (by rw [fields]; exact slave_same) (by rw [fields]; exact function_same)
  have even := frame.even (by rw [fields]; exact slave_same) (by rw [fields]; exact function_same)
  rw [fields, count_same] at even
  have counted := stores.quantity
  rw [read, stores.byteCount, curMap] at counted
  have quantity : (dataOf conf.protocol payload).length =
      valuesLength other (askedOf conf before.tId before.curSlave other map).quantity := by
    rw [← size]
    exact length_of_quantity counted (by rw [size]; exact even)
  constructor
  · apply answers_of_fields length decoded behind ?_ slave_same function_same count_same ?_ ?_
    · intro tcp
      by_contra different
      apply frame.own
      unfold Foreign
      rw [tcp]
      have long : 2 ≤ head.length := by
        rw [length, tcp]
        decide
      rw [take_append_of_le_length long]
      exact different
    · rw [quantity, dataLength_askedOf]
    · apply checked.of_fields
      · rw [same, slaveId]
      · rw [same, function]
      · rw [same, count]
  · refine ⟨other, readType_eq_some.2 rfl, ?_⟩
    have takes := cellsTake_storeCells (askedOf conf before.tId before.curSlave other map) other quantity
      before.slaveData
    have slave : before.frameHead.slaveId = (askedOf conf before.tId before.curSlave other map).slaveId := by
      rw [same, slaveId]
      exact slave_same
    unfold storedCells
    rw [slave, curMap]
    dsimp only [map_some, getD_some]
    rw [size]
    exact takes

theorem cellsTake_nothing {asked : Asked} (none_asked : asked.quantity = 0) (type : ObjectType)
    (data : List UInt8) (slaves : List SlaveData) : CellsTake asked type data slaves slaves := by
  intro index other place
  rw [if_neg (by omega)]

/-- The parts of a well-formed response: a header, and a payload that is as long as the master waits for
unless it is an exception over TCP. -/
theorem WellFormed.parts {asked : Asked} {response : List UInt8}
    (wellFormed : WellFormed conf.protocol asked response) (valid : asked.Valid conf.protocol) :
    ∃ head payload, response = head ++ payload ∧ head.length = headSize conf.protocol ∧
      (decodeHead conf.protocol head).2 = true ∧ Whole conf.protocol response ∧
      payload.length ≤ (frameOf conf head).payloadLength ∧
      ((conf.protocol = .tcp → (decodeHead conf.protocol head).1.function < 0x80) →
        payload.length = (frameOf conf head).payloadLength) := by
  have low := valid.function
  rcases wellFormed with ⟨data, enough, bytes⟩ | ⟨code, bytes⟩
  · have ⟨head, payload, split, length, _, decoded, _⟩ := valid.normal (rfl : ([0, 0] : List UInt8).length = 2) enough
    have good : (decodeHead conf.protocol head).2 = true := by rw [decoded]
    have same : payload.length = (frameOf conf head).payloadLength := by
      rw [frameOf_payloadLength, decoded, if_neg (by dsimp only; omega)]
    refine ⟨head, payload, bytes.trans split, length, good, ⟨?_, ?_⟩, Nat.le_of_eq same, fun _ => same⟩
    · rw [bytes, split, length_append]
      omega
    · rw [bytes, split, frameLength_append length good, length_append, length, decoded,
        if_neg fun both => absurd both.2 (by dsimp only; omega)]
  · have ⟨head, payload, split, length, good, function, bare, count⟩ :=
      valid.exception (rfl : ([0, 0] : List UInt8).length = 2) code
    have behind : (frameOf conf head).payloadLength = 2 := by
      rw [frameOf_payloadLength, function, if_pos (by omega)]
    refine ⟨head, payload, bytes.trans split, length, good, ⟨?_, ?_⟩, ?_, ?_⟩
    · rw [bytes, split, length_append]
      omega
    · rw [bytes, split, frameLength_append length good, length_append, length, count, function]
      by_cases tcp : conf.protocol = .tcp
      · rw [if_pos tcp, if_neg fun both => both.1 tcp, bare tcp]
      · rw [if_neg tcp, if_pos ⟨tcp, by omega⟩]
    · rw [count, behind]
      split <;> omega
    · intro normal
      rw [count, behind]
      split
      · rename_i tcp
        have less := normal tcp
        omega
      · rfl

theorem Drained.complete {head payload bf rest : List UInt8} {after : Master × Bool}
    (drained : Drained conf master bf after) (bytes : received master ++ bf = head ++ payload ++ rest)
    (length : head.length = headSize conf.protocol)
    (decoded : (decodeHead conf.protocol head).2 = true)
    (gathered : payload.length = (frameOf conf head).payloadLength) : after.2 = true := by
  cases drained with
  | waits framed whole _ _ _ =>
    have less := framed.short (whole.trans bytes) length decoded
    omega
  | broken other tail split other_length bad _ _ _ _ =>
    rw [split, append_assoc] at bytes
    have heads := append_inj bytes (by omega)
    rw [heads.1, decoded] at bad
    exact absurd bad (by decide)
  | bare _ _ _ _ _ _ complete _ _ => exact complete
  | whole _ _ _ _ _ _ _ _ complete _ _ => exact complete

theorem Drained.incomplete {head payload bf missing : List UInt8} {after : Master × Bool}
    (drained : Drained conf master bf after)
    (bytes : received master ++ bf ++ missing = head ++ payload)
    (length : head.length = headSize conf.protocol)
    (most : payload.length ≤ (frameOf conf head).payloadLength) (some_missing : missing ≠ []) :
    after.2 = false := by
  have positive := length_pos_of_ne_nil some_missing
  cases drained with
  | waits _ _ incomplete _ _ => exact incomplete
  | broken _ _ _ _ _ _ _ incomplete _ => exact incomplete
  | bare other tail split other_length _ none_behind _ _ _ =>
    rw [split, append_assoc] at bytes
    have heads := append_inj bytes (by omega)
    have count := congrArg List.length heads.2
    rw [heads.1] at none_behind
    rw [length_append] at count
    omega
  | whole other behind tail split other_length _ gathered _ _ _ _ =>
    rw [split, append_assoc, append_assoc] at bytes
    have heads := append_inj bytes (by omega)
    have count := congrArg List.length heads.2
    rw [heads.1] at gathered
    rw [length_append, length_append] at count
    omega

theorem Drained.stored (implemented : conf.protocol ≠ .ascii) {bf data rest : List UInt8}
    {after : Master × Bool} (drained : Drained conf master bf after) {map : Map} {type : ObjectType}
    (curMap : master.curMap = some map) (function : master.modbusFunction = some (readFunction type))
    (enough : data.length = (askedOf conf master.tId master.curSlave type map).dataLength)
    (bytes : received master ++ bf =
      framed conf.protocol (askedOf conf master.tId master.curSlave type map).tId [0, 0]
        ((askedOf conf master.tId master.curSlave type map).response data) ++ rest)
    (fits : ∀ frame rest, received master ++ bf = frame ++ rest → Whole conf.protocol frame →
      FrameFits conf.protocol (askedOf conf master.tId master.curSlave type map) map frame) :
    Stored (askedOf conf master.tId master.curSlave type map) data master.slaveData
      after.1.slaveData := by
  have valid := valid_askedOf conf master.tId master.curSlave type map
  have values := dataLength_askedOf conf master.tId master.curSlave type map
  have low : readFunction type < 0x80 := by cases type <;> decide
  have ⟨head, payload, split, length, dataOf_payload, decoded, checked⟩ :=
    valid.normal (rfl : ([0, 0] : List UInt8).length = 2) enough
  have good : (decodeHead conf.protocol head).2 = true := by rw [decoded]
  have behind : payload.length = (frameOf conf head).payloadLength := by
    rw [frameOf_payloadLength, decoded]
    exact (if_neg (Nat.not_le_of_lt low)).symm
  rw [split] at bytes
  cases drained with
  | waits framed whole _ _ _ =>
    have less := framed.short (whole.trans bytes) length good
    omega
  | broken other tail split other_length bad _ _ _ _ =>
    rw [split, append_assoc] at bytes
    have heads := append_inj bytes (by omega)
    rw [heads.1, good] at bad
    exact absurd bad (by decide)
  | bare other tail split other_length _ none_behind _ same _ =>
    rw [split, append_assoc] at bytes
    have heads := append_inj bytes (by omega)
    rw [heads.1, ← behind] at none_behind
    have no_data : data.length = 0 := by
      rw [← dataOf_payload, eq_nil_of_length_eq_zero none_behind]
      cases conf.protocol <;> rfl
    have nothing : (askedOf conf master.tId master.curSlave type map).quantity = 0 := by
      rw [enough, values] at no_data
      unfold valuesLength at no_data
      split at no_data
      all_goals omega
    rw [same]
    exact ⟨type, readType_eq_some.2 rfl, cellsTake_nothing nothing type data master.slaveData⟩
  | whole other other_payload tail bytes_same other_length _ gathered _ _ last _ =>
    have ⟨before, completed, kept, same, frameHead⟩ := last
    have frames := fits (head ++ payload) rest bytes
    rw [bytes_same, append_assoc, append_assoc] at bytes
    have heads := append_inj bytes (by omega)
    rw [heads.1] at gathered frameHead
    have payloads := append_inj heads.2 (by omega)
    rw [payloads.1] at completed
    have ⟨slaveId_field, function_field, count_field⟩ := frameOf_fields conf head
    rw [decoded] at slaveId_field function_field count_field
    have before_checked : Checked conf.protocol before.frameHead payload := by
      rw [frameHead]
      apply checked.of_fields
      · rw [slaveId_field, decoded]
      · rw [function_field, decoded]
      · rw [count_field, decoded]
    have no_error : before.frameHead.errorCode = 0 := by
      rw [frameHead]
      apply frameOf_errorCode
      rw [decoded]
      exact low
    have whole : Whole conf.protocol (head ++ payload) := by
      constructor
      · rw [length_append]
        omega
      · rw [frameLength_append length good, length_append, length, decoded,
          if_neg fun both => Nat.not_le_of_lt low both.2]
    have fields := decodeHead_append length payload
    have size := (frames whole).quantity (by rw [fields, decoded]) (by rw [fields, decoded])
    have stores : Stores before (dataOf conf.protocol payload) type := by
      refine ⟨?_, ?_, ?_, ?_, ?_⟩
      · rw [frameHead, function_field]
        rfl
      · rw [frameHead, count_field, dataOf_payload]
      · rw [frameHead, slaveId_field, kept.curSlave]
        rfl
      · rw [frameHead, function_field, kept.modbusFunction, function]
        rfl
      · rw [frameHead, function_field, count_field, kept.curMap, curMap]
        exact quantity_of_length (enough.trans (values.trans (congrArg _ size.symm)))
    have long : conf.protocol ≠ .tcp → 2 ≤ payload.length := by
      intro serial
      have least := decodeHead_serial serial head
      rw [decoded] at least
      exact least
    have here := (stores.answers frameHead length good behind (kept.curMap.trans curMap)
      (kept.modbusFunction.trans function) before_checked
      (by rw [kept.tId, kept.curSlave]; exact frames)).2
    rw [completed, slaveData_checked before long implemented no_error before_checked, stores.slaveData]
    rw [kept.tId, kept.curSlave, same, dataOf_payload] at here
    rw [dataOf_payload]
    exact here

theorem Drained.answers (implemented : conf.protocol ≠ .ascii) (waits : Waits conf master)
    {bf : List UInt8} {after : Master × Bool} (drained : Drained conf master bf after)
    (fits : ∀ asked map frame rest, pending conf master = some asked → master.curMap = some map →
      received master ++ bf = frame ++ rest → Whole conf.protocol frame →
      FrameFits conf.protocol asked map frame) :
    after.1.slaveData = master.slaveData ∨
      ∃ asked data head payload rest, pending conf master = some asked ∧
        received master ++ bf = head ++ payload ++ rest ∧ head.length = headSize conf.protocol ∧
        (decodeHead conf.protocol head).2 = true ∧
        Answers conf.protocol asked data (head ++ payload) ∧
        Stored asked data master.slaveData after.1.slaveData := by
  cases drained with
  | waits _ _ _ same _ => exact .inl same
  | broken _ _ _ _ _ _ _ _ same => exact .inl same
  | bare _ _ _ _ _ _ _ same _ => exact .inl same
  | whole head payload rest bytes length decoded gathered _ _ last _ =>
    have ⟨before, completed, kept, same, frameHead⟩ := last
    rw [completed]
    rcases slaveData_frameCompleted implemented before payload with nothing | ⟨checked, stored⟩
    · exact .inl (nothing.trans same)
    rcases slaveData_store before (dataOf conf.protocol payload) with nothing | ⟨type, stores, values⟩
    · exact .inl (stored.trans (nothing.trans same))
    cases waits with
    | nothing no_function none_pending =>
      have function := stores.asked
      rw [kept.modbusFunction, no_function] at function
      exact absurd function nofun
    | read map other state curMap function asked =>
      have here := stores.answers frameHead length decoded gathered (kept.curMap.trans curMap)
        (kept.modbusFunction.trans function) checked (by
          rw [kept.tId, kept.curSlave]
          exact fits _ map _ rest asked curMap bytes)
      rw [kept.tId, kept.curSlave, same] at here
      refine .inr ⟨_, _, head, payload, rest, asked, bytes, length, decoded, here.1, ?_⟩
      rw [stored, values]
      exact here.2

theorem Whole.decoded {protocol : Protocol} {frame : List UInt8} (whole : Whole protocol frame) :
    (decodeHead protocol (frame.take (headSize protocol))).2 = true := by
  have ⟨long, same⟩ := whole
  rw [decodeHead_take long]
  cases protocol with
  | tcp =>
    have least : 9 ≤ frame.length := long
    unfold frameLength at same
    unfold decodeHead
    dsimp only at same ⊢
    rw [if_neg (by omega)]
  | rtu | ascii => rfl

theorem Linked.arrived {link : Link} (linked : Linked conf link) (none_before : link.before = [])
    {head bf rest : List UInt8} (bytes : received link.master ++ bf = head ++ rest)
    (length : head.length = headSize conf.protocol)
    (decoded : (decodeHead conf.protocol head).2 = true) : link.since ++ bf = head ++ rest := by
  rcases linked.bytes none_before with same | ⟨other, behind, _, other_length, bad, read⟩
  · rw [same, bytes]
  · rw [read] at bytes
    have heads := append_inj bytes (by omega)
    rw [heads.1, decoded] at bad
    exact absurd bad (by decide)

section

variable {link : Link} (implemented : conf.protocol ≠ .ascii) (linked : Linked conf link)
include implemented linked

theorem Linked.holds_rxData {asked : Asked} (asks : pending conf link.master = some asked)
    {bf : List UInt8} (some_bytes : bf ≠ []) (fits : ArrivalFits conf link (.rxData bf)) :
    CellsHold conf link (.rxData bf) := by
  have state := waiting_of_pending asks
  have drained := linked.framed.drained bf
  have ⟨_, turn⟩ := @step_rxData conf _ (.inr state) bf
  have stored := (linked.rxData implemented (.inr state) bf).2
  have ⟨map, type, curMap, function, request⟩ := linked.waits.asked asks
  have valid : asked.Valid conf.protocol := by
    rw [request]
    exact valid_askedOf conf link.master.tId link.master.curSlave type map
  have ⟨none_before, frames⟩ := fits bf asked map rfl some_bytes asks curMap
  have only {other : Asked} (here : pending conf link.master = some other) : other = asked :=
    some.inj (here.symm.trans asks)
  refine ⟨?_, ?_, ?_, ?_⟩
  · rw [stored]
    have answered := drained.answers implemented linked.waits (by
      intro other other_map frame rest here there bytes whole
      rw [only here, some.inj (there.symm.trans curMap)]
      have split : frame = frame.take (headSize conf.protocol) ++ frame.drop (headSize conf.protocol) :=
        (take_append_drop _ _).symm
      have parts : received link.master ++ bf =
          frame.take (headSize conf.protocol) ++ (frame.drop (headSize conf.protocol) ++ rest) := by
        rw [bytes, ← append_assoc, ← split]
      have arrived := linked.arrived none_before parts (length_take_of_le whole.1) whole.decoded
      rw [← append_assoc, ← split] at arrived
      exact frames frame rest arrived whole)
    rcases answered with same | ⟨other, data, head, payload, rest, here, bytes, length, decoded, answers, there⟩
    · exact .inl same
    · rw [append_assoc] at bytes
      have arrived := linked.arrived none_before bytes length decoded
      rw [← append_assoc] at arrived
      exact .inr ⟨other, data, head ++ payload, rest, bf, here, rfl, arrived, answers, there⟩
  · intro other response front rest here event _ bytes wellFormed
    cases event
    rw [only here] at wellFormed
    have ⟨head, payload, split, length, decoded, whole, _, gathered⟩ := wellFormed.parts valid
    have arrived : link.since ++ (front ++ rest) = response ++ rest := by
      rw [← append_assoc, bytes]
    have normal := (frames response rest arrived whole).normal
    rw [split, decodeHead_append length] at normal
    rw [split, append_assoc] at arrived
    have same := linked.synced none_before arrived length decoded
    rw [same, ← append_assoc head] at arrived
    have complete := drained.complete arrived length decoded (gathered normal)
    rw [turn, complete, if_pos rfl]
    rfl
  · intro other data front rest here event _ enough bytes
    cases event
    rw [only here] at enough bytes ⊢
    have ⟨head, payload, split, length, decoded, _, _, _⟩ :=
      WellFormed.parts (.inl ⟨data, enough, rfl⟩) valid
    have arrived : link.since ++ (front ++ rest) =
        Modbus.framed conf.protocol asked.tId [0, 0] (asked.response data) ++ rest := by
      rw [← append_assoc, bytes]
    have parts : link.since ++ (front ++ rest) = head ++ (payload ++ rest) := by
      rw [arrived, split, append_assoc]
    have same := linked.synced none_before parts length decoded
    rw [stored]
    rw [same] at arrived frames
    subst request
    exact drained.stored implemented curMap function enough arrived frames
  · intro other response _ missing here event bytes some_missing wellFormed
    cases event
    rw [only here] at wellFormed
    have ⟨head, payload, split, length, decoded, _, most, _⟩ := wellFormed.parts valid
    rw [split] at bytes
    have parts : link.since ++ (bf ++ missing) = head ++ payload := by
      rw [← append_assoc, bytes]
    have same := linked.synced none_before parts length decoded
    rw [same] at bytes
    rw [turn, drained.incomplete bytes length most some_missing, if_neg Bool.false_ne_true]

theorem Linked.holds
    {op : Op} (no_write : ∀ request, op ≠ .sendMessage request) (fits : ArrivalFits conf link op) :
    CellsHold conf link op := by
  have nothing (same : (link.step conf op).master.slaveData = link.master.slaveData)
      (quiet : ∀ asked bf, pending conf link.master = some asked → op = .rxData bf → bf = []) :
      CellsHold conf link op := by
    refine ⟨.inl same, ?_, ?_, ?_⟩
    · intro asked _ front rest here event some_front
      exact absurd (append_eq_nil_iff.1 (quiet asked _ here event)).1 some_front
    · intro asked _ front rest here event some_front
      exact absurd (append_eq_nil_iff.1 (quiet asked _ here event)).1 some_front
    · intro asked _ bf _ here event _ _ _
      rw [event, quiet asked bf here event,
        (@step_rxData conf _ (.inr (waiting_of_pending here)) []).2, Chunked.drain_nil]
      rfl
  by_cases arrival : ∃ bf, op = .rxData bf
  · have ⟨bf, event⟩ := arrival
    subst event
    by_cases asks : ∃ asked, pending conf link.master = some asked ∧ bf ≠ []
    · have ⟨asked, here, some_bytes⟩ := asks
      exact linked.holds_rxData implemented here some_bytes fits
    · have empty (asked : Asked) (here : pending conf link.master = some asked) : bf = [] := by
        by_contra some_bytes
        exact asks ⟨asked, here, some_bytes⟩
      refine nothing ?_ fun asked _ here event => (Op.rxData.inj event) ▸ empty asked here
      by_cases connected : link.master.state = .connected ∨ link.master.state = .waitResponse
      · rw [(linked.rxData implemented connected bf).2]
        by_cases some_bytes : bf = []
        · rw [some_bytes, Chunked.drain_nil]
        · have answered := (linked.framed.drained bf).answers implemented linked.waits (by
            intro asked _ _ _ here
            exact absurd (empty asked here) some_bytes)
          rcases answered with same | ⟨asked, _, _, _, _, here, _⟩
          · exact same
          · exact absurd (empty asked here) some_bytes
      · rw [Link.step_master]
        unfold Master.step
        cases state : link.master.state with
        | connected => exact absurd (.inl state) connected
        | waitResponse => exact absurd (.inr state) connected
        | disconnected | undefined => rfl
  · have others (bf : List UInt8) : op ≠ .rxData bf := fun event => arrival ⟨bf, event⟩
    exact nothing ((linked.step implemented no_write).2 others) fun _ bf _ event => absurd event (others bf)

end

theorem linked_start (conf : Conf) (slaves : List Slave) : Linked conf (.start conf slaves) := by
  have moved := moved_loadSlaveMapping (.created conf slaves)
  have framed : Framed conf (.created conf slaves) :=
    .head [] (by cases conf.protocol <;> decide) rfl rfl rfl rfl rfl
  have same := framed.of_kept moved.toKept
  have state : (Master.start conf slaves).state = .disconnected := moved.state
  refine ⟨same.1, .nothing moved.modbusFunction (pending_none ?_), moved.queue, ?_, ?_⟩
  · show (Master.start conf slaves).state ≠ _
    rw [state]
    decide
  · show (Master.start conf slaves).state ≠ _
    rw [state]
    decide
  · intro _
    exact .inl same.2.symm

/-- **The values of the cells.** Over TCP and RTU, along every run of polls, timeouts and reconnections and
for all bytes however they are cut, the cells change by complete responses to the request that is pending
and by those alone, and a well-formed response is complete at its last byte and is stored, where the
frames that complete a request are for it and fit, and no timer cuts a response in two. -/
theorem cells_hold (conf : Conf) (implemented : conf.protocol ≠ .ascii) (slaves : List Slave)
    (ops : List Op) (no_writes : ∀ request, .sendMessage request ∉ ops)
    (fits : AllSteps (Link.step conf) (ArrivalFits conf) (.start conf slaves) ops) :
    AllSteps (Link.step conf) (CellsHold conf) (.start conf slaves) ops := by
  have all : ∀ op ∈ ops, ∀ request, op ≠ .sendMessage request := by
    intro op among request event
    rw [event] at among
    exact no_writes request among
  have events := AllSteps.of_mem (Link.step conf) all (.start conf slaves)
  apply AllSteps.strengthen (Link.step conf) _ _ (linked_start conf slaves) (events.and _ fits)
  · intro link op linked met
    exact (linked.step implemented met.1).1
  · intro link op linked met
    exact linked.holds implemented met.1 met.2

theorem whole_unique {protocol : Protocol} {frame other rest behind : List UInt8}
    (whole : Whole protocol frame) (other_whole : Whole protocol other)
    (bytes : frame ++ rest = other ++ behind) : frame = other := by
  have heads : frame.take (headSize protocol) = other.take (headSize protocol) := by
    rw [← @take_append_of_le_length _ _ rest _ whole.1, bytes,
      take_append_of_le_length other_whole.1]
  have length {list : List UInt8} (whole : Whole protocol list) : list.length = headSize protocol +
      if protocol ≠ .tcp ∧ 0x80 ≤ (decodeHead protocol (list.take (headSize protocol))).1.function then 2
      else (decodeHead protocol (list.take (headSize protocol))).1.payloadLength := by
    have here := frameLength_append (length_take_of_le whole.1) whole.decoded
      (list.drop (headSize protocol))
    rw [take_append_drop] at here
    exact whole.2.trans here
  have same : frame.length = other.length := by
    rw [length whole, length other_whole, heads]
  exact (append_inj bytes same).1

/-- A map of a register. -/
def registerMap : Map where
  type := "holding_register"
  address := 0
  size := 1

/-- A slave with a register. -/
def registerSlave : Slave := ⟨1, [registerMap]⟩

/-- The response to the first request, in two chunks, sets the register. -/
theorem cells_hold_register :
    AllSteps (Link.step .tcp) (CellsHold .tcp) (.start .tcp [registerSlave])
      [.connected, .timeout, .rxData [0, 1, 0, 0, 0, 5], .rxData [1, 3, 2, 0xAB, 0xCD]] := by
  apply cells_hold .tcp (by decide) [registerSlave] _ (by simp)
  refine ⟨?_, ?_, ?_, ?_, trivial⟩
  · intro bf asked map event
    exact absurd event nofun
  · intro bf asked map event
    exact absurd event nofun
  · intro bf asked map event _ _ _
    cases event
    refine ⟨by decide, ?_⟩
    intro frame rest bytes whole
    have least : 9 ≤ frame.length := whole.1
    have count : frame.length + rest.length = 6 :=
      (List.length_append.symm.trans (congrArg List.length bytes).symm).trans (by decide)
    omega
  · intro bf asked map event _ asks curMap
    cases event
    refine ⟨by decide, ?_⟩
    intro frame rest bytes whole
    have request : pending .tcp (run (Link.step .tcp) (.start .tcp [registerSlave])
        [.connected, .timeout, .rxData [0, 1, 0, 0, 0, 5]]).master = some ⟨[0, 1], 1, 3, 0, 1⟩ := by
      decide
    have here : (run (Link.step .tcp) (.start .tcp [registerSlave])
        [.connected, .timeout, .rxData [0, 1, 0, 0, 0, 5]]).master.curMap = some registerMap := by
      decide
    have asked_same : asked = ⟨[0, 1], 1, 3, 0, 1⟩ := Option.some.inj (asks.symm.trans request)
    have map_same : map = registerMap := Option.some.inj (curMap.symm.trans here)
    have frame_same : frame = [0, 1, 0, 0, 0, 5, 1, 3, 2, 0xAB, 0xCD] :=
      whole_unique whole ⟨by decide, by decide⟩ (bytes.symm.trans (List.append_nil _).symm)
    rw [asked_same, map_same, frame_same]
    refine ⟨?_, fun _ => by decide, fun _ _ _ => by decide, fun _ _ => by decide⟩
    intro foreign
    exact foreign (by decide)

/-- A response that is late has the transaction id of the request before, and changes the register. -/
theorem late_response_changes_register :
    ¬ AllSteps (Link.step .tcp) (CellsHold .tcp) (.start .tcp [registerSlave])
      [.connected, .timeout, .timeout, .timeout,
        .rxData [0, 1, 0, 0, 0, 5, 1, 3, 2, 0xAB, 0xCD]] := by
  intro every
  rcases every.2.2.2.2.1.cells with same | ⟨asked, data, response, rest, bf, asks, event, bytes, answers, _⟩
  · have cell := congrArg (fun slaves => cellAt slaves 0 .holdingRegister 0) same
    exact absurd cell (by decide)
  · have request : pending .tcp
        (run (Link.step .tcp) (.start .tcp [registerSlave]) [.connected, .timeout, .timeout, .timeout]).master =
          some ⟨[0, 2], 1, 3, 0, 1⟩ := by decide
    have asked_same : asked = ⟨[0, 2], 1, 3, 0, 1⟩ := Option.some.inj (asks.symm.trans request)
    have ⟨_, protocolId, _, frame⟩ := answers
    cases event
    rw [frame, asked_same] at bytes
    have transaction : some (1 : UInt8) = some 2 := congrArg (fun bytes => bytes[1]?) bytes
    exact absurd transaction (by decide)

end Yunetas.Modbus
