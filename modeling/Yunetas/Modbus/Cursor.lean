import Yunetas.Lib.Patrol
import Yunetas.Modbus.Master

/-!
# The cursor of a master

The maps of the slaves in configuration order are the positions of a cursor; a slave without maps is one
that cannot be read, unless it is the first one. Whatever a handler of the machine does to the cursor is
a move of it.
-/

namespace Yunetas.Modbus

open List Int

open Gobj (gbufferCreate)

/-! ## The reception of bytes -/

/-- The cursor and the queue stay. -/
structure Still (before after : Master) : Prop where
  slaves : after.slaves = before.slaves
  idxSlaves : after.idxSlaves = before.idxSlaves
  curSlave : after.curSlave = before.curSlave
  mapping : after.mapping = before.mapping
  idxMapping : after.idxMapping = before.idxMapping
  maxMapping : after.maxMapping = before.maxMapping
  queue : after.queue = before.queue
  /-- Nothing but `EV_DROP` is sent. -/
  log : ∃ drops, after.log = before.log ++ List.replicate drops .drop

/-- What the reception of bytes leaves as it is. -/
structure Received (before after : Master) : Prop extends Still before after where
  state : after.state = before.state
  curMap : after.curMap = before.curMap
  tId : after.tId = before.tId
  modbusFunction : after.modbusFunction = before.modbusFunction

theorem Still.refl (master : Master) : Still master master :=
  ⟨rfl, rfl, rfl, rfl, rfl, rfl, rfl, 0, (append_nil _).symm⟩

variable {first second third : Master} {master : Master}

theorem Still.trans (one : Still first second) (two : Still second third) : Still first third := by
  have ⟨some_drops, here⟩ := one.log
  have ⟨more_drops, there⟩ := two.log
  exact ⟨two.slaves.trans one.slaves, two.idxSlaves.trans one.idxSlaves,
    two.curSlave.trans one.curSlave, two.mapping.trans one.mapping,
    two.idxMapping.trans one.idxMapping, two.maxMapping.trans one.maxMapping,
    two.queue.trans one.queue, some_drops + more_drops, by
      rw [there, here, append_assoc, replicate_add]⟩

theorem Received.refl (master : Master) : Received master master :=
  ⟨.refl master, rfl, rfl, rfl, rfl⟩

theorem Received.trans (one : Received first second)
    (two : Received second third) : Received first third :=
  ⟨one.toStill.trans two.toStill, two.state.trans one.state, two.curMap.trans one.curMap,
    two.tId.trans one.tId, two.modbusFunction.trans one.modbusFunction⟩

theorem still_resetMachine (master : Master) (state : State) :
    Still master { resetMachine master with state } :=
  ⟨rfl, rfl, rfl, rfl, rfl, rfl, rfl, 0, (append_nil _).symm⟩

theorem Received.of_fields (master : Master) (slaveData : List SlaveData) (frameHead : FrameHead)
    (istreamHead : Gobj.IStream) (head : List UInt8) (istreamPayload : Option Gobj.IStream)
    (waitPayload : Bool) :
    Received master { master with slaveData, frameHead, istreamHead, head, istreamPayload, waitPayload } :=
  ⟨⟨rfl, rfl, rfl, rfl, rfl, rfl, rfl, 0, (append_nil _).symm⟩, rfl, rfl, rfl, rfl⟩

theorem received_storeModbusResponseData (master : Master) (bf : List UInt8) :
    Received master (storeModbusResponseData master bf) := by
  unfold storeModbusResponseData
  dsimp only
  repeat' split
  all_goals first
    | exact .refl master
    | exact .of_fields master _ master.frameHead master.istreamHead master.head master.istreamPayload
        master.waitPayload

variable (conf : Conf)

theorem received_frameCompleted (master : Master) (bf : List UInt8) :
    Received master (frameCompleted conf master bf) := by
  unfold frameCompleted
  dsimp only
  repeat' split
  all_goals first
    | exact .refl master
    | exact received_storeModbusResponseData master _

theorem received_frameheadConsume (master : Master) (bf : List UInt8) :
    Received master (frameheadConsume conf master bf).1 := by
  unfold frameheadConsume
  dsimp only
  repeat' split
  all_goals exact .of_fields master master.slaveData _ _ _ master.istreamPayload master.waitPayload

theorem received_tell_drop (master : Master) : Received master (master.tell .drop) :=
  ⟨⟨rfl, rfl, rfl, rfl, rfl, rfl, rfl, 1, rfl⟩, rfl, rfl, rfl, rfl⟩

theorem received_rxTurn (state : Master × Bool) (bf : List UInt8) :
    Received state.1 (rxTurn conf state bf).1.1 := by
  have consumed := received_frameheadConsume conf state.1 bf
  unfold rxTurn
  split
  · unfold waitPayload
    split
    · exact .refl state.1
    · rename_i istream _
      have gathered := Received.of_fields state.1 state.1.slaveData state.1.frameHead
        state.1.istreamHead state.1.head
        (some (istream.consume state.1.frameHead.payloadLength bf).2.1) state.1.waitPayload
      dsimp only
      split
      · exact gathered.trans (received_frameCompleted conf _ _)
      · exact gathered
  · unfold waitHead
    dsimp only
    repeat' split
    · exact consumed.trans (received_tell_drop _)
    · exact consumed
    · exact consumed
    · exact consumed
    · exact consumed.trans (.of_fields _ (frameheadConsume conf state.1 bf).1.slaveData
        (frameheadConsume conf state.1 bf).1.frameHead (frameheadConsume conf state.1 bf).1.istreamHead
        (frameheadConsume conf state.1 bf).1.head _ _)

theorem received_drain (master : Master) (bf : List UInt8) :
    Received master (Chunked.drain (rxTurn conf) (master, false) bf).1 := by
  have keeps : ∀ (state : Master × Bool) chunk, Received master state.1 →
      Received master (rxTurn conf state chunk).1.1 :=
    fun state chunk received => received.trans (received_rxTurn conf state chunk)
  exact Chunked.drain_invariant (fun (state : Master × Bool) => Received master state.1) keeps
    (.refl master) bf

/-! ## Positions -/

/-- A slave and one of its maps, or none of a slave that has none. -/
abbrev Position := Option Slave × Option Map

/-- A map that is polled. -/
def enabled (position : Position) : Bool :=
  match position.2 with
  | some map => !map.disabled
  | none => false

/-- The maps of a slave. -/
def Slave.maps (slave : Slave) : List Position := slave.mapping.map fun map => (some slave, some map)

/-- The positions of a slave that is not the first one. -/
def Slave.positions (slave : Slave) : List Position :=
  if slave.mapping = [] then [(some slave, none)] else slave.maps

/-- The positions of a configuration. -/
def positions : List Slave → List Position
  | [] => []
  | first :: rest => first.maps ++ rest.flatMap Slave.positions

/-- The maps that are enabled, in configuration order. -/
def enabledMaps (slaves : List Slave) : List Position :=
  slaves.flatMap fun slave =>
    (slave.mapping.filter fun map => !map.disabled).map fun map => (some slave, some map)

theorem filter_positions (slaves : List Slave) :
    (positions slaves).filter enabled = enabledMaps slaves := by
  have maps (slave : Slave) : slave.maps.filter enabled =
      (slave.mapping.filter fun map => !map.disabled).map fun map => (some slave, some map) := by
    rw [Slave.maps, filter_map]
    rfl
  have later (slave : Slave) : slave.positions.filter enabled = slave.maps.filter enabled := by
    unfold Slave.positions
    split
    · rename_i empty
      rw [Slave.maps, empty]
      rfl
    · rfl
  cases slaves with
  | nil => rfl
  | cons first rest =>
    have others : (rest.flatMap Slave.positions).filter enabled = enabledMaps rest := by
      rw [filter_flatMap, enabledMaps]
      congr 1
      funext slave
      rw [later, maps]
    rw [positions, filter_append, others, maps]
    rfl

/-- The positions behind the current one. -/
def ahead (master : Master) : List Position :=
  (master.mapping.drop (master.idxMapping + 1).toNat).map (fun map => (master.curSlave, some map)) ++
    (master.slaves.drop (master.idxSlaves + 1)).flatMap Slave.positions

/-- The cursor is on a slave. -/
structure CursorFits (master : Master) : Prop where
  slave : ∃ slave, master.slaves[master.idxSlaves]? = some slave ∧
    master.curSlave = some slave ∧ master.mapping = slave.mapping
  maxMapping : master.maxMapping = master.mapping.length
  idxMapping : -1 ≤ master.idxMapping

theorem CursorFits.of_still {before after : Master} (fits : CursorFits before)
    (still : Still before after) : CursorFits after ∧ ahead after = ahead before := by
  have same : ahead after = ahead before := by
    unfold ahead
    rw [still.mapping, still.idxMapping, still.curSlave, still.slaves, still.idxSlaves]
  refine ⟨⟨?_, ?_, ?_⟩, same⟩
  · rw [still.slaves, still.idxSlaves, still.curSlave, still.mapping]
    exact fits.slave
  · rw [still.maxMapping, still.mapping]
    exact fits.maxMapping
  · rw [still.idxMapping]
    exact fits.idxMapping

section

variable {slave : Slave} (here : master.slaves[master.idxSlaves]? = some slave)
include here

theorem loadSlaveMapping_some :
    loadSlaveMapping master = { master with
        curSlave := some slave
        mapping := slave.mapping
        idxMapping := -1
        maxMapping := slave.mapping.length } := by
  unfold loadSlaveMapping
  rw [here]

theorem cursorFits_loaded :
    CursorFits (loadSlaveMapping master) ∧ ahead (loadSlaveMapping master) =
        slave.maps ++ (master.slaves.drop (master.idxSlaves + 1)).flatMap Slave.positions := by
  rw [loadSlaveMapping_some here]
  exact ⟨⟨⟨slave, here, rfl, rfl⟩, rfl, le_refl _⟩, rfl⟩

end

/-- What the requests leave as it is. -/
structure Kept (before after : Master) : Prop where
  slaves : after.slaves = before.slaves
  slaveData : after.slaveData = before.slaveData
  queue : after.queue = before.queue
  frameHead : after.frameHead = before.frameHead
  istreamHead : after.istreamHead = before.istreamHead
  head : after.head = before.head
  istreamPayload : after.istreamPayload = before.istreamPayload
  waitPayload : after.waitPayload = before.waitPayload

/-- What the moves of the cursor leave as it is. -/
structure Moved (before after : Master) : Prop extends Kept before after where
  state : after.state = before.state
  tId : after.tId = before.tId
  modbusFunction : after.modbusFunction = before.modbusFunction

theorem Kept.trans (one : Kept first second) (two : Kept second third) : Kept first third :=
  ⟨two.slaves.trans one.slaves, two.slaveData.trans one.slaveData, two.queue.trans one.queue,
    two.frameHead.trans one.frameHead, two.istreamHead.trans one.istreamHead,
    two.head.trans one.head, two.istreamPayload.trans one.istreamPayload,
    two.waitPayload.trans one.waitPayload⟩

theorem Moved.trans (one : Moved first second) (two : Moved second third) : Moved first third :=
  ⟨one.toKept.trans two.toKept, two.state.trans one.state, two.tId.trans one.tId,
    two.modbusFunction.trans one.modbusFunction⟩

theorem Moved.of_fields (master : Master) (idxSlaves : Nat) (curSlave : Option Slave)
    (mapping : List Map) (idxMapping : Int) (maxMapping : Nat) (curMap : Option Map)
    (log : List Entry) :
    Moved master
      { master with idxSlaves, curSlave, mapping, idxMapping, maxMapping, curMap, log } :=
  ⟨⟨rfl, rfl, rfl, rfl, rfl, rfl, rfl, rfl⟩, rfl, rfl, rfl⟩

theorem moved_loadSlaveMapping (master : Master) : Moved master (loadSlaveMapping master) := by
  unfold loadSlaveMapping
  split <;> exact .of_fields master _ _ _ _ _ _ _

theorem moved_advance (master : Master) : Moved master master.advance :=
  .of_fields master _ _ _ _ _ _ _

theorem moved_nextMap (master : Master) : Moved master (nextMap master).1 := by
  have slave : Moved master (master.advance.onSlave (master.advance.idxSlaves + 1)) :=
    .of_fields master _ _ _ _ _ _ _
  unfold nextMap
  dsimp only
  split
  · exact moved_advance master
  split
  · have loaded := slave.trans (moved_loadSlaveMapping _)
    exact loaded.trans (.of_fields _ _ _ _ _ _ _ _)
  · have first : Moved (master.advance.onSlave (master.advance.idxSlaves + 1))
        (((master.advance.onSlave (master.advance.idxSlaves + 1)).tell .publish).onSlave 0) :=
      .of_fields _ _ _ _ _ _ _ _
    exact (slave.trans first).trans (moved_loadSlaveMapping _)

theorem nextIndex_eq {idxMapping : Int} (low : -1 ≤ idxMapping) :
    nextIndex idxMapping = ((idxMapping + 1).toNat : Int) := by
  unfold nextIndex
  split <;> omega

theorem nextMap_map (more : nextIndex master.idxMapping < master.maxMapping) :
    nextMap master = (master.advance, true) :=
  if_pos more

section

variable (last : ¬ nextIndex master.idxMapping < master.maxMapping)
include last

theorem nextMap_slave (more : master.idxSlaves + 1 < master.slaves.length) :
    nextMap master = ((loadSlaveMapping (master.advance.onSlave
        (master.idxSlaves + 1))).onMap 0, true) :=
  (if_neg last).trans (if_pos more)

theorem nextMap_publish (lastSlave : ¬ master.idxSlaves + 1 < master.slaves.length) :
    nextMap master = (loadSlaveMapping (((master.advance.onSlave
        (master.idxSlaves + 1)).tell .publish).onSlave 0), false) :=
  (if_neg last).trans (if_neg lastSlave)

end

theorem nextMap_cons (fits : CursorFits master) {position : Position}
    {rest : List Position} (there : ahead master = position :: rest) :
    (nextMap master).2 = true ∧ CursorFits (nextMap master).1 ∧ ahead (nextMap master).1 = rest ∧
      (nextMap master).1.log = master.log ∧ (nextMap master).1.curSlave = position.1 ∧
        jsonArrayGet (nextMap master).1.mapping (nextMap master).1.idxMapping = position.2 := by
  have ⟨slave, current, curSlave, mapping⟩ := fits.slave
  have next := nextIndex_eq fits.idxMapping
  have size := fits.maxMapping
  generalize index : (master.idxMapping + 1).toNat = place at next
  unfold ahead at there
  rw [index] at there
  by_cases inside : place < master.mapping.length
  · have element := drop_eq_getElem_cons inside
    rw [element, map_cons, cons_append, List.cons.injEq] at there
    rw [nextMap_map (by rw [next, size]; exact ofNat_lt.2 inside)]
    have behind : ahead master.advance = rest := by
      rw [← there.2]
      unfold ahead Master.advance
      rw [next, show ((place : Int) + 1).toNat = place + 1 by omega]
    have here : jsonArrayGet master.mapping (place : Int) = some master.mapping[place] := by
      unfold jsonArrayGet
      rw [if_neg (by omega), toNat_natCast, getElem?_eq_getElem inside]
    refine ⟨rfl, ⟨⟨slave, current, curSlave, mapping⟩, size, ?_⟩, behind, rfl, ?_, ?_⟩
    · show -1 ≤ nextIndex master.idxMapping
      omega
    · rw [← there.1]
      rfl
    · rw [← there.1]
      show jsonArrayGet master.mapping (nextIndex master.idxMapping) = _
      rw [next]
      exact here
  · rw [drop_eq_nil_of_le (Nat.le_of_not_lt inside), map_nil, nil_append] at there
    have more : master.idxSlaves + 1 < master.slaves.length := by
      apply Nat.lt_of_not_le
      intro none
      rw [drop_eq_nil_of_le none] at there
      exact absurd there (by simp)
    have later := drop_eq_getElem_cons more
    have other : master.slaves[master.idxSlaves + 1]? = some master.slaves[master.idxSlaves + 1] :=
      getElem?_eq_getElem more
    generalize master.slaves[master.idxSlaves + 1] = following at later other
    rw [later, flatMap_cons] at there
    rw [nextMap_slave (by rw [next, size]; omega) more, loadSlaveMapping_some other]
    have first : following.positions = (some following, following.mapping[0]?) ::
        (following.mapping.drop 1).map (fun map => (some following, some map)) := by
      unfold Slave.positions Slave.maps
      cases following.mapping with
      | nil => rfl
      | cons first others => rfl
    rw [first, cons_append, List.cons.injEq] at there
    refine ⟨rfl, ⟨⟨following, other, rfl, rfl⟩, rfl, ?_⟩, there.2, rfl, ?_, ?_⟩
    · show (-1 : Int) ≤ 0
      decide
    · rw [← there.1]
      rfl
    · rw [← there.1]
      rfl

/-- `next_map` at the end of the positions: the variables are published and the cursor begins again. -/
theorem nextMap_nil (fits : CursorFits master) (there : ahead master = []) :
    (nextMap master).2 = false ∧ CursorFits (nextMap master).1 ∧
      ahead (nextMap master).1 = positions master.slaves ∧
        (nextMap master).1.log = master.log ++ [.publish] := by
  have ⟨slave, current, curSlave, mapping⟩ := fits.slave
  have next := nextIndex_eq fits.idxMapping
  have size := fits.maxMapping
  have ends := append_eq_nil_iff.1 there
  have noMap : master.mapping.length ≤ (master.idxMapping + 1).toNat :=
    drop_eq_nil_iff.1 (map_eq_nil_iff.1 ends.1)
  have noSlave : ¬ master.idxSlaves + 1 < master.slaves.length := by
    intro more
    have empty := ends.2
    rw [drop_eq_getElem_cons more, flatMap_cons] at empty
    have positions := (append_eq_nil_iff.1 empty).1
    unfold Slave.positions at positions
    split at positions
    · exact absurd positions (by simp)
    · rename_i some_maps
      exact some_maps (map_eq_nil_iff.1 positions)
  rw [nextMap_publish (by rw [next, size]; omega) noSlave]
  have some_slave : ∃ first rest, master.slaves = first :: rest := by
    cases slaves : master.slaves with
    | nil =>
      rw [slaves] at current
      exact absurd current (by simp)
    | cons first rest => exact ⟨first, rest, rfl⟩
  have ⟨first, rest, slaves⟩ := some_slave
  have begins : (((master.advance.onSlave (master.idxSlaves + 1)).tell .publish).onSlave 0).slaves[
      (((master.advance.onSlave (master.idxSlaves + 1)).tell .publish).onSlave 0).idxSlaves]? =
        some first := by
    show master.slaves[0]? = some first
    rw [slaves]
    rfl
  have loaded := cursorFits_loaded begins
  refine ⟨rfl, loaded.1, loaded.2.trans ?_, ?_⟩
  · show first.maps ++ (master.slaves.drop 1).flatMap Slave.positions = _
    rw [slaves]
    rfl
  · rw [loadSlaveMapping_some begins]
    rfl

/-! ## Requests to read -/

theorem inGbuffer_small {bytes : List UInt8} (small : bytes.length ≤ 32) :
    inGbuffer conf [bytes] = some bytes := by
  have large := conf.large
  unfold inGbuffer gbufferCreate
  rw [if_neg (by omega)]
  have held := @Gobj.gbufferAppend_room conf.maxBlock
    { data := [], dataSize := 32, maxMemorySize := 32, written := Nat.le_refl 0, fits := Nat.zero_le _ }
    bytes (by simpa using small)
  rw [Option.map_some, foldl_cons, foldl_nil]
  unfold Gobj.Gbuffer.leftBytes
  rw [held.1, held.2.1]
  rfl

theorem length_readBytes (protocol : Protocol) (tId slaveId function address size : Nat) :
    (readBytes protocol tId slaveId function address size).length =
      match protocol with
      | .tcp => 12
      | .rtu => 8
      | .ascii => 0 := by
  cases protocol <;> simp [readBytes]

/-- The request to read a map of a known type. -/
def requestOf (conf : Conf) (tId : Nat) (slave : Option Slave) (type : ObjectType) (map : Map) :
    List UInt8 :=
  readBytes conf.protocol tId (uint8 ((slave.map Slave.id).getD 0)) (readFunction type)
    (uint16 map.address) (min (uint16 map.size) (maxRead type))

/-- The transaction id of the next request. -/
def requestTId (conf : Conf) (tId : Nat) : Nat :=
  if conf.protocol = .tcp then nextTId tId else tId

theorem kept_pollModbus (master : Master) : Kept master (pollModbus conf master).1 := by
  unfold pollModbus buildModbusRequestReadMessage
  dsimp only
  repeat' split
  all_goals exact ⟨rfl, rfl, rfl, rfl, rfl, rfl, rfl, rfl⟩

theorem kept_cycle (master : Master) : Kept master (cycle conf master) := by
  have next := (moved_nextMap master).toKept
  have polled := next.trans (kept_pollModbus conf _)
  unfold cycle
  dsimp only
  split
  · exact next
  split
  · exact polled
  · exact polled.trans (moved_nextMap _).toKept

theorem pollModbus_enabled {conf : Conf} {map : Map} {type : ObjectType}
    (here : jsonArrayGet master.mapping master.idxMapping = some map) (on : map.disabled = false)
    (known : getObjectType map.type = some type) :
    pollModbus conf master = ({ master with
        curMap := some map
        state := .waitResponse
        tId := requestTId conf master.tId
        modbusFunction := some (readFunction type)
        log := master.log ++ [.read master.curSlave map
            (requestOf conf (requestTId conf master.tId) master.curSlave type map)] }, true) := by
  have small : (requestOf conf (requestTId conf master.tId) master.curSlave type map).length ≤ 32 := by
    unfold requestOf
    rw [length_readBytes]
    cases conf.protocol <;> decide
  have held := inGbuffer_small conf small
  unfold requestOf requestTId at held
  unfold pollModbus buildModbusRequestReadMessage
  rw [here]
  dsimp only
  rw [on, known]
  dsimp only
  rw [held]
  rfl

theorem pollModbus_disabled {conf : Conf}
    (off : ∀ map, jsonArrayGet master.mapping master.idxMapping = some map → map.disabled = true) :
    pollModbus conf master =
      ({ master with curMap := jsonArrayGet master.mapping master.idxMapping }, false) := by
  unfold pollModbus
  cases here : jsonArrayGet master.mapping master.idxMapping with
  | none => rfl
  | some map =>
    dsimp only
    rw [off map here]
    rfl

/-- What a turn of the cursor does: the map ahead is read, or the variables are published, or a position
that cannot be read is passed over, and the one behind it too. -/
inductive Turned (conf : Conf) (before after : Master) : Prop
  | read (slave : Option Slave) (map : Map) (type : ObjectType)
      (there : ahead before = (slave, some map) :: ahead after)
      (on : map.disabled = false)
      (known : getObjectType map.type = some type)
      (state : after.state = .waitResponse)
      (curMap : after.curMap = some map)
      (curSlave : after.curSlave = slave)
      (tId : after.tId = requestTId conf before.tId)
      (modbusFunction : after.modbusFunction = some (readFunction type))
      (log : after.log =
        before.log ++ [.read slave map (requestOf conf (requestTId conf before.tId) slave type map)])
  | publish (last : ahead before = [] ∨ ∃ position, ahead before = [position] ∧
        enabled position = false)
      (begins : ahead after = positions before.slaves)
      (moved : Moved before after)
      (log : after.log = before.log ++ [.publish])
  | skip (position next : Position)
      (there : ahead before = position :: next :: ahead after)
      (off : enabled position = false)
      (moved : Moved before after)
      (log : after.log = before.log)

/-- The maps that are enabled are of a known type. -/
def Known (slaves : List Slave) : Prop :=
  ∀ slave ∈ slaves, ∀ map ∈ slave.mapping, map.disabled = false → ∃ type,
    getObjectType map.type = some type

theorem buildMapping_known (cells : Cells) (mapping : List Map) :
    ∀ map ∈ (buildMapping cells mapping).2, map.disabled = false → ∃ type,
      getObjectType map.type = some type := by
  induction mapping generalizing cells with
  | nil =>
    intro map among
    exact absurd among (by simp [buildMapping])
  | cons first rest ih =>
    intro map among on
    rw [buildMapping, mem_cons] at among
    rcases among with here | later
    · cases known : getObjectType first.type with
      | none =>
        have off : (buildMap cells first).2.disabled = true := by
          unfold buildMap
          rw [known]
        rw [here, off] at on
        exact absurd on (by decide)
      | some type =>
        have same : (buildMap cells first).2.type = first.type := by
          unfold buildMap
          rw [known]
          dsimp only
          repeat' split
          all_goals rfl
        exact ⟨type, by rw [here, same, known]⟩
    · exact ih _ map later on

theorem known_buildSlaveData (slaves : List Slave) : Known (buildSlaveData slaves).2 := by
  intro slave among map inside on
  have among : slave ∈ slaves.map fun slave => (buildSlave slave).2 := among
  have ⟨source, _, built⟩ := mem_map.1 among
  rw [← built] at inside
  exact buildMapping_known _ source.mapping map inside on

theorem turned_cycle (fits : CursorFits master) (known : Known master.slaves) :
    CursorFits (cycle conf master) ∧ Kept master (cycle conf master) ∧
      Turned conf master (cycle conf master) := by
  have moved := moved_nextMap master
  unfold cycle
  dsimp only
  cases there : ahead master with
  | nil =>
    have ends := nextMap_nil fits there
    rw [ends.1]
    exact ⟨ends.2.1, moved.toKept, .publish (.inl there) ends.2.2.1 moved ends.2.2.2⟩
  | cons position rest =>
    have ⟨more, next, behind, log, curSlave, map⟩ := nextMap_cons fits there
    rw [more]
    by_cases on : enabled position = true
    · cases here : position.2 with
      | none =>
        unfold enabled at on
        rw [here] at on
        exact absurd on (by decide)
      | some found =>
        have enabled_map : found.disabled = false := by
          unfold enabled at on
          rw [here] at on
          simpa using on
        rw [here] at map
        have ⟨slave, current, _, mapping⟩ := next.slave
        have inside : found ∈ slave.mapping := by
          unfold jsonArrayGet at map
          split at map
          · exact absurd map (by simp)
          · rw [← mapping]
            exact mem_of_getElem? map
        have among : slave ∈ master.slaves := by
          rw [← moved.slaves]
          exact mem_of_getElem? current
        have ⟨type, known_type⟩ := known slave among found inside enabled_map
        rw [pollModbus_enabled map enabled_map known_type]
        refine ⟨⟨next.slave, next.maxMapping, next.idxMapping⟩, ⟨moved.slaves, moved.slaveData,
          moved.queue, moved.frameHead, moved.istreamHead, moved.head, moved.istreamPayload,
          moved.waitPayload⟩, ?_⟩
        have shape : position = (position.1, some found) := Prod.ext rfl here
        refine .read position.1 found type ?_ enabled_map known_type rfl rfl curSlave ?_ rfl ?_
        · rw [there, ← shape, ← behind]
          rfl
        · show requestTId conf (nextMap master).1.tId = _
          rw [moved.tId]
        · show (nextMap master).1.log ++ [.read (nextMap master).1.curSlave found _] = _
          rw [log, curSlave, moved.tId]
    · have off : enabled position = false := by simpa using on
      have nothing : pollModbus conf (nextMap master).1 =
          ({ (nextMap master).1 with curMap := position.2 }, false) := by
        rw [← map]
        apply pollModbus_disabled
        intro found here
        rw [map] at here
        unfold enabled at off
        rw [here] at off
        simpa using off
      rw [nothing]
      have stays : CursorFits { (nextMap master).1 with curMap := position.2 } :=
        ⟨next.slave, next.maxMapping, next.idxMapping⟩
      have again := moved_nextMap { (nextMap master).1 with curMap := position.2 }
      have both : Moved master (nextMap { (nextMap master).1 with curMap := position.2 }).1 :=
        (moved.trans (.of_fields _ _ _ _ _ _ _ _)).trans again
      cases rest with
      | nil =>
        have ends := nextMap_nil stays behind
        refine ⟨ends.2.1, both.toKept, .publish (.inr ⟨position, there, off⟩) ?_ both ?_⟩
        · rw [← moved.slaves]
          exact ends.2.2.1
        · rw [← log]
          exact ends.2.2.2
      | cons following rest =>
        have ⟨_, fits_again, ahead_again, log_again, _, _⟩ := nextMap_cons stays behind
        refine ⟨fits_again, both.toKept, .skip position following ?_ off both ?_⟩
        · rw [there]
          exact congrArg (fun rest => position :: following :: rest) ahead_again.symm
        · rw [← log]
          exact log_again

end Yunetas.Modbus
