import Mathlib.Data.List.GetD
import Yunetas.Modbus.Framing

/-!
# Answers to a request

The fields of a request to read are read off its bytes, and a response answers it with the slave, the
function, the quantity and, over TCP, the transaction id of the request. The cells that a response
changes are those of the addresses that were asked for.
-/

namespace Yunetas.Modbus

open List Option Function Bool

variable {conf : Conf}

/-! ## Requests and responses -/

/-- What a request to read asks for. -/
structure Asked where
  tId : List UInt8
  slaveId : Nat
  function : Nat
  address : Nat
  quantity : Nat
  deriving DecidableEq

/-- The fields of a request. -/
def Asked.ofBytes (protocol : Protocol) (bytes : List UInt8) : Asked :=
  match protocol with
  | .tcp =>
    { tId := bytes.take 2
      slaveId := byteAt bytes 6
      function := byteAt bytes 7
      address := ofBigEndian ((bytes.drop 8).take 2)
      quantity := ofBigEndian ((bytes.drop 10).take 2) }
  | .rtu | .ascii =>
    { tId := []
      slaveId := byteAt bytes 0
      function := byteAt bytes 1
      address := ofBigEndian ((bytes.drop 2).take 2)
      quantity := ofBigEndian ((bytes.drop 4).take 2) }

/-- How many bytes the values take. -/
def Asked.dataLength (asked : Asked) : Nat :=
  if asked.function = 0x01 ∨ asked.function = 0x02 then (asked.quantity + 7) / 8 else 2 * asked.quantity

/-- A message with its header and trailer. -/
def framed (protocol : Protocol) (tId protocolId body : List UInt8) : List UInt8 :=
  match protocol with
  | .tcp => tId ++ protocolId ++ toBigEndian 2 body.length ++ body
  | .rtu | .ascii => body ++ [(crc16 body).1, (crc16 body).2]

/-- The body of a response with values. -/
def Asked.response (asked : Asked) (data : List UInt8) : List UInt8 :=
  [UInt8.ofNat asked.slaveId, UInt8.ofNat asked.function, UInt8.ofNat data.length] ++ data

/-- The body of an exception. -/
def Asked.exception (asked : Asked) (code : UInt8) : List UInt8 :=
  [UInt8.ofNat asked.slaveId, UInt8.ofNat (asked.function + 0x80), code]

/-- A complete response that answers a request with some values. -/
def Answers (protocol : Protocol) (asked : Asked) (data response : List UInt8) : Prop :=
  data.length = asked.dataLength ∧ ∃ protocolId : List UInt8, protocolId.length = 2 ∧
    response = framed protocol asked.tId protocolId (asked.response data)

/-- A well-formed response to a request, normal or exception. -/
def WellFormed (protocol : Protocol) (asked : Asked) (response : List UInt8) : Prop :=
  (∃ data : List UInt8, data.length = asked.dataLength ∧
    response = framed protocol asked.tId [0, 0] (asked.response data)) ∨
      ∃ code, response = framed protocol asked.tId [0, 0] (asked.exception code)

/-! ## Cells -/

/-- A cell of a slave by its place. -/
def cellAt (slaves : List SlaveData) (index : Nat) (type : ObjectType) (address : Nat) : Option Cell :=
  slaves[index]?.bind fun slave => slave.cells type address

/-- The place of the first slave with an id. -/
def placeOf (slaves : List SlaveData) (slaveId : Nat) : Option Nat :=
  slaves.findIdx? fun slave => slave.slaveId = slaveId

/-- A cell that takes the value of an address. -/
def carried (type : ObjectType) (data : List UInt8) (index : Nat) (cell : Cell) : Cell :=
  match type with
  | .coil | .discreteInput =>
    { cell with bitValue := (data.getD (index / 8) 0).toNat.testBit (index % 8) }
  | .inputRegister =>
    { cell with inputRegister := (data.getD (2 * index) 0, data.getD (2 * index + 1) 0) }
  | .holdingRegister =>
    { cell with holdingRegister := (data.getD (2 * index) 0, data.getD (2 * index + 1) 0) }

/-- The cells at the addresses that were asked for take the values of a response, and no others change. -/
def CellsTake (asked : Asked) (type : ObjectType) (data : List UInt8)
    (before after : List SlaveData) : Prop :=
  ∀ index other address, cellAt after index other address =
    if placeOf before asked.slaveId = some index ∧ other = type ∧ asked.address ≤ address ∧
        address < asked.address + asked.quantity then
      (cellAt before index other address).map (carried type data (address - asked.address))
    else cellAt before index other address

theorem cells_storeCell (slave : SlaveData) (type : ObjectType) (address : Nat) (change : Cell → Cell)
    (other : ObjectType) (place : Nat) :
    (match slave.cells type address with
      | none => slave
      | some cell => { slave with cells := slave.cells.set type address (change cell) }).cells
        other place =
      if other = type ∧ place = address then (slave.cells other place).map change
      else slave.cells other place := by
  cases here : slave.cells type address with
  | none =>
    dsimp only
    split
    · rename_i target
      rw [target.1, target.2, here]
      rfl
    · rfl
  | some cell =>
    dsimp only
    unfold Cells.set
    by_cases same : other = type
    · by_cases there : place = address
      · rw [if_pos ⟨same, there⟩, same, there, here, update_self, update_self]
        rfl
      · rw [if_neg fun both => there both.2, same, update_self, update_of_ne there]
    · rw [if_neg fun both => same both.1, update_of_ne same]

section

variable (slaveId : Nat) (type : ObjectType) (address : Nat) (change : Cell → Cell)
  (slaves : List SlaveData)
include slaveId type address change slaves

theorem cellAt_storeCell (index : Nat) (other : ObjectType) (place : Nat) :
    cellAt (storeCell slaveId type address change slaves) index other place =
      if placeOf slaves slaveId = some index ∧ other = type ∧ place = address then
        (cellAt slaves index other place).map change
      else cellAt slaves index other place := by
  induction slaves generalizing index with
  | nil => simp [storeCell, cellAt, placeOf]
  | cons slave rest ih =>
    have changed := cells_storeCell slave type address change other place
    rw [storeCell]
    unfold placeOf
    rw [findIdx?_cons]
    by_cases same : slave.slaveId = slaveId
    · rw [if_pos same, decide_eq_true same, if_pos rfl]
      cases index with
      | zero =>
        unfold cellAt
        rw [getElem?_cons_zero, getElem?_cons_zero, bind_some, bind_some]
        refine changed.trans ?_
        simp
      | succ index =>
        rw [if_neg (by simp)]
        rfl
    · rw [if_neg same, decide_eq_false same]
      cases index with
      | zero =>
        rw [if_neg (by simp)]
        rfl
      | succ index =>
        have later := ih index
        unfold placeOf at later
        unfold cellAt at later ⊢
        rw [getElem?_cons_succ, getElem?_cons_succ, later]
        simp

theorem placeOf_storeCell (other : Nat) :
    placeOf (storeCell slaveId type address change slaves) other = placeOf slaves other := by
  have ids : (storeCell slaveId type address change slaves).map SlaveData.slaveId =
      slaves.map SlaveData.slaveId := by
    induction slaves with
    | nil => rfl
    | cons slave rest ih =>
      rw [storeCell]
      split
      · cases slave.cells type address <;> rfl
      · rw [map_cons, ih, map_cons]
  have byId (list : List SlaveData) : placeOf list other =
      (list.map SlaveData.slaveId).findIdx? fun id => id = other := by
    rw [findIdx?_map]
    rfl
  rw [byId, byId, ids]

end

theorem cellAt_storeCells (slaveId : Nat) (type : ObjectType) (changes : List (Cell → Cell))
    (address : Nat) (slaves : List SlaveData) (index : Nat) (other : ObjectType) (place : Nat) :
    cellAt (storeCells slaveId type address changes slaves) index other place =
      if placeOf slaves slaveId = some index ∧ other = type ∧ address ≤ place ∧
          place < address + changes.length then
        (cellAt slaves index other place).map (changes.getD (place - address) id)
      else cellAt slaves index other place := by
  induction changes generalizing address slaves with
  | nil =>
    rw [if_neg (by rw [length_nil]; omega)]
    rfl
  | cons change rest ih =>
    rw [storeCells, ih, placeOf_storeCell, cellAt_storeCell, length_cons]
    by_cases target : placeOf slaves slaveId = some index ∧ other = type
    · by_cases first : place = address
      · rw [if_neg (by omega), if_pos ⟨target.1, target.2, first⟩,
          if_pos ⟨target.1, target.2, by omega, by omega⟩, first, Nat.sub_self]
        rfl
      · by_cases inside : address + 1 ≤ place ∧ place < address + 1 + rest.length
        · have next : place - address = (place - (address + 1)) + 1 := by omega
          rw [if_pos ⟨target.1, target.2, inside⟩, if_neg fun all => first all.2.2,
            if_pos ⟨target.1, target.2, by omega, by omega⟩, next, getD_cons_succ]
        · rw [if_neg fun all => inside all.2.2, if_neg fun all => first all.2.2, if_neg (by omega)]
    · rw [if_neg fun all => target ⟨all.1, all.2.1⟩, if_neg fun all => target ⟨all.1, all.2.1⟩,
        if_neg fun all => target ⟨all.1, all.2.1⟩]

/-! ## Values -/

theorem getD_bits (bytes : List UInt8) (index : Nat) :
    (bytes.flatMap bitsOf).getD index false = (bytes.getD (index / 8) 0).toNat.testBit (index % 8) := by
  induction bytes generalizing index with
  | nil => simp
  | cons byte rest ih =>
    have count : (bitsOf byte).length = 8 := by simp [bitsOf]
    rw [flatMap_cons]
    by_cases first : index < 8
    · have position : index / 8 = 0 ∧ index % 8 = index := by omega
      rw [getD_append _ _ _ _ (by omega), position.1, position.2, getD_cons_zero]
      simp [bitsOf, getD_eq_getElem?_getD, getElem?_range first]
    · have position : index / 8 = (index - 8) / 8 + 1 ∧ index % 8 = (index - 8) % 8 := by omega
      rw [getD_append_right _ _ _ _ (by omega), count, ih, position.1, position.2,
        getD_cons_succ]

theorem getElem?_words (bytes : List UInt8) (index : Nat) :
    (wordsOf bytes)[index]? =
      if 2 * index + 1 < bytes.length then
        some (bytes.getD (2 * index) 0, bytes.getD (2 * index + 1) 0)
      else none := by
  fun_induction wordsOf bytes generalizing index with
  | case1 high low rest ih =>
    cases index with
    | zero => simp
    | succ index =>
      rw [getElem?_cons_succ, ih, length_cons, length_cons]
      have double : 2 * (index + 1) = 2 * index + 1 + 1 := by omega
      rw [double, getD_cons_succ, getD_cons_succ, getD_cons_succ, getD_cons_succ]
      by_cases inside : 2 * index + 1 < rest.length
      · rw [if_pos inside, if_pos (by omega)]
      · rw [if_neg inside, if_neg (by omega)]
  | case2 bytes short =>
    have few : bytes.length ≤ 1 := by
      match bytes, short with
      | [], _ => exact Nat.zero_le 1
      | [_], _ => exact Nat.le_refl 1
      | high :: low :: rest, short => exact absurd rfl (short high low rest)
    rw [if_neg (by omega)]
    rfl

/-- How many bytes the values of a type take. -/
def valuesLength (type : ObjectType) (quantity : Nat) : Nat :=
  match type with
  | .coil | .discreteInput => (quantity + 7) / 8
  | .holdingRegister | .inputRegister => 2 * quantity

theorem getElem?_changesOf (type : ObjectType) {quantity : Nat} {data : List UInt8}
    (enough : data.length = valuesLength type quantity) (index : Nat) :
    (changesOf type quantity data)[index]? =
      if index < quantity then some (carried type data index) else none := by
  have bits (inside : index < quantity) (least : quantity ≤ 8 * data.length) :
      (data.flatMap bitsOf)[index]? =
        some ((data.getD (index / 8) 0).toNat.testBit (index % 8)) := by
    have count : (data.flatMap bitsOf).length = 8 * data.length := by
      simp [length_flatMap, bitsOf, Nat.mul_comm]
    rw [← getD_bits, getD_eq_getElem?_getD, getElem?_eq_getElem (by omega)]
    rfl
  cases type with
  | coil | discreteInput =>
    unfold valuesLength at enough
    dsimp only at enough
    unfold changesOf
    rw [getElem?_map, getElem?_take]
    by_cases inside : index < quantity
    · rw [if_pos inside, if_pos inside, bits inside (by omega)]
      rfl
    · rw [if_neg inside, if_neg inside]
      rfl
  | holdingRegister | inputRegister =>
    unfold valuesLength at enough
    dsimp only at enough
    unfold changesOf
    rw [getElem?_map, getElem?_words]
    by_cases inside : index < quantity
    · rw [if_pos inside, if_pos (by omega)]
      rfl
    · rw [if_neg inside, if_neg (by omega)]
      rfl

theorem cellsTake_storeCells (asked : Asked) (type : ObjectType) {data : List UInt8}
    (enough : data.length = valuesLength type asked.quantity) (slaves : List SlaveData) :
    CellsTake asked type data slaves
      (storeCells asked.slaveId type asked.address (changesOf type asked.quantity data) slaves) := by
  intro index other place
  have changes := getElem?_changesOf type enough
  have count : (changesOf type asked.quantity data).length = asked.quantity := by
    apply Nat.le_antisymm
    · apply getElem?_eq_none_iff.1
      rw [changes, if_neg (Nat.lt_irrefl _)]
    · apply Nat.le_of_not_lt
      intro less
      have inside := changes (changesOf type asked.quantity data).length
      rw [if_pos less, getElem?_eq_none (Nat.le_refl _)] at inside
      exact absurd inside nofun
  rw [cellAt_storeCells, count]
  by_cases target : placeOf slaves asked.slaveId = some index ∧ other = type ∧
      asked.address ≤ place ∧ place < asked.address + asked.quantity
  · have here := changes (place - asked.address)
    rw [if_pos (by omega)] at here
    rw [if_pos target, if_pos target, getD_eq_getElem?_getD, here]
    rfl
  · rw [if_neg target, if_neg target]

/-! ## Frames -/

/-- The length of the frame that some bytes begin. -/
def frameLength (protocol : Protocol) (frame : List UInt8) : Nat :=
  match protocol with
  | .tcp => 6 + ofBigEndian ((frame.drop 4).take 2)
  | .rtu | .ascii => 5 + if 0x80 ≤ byteAt frame 1 then 0 else byteAt frame 2

/-- A whole frame, with its header. -/
def Whole (protocol : Protocol) (frame : List UInt8) : Prop :=
  headSize protocol ≤ frame.length ∧ frame.length = frameLength protocol frame

/-- A frame that is not for a request: of another transaction over TCP, of another slave or function over
RTU. -/
def Foreign (protocol : Protocol) (asked : Asked) (frame : List UInt8) : Prop :=
  match protocol with
  | .tcp => frame.take 2 ≠ asked.tId
  | .rtu | .ascii =>
    byteAt frame 0 ≠ asked.slaveId ∨
      (byteAt frame 1 ≠ asked.function ∧ byteAt frame 1 ≠ asked.function + 0x80)

theorem decodeHead_append {protocol : Protocol} {head : List UInt8}
    (length : head.length = headSize protocol) (rest : List UInt8) :
    decodeHead protocol (head ++ rest) = decodeHead protocol head := by
  have byte (index : Nat) (inside : index < head.length) :
      byteAt (head ++ rest) index = byteAt head index := by
    unfold byteAt
    rw [getD_append _ _ _ _ inside]
  cases protocol with
  | tcp =>
    have nine : head.length = 9 := length
    have field : ((head ++ rest).drop 4).take 2 = (head.drop 4).take 2 := by
      rw [drop_append_of_le_length (by omega),
        take_append_of_le_length (by rw [length_drop]; omega)]
    unfold decodeHead
    rw [byte 6 (by omega), byte 7 (by omega), byte 8 (by omega), field]
  | rtu | ascii =>
    have three : head.length = 3 := length
    unfold decodeHead
    rw [byte 0 (by omega), byte 1 (by omega), byte 2 (by omega)]

variable {protocol : Protocol}

theorem decodeHead_take {frame : List UInt8}
    (long : headSize protocol ≤ frame.length) :
    decodeHead protocol (frame.take (headSize protocol)) = decodeHead protocol frame := by
  have whole := @decodeHead_append protocol _
    (length_take_of_le long) (frame.drop (headSize protocol))
  rw [take_append_drop] at whole
  exact whole.symm

/-- What follows the header of a frame. -/
def behindHead (protocol : Protocol) (data : List UInt8) (body : List UInt8) : List UInt8 :=
  match protocol with
  | .tcp => data
  | .rtu | .ascii => data ++ [(crc16 body).1, (crc16 body).2]

/-- The header of a frame. -/
def headOf (protocol : Protocol) (tId protocolId : List UInt8) (fields data : List UInt8) :
    List UInt8 :=
  match protocol with
  | .tcp => tId ++ protocolId ++ toBigEndian 2 (fields ++ data).length ++ fields
  | .rtu | .ascii => fields

theorem framed_eq (protocol : Protocol) (tId protocolId fields data : List UInt8) :
    framed protocol tId protocolId (fields ++ data) =
      headOf protocol tId protocolId fields data ++ behindHead protocol data (fields ++ data) := by
  cases protocol with
  | tcp =>
    unfold framed headOf behindHead
    simp
  | rtu | ascii =>
    unfold framed headOf behindHead
    dsimp only
    rw [append_assoc]
theorem decodeHead_tcp (t₁ t₀ p₁ p₀ l₁ l₀ slaveId function count : UInt8) :
    decodeHead .tcp [t₁, t₀, p₁, p₀, l₁, l₀, slaveId, function, count] =
      if ofBigEndian [l₁, l₀] < 3 then
        ({ slaveId := slaveId.toNat
           function := function.toNat
           byteCount := count.toNat
           busy := true }, false)
      else
        ({ slaveId := slaveId.toNat
           function := function.toNat
           byteCount := count.toNat
           busy := true
           payloadLength := ofBigEndian [l₁, l₀] - 3 }, true) :=
  rfl

theorem decodeHead_headOf {tId protocolId : List UInt8}
    (transaction : protocol = .tcp → tId.length = 2) (length : protocolId.length = 2)
    (slaveId function count : UInt8) {data : List UInt8} (short : data.length < 256) :
    (headOf protocol tId protocolId [slaveId, function, count] data).length = headSize protocol ∧
      decodeHead protocol (headOf protocol tId protocolId [slaveId, function, count] data) =
        ({ slaveId := slaveId.toNat
           function := function.toNat
           byteCount := count.toNat
           busy := true
           payloadLength :=
            match protocol with
            | .tcp => data.length
            | .rtu | .ascii => count.toNat + 2 }, true) := by
  cases protocol with
  | tcp =>
    match tId, transaction rfl, protocolId, length with
    | [t₁, t₀], _, [p₁, p₀], _ =>
      have field : ofBigEndian (toBigEndian 2 (data.length + 3)) = data.length + 3 :=
        ofBigEndian_toBigEndian (by omega)
      refine ⟨rfl, (decodeHead_tcp t₁ t₀ p₁ p₀ (UInt8.ofNat ((data.length + 3) / 256))
        (UInt8.ofNat (data.length + 3)) slaveId function count).trans ?_⟩
      have bytes : ofBigEndian [UInt8.ofNat ((data.length + 3) / 256), UInt8.ofNat (data.length + 3)] =
          data.length + 3 := field
      rw [bytes, if_neg (by omega), Nat.add_sub_cancel]
  | rtu | ascii => exact ⟨rfl, rfl⟩

/-- The values behind a header. -/
def dataOf (protocol : Protocol) (payload : List UInt8) : List UInt8 :=
  match protocol with
  | .tcp => payload
  | .rtu | .ascii => payload.take (payload.length - 2)

theorem dataOf_behindHead (protocol : Protocol) (data body : List UInt8) :
    dataOf protocol (behindHead protocol data body) = data := by
  cases protocol with
  | tcp => rfl
  | rtu | ascii => simp [dataOf, behindHead]

/-- The two bytes behind the values are their check over RTU. -/
def Checked (protocol : Protocol) (frame : FrameHead) (payload : List UInt8) : Prop :=
  match protocol with
  | .tcp => True
  | .rtu | .ascii =>
    crc16Rx frame (payload.take (payload.length - 2)) =
      (payload.getD (payload.length - 2) 0, payload.getD (payload.length - 1) 0)

theorem take_append_last {list : List UInt8} (long : 2 ≤ list.length) :
    list.take (list.length - 2) ++ [list.getD (list.length - 2) 0, list.getD (list.length - 1) 0] =
      list := by
  apply ext_getElem?
  intro index
  rw [getElem?_append, length_take]
  by_cases inside : index < list.length - 2
  · rw [if_pos (by omega), getElem?_take, if_pos inside]
  · rw [if_neg (by omega)]
    by_cases last : index < list.length
    · have cases : index = list.length - 2 ∨ index = list.length - 1 := by omega
      rcases cases with here | here
      · have position : index - min (list.length - 2) list.length = 0 := by omega
        rw [position, ← here, getD_eq_getElem?_getD, getElem?_eq_getElem last]
        rfl
      · have position : index - min (list.length - 2) list.length = 1 := by omega
        rw [position, ← here, getElem?_cons_succ, getElem?_cons_zero,
          getD_eq_getElem?_getD, getElem?_eq_getElem last]
        rfl
    · rw [getElem?_eq_none (by simp; omega), getElem?_eq_none (by omega)]

theorem answers_of_fields {asked : Asked} {head payload : List UInt8}
    (length : head.length = headSize protocol) (decoded : (decodeHead protocol head).2 = true)
    (gathered : payload.length = (decodeHead protocol head).1.payloadLength)
    (transaction : protocol = .tcp → head.take 2 = asked.tId)
    (slaveId : (decodeHead protocol head).1.slaveId = asked.slaveId)
    (function : (decodeHead protocol head).1.function = asked.function)
    (count : (decodeHead protocol head).1.byteCount = (dataOf protocol payload).length)
    (quantity : (dataOf protocol payload).length = asked.dataLength)
    (checked : Checked protocol (decodeHead protocol head).1 payload) :
    Answers protocol asked (dataOf protocol payload) (head ++ payload) := by
  cases protocol with
  | tcp =>
    match head, length with
    | [t₁, t₀, p₁, p₀, l₁, l₀, a, b, c], _ =>
      rw [decodeHead_tcp] at decoded gathered slaveId function count
      by_cases bad : ofBigEndian [l₁, l₀] < 3
      · rw [if_pos bad] at decoded
        exact absurd decoded false_ne_true
      · rw [if_neg bad] at gathered slaveId function count
        have bytes : payload.length + 3 = ofBigEndian [l₁, l₀] := by
          have here : payload.length = ofBigEndian [l₁, l₀] - 3 := gathered
          omega
        have field : toBigEndian 2 (payload.length + 3) = [l₁, l₀] := by
          rw [bytes]
          exact toBigEndian_ofBigEndian [l₁, l₀]
        have same : a.toNat = asked.slaveId ∧ b.toNat = asked.function ∧ c.toNat = payload.length :=
          ⟨slaveId, function, count⟩
        refine ⟨quantity, [p₁, p₀], rfl, ?_⟩
        unfold framed Asked.response
        rw [← same.1, ← same.2.1, ← transaction rfl]
        show _ = _ ++ _ ++ toBigEndian 2 (payload.length + 3) ++
          ([UInt8.ofNat a.toNat, UInt8.ofNat b.toNat, UInt8.ofNat payload.length] ++ payload)
        rw [field, ← same.2.2, UInt8.ofNat_toNat, UInt8.ofNat_toNat, UInt8.ofNat_toNat]
        rfl
  | rtu | ascii =>
    match head, length with
    | [a, b, c], _ =>
      have behind : payload.length = c.toNat + 2 := gathered
      have data : c.toNat = (payload.take (payload.length - 2)).length := count
      have same : a.toNat = asked.slaveId ∧ b.toNat = asked.function := ⟨slaveId, function⟩
      have crc : crc16 ([a, b, c] ++ payload.take (payload.length - 2)) =
          (payload.getD (payload.length - 2) 0, payload.getD (payload.length - 1) 0) := by
        have here : crc16 ([UInt8.ofNat a.toNat, UInt8.ofNat b.toNat, UInt8.ofNat c.toNat] ++ _) = _ :=
          checked
        rw [UInt8.ofNat_toNat, UInt8.ofNat_toNat, UInt8.ofNat_toNat] at here
        exact here
      refine ⟨quantity, [0, 0], rfl, ?_⟩
      unfold framed Asked.response dataOf
      dsimp only
      rw [← same.1, ← same.2, ← data, UInt8.ofNat_toNat, UInt8.ofNat_toNat, UInt8.ofNat_toNat, crc,
        append_assoc, take_append_last (by omega)]

/-! ## Requests -/

theorem uint8_lt (value : Int) : uint8 value < 256 := by
  unfold uint8
  omega

theorem uint16_lt (value : Int) : uint16 value < 2 ^ 16 := by
  unfold uint16
  omega

/-- A request that a master can send. -/
structure Asked.Valid (protocol : Protocol) (asked : Asked) : Prop where
  transaction : protocol = .tcp → asked.tId.length = 2
  slaveId : asked.slaveId < 256
  function : asked.function < 0x80
  dataLength : asked.dataLength < 256

/-- The transaction id of a request. -/
def transactionOf (protocol : Protocol) (tId : Nat) : List UInt8 :=
  if protocol = .tcp then toBigEndian 2 tId else []

/-- What the request to read a map asks for. -/
def askedOf (conf : Conf) (tId : Nat) (slave : Option Slave) (type : ObjectType) (map : Map) : Asked where
  tId := transactionOf conf.protocol tId
  slaveId := uint8 ((slave.map Slave.id).getD 0)
  function := readFunction type
  address := uint16 map.address
  quantity := min (uint16 map.size) (maxRead type)

open Nat

theorem ofBytes_readBytes (implemented : protocol ≠ .ascii)
    (tId : Nat) {slaveId function address size : Nat} (slave : slaveId < 256) (read : function < 256)
    (first : address < 2 ^ 16) (many : size < 2 ^ 16) :
    Asked.ofBytes protocol (readBytes protocol tId slaveId function address size) =
      ⟨transactionOf protocol tId, slaveId, function, address, size⟩ := by
  have bytes : Asked.ofBytes protocol (readBytes protocol tId slaveId function address size) =
      ⟨transactionOf protocol tId, (UInt8.ofNat slaveId).toNat, (UInt8.ofNat function).toNat,
        ofBigEndian (toBigEndian 2 address), ofBigEndian (toBigEndian 2 size)⟩ := by
    cases protocol with
    | tcp => rfl
    | rtu => rfl
    | ascii => exact absurd rfl implemented
  have address_read : ofBigEndian (toBigEndian 2 address) = address := ofBigEndian_toBigEndian first
  have size_read : ofBigEndian (toBigEndian 2 size) = size := ofBigEndian_toBigEndian many
  rw [bytes, UInt8.toNat_ofNat', UInt8.toNat_ofNat', mod_eq_of_lt slave, mod_eq_of_lt read,
    address_read, size_read]

theorem ofBytes_requestOf (implemented : conf.protocol ≠ .ascii) (tId : Nat) (slave : Option Slave)
    (type : ObjectType) (map : Map) :
    Asked.ofBytes conf.protocol (requestOf conf tId slave type map) =
      askedOf conf tId slave type map := by
  apply ofBytes_readBytes implemented
  · exact uint8_lt _
  · cases type <;> decide
  · exact uint16_lt map.address
  · exact lt_of_le_of_lt (min_le_left _ _) (uint16_lt map.size)

theorem dataLength_askedOf (conf : Conf) (tId : Nat) (slave : Option Slave) (type : ObjectType)
    (map : Map) :
    (askedOf conf tId slave type map).dataLength =
      valuesLength type (askedOf conf tId slave type map).quantity := by
  cases type <;> rfl

theorem valid_askedOf (conf : Conf) (tId : Nat) (slave : Option Slave) (type : ObjectType) (map : Map) :
    (askedOf conf tId slave type map).Valid conf.protocol where
  transaction tcp := by
    unfold askedOf transactionOf
    rw [if_pos tcp]
    rfl
  slaveId := uint8_lt _
  function := by
    show readFunction type < 0x80
    cases type <;> decide
  dataLength := by
    have least : (askedOf conf tId slave type map).quantity ≤ maxRead type := min_le_right _ _
    rw [dataLength_askedOf]
    cases type with
    | coil | discreteInput =>
      have most : (askedOf conf tId slave _ map).quantity ≤ 2000 := least
      unfold valuesLength
      dsimp only
      omega
    | holdingRegister | inputRegister =>
      have most : (askedOf conf tId slave _ map).quantity ≤ 125 := least
      unfold valuesLength
      dsimp only
      omega

/-! ## Well-formed responses -/

theorem frameOf_payloadLength (conf : Conf) (head : List UInt8) :
    (frameOf conf head).payloadLength =
      if 0x80 ≤ (decodeHead conf.protocol head).1.function then 2
      else (decodeHead conf.protocol head).1.payloadLength := by
  unfold frameOf headerComplete
  split <;> rfl

theorem frameLength_append {head : List UInt8}
    (length : head.length = headSize protocol) (decoded : (decodeHead protocol head).2 = true)
    (payload : List UInt8) :
    frameLength protocol (head ++ payload) = headSize protocol +
      if protocol ≠ .tcp ∧ 0x80 ≤ (decodeHead protocol head).1.function then 2
      else (decodeHead protocol head).1.payloadLength := by
  cases protocol with
  | tcp =>
    match head, length with
    | [t₁, t₀, p₁, p₀, l₁, l₀, a, b, c], _ =>
      rw [decodeHead_tcp] at decoded ⊢
      by_cases bad : ofBigEndian [l₁, l₀] < 3
      · rw [if_pos bad] at decoded
        exact absurd decoded false_ne_true
      · rw [if_neg (by simp), if_neg bad]
        show 6 + ofBigEndian [l₁, l₀] = 9 + (ofBigEndian [l₁, l₀] - 3)
        omega
  | rtu | ascii =>
    match head, length with
    | [a, b, c], _ =>
      by_cases exception : 0x80 ≤ b.toNat
      · rw [if_pos ⟨by decide, exception⟩]
        show (5 + if 0x80 ≤ b.toNat then 0 else c.toNat) = 3 + 2
        rw [if_pos exception]
      · rw [if_neg fun both => exception both.2]
        show (5 + if 0x80 ≤ b.toNat then 0 else c.toNat) = 3 + (c.toNat + 2)
        rw [if_neg exception]
        omega

theorem last_two (data : List UInt8) (first second : UInt8) :
    (data ++ [first, second]).take ((data ++ [first, second]).length - 2) = data ∧
      (data ++ [first, second]).getD ((data ++ [first, second]).length - 2) 0 = first ∧
      (data ++ [first, second]).getD ((data ++ [first, second]).length - 1) 0 = second := by
  have count : (data ++ [first, second]).length = data.length + 2 := length_append
  refine ⟨?_, ?_, ?_⟩
  · rw [count, Nat.add_sub_cancel, take_left]
  · rw [count, Nat.add_sub_cancel, getD_append_right _ _ _ _ (Nat.le_refl _), Nat.sub_self]
    rfl
  · have next : data.length + 2 - 1 - data.length = 1 := by omega
    rw [count, getD_append_right _ _ _ _ (by omega), next]
    rfl

/-- A response with values is a header with the fields of the request, and what follows it. -/
theorem Asked.Valid.normal {asked : Asked} (valid : asked.Valid protocol)
    {protocolId data : List UInt8} (length : protocolId.length = 2)
    (enough : data.length = asked.dataLength) : ∃ head payload,
      framed protocol asked.tId protocolId (asked.response data) = head ++ payload ∧
      head.length = headSize protocol ∧ dataOf protocol payload = data ∧
      decodeHead protocol head =
        ({ slaveId := asked.slaveId
           function := asked.function
           byteCount := data.length
           busy := true
           payloadLength := payload.length }, true) ∧
      Checked protocol (decodeHead protocol head).1 payload := by
  have short : data.length < 256 := enough ▸ valid.dataLength
  have bound := valid.function
  have slave : (UInt8.ofNat asked.slaveId).toNat = asked.slaveId := by
    rw [UInt8.toNat_ofNat', mod_eq_of_lt valid.slaveId]
  have function : (UInt8.ofNat asked.function).toNat = asked.function := by
    rw [UInt8.toNat_ofNat', mod_eq_of_lt (by omega)]
  have count : (UInt8.ofNat data.length).toNat = data.length := by
    rw [UInt8.toNat_ofNat', mod_eq_of_lt short]
  have head := decodeHead_headOf valid.transaction length (UInt8.ofNat asked.slaveId)
    (UInt8.ofNat asked.function) (UInt8.ofNat data.length) short
  rw [slave, function, count] at head
  refine ⟨_, _, framed_eq protocol asked.tId protocolId _ data, head.1, dataOf_behindHead _ _ _, ?_, ?_⟩
  · rw [head.2]
    cases protocol with
    | tcp => rfl
    | rtu | ascii =>
      unfold behindHead
      rw [length_append]
      rfl
  · rw [head.2]
    cases protocol with
    | tcp => trivial
    | rtu | ascii =>
      unfold Checked behindHead
      generalize sum : crc16 _ = crc
      have ends := last_two data crc.1 crc.2
      rw [ends.1, ends.2.1, ends.2.2]
      exact sum

theorem Asked.Valid.exception {asked : Asked} (valid : asked.Valid protocol)
    {protocolId : List UInt8} (length : protocolId.length = 2) (code : UInt8) : ∃ head payload,
      framed protocol asked.tId protocolId (asked.exception code) = head ++ payload ∧
      head.length = headSize protocol ∧ (decodeHead protocol head).2 = true ∧
      (decodeHead protocol head).1.function = asked.function + 0x80 ∧
      (protocol = .tcp → (decodeHead protocol head).1.payloadLength = 0) ∧
      payload.length = if protocol = .tcp then 0 else 2 := by
  have bound := valid.function
  have function : (UInt8.ofNat (asked.function + 0x80)).toNat = asked.function + 0x80 := by
    rw [UInt8.toNat_ofNat', mod_eq_of_lt (by omega)]
  have few : ([] : List UInt8).length < 256 := by decide
  have head := decodeHead_headOf valid.transaction length (UInt8.ofNat asked.slaveId)
    (UInt8.ofNat (asked.function + 0x80)) code few
  rw [function] at head
  have bytes := framed_eq protocol asked.tId protocolId
    [UInt8.ofNat asked.slaveId, UInt8.ofNat (asked.function + 0x80), code] []
  rw [append_nil] at bytes
  refine ⟨_, _, bytes, head.1, by rw [head.2], by rw [head.2], ?_, ?_⟩
  · intro tcp
    subst tcp
    rw [head.2]
    rfl
  · cases protocol with
    | tcp => rfl
    | rtu | ascii =>
      rw [if_neg (by decide)]
      rfl

end Yunetas.Modbus
