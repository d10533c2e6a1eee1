import Mathlib
import Yunetas.Gobj.Registry

/-!
# Slaves and maps

The configuration of a Modbus master: slaves, and the maps of addresses that are read from each. A map
that cannot be read is disabled when the cells are made.
-/

namespace Yunetas.Modbus

open Gobj (strntolower)

/-- `modbus_object_type_t`. -/
inductive ObjectType
  | coil
  | discreteInput
  | inputRegister
  | holdingRegister
  deriving DecidableEq

/-- `get_object_type`; `none` is `TYPE_UNKNOWN`. A text that `snprintf` cuts is none of these. -/
def getObjectType (type : String) : Option ObjectType :=
  let type := strntolower type
  if type = "coil" ∨ type = "coil_status" then some .coil
  else if type = "discrete input" ∨ type = "input_status" then some .discreteInput
  else if type = "input register" ∨ type = "input_register" then some .inputRegister
  else if type = "holding register" ∨ type = "holding_register" then some .holdingRegister
  else none

/-- A map of the configuration, as `kw_get_int` and `kw_get_bool` read it. -/
structure Map where
  type : String
  address : Int
  size : Int
  disabled : Bool := false
  deriving DecidableEq

/-- A slave of the configuration. -/
structure Slave where
  id : Int
  mapping : List Map
  deriving DecidableEq

/-- A cast to `uint8_t`. -/
def uint8 (value : Int) : Nat := (value % 2 ^ 8).toNat

/-- A cast to `uint16_t`. -/
def uint16 (value : Int) : Nat := (value % 2 ^ 16).toNat

/-- A cast to `int32_t`. -/
def int32 (value : Int) : Int := value.bmod (2 ^ 32)

/-- `cell_control_t`. A register keeps the two bytes of the wire. -/
structure Cell where
  bitValue : Bool := false
  valueBusy : Bool := false
  inputRegister : UInt8 × UInt8 := (0, 0)
  holdingRegister : UInt8 × UInt8 := (0, 0)
  deriving DecidableEq

/-- `x_control`: the cells by their type and address. -/
abbrev Cells := ObjectType → Nat → Option Cell

/-- A cell is set. -/
def Cells.set (cells : Cells) (type : ObjectType) (address : Nat) (cell : Cell) : Cells :=
  Function.update cells type (Function.update (cells type) address (some cell))

/-- `slave_data_t`. -/
structure SlaveData where
  slaveId : Nat
  /-- `x_control`. -/
  cells : Cells

/-- `get_cell_control` to make a cell: always a new one, in place of the one that was there. -/
def newCellControl (cells : Cells) (type : ObjectType) (address : Nat) : Cells × Cell :=
  (cells.set type address {}, {})

/-- The loop of `build_slave_data` over the cells of a map, and whether the map stays enabled. -/
def buildCells (cells : Cells) (type : ObjectType) (address : Nat) : Nat → Cells × Bool
  | 0 => (cells, true)
  | count + 1 =>
    let made := newCellControl cells type address
    if made.2.valueBusy then (made.1, false)
    else
      buildCells (made.1.set type address
        { made.2 with valueBusy := true, inputRegister := (0, 0), holdingRegister := (0, 0) })
        type (address + 1) count

/-- `build_slave_data` for a map. -/
def buildMap (cells : Cells) (map : Map) : Cells × Map :=
  match getObjectType map.type with
  | none => (cells, { map with disabled := true })
  | some type =>
    let address := int32 map.address
    let size := int32 map.size
    if address < 0 ∨ address > 0xFFFF then (cells, { map with disabled := true })
    else if size < 0 ∨ size > 0xFFFF then (cells, { map with disabled := true })
    else if address + size ≥ 0xFFFF then (cells, { map with disabled := true })
    else
      let built := buildCells cells type address.toNat size.toNat
      (built.1, if built.2 then map else { map with disabled := true })

/-- `build_slave_data` for the maps of a slave. -/
def buildMapping (cells : Cells) : List Map → Cells × List Map
  | [] => (cells, [])
  | map :: rest =>
    let first := buildMap cells map
    let others := buildMapping first.1 rest
    (others.1, first.2 :: others.2)

/-- `build_slave_data` for a slave. -/
def buildSlave (slave : Slave) : SlaveData × Slave :=
  let built := buildMapping (fun _ _ => none) slave.mapping
  (⟨uint16 slave.id, built.1⟩, { slave with mapping := built.2 })

/-- `build_slave_data`. -/
def buildSlaveData (slaves : List Slave) : List SlaveData × List Slave :=
  (slaves.map fun slave => (buildSlave slave).1, slaves.map fun slave => (buildSlave slave).2)

end Yunetas.Modbus
