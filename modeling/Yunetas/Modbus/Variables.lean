import Mathlib.Data.List.DropRight
import Yunetas.Modbus.Master

/-!
# Variables

`get_variable_value` of `c_prot_modbus_m.c` makes a json value of the registers of a variable. Bytes are
put in order by the endian format, and the integer is multiplied; each width multiplies in types of
its own. Multipliers are whole numbers here; a conversion that the language leaves undefined gives no
value.
-/

namespace Yunetas.Modbus

/-- `endian_format_t`. -/
inductive EndianFormat
  | bigEndian
  | littleEndian
  | bigEndianByteSwap
  | littleEndianByteSwap
  deriving DecidableEq

/-- `variable_format_t`. -/
inductive VariableFormat
  | int16
  | uint16
  | bool
  | int32
  | uint32
  | int64
  | uint64
  | float
  | double
  | string
  deriving DecidableEq

/-- A variable of the configuration, its texts read by `get_object_type`, `get_variable_format` and
`get_endian_format`. -/
structure Variable where
  type : ObjectType
  address : Nat
  format : VariableFormat
  endian : EndianFormat
  multiplier : Int
  lengthBytes : Int

/-- `endian_16`. -/
def endian16 (endian : EndianFormat) (pv : List UInt8) : Nat :=
  match endian with
  | .bigEndianByteSwap | .bigEndian => byteAt pv 1 + byteAt pv 0 * 2 ^ 8
  | .littleEndianByteSwap | .littleEndian => byteAt pv 0 + byteAt pv 1 * 2 ^ 8

/-- `endian_32`, and the bits of `endian_float`. -/
def endian32 (endian : EndianFormat) (pv : List UInt8) : Nat :=
  match endian with
  | .bigEndian =>
    byteAt pv 3 + byteAt pv 2 * 2 ^ (8 * 1) + byteAt pv 1 * 2 ^ (8 * 2) + byteAt pv 0 * 2 ^ (8 * 3)
  | .littleEndian =>
    byteAt pv 0 + byteAt pv 1 * 2 ^ (8 * 1) + byteAt pv 2 * 2 ^ (8 * 2) + byteAt pv 3 * 2 ^ (8 * 3)
  | .bigEndianByteSwap =>
    byteAt pv 2 + byteAt pv 3 * 2 ^ (8 * 1) + byteAt pv 0 * 2 ^ (8 * 2) + byteAt pv 1 * 2 ^ (8 * 3)
  | .littleEndianByteSwap =>
    byteAt pv 1 + byteAt pv 0 * 2 ^ (8 * 1) + byteAt pv 3 * 2 ^ (8 * 2) + byteAt pv 2 * 2 ^ (8 * 3)

/-- `endian_64`, and the bits of `endian_double`. -/
def endian64 (endian : EndianFormat) (pv : List UInt8) : Nat :=
  match endian with
  | .bigEndian =>
    byteAt pv 7 + byteAt pv 6 * 2 ^ (8 * 1) + byteAt pv 5 * 2 ^ (8 * 2) +
      byteAt pv 4 * 2 ^ (8 * 3) + byteAt pv 3 * 2 ^ (8 * 4) + byteAt pv 2 * 2 ^ (8 * 5) +
      byteAt pv 1 * 2 ^ (8 * 6) + byteAt pv 0 * 2 ^ (8 * 7)
  | .littleEndian =>
    byteAt pv 0 + byteAt pv 1 * 2 ^ (8 * 1) + byteAt pv 2 * 2 ^ (8 * 2) +
      byteAt pv 3 * 2 ^ (8 * 3) + byteAt pv 4 * 2 ^ (8 * 4) + byteAt pv 5 * 2 ^ (8 * 5) +
      byteAt pv 6 * 2 ^ (8 * 6) + byteAt pv 7 * 2 ^ (8 * 7)
  | .bigEndianByteSwap =>
    byteAt pv 6 + byteAt pv 7 * 2 ^ (8 * 1) + byteAt pv 4 * 2 ^ (8 * 2) +
      byteAt pv 5 * 2 ^ (8 * 3) + byteAt pv 2 * 2 ^ (8 * 4) + byteAt pv 3 * 2 ^ (8 * 5) +
      byteAt pv 0 * 2 ^ (8 * 6) + byteAt pv 1 * 2 ^ (8 * 7)
  | .littleEndianByteSwap =>
    byteAt pv 1 + byteAt pv 0 * 2 ^ (8 * 1) + byteAt pv 3 * 2 ^ (8 * 2) +
      byteAt pv 2 * 2 ^ (8 * 3) + byteAt pv 5 * 2 ^ (8 * 4) + byteAt pv 4 * 2 ^ (8 * 5) +
      byteAt pv 7 * 2 ^ (8 * 6) + byteAt pv 6 * 2 ^ (8 * 7)

/-- The register of a cell; coils and discrete inputs have none. -/
def Cell.register (cell : Cell) : ObjectType → Option (UInt8 × UInt8)
  | .inputRegister => some cell.inputRegister
  | .holdingRegister => some cell.holdingRegister
  | .coil | .discreteInput => none

/-- `collect_register_bytes`; `none` is -1. -/
def collectRegisterBytes (cells : Cells) (type : ObjectType) (address : Nat) :
    Nat → Option (List UInt8)
  | 0 => some []
  | words + 1 =>
    match (cells type address).bind (·.register type) with
    | none => none
    | some word =>
      (collectRegisterBytes cells type (address + 1) words).map ([word.1, word.2] ++ ·)

/-- The `float` nearest to a whole number: 24 bits stay, and a tie goes to the even one. -/
def roundFloat (value : Int) : Int :=
  let magnitude := value.natAbs
  if magnitude < 2 ^ 24 then value
  else
    let unit := 2 ^ (magnitude.log2 - 23)
    let low := magnitude / unit
    let rest := magnitude % unit
    let nearest := if 2 * rest < unit ∨ (2 * rest = unit ∧ low % 2 = 0) then low else low + 1
    value.sign * ((nearest * unit : Nat) : Int)

/-- What `get_variable_value` gives. -/
inductive Reading
  | value (json : Json)
  /-- `json_string` of what is no UTF-8. -/
  | null
  | undefined

/-- `v = v*multiplier` in `int16_t` or `uint16_t`: a product of `float`s, cut back. -/
def times16 (low high value multiplier : Int) : Reading :=
  let product := roundFloat (value * multiplier)
  if low ≤ product ∧ product ≤ high then .value (.integer product) else .undefined

/-- A product in `int64_t`. -/
def timesSigned (value multiplier : Int) : Reading :=
  let product := value * multiplier
  if -2 ^ 63 ≤ product ∧ product < 2 ^ 63 then .value (.integer product) else .undefined

/-- A product in `uint64_t`, as `json_int_t`; the multiplier is cast first. -/
def timesUnsigned (value multiplier : Int) : Reading :=
  if multiplier < 0 then .undefined else .value (.integer ((value * multiplier).bmod (2 ^ 64)))

/-- The registers and bytes of a string. -/
def stringSize (variable_ : Variable) : Nat :=
  let bytes := if variable_.lengthBytes ≤ 0 then variable_.multiplier else variable_.lengthBytes
  if bytes ≤ 0 then 1 else bytes.toNat

/-- The first loop over the bytes of a string: they are swapped inside each register. -/
def swapInside (endian : EndianFormat) : List UInt8 → List UInt8
  | hi :: lo :: rest =>
    match endian with
    | .bigEndian | .bigEndianByteSwap => hi :: lo :: swapInside endian rest
    | .littleEndian | .littleEndianByteSwap => lo :: hi :: swapInside endian rest
  | bytes => bytes

/-- The second loop: the two registers of each block of four bytes are swapped. -/
def swapWords : List UInt8 → List UInt8
  | a :: b :: c :: d :: rest => c :: d :: a :: b :: swapWords rest
  | bytes => bytes

/-- Both loops. -/
def stringBytes (endian : EndianFormat) (tmp : List UInt8) : List UInt8 :=
  match endian with
  | .bigEndian | .littleEndian => swapInside endian tmp
  | .bigEndianByteSwap | .littleEndianByteSwap => swapWords (swapInside endian tmp)

/-- A blank of `left_justify`. -/
def blankByte (byte : UInt8) : Bool := byte = 32 ∨ byte = 9 ∨ byte = 10 ∨ byte = 13

/-- `json_string` of the bytes of a string, with spaces for NULs and justified. -/
def stringReading (bytes : List UInt8) : Reading :=
  let text := bytes.map fun byte => if byte = 0 then 32 else byte
  let justified := (text.rdropWhile blankByte).dropWhile blankByte
  match String.fromUTF8? ⟨justified.toArray⟩ with
  | some text => .value (.string text)
  | none => .null

section

variable (floatTimes doubleTimes : Nat → Int → UInt64)

/-- `get_variable_value`. The products of reals are parameters, by the bits of the real. -/
def getVariableValue (cells : Cells) (variable_ : Variable) : Reading :=
  let multiplier := roundFloat variable_.multiplier
  let multiplier := if multiplier = 0 then 1 else multiplier
  let type := variable_.type
  let endian := variable_.endian
  match cells type variable_.address with
  | none => .value .null
  | some cell =>
    let collect (words : Nat) (read : List UInt8 → Reading) : Reading :=
      match collectRegisterBytes cells type variable_.address words with
      | none => .value .null
      | some bytes => read bytes
    let short (read : List UInt8 → Reading) : Reading :=
      match cell.register type with
      | none => .value (.integer (if cell.bitValue then 1 else 0))
      | some word => read [word.1, word.2]
    match variable_.format with
    | .bool =>
      match cell.register type with
      | none => .value (.boolean cell.bitValue)
      | some word => .value (.boolean (word ≠ (0, 0)))
    | .int16 => short fun bytes =>
      times16 (-2 ^ 15) (2 ^ 15 - 1) (Int.bmod (endian16 endian bytes) (2 ^ 16)) multiplier
    | .uint16 => short fun bytes => times16 0 (2 ^ 16 - 1) (endian16 endian bytes) multiplier
    | .int32 => collect 2 fun bytes =>
      timesSigned (Int.bmod (endian32 endian bytes) (2 ^ 32)) multiplier
    | .uint32 => collect 2 fun bytes => timesUnsigned (endian32 endian bytes) multiplier
    | .int64 => collect 4 fun bytes =>
      timesSigned (Int.bmod (endian64 endian bytes) (2 ^ 64)) multiplier
    | .uint64 => collect 4 fun bytes => timesUnsigned (endian64 endian bytes) multiplier
    | .float => collect 2 fun bytes => .value (.real (floatTimes (endian32 endian bytes) multiplier))
    | .double => collect 4 fun bytes => .value (.real (doubleTimes (endian64 endian bytes) multiplier))
    | .string => collect ((stringSize variable_ + 1) / 2) fun tmp =>
      stringReading ((stringBytes endian tmp).take (stringSize variable_))

end

end Yunetas.Modbus
