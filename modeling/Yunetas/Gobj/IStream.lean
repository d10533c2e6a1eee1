import Mathlib.Data.List.Basic

/-!
# Input streams

A gbuffer of fixed size that gathers a number of bytes from the chunks of a connection. The bytes that do
not fit in it are lost.
-/

namespace Yunetas.Gobj

open List

/-- `ISTREAM`, for a number of bytes. -/
structure IStream where
  size : Nat
  /-- Bytes written since `istream_reset_wr`. -/
  written : Nat := 0
  left : List UInt8 := []
  deriving DecidableEq

/-- `gbuffer_append`: as many bytes as there is room for. -/
def IStream.append (istream : IStream) (bf : List UInt8) : IStream :=
  let stored := bf.take (istream.size - istream.written)
  { istream with written := istream.written + stored.length, left := istream.left ++ stored }

/-- `istream_read_until_num_bytes` and `istream_consume`: whether the bytes are complete, and the bytes
that are not consumed. -/
def IStream.consume (istream : IStream) (numBytes : Nat) (bf : List UInt8) :
    Bool × IStream × List UInt8 :=
  if bf = [] then (false, istream, [])
  else
    let needed := numBytes - istream.left.length
    if needed > bf.length then (false, istream.append bf, [])
    else (true, istream.append (bf.take needed), bf.drop needed)

/-- `istream_extract_matched_data`: no data is a null pointer. -/
def IStream.extract (istream : IStream) : Option (List UInt8 × IStream) :=
  if istream.left = [] then none else some (istream.left, { istream with left := [] })

/-- `istream_reset_wr`. -/
def IStream.reset (istream : IStream) : IStream := { istream with written := 0, left := [] }

variable {size : Nat} {seen bf : List UInt8}

theorem IStream.consume_some (short : seen.length + bf.length < size) :
    IStream.consume ⟨size, seen.length, seen⟩ size bf =
      (false, ⟨size, (seen ++ bf).length, seen ++ bf⟩, []) := by
  have room : bf.take (size - seen.length) = bf := take_of_length_le (by omega)
  unfold IStream.consume
  by_cases none : bf = []
  · rw [if_pos none, none, append_nil]
  · rw [if_neg none]
    dsimp only
    rw [if_pos (by omega)]
    unfold IStream.append
    rw [room, length_append]

theorem IStream.consume_whole (less : seen.length < size) (enough : size ≤ seen.length + bf.length) :
    IStream.consume ⟨size, seen.length, seen⟩ size bf =
      (true, ⟨size, size, seen ++ bf.take (size - seen.length)⟩, bf.drop (size - seen.length)) := by
  have some_bytes : bf ≠ [] := by
    apply ne_nil_of_length_pos
    omega
  have taken : (bf.take (size - seen.length)).length = size - seen.length := by
    rw [length_take]
    omega
  unfold IStream.consume
  rw [if_neg some_bytes]
  dsimp only
  rw [if_neg (by omega)]
  unfold IStream.append
  dsimp only
  rw [take_of_length_le (Nat.le_of_eq taken), taken,
    show seen.length + (size - seen.length) = size by omega]

end Yunetas.Gobj
