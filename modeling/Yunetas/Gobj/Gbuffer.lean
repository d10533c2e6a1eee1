import Mathlib.Data.List.TakeWhile
import Yunetas.Gobj.Base64
import Yunetas.Lib.Json

/-!
# Gbuffers

A gbuffer holds bytes between a read and a write position. It grows in memory blocks no larger than
the largest block of the yuno, and what does not fit is not appended. Serialized, it is a json
object with its label, its mark and the bytes that remain to be read, in base 64.

A text passed as a C string ends at its first null character.
-/

namespace Yunetas.Gobj

open List

/-- The C string at the start of a text. -/
def cString (text : List Char) : List Char := text.takeWhile (· ≠ Char.ofNat 0)

/-- `strlen` of a C string. -/
def strlen (text : List Char) : Nat := (text.map Char.utf8Size).sum

/-- `gbuffer_t`. -/
structure Gbuffer where
  /-- Bytes written, as many as `tail`. -/
  data : List UInt8
  dataSize : Nat
  maxMemorySize : Nat
  /-- `curp`: bytes read. -/
  curp : Nat := 0
  label : Option (List Char) := none
  mark : UInt64 := 0
  written : curp ≤ data.length
  fits : data.length ≤ dataSize

namespace Gbuffer

/-- The bytes of `gbuffer_leftbytes` at `gbuffer_cur_rd_pointer`. -/
def leftBytes (gbuf : Gbuffer) : List UInt8 := gbuf.data.drop gbuf.curp

/-- `gbuffer_freebytes`. -/
def freeBytes (gbuf : Gbuffer) : Nat := gbuf.dataSize - gbuf.data.length

end Gbuffer

/-- `gbuffer_create`. The allocation fails over the largest block. -/
def gbufferCreate (maxBlock dataSize maxMemorySize : Nat) : Option Gbuffer :=
  if dataSize + 1 > maxBlock then none
  else some { data := [], dataSize, maxMemorySize, written := Nat.le_refl .zero, fits := Nat.zero_le _ }

/-- `gbuffer_realloc`; where it returns `FALSE` the buffer stays. -/
def gbufferRealloc (maxBlock : Nat) (gbuf : Gbuffer) (needSize : Nat) : Gbuffer :=
  let more := gbuf.dataSize + max gbuf.dataSize needSize
  if more + 1 > gbuf.maxMemorySize then gbuf
  else if more + 1 > maxBlock then gbuf
  else { gbuf with dataSize := more, fits := Nat.le_trans gbuf.fits (Nat.le_add_right _ _) }

/-- Store bytes behind those written, as many as there is room for. -/
def Gbuffer.store (gbuf : Gbuffer) (bf : List UInt8) : Gbuffer :=
  { gbuf with
    data := gbuf.data ++ bf.take gbuf.freeBytes
    written := by
      rw [List.length_append]
      exact Nat.le_trans gbuf.written (Nat.le_add_right _ _)
    fits := by
      have room := List.length_take_le gbuf.freeBytes bf
      have inside := gbuf.fits
      unfold Gbuffer.freeBytes at room ⊢
      rw [List.length_append]
      omega }

/-- `gbuffer_append`: what does not fit, also after growing, is dropped. -/
def gbufferAppend (maxBlock : Nat) (gbuf : Gbuffer) (bf : List UInt8) : Gbuffer :=
  if bf.length = 0 then gbuf
  else if gbuf.freeBytes < bf.length then (gbufferRealloc maxBlock gbuf bf.length).store bf
  else gbuf.store bf

/-- `gbuffer_set_wr` over bytes just written into the block. -/
def gbufferSetWr (gbuf : Gbuffer) (bytes : List UInt8) : Gbuffer :=
  if fits : bytes.length ≤ gbuf.dataSize then
    { gbuf with data := bytes, curp := 0, written := Nat.zero_le _, fits }
  else gbuf

/-- `gbuffer_binary_to_base64`: the text of the new gbuffer. -/
def gbufferBinaryToBase64 (maxBlock : Nat) (src : List UInt8) : Option (List Char) :=
  let outputLen := b64OutputEncodeLen src.length
  match gbufferCreate maxBlock outputLen outputLen with
  | none => none
  | some _ => b64Encode outputLen src 0

/-- `gbuffer_base64_to_binary`. -/
def gbufferBase64ToBinary (maxBlock : Nat) (base64 : List Char) : Option Gbuffer :=
  let outputLen := b64OutputDecodeLen (strlen base64)
  match gbufferCreate maxBlock outputLen outputLen with
  | none => none
  | some gbufOutput =>
    match b64Decode outputLen ⟨[], 0, 0⟩ base64 with
    | none => none
    | some decoded => some (gbufferSetWr gbufOutput decoded)

/-- A mark as a json integer: a `size_t` cast to `json_int_t`. -/
def markToJson (mark : UInt64) : Int := mark.toInt64.toInt

/-- A json integer as a mark. -/
def markOfJson (value : Int) : UInt64 := (Int64.ofInt value).toUInt64

/-- `gbuffer_serialize`. Bytes that could not be encoded are left out. -/
def gbufferSerialize (maxBlock : Nat) (gbuf : Gbuffer) : Json :=
  .object [
    ("label", .string (String.ofList (gbuf.label.getD []))),
    ("mark", .integer (markToJson gbuf.mark)),
    ("data", .string (String.ofList ((gbufferBinaryToBase64 maxBlock gbuf.leftBytes).getD [])))]

/-- `json_object_get` of any json value. -/
def jsonObjectGet (json : Json) (key : String) : Option Json :=
  match json with
  | .object fields => Json.Fields.get? fields key
  | _ => none

/-- `gbmem_strdup`. -/
def gbmemStrdup (maxBlock : Nat) (text : List Char) : Option (List Char) :=
  if strlen (cString text) + 1 > maxBlock then none else some (cString text)

/-- `gbuffer_deserialize`. -/
def gbufferDeserialize (maxBlock : Nat) (json : Json) : Option Gbuffer :=
  let label := (jsonObjectGet json "label").bind Json.stringValue
  let mark := markOfJson (((jsonObjectGet json "mark").map Json.integerValue).getD 0)
  match (jsonObjectGet json "data").bind Json.stringValue with
  | none => none
  | some base64 =>
    match gbufferBase64ToBinary maxBlock (cString base64.toList) with
    | none => none
    | some gbuf =>
      some { gbuf with label := label.bind fun label => gbmemStrdup maxBlock label.toList, mark }

/-- `json2gbuf` into a new gbuffer, from the pieces that `json_dump_callback` hands over. -/
def json2gbuf (maxBlock : Nat) (pieces : List (List UInt8)) : Option Gbuffer :=
  (gbufferCreate maxBlock (4 * 1024) maxBlock).map (pieces.foldl (gbufferAppend maxBlock))

section RoundTrip

variable {maxBlock : Nat}

open Nat

theorem gbufferAppend_data {gbuf : Gbuffer} {bf : List UInt8}
    (growing : gbuf.maxMemorySize = maxBlock)
    (room : 2 * (gbuf.data.length + bf.length) ≤ maxBlock) :
    (gbufferAppend maxBlock gbuf bf).data = gbuf.data ++ bf ∧
      (gbufferAppend maxBlock gbuf bf).curp = gbuf.curp ∧
        (gbufferAppend maxBlock gbuf bf).maxMemorySize = maxBlock := by
  have inside := gbuf.fits
  unfold gbufferAppend
  split
  · rename_i empty
    rw [length_eq_zero_iff.1 empty, append_nil]
    exact ⟨rfl, rfl, growing⟩
  split
  · rename_i short
    unfold Gbuffer.freeBytes at short
    have grown : gbufferRealloc maxBlock gbuf bf.length =
        { gbuf with
          dataSize := gbuf.dataSize + max gbuf.dataSize bf.length
          fits := le_trans gbuf.fits (le_add_right _ _) } := by
      unfold gbufferRealloc
      rw [if_neg (by rw [growing]; omega), if_neg (by omega)]
    rw [grown]
    refine ⟨?_, rfl, growing⟩
    show gbuf.data ++ bf.take _ = _
    rw [take_of_length_le]
    unfold Gbuffer.freeBytes
    dsimp only
    omega
  · rename_i enough
    refine ⟨?_, rfl, growing⟩
    show gbuf.data ++ bf.take _ = _
    rw [take_of_length_le (Nat.le_of_not_lt enough)]

theorem gbufferAppend_room {gbuf : Gbuffer} {bf : List UInt8}
    (room : gbuf.data.length + bf.length ≤ gbuf.dataSize) :
    (gbufferAppend maxBlock gbuf bf).data = gbuf.data ++ bf ∧
      (gbufferAppend maxBlock gbuf bf).curp = gbuf.curp ∧
        (gbufferAppend maxBlock gbuf bf).dataSize = gbuf.dataSize := by
  have enough : bf.length ≤ gbuf.freeBytes := by
    unfold Gbuffer.freeBytes
    omega
  unfold gbufferAppend
  split
  · rename_i empty
    rw [length_eq_zero_iff.1 empty, append_nil]
    exact ⟨rfl, rfl, rfl⟩
  · rw [if_neg (by omega)]
    refine ⟨?_, rfl, rfl⟩
    show gbuf.data ++ bf.take _ = _
    rw [take_of_length_le enough]

theorem appendAll_data (pieces : List (List UInt8)) {gbuf : Gbuffer}
    (growing : gbuf.maxMemorySize = maxBlock)
    (room : 2 * (gbuf.data.length + pieces.flatten.length) ≤ maxBlock) :
    (pieces.foldl (gbufferAppend maxBlock) gbuf).data = gbuf.data ++ pieces.flatten ∧
      (pieces.foldl (gbufferAppend maxBlock) gbuf).curp = gbuf.curp := by
  induction pieces generalizing gbuf with
  | nil => simp
  | cons piece rest ih =>
    rw [flatten_cons, length_append] at room
    have here := gbufferAppend_data growing (show 2 * (gbuf.data.length + piece.length) ≤ maxBlock by
      omega)
    have later := ih here.2.2 (by rw [here.1, length_append]; omega)
    rw [foldl_cons, later.1, later.2, here.1, here.2.1, flatten_cons, append_assoc]
    exact ⟨rfl, rfl⟩

theorem json2gbuf_leftBytes (pieces : List (List UInt8)) (first : 4 * 1024 < maxBlock)
    (room : 2 * pieces.flatten.length ≤ maxBlock) :
    ∃ gbuf, json2gbuf maxBlock pieces = some gbuf ∧ gbuf.leftBytes = pieces.flatten := by
  unfold json2gbuf gbufferCreate
  rw [if_neg (by omega)]
  have held := @appendAll_data maxBlock pieces
    { data := [], dataSize := 4 * 1024, maxMemorySize := maxBlock, written := le_refl 0,
      fits := zero_le _ } rfl (by simpa using room)
  refine ⟨_, rfl, ?_⟩
  unfold Gbuffer.leftBytes
  rw [held.1, held.2]
  rfl

theorem markOfJson_markToJson (mark : UInt64) : markOfJson (markToJson mark) = mark := by
  unfold markOfJson markToJson
  rw [Int64.ofInt_toInt, UInt64.toUInt64_toInt64]

theorem strlen_plain {text : List Char}
    (plain : ∀ ch ∈ text, ch.utf8Size = 1 ∧ ch ≠ Char.ofNat 0) : strlen text = text.length := by
  have ones : text.map Char.utf8Size = List.replicate text.length 1 := by
    rw [eq_replicate_iff]
    refine ⟨length_map .., fun size among => ?_⟩
    obtain ⟨ch, here, rfl⟩ := mem_map.1 among
    exact (plain ch here).1
  rw [strlen, ones, sum_replicate_nat, mul_one]

theorem gbufferCreate_room {size : Nat} (small : size < maxBlock) :
    gbufferCreate maxBlock size size =
      some { data := [], dataSize := size, maxMemorySize := size, written := le_refl 0,
             fits := zero_le _ } := if_neg (by omega)

theorem base64ToBinary_binaryToBase64 {otherBlock : Nat} {src : List UInt8}
    (room : b64OutputEncodeLen src.length < maxBlock)
    (otherRoom : b64OutputDecodeLen ((src.length + 2) / 3 * 4) < otherBlock) :
    ∃ text copy, gbufferBinaryToBase64 maxBlock src = some text ∧ cString text = text ∧
      gbufferBase64ToBinary otherBlock text = some copy ∧ copy.leftBytes = src := by
  unfold b64OutputEncodeLen at room
  unfold b64OutputDecodeLen at otherRoom
  have ⟨text, encoded, long, decoded⟩ := @b64Decode_b64Encode
    (b64OutputEncodeLen src.length) (b64OutputDecodeLen ((src.length + 2) / 3 * 4)) src 0 [] 0
    (by unfold b64OutputEncodeLen; omega)
    (by unfold b64OutputDecodeLen; rw [length_nil]; omega)
  have plain := b64Encode_plain _ _ encoded
  have whole : cString text = text :=
    takeWhile_eq_self_iff.2 fun ch among => by simpa using (plain ch among).2
  have ascii : strlen text = (src.length + 2) / 3 * 4 := by
    rw [strlen_plain plain, long]
  have sent : gbufferBinaryToBase64 maxBlock src = some text := by
    unfold gbufferBinaryToBase64
    dsimp only
    rw [gbufferCreate_room (by unfold b64OutputEncodeLen; omega), ← encoded]
  have received : gbufferBase64ToBinary otherBlock text = some (gbufferSetWr
      { data := [], dataSize := b64OutputDecodeLen ((src.length + 2) / 3 * 4),
        maxMemorySize := b64OutputDecodeLen ((src.length + 2) / 3 * 4),
        written := le_refl 0, fits := zero_le _ } src) := by
    unfold gbufferBase64ToBinary
    dsimp only
    rw [ascii, gbufferCreate_room (by unfold b64OutputDecodeLen; omega), decoded]
    rfl
  have set : (gbufferSetWr
      { data := [], dataSize := b64OutputDecodeLen ((src.length + 2) / 3 * 4),
        maxMemorySize := b64OutputDecodeLen ((src.length + 2) / 3 * 4),
        written := le_refl 0, fits := zero_le _ } src).leftBytes = src := by
    unfold gbufferSetWr
    rw [dif_pos (by unfold b64OutputDecodeLen; dsimp only; omega)]
    rfl
  exact ⟨text, _, sent, whole, received, set⟩

/-- What is serialized is deserialized, with the bytes that remained to be read, the mark and the
label, which is empty where there was none. -/
theorem gbufferDeserialize_serialized {otherBlock : Nat} {gbuf : Gbuffer}
    (room : b64OutputEncodeLen gbuf.leftBytes.length < maxBlock)
    (otherRoom : b64OutputDecodeLen ((gbuf.leftBytes.length + 2) / 3 * 4) < otherBlock) :
    ∃ copy, gbufferDeserialize otherBlock (gbufferSerialize maxBlock gbuf) = some copy ∧
      copy.leftBytes = gbuf.leftBytes ∧ copy.mark = gbuf.mark ∧
      copy.label = gbmemStrdup otherBlock (gbuf.label.getD []) := by
  have ⟨text, copy, sent, whole, received, bytes⟩ := base64ToBinary_binaryToBase64 room otherRoom
  have data : (jsonObjectGet (gbufferSerialize maxBlock gbuf) "data").bind Json.stringValue =
      some (String.ofList text) := by
    unfold gbufferSerialize
    rw [sent]
    rfl
  have mark : ((jsonObjectGet (gbufferSerialize maxBlock gbuf) "mark").map
      Json.integerValue).getD 0 = markToJson gbuf.mark := rfl
  have label : (jsonObjectGet (gbufferSerialize maxBlock gbuf) "label").bind Json.stringValue =
      some (String.ofList (gbuf.label.getD [])) := rfl
  unfold gbufferDeserialize
  rw [data, mark, label]
  dsimp only
  rw [String.toList_ofList, whole, received, Option.bind_some, String.toList_ofList]
  exact ⟨_, rfl, bytes, markOfJson_markToJson gbuf.mark, rfl⟩

theorem gbufferDeserialize_gbufferSerialize {otherBlock : Nat} {gbuf : Gbuffer}
    (first : 4 * 1024 < otherBlock)
    (room : b64OutputEncodeLen gbuf.leftBytes.length < maxBlock)
    (otherRoom : b64OutputEncodeLen gbuf.leftBytes.length < otherBlock) :
    ∃ copy, gbufferDeserialize otherBlock (gbufferSerialize maxBlock gbuf) = some copy ∧
      copy.leftBytes = gbuf.leftBytes ∧ copy.mark = gbuf.mark := by
  have decodeRoom : b64OutputDecodeLen ((gbuf.leftBytes.length + 2) / 3 * 4) < otherBlock := by
    unfold b64OutputEncodeLen at otherRoom
    unfold b64OutputDecodeLen
    omega
  have ⟨copy, built, bytes, mark, _⟩ := gbufferDeserialize_serialized room decodeRoom
  exact ⟨copy, built, bytes, mark⟩

end RoundTrip

end Yunetas.Gobj
