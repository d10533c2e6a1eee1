import Mathlib.Data.List.Basic
import Mathlib.Data.List.Induction
import Mathlib.Algebra.Order.Group.Nat

/-!
# Numerals and records of fixed width

A number below `256 ^ width` is stored in `width` bytes, most significant first, and read back.
A file of records is a list cut into pieces of one width: what is written record by record is
read back record by record, whatever bytes follow that do not fill another one.
-/

namespace Yunetas

open List

/-! ## Big-endian numerals -/

/-- A number in big endian, its excess over the width dropped. -/
def toBigEndian : Nat → Nat → List UInt8
  | 0, _ => []
  | width + 1, number => toBigEndian width (number / 256) ++ [UInt8.ofNat number]

/-- The number that bytes in big endian stand for. -/
def ofBigEndian (bytes : List UInt8) : Nat :=
  bytes.foldl (fun number byte => number * 256 + byte.toNat) 0

@[simp] theorem length_toBigEndian (width number : Nat) :
    (toBigEndian width number).length = width := by
  induction width generalizing number with
  | zero => rfl
  | succ width ih => rw [toBigEndian, length_append, ih, length_singleton]

theorem ofBigEndian_concat (bytes : List UInt8) (byte : UInt8) :
    ofBigEndian (bytes ++ [byte]) = ofBigEndian bytes * 256 + byte.toNat := by
  unfold ofBigEndian
  rw [foldl_append]
  rfl

theorem ofBigEndian_toBigEndian_mod (width number : Nat) :
    ofBigEndian (toBigEndian width number) = number % 256 ^ width := by
  induction width generalizing number with
  | zero =>
    rw [Nat.pow_zero, Nat.mod_one]
    rfl
  | succ width ih =>
    have units : (UInt8.ofNat number).toNat = number % 256 := UInt8.toNat_ofNat'
    rw [toBigEndian, ofBigEndian_concat, ih, units, Nat.pow_succ, Nat.mul_comm (256 ^ width),
      Nat.mod_mul, Nat.mul_comm, Nat.add_comm]

theorem ofBigEndian_toBigEndian {width number : Nat} (fits : number < 256 ^ width) :
    ofBigEndian (toBigEndian width number) = number := by
  rw [ofBigEndian_toBigEndian_mod, Nat.mod_eq_of_lt fits]

theorem ofBigEndian_lt (bytes : List UInt8) : ofBigEndian bytes < 256 ^ bytes.length := by
  induction bytes using List.reverseRecOn with
  | nil => decide
  | append_singleton bytes byte ih =>
    have bound := byte.toNat_lt
    rw [ofBigEndian_concat, length_append, length_singleton, Nat.pow_succ]
    omega

theorem toBigEndian_ofBigEndian (bytes : List UInt8) :
    toBigEndian bytes.length (ofBigEndian bytes) = bytes := by
  induction bytes using List.reverseRecOn with
  | nil => rfl
  | append_singleton bytes byte ih =>
    have bound := byte.toNat_lt
    have high : (ofBigEndian bytes * 256 + byte.toNat) / 256 = ofBigEndian bytes := by omega
    have low : UInt8.ofNat (ofBigEndian bytes * 256 + byte.toNat) = byte := by
      apply UInt8.toNat_inj.1
      rw [UInt8.toNat_ofNat']
      omega
    rw [length_append, length_singleton, toBigEndian, ofBigEndian_concat, high, low, ih]

/-! ## Records of fixed width -/

section

variable {α β : Type}

/-- The pieces of a width a list starts with; what does not fill one is left out. -/
def chunks (width : Nat) (list : List α) : List (List α) :=
  (List.range (list.length / width)).map fun index => (list.drop (index * width)).take width

theorem chunks_append {width : Nat} (wide : 0 < width) {first : List α}
    (whole : first.length = width) (rest : List α) :
    chunks width (first ++ rest) = first :: chunks width rest := by
  have count : (first ++ rest).length / width = rest.length / width + 1 := by
    rw [length_append, whole, Nat.add_comm, Nat.add_div_right _ wide]
  have head : ((first ++ rest).drop (0 * width)).take width = first := by
    rw [Nat.zero_mul, drop_zero, ← whole, take_left]
  have tail : ∀ index, (first ++ rest).drop ((index + 1) * width) = rest.drop (index * width) := by
    intro index
    rw [Nat.succ_mul, Nat.add_comm, ← whole, ← drop_drop, drop_left]
  rw [chunks, count, range_succ_eq_map, map_cons, head, map_map, chunks]
  exact congrArg _ (map_congr_left fun index _ => by rw [Function.comp_apply, tail])

theorem decode_chunks {width : Nat} (wide : 0 < width) {encode : β → List α} {decode : List α → β}
    {records : List β} (sized : ∀ record ∈ records, (encode record).length = width)
    (lawful : ∀ record ∈ records, decode (encode record) = record) (rest : List α) :
    (chunks width (records.flatMap encode ++ rest)).map decode =
      records ++ (chunks width rest).map decode := by
  induction records with
  | nil => rfl
  | cons record records ih =>
    have here := sized record mem_cons_self
    have later := ih (fun other among => sized other (mem_cons_of_mem record among))
      fun other among => lawful other (mem_cons_of_mem record among)
    rw [flatMap_cons, append_assoc, chunks_append wide here, map_cons, later,
      lawful record mem_cons_self]
    rfl

theorem length_records {width : Nat} {encode : β → List α} {records : List β}
    (sized : ∀ record ∈ records, (encode record).length = width) :
    (records.flatMap encode).length = width * records.length := by
  rw [length_flatMap, map_congr_left sized, map_const', sum_replicate_nat, Nat.mul_comm]

end

end Yunetas
