import Mathlib.Data.Nat.Basic
import Mathlib.Tactic.Ring

/-!
# Numbers of seven bits a byte

A number is written with its lowest seven bits first; the highest bit of a byte tells that another one
follows. As many bytes are written as a caller allows.
-/

namespace Yunetas

/-- Another byte follows. -/
def continues (byte : UInt8) : Bool := byte &&& 0x80 ≠ 0

/-- The seven bits of a byte. -/
def sevenBits (byte : UInt8) : Nat := (byte &&& 0x7F).toNat

/-- The bytes of a number, at most `count` of them. -/
def varint : Nat → Nat → List UInt8
  | 0, _ => []
  | count + 1, number =>
    if number < 128 then [UInt8.ofNat number]
    else UInt8.ofNat (number % 128 + 128) :: varint count (number / 128)

/-- The number of some bytes. -/
def varintValue : List UInt8 → Nat
  | [] => 0
  | byte :: rest => sevenBits byte + 128 * varintValue rest

open Nat

theorem forall_byte {p : UInt8 → Prop} (all : ∀ bits : BitVec 8, p ⟨bits⟩) (byte : UInt8) : p byte :=
  all byte.toBitVec

theorem continues_spec : ∀ byte : UInt8, continues byte = decide (128 ≤ byte.toNat) :=
  forall_byte (by decide +kernel)

theorem sevenBits_spec : ∀ byte : UInt8, sevenBits byte = byte.toNat % 128 :=
  forall_byte (by decide +kernel)

theorem sevenBits_lt (byte : UInt8) : sevenBits byte < 128 := by
  rw [sevenBits_spec]
  omega

theorem last_byte {number : Nat} (small : number < 128) :
    continues (UInt8.ofNat number) = false ∧ sevenBits (UInt8.ofNat number) = number := by
  rw [continues_spec, sevenBits_spec, UInt8.toNat_ofNat']
  constructor
  · apply decide_eq_false
    omega
  · omega

theorem earlier_byte (number : Nat) :
    continues (UInt8.ofNat (number % 128 + 128)) = true ∧
      sevenBits (UInt8.ofNat (number % 128 + 128)) = number % 128 := by
  rw [continues_spec, sevenBits_spec, UInt8.toNat_ofNat']
  constructor
  · apply decide_eq_true
    omega
  · omega

theorem varintValue_append (front back : List UInt8) :
    varintValue (front ++ back) = varintValue front + 128 ^ front.length * varintValue back := by
  induction front with
  | nil => simp [varintValue]
  | cons byte rest ih =>
    show sevenBits byte + 128 * varintValue (rest ++ back) = _
    rw [ih]
    show _ = sevenBits byte + 128 * varintValue rest + 128 ^ (rest.length + 1) * varintValue back
    ring

theorem varint_length (count number : Nat) : (varint count number).length ≤ count := by
  induction count generalizing number with
  | zero => exact le_refl 0
  | succ count ih =>
    unfold varint
    split
    · exact succ_le_succ (zero_le count)
    · exact succ_le_succ (ih (number / 128))

theorem lt_of_varint_length {count number : Nat} (short : (varint (count + 1) number).length ≤ count) :
    number < 128 ^ count := by
  induction count generalizing number with
  | zero =>
    unfold varint at short
    split at short <;> exact absurd short (Nat.not_succ_le_zero _)
  | succ count ih =>
    have power : 128 ^ (count + 1) = 128 ^ count * 128 := pow_succ 128 count
    have positive : 0 < 128 ^ count := Nat.pow_pos (by decide)
    rw [power]
    unfold varint at short
    split at short
    · omega
    · exact (div_lt_iff_lt_mul (by decide)).1 (ih (le_of_succ_le_succ short))

theorem varint_length_of_lt {count number : Nat} (positive : 0 < count)
    (fits : number < 128 ^ count) (more : Nat) :
    varint (count + more) number = varint count number := by
  induction count generalizing number with
  | zero => exact absurd positive (by decide)
  | succ count ih =>
    rw [add_right_comm]
    unfold varint
    split
    · rfl
    · have shorter : number / 128 < 128 ^ count := by
        rw [div_lt_iff_lt_mul (by decide)]
        rwa [pow_succ] at fits
      have some_left : 0 < count := by
        by_contra none
        rw [Nat.eq_zero_of_not_pos none] at shorter
        omega
      rw [ih some_left shorter]

theorem varintValue_varint {count number : Nat} (fits : number < 128 ^ count) :
    varintValue (varint count number) = number := by
  induction count generalizing number with
  | zero =>
    show 0 = number
    omega
  | succ count ih =>
    unfold varint
    split
    · rename_i small
      show sevenBits (UInt8.ofNat number) + 128 * 0 = number
      rw [(last_byte small).2]
      omega
    · have shorter : number / 128 < 128 ^ count := by
        rw [div_lt_iff_lt_mul (by decide)]
        rwa [pow_succ] at fits
      show sevenBits (UInt8.ofNat (number % 128 + 128)) + 128 * varintValue (varint count _) = number
      rw [(earlier_byte number).2, ih shorter]
      omega

end Yunetas
