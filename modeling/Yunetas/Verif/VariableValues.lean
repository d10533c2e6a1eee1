import Mathlib.Tactic.Ring
import Yunetas.Modbus.Variables

/-!
# The values of variables

The integer of a variable is the number its registers spell in the order of the endian format. The
value is exactly its product with the multiplier in the 32 and 64 bit formats, unless the multiplier
of an unsigned one is negative; the 16 bit formats cut the product to 16 bits. The formats with a
byte swap arrange the bytes of a single register, and of strings, otherwise than those of an integer
of several registers.
-/

namespace Yunetas.Modbus

open List Int

/-- How an endian format orders bytes: inside each register, and the registers. -/
structure Arrangement where
  swapped : Bool
  reversed : Bool

/-- The bytes of a register in order. -/
def Arrangement.inside (arrangement : Arrangement) (word : UInt8 × UInt8) : List UInt8 :=
  if arrangement.swapped then [word.2, word.1] else [word.1, word.2]

/-- The bytes of registers in order, the highest first. -/
def Arrangement.arrange (arrangement : Arrangement) (words : List (UInt8 × UInt8)) : List UInt8 :=
  (if arrangement.reversed then words.reverse else words).flatMap arrangement.inside

/-- The arrangement of a format, as the integers of several registers have it. -/
def arrangementOf : EndianFormat → Arrangement
  | .bigEndian => ⟨false, false⟩
  | .littleEndian => ⟨true, true⟩
  | .bigEndianByteSwap => ⟨true, false⟩
  | .littleEndianByteSwap => ⟨false, true⟩

/-- The bytes of registers as the wire has them. -/
def wireBytes (words : List (UInt8 × UInt8)) : List UInt8 := words.flatMap fun word => [word.1, word.2]

/-- The registers of an integer format, and whether it has a sign. -/
def integerFormat : VariableFormat → Option (Nat × Bool)
  | .int16 => some (1, true)
  | .uint16 => some (1, false)
  | .int32 => some (2, true)
  | .uint32 => some (2, false)
  | .int64 => some (4, true)
  | .uint64 => some (4, false)
  | .bool | .float | .double | .string => none

/-- A number of some bits as an integer with or without a sign. -/
def signedOf (signed : Bool) (bits number : Nat) : Int :=
  if signed then Int.bmod number (2 ^ bits) else number

/-- The integer whose bytes are the registers in the order of the format. -/
def integerOf (signed : Bool) (endian : EndianFormat) (words : List (UInt8 × UInt8)) : Int :=
  signedOf signed (16 * words.length) (ofBigEndian ((arrangementOf endian).arrange words))

/-- The cells from an address on hold these registers. -/
def HoldsWords (cells : Cells) (type : ObjectType) : Nat → List (UInt8 × UInt8) → Prop
  | _, [] => True
  | address, word :: rest =>
    (∃ cell, cells type address = some cell ∧ cell.register type = some word) ∧
      HoldsWords cells type (address + 1) rest

/-- The format orders bytes one way for every width, and the bytes inside the registers of a string
too. -/
def Uniform (endian : EndianFormat) : Prop :=
  ∃ arrangement : Arrangement,
    (∀ a, endian16 endian (wireBytes [a]) = ofBigEndian (arrangement.arrange [a])) ∧
    (∀ a b, endian32 endian (wireBytes [a, b]) = ofBigEndian (arrangement.arrange [a, b])) ∧
    (∀ a b c d, endian64 endian (wireBytes [a, b, c, d]) =
      ofBigEndian (arrangement.arrange [a, b, c, d])) ∧
    ∀ words, ∃ order : List (UInt8 × UInt8), order.Perm words ∧
      stringBytes endian (wireBytes words) = order.flatMap arrangement.inside

/-- Where the value is the product: zero is not taken for one, a product of 16 bits fits its format
and its bytes are not left unswapped, and no negative multiplier is cast to an unsigned type. -/
def Multiplied (signed : Bool) (endian : EndianFormat) (words : List (UInt8 × UInt8))
    (multiplier : Int) : Prop :=
  (multiplier = 0 → integerOf signed endian words = 0) ∧
  if words.length = 1 then
    ((endian = .bigEndian ∨ endian = .littleEndian) ∨ ∀ word ∈ words, word.1 = word.2) ∧
      (if signed then -2 ^ 15 else 0) ≤ multiplier * integerOf signed endian words ∧
      multiplier * integerOf signed endian words < if signed then 2 ^ 15 else 2 ^ 16
  else signed = true ∨ 0 ≤ multiplier

/-! ## The order of the bytes -/

section

variable (endian : EndianFormat)
include endian

theorem endian32_arranged (a b : UInt8 × UInt8) :
    endian32 endian (wireBytes [a, b]) = ofBigEndian ((arrangementOf endian).arrange [a, b]) := by
  cases endian <;>
    · simp [endian32, wireBytes, byteAt, ofBigEndian, arrangementOf, Arrangement.arrange,
        Arrangement.inside]
      ring

theorem endian64_arranged (a b c d : UInt8 × UInt8) :
    endian64 endian (wireBytes [a, b, c, d]) =
      ofBigEndian ((arrangementOf endian).arrange [a, b, c, d]) := by
  cases endian <;>
    · simp [endian64, wireBytes, byteAt, ofBigEndian, arrangementOf, Arrangement.arrange,
        Arrangement.inside]
      ring

/-- A single register is never swapped by the format that swaps, and always by the one that only
turns the registers round. -/
theorem endian16_eq (a : UInt8 × UInt8) :
    endian16 endian (wireBytes [a]) =
      match endian with
      | .bigEndian | .bigEndianByteSwap => a.1.toNat * 256 + a.2.toNat
      | .littleEndian | .littleEndianByteSwap => a.2.toNat * 256 + a.1.toNat := by
  cases endian <;> simp [endian16, wireBytes, byteAt] <;> ring

theorem arranged_one (a : UInt8 × UInt8) :
    ofBigEndian ((arrangementOf endian).arrange [a]) =
      match endian with
      | .bigEndian | .littleEndianByteSwap => a.1.toNat * 256 + a.2.toNat
      | .littleEndian | .bigEndianByteSwap => a.2.toNat * 256 + a.1.toNat := by
  cases endian <;> simp [ofBigEndian, arrangementOf, Arrangement.arrange, Arrangement.inside]

theorem swapInside_wire (words : List (UInt8 × UInt8)) :
    swapInside endian (wireBytes words) =
      match endian with
      | .bigEndian | .bigEndianByteSwap => wireBytes words
      | .littleEndian | .littleEndianByteSwap => words.flatMap fun word => [word.2, word.1] := by
  induction words with
  | nil => cases endian <;> rfl
  | cons word rest ih =>
    cases endian <;>
      · simp only [wireBytes, flatMap_cons, cons_append, nil_append] at ih ⊢
        rw [swapInside, ih]

theorem uniform_iff : Uniform endian ↔ endian = .bigEndian ∨ endian = .littleEndian := by
  constructor
  · intro ⟨arrangement, one, two, _⟩
    have single := one (1, 0)
    have double := two (1, 0) (0, 0)
    revert single double
    match endian, arrangement with
    | .bigEndian, _ => simp
    | .littleEndian, _ => simp
    | .bigEndianByteSwap, ⟨false, false⟩ => decide
    | .bigEndianByteSwap, ⟨false, true⟩ => decide
    | .bigEndianByteSwap, ⟨true, false⟩ => decide
    | .bigEndianByteSwap, ⟨true, true⟩ => decide
    | .littleEndianByteSwap, ⟨false, false⟩ => decide
    | .littleEndianByteSwap, ⟨false, true⟩ => decide
    | .littleEndianByteSwap, ⟨true, false⟩ => decide
    | .littleEndianByteSwap, ⟨true, true⟩ => decide
  · intro plain
    refine ⟨arrangementOf endian, fun a => ?_, endian32_arranged endian, endian64_arranged endian,
      fun words => ⟨words, List.Perm.refl words, ?_⟩⟩
    · rw [endian16_eq, arranged_one]
      rcases plain with rfl | rfl <;> rfl
    · rcases plain with rfl | rfl <;>
        · rw [stringBytes, swapInside_wire]
          rfl

end

/-! ## The products -/

theorem log2_le {magnitude : Nat} (large : 2 ^ 24 ≤ magnitude) : 24 ≤ magnitude.log2 :=
  (Nat.le_log2 (by omega)).2 large

/-- Rounding to a `float` keeps numbers below `2 ^ 24` and brings no other one below it. -/
theorem roundFloat_range (value : Int) :
    (value.natAbs < 2 ^ 24 → roundFloat value = value) ∧
      (2 ^ 24 ≤ value → 2 ^ 24 ≤ roundFloat value) ∧
      (value ≤ -2 ^ 24 → roundFloat value ≤ -2 ^ 24) := by
  have large (far : 2 ^ 24 ≤ value.natAbs) :
      ∃ magnitude : Nat, 2 ^ 24 ≤ magnitude ∧ roundFloat value = value.sign * magnitude := by
    have bound := log2_le far
    have top := Nat.log2_self_le (n := value.natAbs) (by omega)
    have shift : 2 ^ 23 * 2 ^ (value.natAbs.log2 - 23) = 2 ^ value.natAbs.log2 := by
      rw [← Nat.pow_add]
      congr 1
      omega
    have low : 2 ^ 23 ≤ value.natAbs / 2 ^ (value.natAbs.log2 - 23) :=
      (Nat.le_div_iff_mul_le (Nat.two_pow_pos _)).2 (by omega)
    have wide : 2 ^ 24 ≤ 2 ^ value.natAbs.log2 := Nat.pow_le_pow_right (by decide) bound
    unfold roundFloat
    rw [if_neg (by omega)]
    refine ⟨_, ?_, rfl⟩
    refine wide.trans (shift ▸ Nat.mul_le_mul_right _ ?_)
    split <;> omega
  refine ⟨fun small => if_pos small, fun above => ?_, fun below => ?_⟩
  · have ⟨magnitude, far, same⟩ := large (by omega)
    rw [same, sign_eq_one_of_pos (by omega)]
    omega
  · have ⟨magnitude, far, same⟩ := large (by omega)
    rw [same, sign_eq_neg_one_of_neg (by omega)]
    omega

/-- The multiplier that is used: one in place of zero. -/
def usedMultiplier (multiplier : Int) : Int := if multiplier = 0 then 1 else multiplier

theorem times16_iff {low high read integer multiplier : Int} (narrow : -2 ^ 24 < low ∧ high < 2 ^ 24)
    (zero : low ≤ 0 ∧ 0 ≤ high) (inside : low ≤ read ∧ read ≤ high)
    (same_zero : read = 0 ↔ integer = 0) :
    times16 low high read (usedMultiplier multiplier) = .value (.integer (multiplier * integer)) ↔
      (multiplier = 0 → integer = 0) ∧ (multiplier = 0 ∨ read = integer) ∧
        low ≤ multiplier * integer ∧ multiplier * integer ≤ high := by
  have ⟨exact, above, below⟩ := roundFloat_range (read * usedMultiplier multiplier)
  have result : times16 low high read (usedMultiplier multiplier) =
      if low ≤ read * usedMultiplier multiplier ∧ read * usedMultiplier multiplier ≤ high then
        .value (.integer (read * usedMultiplier multiplier)) else .undefined := by
    unfold times16
    by_cases small : (read * usedMultiplier multiplier).natAbs < 2 ^ 24
    · rw [exact small]
    · rw [if_neg (by omega), if_neg (by omega)]
  rw [result]
  unfold usedMultiplier
  by_cases none : multiplier = 0
  · rw [if_pos none, none, mul_one, zero_mul, if_pos inside]
    simp [zero, same_zero]
  · rw [if_neg none]
    by_cases same : read = integer
    · rw [same, mul_comm]
      split <;> simp_all
    · have differs : read * multiplier ≠ multiplier * integer := by
        rw [mul_comm]
        exact fun products => same (Int.eq_of_mul_eq_mul_left none products)
      split <;> simp [none, same, differs]

theorem timesSigned_iff {integer multiplier : Int} (inside : -2 ^ 63 ≤ integer ∧ integer < 2 ^ 63)
    (fits : -2 ^ 63 ≤ multiplier * integer ∧ multiplier * integer < 2 ^ 63) :
    timesSigned integer (usedMultiplier multiplier) = .value (.integer (multiplier * integer)) ↔
      (multiplier = 0 → integer = 0) := by
  unfold timesSigned usedMultiplier
  by_cases none : multiplier = 0
  · rw [if_pos none, none, mul_one, zero_mul, if_pos inside]
    simp
  · rw [if_neg none, mul_comm, if_pos fits]
    simp [none]

theorem timesUnsigned_iff {integer multiplier : Int} (inside : 0 ≤ integer ∧ integer < 2 ^ 64)
    (fits : -2 ^ 63 ≤ multiplier * integer ∧ multiplier * integer < 2 ^ 63) :
    timesUnsigned integer (usedMultiplier multiplier) = .value (.integer (multiplier * integer)) ↔
      (multiplier = 0 → integer = 0) ∧ 0 ≤ multiplier := by
  unfold timesUnsigned usedMultiplier
  by_cases none : multiplier = 0
  · have zero : integer.bmod (2 ^ 64) = 0 ↔ integer = 0 := by
      rw [bmod_def]
      split <;> omega
    rw [if_pos none, none, mul_one, zero_mul, if_neg (by decide)]
    simpa using zero
  · rw [if_neg none, mul_comm]
    by_cases negative : multiplier < 0
    · simp [negative]
    · have kept : (multiplier * integer).bmod (2 ^ 64) = multiplier * integer :=
        bmod_eq_of_le_mul_two (by omega) (by omega)
      rw [if_neg negative, kept]
      simp [none]
      omega

/-! ## The values -/

variable {cells : Cells} {type : ObjectType} {address : Nat} {words : List (UInt8 × UInt8)}

theorem collectRegisterBytes_holds (holds : HoldsWords cells type address words) :
    collectRegisterBytes cells type address words.length = some (wireBytes words) := by
  induction words generalizing address with
  | nil => rfl
  | cons word rest ih =>
    have ⟨⟨cell, there, register⟩, others⟩ := holds
    rw [length_cons, collectRegisterBytes, there, Option.bind_some, register]
    rw [ih others]
    rfl

/-- The reading of an integer format, by its registers. -/
def integerReading (signed : Bool) (endian : EndianFormat) (words : List (UInt8 × UInt8))
    (multiplier : Int) : Reading :=
  match words with
  | [a] => times16 (if signed then -2 ^ 15 else 0) (if signed then 2 ^ 15 - 1 else 2 ^ 16 - 1)
      (signedOf signed 16 (endian16 endian (wireBytes [a]))) multiplier
  | words =>
    if signed then timesSigned (integerOf signed endian words) multiplier
    else timesUnsigned (integerOf signed endian words) multiplier

theorem getVariableValue_integer (floatTimes doubleTimes : Nat → Int → UInt64)
    {variable_ : Variable} {signed : Bool}
    (format : integerFormat variable_.format = some (words.length, signed))
    (holds : HoldsWords cells variable_.type variable_.address words) :
    getVariableValue floatTimes doubleTimes cells variable_ =
      integerReading signed variable_.endian words
        (usedMultiplier (roundFloat variable_.multiplier)) := by
  have collected := collectRegisterBytes_holds holds
  have first (word : UInt8 × UInt8) (rest : List (UInt8 × UInt8)) (same : words = word :: rest) :
      ∃ cell, cells variable_.type variable_.address = some cell ∧
        cell.register variable_.type = some word := by
    rw [same] at holds
    exact holds.1
  unfold getVariableValue
  match words, format with
  | [a], format =>
    have ⟨cell, there, register⟩ := first a [] rfl
    cases form : variable_.format <;> simp [form, integerFormat] at format <;>
      · subst format
        simp [there, register, integerReading, signedOf, usedMultiplier, wireBytes]
  | [a, b], format =>
    have ⟨cell, there, _⟩ := first a [b] rfl
    have pair : collectRegisterBytes cells variable_.type variable_.address 2 = _ := collected
    cases form : variable_.format <;> simp [form, integerFormat] at format <;>
      · subst format
        simp [there, pair, endian32_arranged, integerReading, integerOf, signedOf, usedMultiplier]
  | [a, b, c, d], format =>
    have ⟨cell, there, _⟩ := first a [b, c, d] rfl
    have four : collectRegisterBytes cells variable_.type variable_.address 4 = _ := collected
    cases form : variable_.format <;> simp [form, integerFormat] at format <;>
      · subst format
        simp [there, four, endian64_arranged, integerReading, integerOf, signedOf, usedMultiplier]
  | [], format => cases form : variable_.format <;> simp [form, integerFormat] at format
  | [_, _, _], format => cases form : variable_.format <;> simp [form, integerFormat] at format
  | _ :: _ :: _ :: _ :: _ :: _, format =>
    cases form : variable_.format <;> simp [form, integerFormat] at format

theorem signedOf_sixteen {number : Nat} (small : number < 2 ^ 16) :
    signedOf true 16 number =
      if 2 ^ 15 ≤ number then (number : Int) - 2 ^ 16 else (number : Int) := by
  unfold signedOf
  rw [if_pos rfl, bmod_def]
  split <;> split <;> omega

theorem signedOf_inj (signed : Bool) {left right : Nat} (small : left < 2 ^ 16 ∧ right < 2 ^ 16) :
    signedOf signed 16 left = signedOf signed 16 right ↔ left = right := by
  cases signed with
  | false => simp [signedOf]
  | true =>
    rw [signedOf_sixteen small.1, signedOf_sixteen small.2]
    split <;> split <;> omega

theorem signedOf_range (signed : Bool) {number : Nat} (small : number < 2 ^ 16) :
    (if signed then -2 ^ 15 else 0) ≤ signedOf signed 16 number ∧
      signedOf signed 16 number ≤ if signed then 2 ^ 15 - 1 else 2 ^ 16 - 1 := by
  cases signed with
  | false =>
    simp [signedOf]
    omega
  | true =>
    rw [signedOf_sixteen small, if_pos rfl, if_pos rfl]
    split <;> omega

/-- A register is read as the format asks when the format does not swap or the bytes are equal. -/
theorem endian16_same_iff (endian : EndianFormat) (a : UInt8 × UInt8) :
    endian16 endian (wireBytes [a]) = ofBigEndian ((arrangementOf endian).arrange [a]) ↔
      (endian = .bigEndian ∨ endian = .littleEndian) ∨ ∀ word ∈ [a], word.1 = word.2 := by
  have bytes : a.1 = a.2 ↔ a.1.toNat = a.2.toNat := UInt8.toNat_inj.symm
  rw [endian16_eq, arranged_one, forall_mem_singleton, bytes]
  cases endian <;> simp
  all_goals omega

section

variable (signed : Bool) (endian : EndianFormat)
include signed endian

theorem short_value_iff (a : UInt8 × UInt8)
    (multiplier : Int) :
    integerReading signed endian [a] (usedMultiplier multiplier) =
        .value (.integer (multiplier * integerOf signed endian [a])) ↔
      Multiplied signed endian [a] multiplier := by
  have first := a.1.toNat_lt
  have second := a.2.toNat_lt
  have read_small : endian16 endian (wireBytes [a]) < 2 ^ 16 := by
    rw [endian16_eq]
    cases endian <;> simp <;> omega
  have number_small : ofBigEndian ((arrangementOf endian).arrange [a]) < 2 ^ 16 := by
    rw [arranged_one]
    cases endian <;> simp <;> omega
  have zeros : endian16 endian (wireBytes [a]) = 0 ↔
      ofBigEndian ((arrangementOf endian).arrange [a]) = 0 := by
    rw [endian16_eq, arranged_one]
    cases endian <;> simp <;> omega
  have integer : integerOf signed endian [a] = signedOf signed 16
      (ofBigEndian ((arrangementOf endian).arrange [a])) := rfl
  have zero_iff {number : Nat} (small : number < 2 ^ 16) :
      signedOf signed 16 number = 0 ↔ number = 0 := by
    have none : signedOf signed 16 0 = 0 := by cases signed <;> rfl
    have same := signedOf_inj signed ⟨small, show 0 < 2 ^ 16 by decide⟩
    rwa [none] at same
  have injective := signedOf_inj signed ⟨read_small, number_small⟩
  rw [integerReading, times16_iff (by cases signed <;> decide) (by cases signed <;> decide)
    (signedOf_range signed read_small) (by rw [integer, zero_iff read_small, zero_iff number_small,
      zeros])]
  unfold Multiplied
  rw [if_pos (show [a].length = 1 from rfl), ← endian16_same_iff endian a, ← injective, ← integer]
  refine and_congr_right fun zero => ?_
  -- a product with zero is only read as zero from a register of zeros
  have settled : (multiplier = 0 ∨ signedOf signed 16 (endian16 endian (wireBytes [a])) =
      integerOf signed endian [a]) ↔
      signedOf signed 16 (endian16 endian (wireBytes [a])) = integerOf signed endian [a] := by
    refine or_iff_right_of_imp fun none => ?_
    have nothing := zero none
    rw [integer, zero_iff number_small] at nothing
    rw [integer, injective, nothing, zeros, nothing]
  rw [settled]
  cases signed <;> simp <;> omega

theorem integerReading_long (long : words.length ≠ 1)
    (multiplier : Int) : integerReading signed endian words multiplier =
      if signed then timesSigned (integerOf signed endian words) multiplier
      else timesUnsigned (integerOf signed endian words) multiplier := by
  match words, long with
  | [], _ => rfl
  | _ :: _ :: _, _ => rfl

theorem long_value_iff {words : List (UInt8 × UInt8)}
    (long : words.length = 2 ∨ words.length = 4) {multiplier : Int}
    (fits : -2 ^ 63 ≤ multiplier * integerOf signed endian words ∧
      multiplier * integerOf signed endian words < 2 ^ 63) :
    integerReading signed endian words (usedMultiplier multiplier) =
        .value (.integer (multiplier * integerOf signed endian words)) ↔
      Multiplied signed endian words multiplier := by
  have arranged : ((arrangementOf endian).arrange words).length = 2 * words.length := by
    have one (word : UInt8 × UInt8) : ((arrangementOf endian).inside word).length = 2 := by
      unfold Arrangement.inside
      split <;> rfl
    unfold Arrangement.arrange
    split <;> simp [length_flatMap, one, Nat.mul_comm]
  have bound : ofBigEndian ((arrangementOf endian).arrange words) < 2 ^ 64 := by
    have small := ofBigEndian_lt ((arrangementOf endian).arrange words)
    rw [arranged] at small
    rcases long with two | four
    · rw [two] at small
      omega
    · rw [four] at small
      omega
  have single : words.length ≠ 1 := by omega
  unfold Multiplied
  rw [integerReading_long signed endian single, if_neg single]
  cases signed with
  | false =>
    have inside : 0 ≤ integerOf false endian words ∧ integerOf false endian words < 2 ^ 64 := by
      unfold integerOf signedOf
      rw [if_neg (by decide)]
      omega
    rw [if_neg (by decide), timesUnsigned_iff inside fits]
    simp
  | true =>
    have inside : -2 ^ 63 ≤ integerOf true endian words ∧ integerOf true endian words < 2 ^ 63 := by
      have low := @le_bmod (ofBigEndian ((arrangementOf endian).arrange words))
        (2 ^ (16 * words.length)) (Nat.two_pow_pos _)
      have high := @bmod_lt (ofBigEndian ((arrangementOf endian).arrange words))
        (2 ^ (16 * words.length)) (Nat.two_pow_pos _)
      unfold integerOf signedOf
      rw [if_pos rfl]
      generalize ofBigEndian ((arrangementOf endian).arrange words) = number at low high
      rcases long with two | four
      · rw [two] at low high ⊢
        norm_num at low high ⊢
        omega
      · rw [four] at low high ⊢
        norm_num at low high ⊢
        omega
    rw [if_pos rfl, timesSigned_iff inside fits]
    simp

end

/-- The value of an integer variable is the exact product, where that fits a json integer, under
exactly one condition; and the formats that order bytes one way in every width and in strings are
those without a byte swap. -/
theorem variable_values_iff (floatTimes doubleTimes : Nat → Int → UInt64) (cells : Cells)
    (variable_ : Variable) (signed : Bool) (words : List (UInt8 × UInt8)) :
    (integerFormat variable_.format = some (words.length, signed) →
      HoldsWords cells variable_.type variable_.address words →
      variable_.multiplier.natAbs < 2 ^ 24 →
      (-2 ^ 63 ≤ variable_.multiplier * integerOf signed variable_.endian words ∧
        variable_.multiplier * integerOf signed variable_.endian words < 2 ^ 63) →
      (getVariableValue floatTimes doubleTimes cells variable_ =
          .value (.integer (variable_.multiplier * integerOf signed variable_.endian words)) ↔
        Multiplied signed variable_.endian words variable_.multiplier)) ∧
    ∀ endian, Uniform endian ↔ endian = .bigEndian ∨ endian = .littleEndian := by
  refine ⟨fun format holds whole fits => ?_, uniform_iff⟩
  have exact := (roundFloat_range variable_.multiplier).1 whole
  rw [getVariableValue_integer floatTimes doubleTimes format holds, exact]
  have sizes : words.length = 1 ∨ words.length = 2 ∨ words.length = 4 := by
    cases form : variable_.format <;> simp [form, integerFormat] at format <;> omega
  rcases sizes with one | long
  · have ⟨a, alone⟩ := List.length_eq_one_iff.1 one
    subst alone
    exact short_value_iff signed variable_.endian a variable_.multiplier
  · exact long_value_iff signed variable_.endian long fits

/-- A holding register. -/
def oneRegister (word : UInt8 × UInt8) : Cells := fun type address =>
  if type = .holdingRegister ∧ address = 0 then some { holdingRegister := word } else none

/-- 20000 in a register, three times. -/
def tripled (format : VariableFormat) : Variable :=
  ⟨.holdingRegister, 0, format, .bigEndian, 3, -1⟩

theorem variable_values_small :
    getVariableValue (fun _ _ => 0) (fun _ _ => 0) (oneRegister (0x03, 0xE8)) (tripled .int16) =
      .value (.integer (3 * integerOf true .bigEndian [(0x03, 0xE8)])) :=
  ((variable_values_iff _ _ _ (tripled .int16) true [(0x03, 0xE8)]).1 rfl ⟨⟨_, rfl, rfl⟩, trivial⟩
    (by decide) (by decide)).2 ⟨by decide, .inl (.inl rfl), by decide, by decide⟩

/-- The product does not fit the 16 bits of the format, though it fits a json integer; and a format
with a byte swap leaves a single register as it is. -/
theorem int16_product_lost :
    getVariableValue (fun _ _ => 0) (fun _ _ => 0) (oneRegister (0x4E, 0x20)) (tripled .int16) ≠
        .value (.integer (3 * integerOf true .bigEndian [(0x4E, 0x20)])) ∧
      ¬Uniform .bigEndianByteSwap := by
  refine ⟨fun same => ?_, (uniform_iff _).not.2 (by decide)⟩
  have format : integerFormat (tripled .int16).format = some ([((0x4E, 0x20) : UInt8 × UInt8)].length,
    true) := rfl
  have holds : HoldsWords (oneRegister (0x4E, 0x20)) (tripled .int16).type (tripled .int16).address
      [(0x4E, 0x20)] := ⟨⟨_, rfl, rfl⟩, trivial⟩
  rw [getVariableValue_integer _ _ format holds] at same
  have product := ((short_value_iff true .bigEndian (0x4E, 0x20) 3).1 same).2
  exact absurd product.2.2 (by decide)

end Yunetas.Modbus
