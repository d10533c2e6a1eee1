import Mathlib.Data.Nat.Bitwise

/-!
# The md2 row

A row of a `.md2` file is four 64-bit words. The two times share their words with flags: the
low 44 bits of `__t__` are the time the record was stored and bits 44 to 59 its `user_flag`;
the low 44 bits of `__tm__` are the time of the message and bits 44 to 59 its `system_flag`.
Every reader goes through the accessors below, so what the rest of the model needs to know
of the layout is that the setters change the flag they name and nothing else. The payload
locator is kept as natural numbers: a file offset never reaches `2^63`.
-/

namespace Yunetas.Timeranger2

/-! ## Flags of `system_flag2_t` -/

/-- `sf_string_key`. -/
def sfStringKey : UInt16 := 0x0001
/-- `sf_rowid_key`. -/
def sfRowidKey : UInt16 := 0x0002
/-- `sf_int_key`. -/
def sfIntKey : UInt16 := 0x0004
/-- `sf_t_ms`: the record time is in milliseconds. -/
def sfTMs : UInt16 := 0x0100
/-- `sf_tm_ms`: the message time is in milliseconds. -/
def sfTmMs : UInt16 := 0x0200
/-- `sf_deleted_instance`: the tombstone of one row. -/
def sfDeletedInstance : UInt16 := 0x0400
/-- `sf_immutable_record`: the row cannot be deleted. -/
def sfImmutableRecord : UInt16 := 0x0800
/-- `sf_loading_from_disk`: the row is being delivered by a load. -/
def sfLoadingFromDisk : UInt16 := 0x1000
/-- `KEY_TYPE_MASK2`. -/
def keyTypeMask2 : UInt16 := 0x000F
/-- `NOT_INHERITED_MASK`: the bits of the topic that its rows do not take. -/
def notInheritedMask : UInt16 := 0xF000

/-! ## Rows -/

/-- `md2_record_t`: one row of the file, already in host order. -/
structure Md2Record where
  /-- `__t__`: time of storage and, above it, the user flag. -/
  t : UInt64
  /-- `__tm__`: time of the message and, above it, the system flag. -/
  tm : UInt64
  /-- `__offset__` of the payload in the `.json` file. -/
  offset : Nat
  /-- `__size__` of the payload, its final null included. -/
  size : Nat
deriving DecidableEq, Repr

/-- `TIME_FLAG_MASK`. -/
def timeFlagMask : UInt64 := 0x00000FFFFFFFFFFF
/-- `USER_FLAG_MASK`. -/
def userFlagMask : UInt64 := 0x0FFFF00000000000

/-- The time part of a word. -/
def wordTime (word : UInt64) : UInt64 := word &&& timeFlagMask

/-- The flag part of a word. -/
def wordFlag (word : UInt64) : UInt16 := ((word &&& userFlagMask) >>> 44).toUInt16

/-- Replace the flag part of a word. -/
def setWordFlag (word : UInt64) (flag : UInt16) : UInt64 :=
  (word &&& ~~~userFlagMask) ||| (flag.toUInt64 <<< 44)

namespace Md2Record

/-- `get_time_t`. -/
def getTimeT (row : Md2Record) : UInt64 := wordTime row.t
/-- `get_time_tm`. -/
def getTimeTm (row : Md2Record) : UInt64 := wordTime row.tm
/-- `get_user_flag`. -/
def getUserFlag (row : Md2Record) : UInt16 := wordFlag row.t
/-- `get_system_flag`. -/
def getSystemFlag (row : Md2Record) : UInt16 := wordFlag row.tm
/-- `set_user_flag`. -/
def setUserFlag (row : Md2Record) (flag : UInt16) : Md2Record :=
  { row with t := setWordFlag row.t flag }
/-- `set_system_flag`. -/
def setSystemFlag (row : Md2Record) (flag : UInt16) : Md2Record :=
  { row with tm := setWordFlag row.tm flag }

end Md2Record

theorem timeFlagMask_bit (i : Nat) : timeFlagMask.toNat.testBit i = decide (i < 44) := by
  have : timeFlagMask.toNat = 2 ^ 44 - 1 := by decide
  rw [this, Nat.testBit_two_pow_sub_one]

theorem userFlagMask_bit (i : Nat) :
    userFlagMask.toNat.testBit i = (decide (44 ≤ i) && decide (i < 60)) := by
  have : userFlagMask.toNat = (2 ^ 16 - 1) <<< 44 := by decide
  rw [this, Nat.testBit_shiftLeft, Nat.testBit_two_pow_sub_one]
  by_cases low : 44 ≤ i
  · simp only [ge_iff_le, low, decide_true, Bool.true_and, decide_eq_decide]
    omega
  · simp [low]

theorem word_ext {left right : UInt64}
    (bits : ∀ i, i < 64 → left.toNat.testBit i = right.toNat.testBit i) : left = right := by
  apply UInt64.toNat_inj.1
  apply Nat.eq_of_testBit_eq
  intro i
  by_cases inside : i < 64
  · exact bits i inside
  · have big : 2 ^ 64 ≤ 2 ^ i := Nat.pow_le_pow_right (by decide) (by omega)
    rw [Nat.testBit_lt_two_pow (lt_of_lt_of_le left.toNat_lt big),
      Nat.testBit_lt_two_pow (lt_of_lt_of_le right.toNat_lt big)]

variable (word : UInt64)

theorem wordTime_lt : (wordTime word).toNat < 2 ^ 44 := by
  have : (wordTime word).toNat = word.toNat &&& (2 ^ 44 - 1) := by
    rfl
  rw [this, Nat.and_two_pow_sub_one_eq_mod]
  exact Nat.mod_lt _ (by decide)

theorem wordTime_of_lt {word : UInt64} (small : word.toNat < 2 ^ 44) : wordTime word = word := by
  apply UInt64.toNat_inj.1
  have : (wordTime word).toNat = word.toNat &&& (2 ^ 44 - 1) := by
    rfl
  rw [this, Nat.and_two_pow_sub_one_eq_mod, Nat.mod_eq_of_lt small]

theorem setWordFlag_bit (flag : UInt16) {i : Nat} (inside : i < 64) :
    (setWordFlag word flag).toNat.testBit i =
      if 44 ≤ i ∧ i < 60 then flag.toNat.testBit (i - 44) else word.toNat.testBit i := by
  have complement : (~~~userFlagMask).toNat = 2 ^ 64 - (userFlagMask.toNat + 1) := by decide
  have flagShift : (flag.toUInt64 <<< 44).toNat = flag.toNat <<< 44 := by
    have amount : (44 : UInt64).toNat % 64 = 44 := by decide
    have fits : flag.toNat * 2 ^ 44 < 2 ^ 64 := by
      calc flag.toNat * 2 ^ 44 < 2 ^ 16 * 2 ^ 44 :=
          Nat.mul_lt_mul_of_pos_right flag.toNat_lt (by decide)
        _ ≤ 2 ^ 64 := by decide
    rw [UInt64.toNat_shiftLeft, UInt16.toNat_toUInt64, amount, Nat.shiftLeft_eq,
      Nat.mod_eq_of_lt fits]
  have flagHigh : 16 ≤ i - 44 → flag.toNat.testBit (i - 44) = false := by
    intro high
    exact Nat.testBit_lt_two_pow
      (lt_of_lt_of_le flag.toNat_lt (Nat.pow_le_pow_right (by decide) high))
  rw [setWordFlag, UInt64.toNat_or, UInt64.toNat_and, Nat.testBit_or, Nat.testBit_and, complement,
    Nat.testBit_two_pow_sub_succ userFlagMask.toNat_lt, userFlagMask_bit, flagShift,
    Nat.testBit_shiftLeft]
  by_cases low : 44 ≤ i
  · by_cases high : i < 60
    · simp [low, high]
    · simp [low, high, inside, flagHigh (by omega)]
  · simp [low, inside]

theorem wordTime_bit (i : Nat) :
    (wordTime word).toNat.testBit i = (word.toNat.testBit i && decide (i < 44)) := by
  rw [wordTime, UInt64.toNat_and, Nat.testBit_and, timeFlagMask_bit]

theorem wordFlag_bit (i : Nat) :
    (wordFlag word).toNat.testBit i = (word.toNat.testBit (i + 44) && decide (i < 16)) := by
  rw [wordFlag, UInt64.toNat_toUInt16, UInt64.toNat_shiftRight, UInt64.toNat_and,
    Nat.testBit_mod_two_pow]
  change (decide (i < 16) && ((word.toNat &&& userFlagMask.toNat) >>> 44).testBit i) = _
  rw [Nat.testBit_shiftRight, Nat.testBit_and, userFlagMask_bit, Nat.add_comm 44 i]
  by_cases low : i < 16
  · simp [low, show i + 44 < 60 by omega]
  · simp [low]

@[simp] theorem wordTime_setWordFlag (flag : UInt16) :
    wordTime (setWordFlag word flag) = wordTime word := by
  apply word_ext
  intro i inside
  rw [wordTime_bit, wordTime_bit, setWordFlag_bit word flag inside]
  by_cases low : i < 44
  · rw [if_neg (by omega)]
  · simp [low]

@[simp] theorem wordFlag_setWordFlag (flag : UInt16) :
    wordFlag (setWordFlag word flag) = flag := by
  apply UInt16.toNat_inj.1
  apply Nat.eq_of_testBit_eq
  intro i
  rw [wordFlag_bit]
  by_cases low : i < 16
  · rw [setWordFlag_bit word flag (by omega), if_pos (by omega), Nat.add_sub_cancel]
    simp [low]
  · have big : 2 ^ 16 ≤ 2 ^ i := Nat.pow_le_pow_right (by decide) (by omega)
    rw [Nat.testBit_lt_two_pow (lt_of_lt_of_le flag.toNat_lt big)]
    simp [low]

namespace Md2Record

variable (row : Md2Record) (flag : UInt16)

@[simp] theorem getTimeT_setUserFlag : (row.setUserFlag flag).getTimeT = row.getTimeT :=
  wordTime_setWordFlag row.t flag
@[simp] theorem getTimeTm_setUserFlag : (row.setUserFlag flag).getTimeTm = row.getTimeTm := rfl
@[simp] theorem getUserFlag_setUserFlag : (row.setUserFlag flag).getUserFlag = flag :=
  wordFlag_setWordFlag row.t flag
@[simp] theorem getSystemFlag_setUserFlag :
    (row.setUserFlag flag).getSystemFlag = row.getSystemFlag := rfl
@[simp] theorem offset_setUserFlag : (row.setUserFlag flag).offset = row.offset := rfl
@[simp] theorem size_setUserFlag : (row.setUserFlag flag).size = row.size := rfl
@[simp] theorem getTimeT_setSystemFlag : (row.setSystemFlag flag).getTimeT = row.getTimeT := rfl
@[simp] theorem getTimeTm_setSystemFlag : (row.setSystemFlag flag).getTimeTm = row.getTimeTm :=
  wordTime_setWordFlag row.tm flag
@[simp] theorem getUserFlag_setSystemFlag :
    (row.setSystemFlag flag).getUserFlag = row.getUserFlag := rfl
@[simp] theorem getSystemFlag_setSystemFlag : (row.setSystemFlag flag).getSystemFlag = flag :=
  wordFlag_setWordFlag row.tm flag
@[simp] theorem offset_setSystemFlag : (row.setSystemFlag flag).offset = row.offset := rfl
@[simp] theorem size_setSystemFlag : (row.setSystemFlag flag).size = row.size := rfl

end Md2Record

/-! ## Decoded rows -/

/-- `md2_record_ex_t`: a row decoded, with its position in its file. -/
structure Md2RecordEx where
  t : Nat
  tm : Nat
  offset : Nat
  size : Nat
  systemFlag : UInt16
  userFlag : UInt16
  rowid : Nat
deriving DecidableEq, Repr

/-- The end of `read_md`: decode a row read at position `rowid` of its file. -/
def Md2Record.decode (row : Md2Record) (rowid : Nat) : Md2RecordEx where
  t := row.getTimeT.toNat
  tm := row.getTimeTm.toNat
  offset := row.offset
  size := row.size
  systemFlag := row.getSystemFlag
  userFlag := row.getUserFlag
  rowid := rowid

/-- `is_deleted_instance`. -/
def isDeletedInstance (md : Md2RecordEx) : Bool := md.systemFlag &&& sfDeletedInstance != 0

theorem decode_t_lt (row : Md2Record) (rowid : Nat) : (row.decode rowid).t < 2 ^ 44 :=
  wordTime_lt row.t

theorem decode_tm_lt (row : Md2Record) (rowid : Nat) : (row.decode rowid).tm < 2 ^ 44 :=
  wordTime_lt row.tm

end Yunetas.Timeranger2
