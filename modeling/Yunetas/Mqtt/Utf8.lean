import Mathlib.Algebra.Order.Ring.Int
import Mathlib.Data.List.Basic
import Yunetas.Lib.Varint

/-!
# The two checks of a text

`mqtt_validate_utf8` checks the text of a packet where it lies, and `utf8_check_string` of jansson
checks it again when it becomes a json string. The first one finds a sequence cut short only where
exactly one of its bytes is missing; behind a shorter end it reads on into the bytes that follow the
text. A text that jansson keeps has no sequence cut short, so there the first check does not depend
on what follows.
-/

namespace Yunetas.Mqtt

/-- `codepoint << 6 | byte & 0x3F`. -/
def joinCodepoint (codepoint : Nat) (byte : UInt8) : Nat := codepoint * 64 + byte.toNat % 64

/-- A continuation byte. -/
def continuation (byte : UInt8) : Bool := byte &&& 0xC0 = 0x80

/-- The tests of `mqtt_validate_utf8` on a code point that was read from `codelen` bytes. -/
def codepointAdmitted (codelen codepoint : Nat) : Bool :=
  !(0xD800 ≤ codepoint && codepoint ≤ 0xDFFF) && !(codelen = 3 && codepoint < 0x800) &&
    !(codelen = 4 && (codepoint < 0x10000 || codepoint > 0x10FFFF)) &&
    !(0xFDD0 ≤ codepoint && codepoint ≤ 0xFDEF) &&
    !(codepoint % 0x10000 = 0xFFFE || codepoint % 0x10000 = 0xFFFF) &&
    !(codepoint ≤ 0x1F || 0x7F ≤ codepoint && codepoint ≤ 0x9F)

/-- The length that `mqtt_validate_utf8` reads in the first byte of a sequence, 0 when it refuses it. -/
def codelenOf (byte : UInt8) : Nat :=
  if byte = 0 then 0
  else if byte ≤ 0x7F then 1
  else if byte &&& 0xE0 = 0xC0 then if byte = 0xC0 || byte = 0xC1 then 0 else 2
  else if byte &&& 0xF0 = 0xE0 then 3
  else if byte &&& 0xF8 = 0xF0 then if byte > 0xF4 then 0 else 4
  else 0

/-- The bits of the code point in the first byte of a sequence. -/
def leadBits (codelen : Nat) (byte : UInt8) : Nat :=
  match codelen with
  | 2 => byte.toNat % 32
  | 3 => byte.toNat % 16
  | 4 => byte.toNat % 8
  | _ => byte.toNat

/-- A sequence of two bytes. -/
def admits2 (lead second : UInt8) : Bool :=
  continuation second && codepointAdmitted 2 (joinCodepoint (leadBits 2 lead) second)

/-- A sequence of three bytes. -/
def admits3 (lead second third : UInt8) : Bool :=
  continuation second && continuation third &&
    codepointAdmitted 3 (joinCodepoint (joinCodepoint (leadBits 3 lead) second) third)

/-- A sequence of four bytes. -/
def admits4 (lead second third fourth : UInt8) : Bool :=
  continuation second && continuation third && continuation fourth &&
    codepointAdmitted 4
      (joinCodepoint (joinCodepoint (joinCodepoint (leadBits 4 lead) second) third) fourth)

/-- The byte read at a place behind the text. -/
def byteBehind (after : List UInt8) (place : Nat) : UInt8 := after.getD place 0

/-- `mqtt_validate_utf8` on a text that `after` follows in memory. -/
def mqttValidateUtf8 (after : List UInt8) : List UInt8 → Bool
  | [] => true
  | lead :: rest =>
    match codelenOf lead with
    | 0 => false
    | 1 => codepointAdmitted 1 lead.toNat && mqttValidateUtf8 after rest
    | 2 =>
      match rest with
      | second :: rest => admits2 lead second && mqttValidateUtf8 after rest
      | [] => false
    | 3 =>
      match rest with
      | second :: third :: rest => admits3 lead second third && mqttValidateUtf8 after rest
      | [_] => false
      -- The test is for one missing byte: here two are missing and are read behind the text.
      | [] => admits3 lead (byteBehind after 0) (byteBehind after 1)
    | _ =>
      match rest with
      | second :: third :: fourth :: rest =>
        admits4 lead second third fourth && mqttValidateUtf8 after rest
      | [_, _] => false
      | [second] => admits4 lead second (byteBehind after 0) (byteBehind after 1)
      | [] => admits4 lead (byteBehind after 0) (byteBehind after 1) (byteBehind after 2)

/-- `utf8_check_first`: the length of a sequence by its first byte. -/
def utf8CheckFirst (byte : UInt8) : Nat :=
  if byte < 0x80 then 1
  else if byte ≤ 0xBF then 0
  else if byte = 0xC0 || byte = 0xC1 then 0
  else if byte ≤ 0xDF then 2
  else if byte ≤ 0xEF then 3
  else if byte ≤ 0xF4 then 4
  else 0

/-- A byte that `utf8_check_full` takes for a continuation. -/
def utf8Continuation (byte : UInt8) : Bool := 0x80 ≤ byte && byte ≤ 0xBF

/-- The tests of `utf8_check_full` on the value of `size` bytes. -/
def utf8Value (size value : Nat) : Bool :=
  !(value > 0x10FFFF) && !(0xD800 ≤ value && value ≤ 0xDFFF) &&
    !(size = 2 && value < 0x80 || size = 3 && value < 0x800 || size = 4 && value < 0x10000)

/-- `utf8_check_full`. -/
def utf8CheckFull (lead : UInt8) (others : List UInt8) : Bool :=
  others.all utf8Continuation &&
    utf8Value (others.length + 1) (others.foldl joinCodepoint (leadBits (others.length + 1) lead))

/-- `utf8_check_string`. -/
def utf8CheckString : List UInt8 → Bool
  | [] => true
  | lead :: rest =>
    match utf8CheckFirst lead with
    | 0 => false
    | 1 => utf8CheckString rest
    | 2 =>
      match rest with
      | second :: rest => utf8CheckFull lead [second] && utf8CheckString rest
      | _ => false
    | 3 =>
      match rest with
      | second :: third :: rest => utf8CheckFull lead [second, third] && utf8CheckString rest
      | _ => false
    | _ =>
      match rest with
      | second :: third :: fourth :: rest =>
        utf8CheckFull lead [second, third, fourth] && utf8CheckString rest
      | _ => false

open List

theorem utf8CheckFirst_eq : ∀ byte : UInt8, codelenOf byte ≠ 0 →
    utf8CheckFirst byte = codelenOf byte :=
  forall_byte (by decide +kernel)

theorem mqttValidateUtf8_behind (after other : List UInt8) {text : List UInt8}
    (kept : utf8CheckString text = true) :
    mqttValidateUtf8 after text = mqttValidateUtf8 other text := by
  have agree := utf8CheckFirst_eq
  fun_induction mqttValidateUtf8 after text with
  | case1 => rfl
  | case2 lead rest refused =>
    unfold mqttValidateUtf8
    simp [refused]
  | case3 lead rest one ih =>
    have first := agree lead (by rw [one]; decide)
    unfold utf8CheckString at kept
    simp only [first, one] at kept
    conv_rhs => unfold mqttValidateUtf8
    simp [one, ih kept]
  | case4 lead two second rest ih =>
    have first := agree lead (by rw [two]; decide)
    simp only [utf8CheckString, first, two, Bool.and_eq_true] at kept
    simp [mqttValidateUtf8, two, ih kept.2]
  | case5 lead two => simp [mqttValidateUtf8, two]
  | case6 lead three second third rest ih =>
    have first := agree lead (by rw [three]; decide)
    simp only [utf8CheckString, first, three, Bool.and_eq_true] at kept
    simp [mqttValidateUtf8, three, ih kept.2]
  | case7 lead three second => simp [mqttValidateUtf8, three]
  | case8 lead three =>
    have first := agree lead (by rw [three]; decide)
    simp only [utf8CheckString, first, three] at kept
    cases kept
  | case9 lead second third fourth rest not0 not1 not2 not3 ih =>
    have first := agree lead (by intro zero; exact not0 zero)
    unfold utf8CheckString at kept
    simp only [first, Bool.and_eq_true] at kept
    conv_rhs => unfold mqttValidateUtf8
    simp [ih kept.2]
  | case10 lead second third not0 not1 not2 not3 =>
    unfold mqttValidateUtf8
    simp only
  | case11 lead second not0 not1 not2 not3 =>
    have first := agree lead (by intro zero; exact not0 zero)
    unfold utf8CheckString at kept
    simp only [first] at kept
    cases kept
  | case12 lead not0 not1 not2 not3 =>
    have first := agree lead (by intro zero; exact not0 zero)
    unfold utf8CheckString at kept
    simp only [first] at kept
    cases kept

theorem continuation_ne_zero {byte : UInt8} (is : continuation byte = true) : byte ≠ 0 := by
  rintro rfl
  exact absurd is (by decide)

theorem noNul_of_mqttValidateUtf8 {after text : List UInt8}
    (valid : mqttValidateUtf8 after text = true) : 0 ∉ text := by
  have lead_ne {lead : UInt8} (taken : codelenOf lead ≠ 0) : 0 ≠ lead := by
    rintro rfl
    exact taken (by decide)
  fun_induction mqttValidateUtf8 after text with
  | case1 => exact not_mem_nil
  | case2 => cases valid
  | case3 lead rest one ih =>
    rw [Bool.and_eq_true] at valid
    simp only [mem_cons, not_or]
    exact ⟨lead_ne (by rw [one]; decide), ih valid.2⟩
  | case4 lead two second rest ih =>
    simp only [admits2, Bool.and_eq_true] at valid
    simp only [mem_cons, not_or]
    exact ⟨lead_ne (by rw [two]; decide), (continuation_ne_zero valid.1.1).symm, ih valid.2⟩
  | case6 lead three second third rest ih =>
    simp only [admits3, Bool.and_eq_true] at valid
    simp only [mem_cons, not_or]
    exact ⟨lead_ne (by rw [three]; decide), (continuation_ne_zero valid.1.1.1).symm,
      (continuation_ne_zero valid.1.1.2).symm, ih valid.2⟩
  | case8 lead three =>
    simp only [mem_cons, not_or]
    exact ⟨lead_ne (by rw [three]; decide), not_mem_nil⟩
  | case9 lead second third fourth rest not0 not1 not2 not3 ih =>
    simp only [admits4, Bool.and_eq_true] at valid
    simp only [mem_cons, not_or]
    exact ⟨lead_ne not0, (continuation_ne_zero valid.1.1.1.1).symm,
      (continuation_ne_zero valid.1.1.1.2).symm, (continuation_ne_zero valid.1.1.2).symm,
      ih valid.2⟩
  | case5 | case7 | case10 => cases valid
  | case11 lead second not0 not1 not2 not3 =>
    simp only [admits4, Bool.and_eq_true] at valid
    simp only [mem_cons, not_or]
    exact ⟨lead_ne not0, (continuation_ne_zero valid.1.1.1).symm, not_mem_nil⟩
  | case12 lead not0 not1 not2 not3 =>
    simp only [mem_cons, not_or]
    exact ⟨lead_ne not0, not_mem_nil⟩

end Yunetas.Mqtt
