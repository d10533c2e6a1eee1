import Mathlib.Algebra.Order.Ring.Int
import Mathlib.Data.List.Basic

/-!
# Numbers read from a text

`strtoll` with base 0: blanks, a sign and digits, hexadecimal after `0x`, octal after another zero,
decimal otherwise, up to the first character that is no digit. The decimal text of a number that
fits in 63 bits is read back.
-/

namespace Yunetas

/-- The value of a digit of any base up to 36. -/
def digitOf (char : Char) : Option Nat :=
  if '0' ≤ char ∧ char ≤ '9' then some (char.toNat - '0'.toNat)
  else if 'a' ≤ char ∧ char ≤ 'z' then some (char.toNat - 'a'.toNat + 10)
  else if 'A' ≤ char ∧ char ≤ 'Z' then some (char.toNat - 'A'.toNat + 10)
  else none

/-- The number that the digits of a base make, after those already read. -/
def readDigits (base : Nat) : Nat → List Char → Nat
  | sofar, [] => sofar
  | sofar, char :: rest =>
    match digitOf char with
    | some digit => if digit < base then readDigits base (base * sofar + digit) rest else sofar
    | none => sofar

/-- The number without its sign. -/
def readMagnitude : List Char → Nat
  | '0' :: 'x' :: rest => readDigits 16 0 rest
  | '0' :: 'X' :: rest => readDigits 16 0 rest
  | '0' :: rest => readDigits 8 0 rest
  | chars => readDigits 10 0 chars

/-- `strtoll` with base 0. -/
def strtoll (text : String) : Int :=
  match text.toList.dropWhile Char.isWhitespace with
  | '-' :: rest => max (-(readMagnitude rest : Int)) (-2 ^ 63)
  | '+' :: rest => min (readMagnitude rest : Int) (2 ^ 63 - 1)
  | chars => min (readMagnitude chars : Int) (2 ^ 63 - 1)

theorem digitOf_isDigit {char : Char} (decimal : char.isDigit = true) :
    digitOf char = some (char.toNat - '0'.toNat) ∧ char.toNat - '0'.toNat < 10 := by
  have bounds : '0' ≤ char ∧ char ≤ '9' := by
    simpa [Char.isDigit, Char.le_def] using decimal
  constructor
  · unfold digitOf
    rw [if_pos bounds]
  · have high : char.toNat ≤ '9'.toNat := bounds.2
    have nine : '9'.toNat = '0'.toNat + 9 := by decide
    omega

theorem readDigits_decimal (chars : List Char) (sofar : Nat)
    (decimal : ∀ char ∈ chars, char.isDigit = true) :
    readDigits 10 sofar chars = Nat.ofDigitChars 10 chars sofar := by
  induction chars generalizing sofar with
  | nil => simp [readDigits]
  | cons char rest ih =>
    have digit := digitOf_isDigit (decimal char List.mem_cons_self)
    unfold readDigits
    rw [digit.1, Nat.ofDigitChars_cons]
    simp only [digit.2, ↓reduceIte]
    exact ih _ fun other among => decimal other (List.mem_cons_of_mem char among)

end Yunetas
