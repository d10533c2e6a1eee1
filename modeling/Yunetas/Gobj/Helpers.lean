import Yunetas.Lib.Strtoll
import Yunetas.Lib.Tokens

/-!
# Text helpers

Functions of `helpers.c` and of the C library on texts, which are lists of characters with one byte
to a character: white space, numbers at the start of a text, splitting, and the order of versions.
Memory for the copies of a text is taken to be there.
-/

namespace Yunetas.Gobj

open List Int

/-- `isspace`. -/
def isspace (ch : Char) : Bool := ch = ' ' || 9 ≤ ch.toNat && ch.toNat ≤ 13

/-- The number at the start of a text, of any size: white space, a sign, digits. -/
def leadingNumber (base : Nat) (text : List Char) : Int :=
  match text.dropWhile isspace with
  | '-' :: rest => -(readDigits base 0 rest : Int)
  | '+' :: rest => readDigits base 0 rest
  | chars => readDigits base 0 chars

/-- `strtoll` in a given base from the start of a text: a number that does not fit becomes the
nearest one that does. -/
def strtollBase (base : Nat) (text : List Char) : Int :=
  max (min (leadingNumber base text) (2 ^ 63 - 1)) (-2 ^ 63)

/-- `atol`. -/
def atol (text : List Char) : Int := strtollBase 10 text

/-- `atoi`: the value is cut to 32 bits. -/
def atoi (text : List Char) : Int := Int.bmod (strtollBase 10 text) (2 ^ 32)

/-- `split2`: the pieces between delimiters, without the empty ones. -/
def split2 (str delim : List Char) : List (List Char) := tokens (fun char => delim.contains char) str

/-- The segments of a version; an empty text is not split. -/
def versionSegments (version : List Char) : List (List Char) :=
  if version.isEmpty then [] else split2 version ['.', '-']

/-- The number of a segment; a missing segment is a zero. -/
def segmentNumber (segments : List (List Char)) (i : Nat) : Int :=
  if inside : i < segments.length then atol segments[i] else 0

/-- `version_cmp`: the first segment that differs decides. -/
def versionCmp (version1 version2 : List Char) : Int :=
  let segments1 := versionSegments version1
  let segments2 := versionSegments version2
  let differs := fun i => segmentNumber segments1 i ≠ segmentNumber segments2 i
  match (List.range (max segments1.length segments2.length)).find? fun i => differs i with
  | some i => if segmentNumber segments1 i < segmentNumber segments2 i then -1 else 1
  | none => 0

theorem atol_of_fits {text : List Char} (low : -2 ^ 63 ≤ leadingNumber 10 text)
    (high : leadingNumber 10 text < 2 ^ 63) : atol text = leadingNumber 10 text := by
  unfold atol strtollBase
  omega

theorem not_isspace_of_isDigit {char : Char} (digit : char.isDigit = true) :
    isspace char = false := by
  have bounds : '0' ≤ char ∧ char ≤ '9' := by
    simpa [Char.isDigit, Char.le_def] using digit
  have low : '0'.toNat ≤ char.toNat := bounds.1
  have zero : '0'.toNat = 48 := by decide
  have other : char ≠ ' ' := by
    intro blank
    rw [blank] at low
    exact absurd low (by decide)
  unfold isspace
  simp only [other, decide_false, Bool.false_or, Bool.and_eq_false_iff, decide_eq_false_iff_not]
  omega

theorem leadingNumber_digits {chars : List Char} (digits : ∀ char ∈ chars, char.isDigit = true) :
    leadingNumber 10 chars = Nat.ofDigitChars 10 chars 0 := by
  have read := readDigits_decimal chars 0 digits
  have kept : chars.dropWhile isspace = chars := by
    cases chars with
    | nil => rfl
    | cons first rest =>
      rw [dropWhile_cons_of_neg]
      rw [not_isspace_of_isDigit (digits first mem_cons_self)]
      exact Bool.false_ne_true
  unfold leadingNumber
  rw [kept]
  split
  · exact absurd (digits '-' mem_cons_self) (by decide)
  · exact absurd (digits '+' mem_cons_self) (by decide)
  · rw [read]

theorem atol_toDigits {number : Nat} (small : number < 2 ^ 63) :
    atol (Nat.toDigits 10 number) = number := by
  have digits : ∀ char ∈ Nat.toDigits 10 number, char.isDigit = true := fun char among =>
    Nat.isDigit_of_mem_toDigits (by decide) (by decide) among
  have read := leadingNumber_digits digits
  rw [Nat.ofDigitChars_ten_toDigits] at read
  have fits : atol (Nat.toDigits 10 number) = leadingNumber 10 (Nat.toDigits 10 number) :=
    atol_of_fits (by omega) (by omega)
  rw [fits, read]

theorem atoi_digits {chars : List Char} (digits : ∀ char ∈ chars, char.isDigit = true)
    (small : Nat.ofDigitChars 10 chars 0 < 2 ^ 31) :
    atoi chars = Nat.ofDigitChars 10 chars 0 := by
  have read := leadingNumber_digits digits
  have fits : strtollBase 10 chars = leadingNumber 10 chars := by
    unfold strtollBase
    omega
  unfold atoi
  rw [fits, read]
  exact bmod_eq_of_le (by omega) (by omega)

theorem atoi_other_text (text : List Char) (index : 0 ≤ atoi text) :
    ∃ other : List Char, other ≠ text ∧ atoi other = atoi text ∧
      ∀ char ∈ other, char.isDigit = true := by
  have bound : atoi text < 2 ^ 31 := bmod_lt (by decide)
  have digits : ∀ char ∈ Nat.toDigits 10 (atoi text).toNat, char.isDigit = true :=
    fun char among => Nat.isDigit_of_mem_toDigits (by decide) (by decide) among
  have longer : ∀ char ∈ '0' :: Nat.toDigits 10 (atoi text).toNat, char.isDigit = true := by
    intro char among
    rcases mem_cons.1 among with rfl | among
    · decide
    · exact digits char among
  have zero : Nat.ofDigitChars 10 ('0' :: Nat.toDigits 10 (atoi text).toNat) 0 =
      (atoi text).toNat := by
    rw [Nat.ofDigitChars_cons]
    exact Nat.ofDigitChars_ten_toDigits
  have plain : Nat.ofDigitChars 10 (Nat.toDigits 10 (atoi text).toNat) 0 = (atoi text).toNat :=
    Nat.ofDigitChars_ten_toDigits
  by_cases same : Nat.toDigits 10 (atoi text).toNat = text
  · refine ⟨'0' :: Nat.toDigits 10 (atoi text).toNat, ?_, ?_, longer⟩
    · intro equal
      have lengths := congrArg List.length (equal.trans same.symm)
      rw [length_cons] at lengths
      omega
    · rw [atoi_digits longer (by omega), zero]
      omega
  · refine ⟨Nat.toDigits 10 (atoi text).toNat, same, ?_, digits⟩
    rw [atoi_digits digits (by omega), plain]
    omega

end Yunetas.Gobj
