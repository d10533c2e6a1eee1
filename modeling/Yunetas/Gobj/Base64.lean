import Mathlib.Algebra.Order.Group.Nat
import Yunetas.Gobj.Helpers

/-!
# Base 64

The encoder and the decoder of `gbuffer.c`. Three bytes become four characters, and what is left at
the end is padded. Both write into a target of a given size and fail where it is too short; the
sizes their callers ask for are long enough, so every list of bytes is read back.
-/

namespace Yunetas.Gobj

open List Option

/-- `Base64`: the alphabet. -/
def base64Alphabet : List Char :=
  "ABCDEFGHIJKLMNOPQRSTUVWXYZabcdefghijklmnopqrstuvwxyz0123456789+/".toList

/-- `Pad64`. -/
def pad64 : Char := '='

/-- `Base64[output]`. -/
def base64Char (output : Nat) : Char := base64Alphabet.getD output pad64

/-- The characters of three bytes. -/
def base64Group (first second third : UInt8) : List Char :=
  [base64Char (first.toNat / 4), base64Char (first.toNat % 4 * 16 + second.toNat / 16),
    base64Char (second.toNat % 16 * 4 + third.toNat / 64), base64Char (third.toNat % 64)]

/-- `b64_encode`, with `datalength` characters written before. -/
def b64Encode (targsize : Nat) : List UInt8 → Nat → Option (List Char)
  | first :: second :: third :: rest, datalength =>
    if datalength + 4 > targsize then none
    else (b64Encode targsize rest (datalength + 4)).map (base64Group first second third ++ ·)
  | [first, second], datalength =>
    if datalength + 4 ≥ targsize then none
    else some ((base64Group first second 0).take 3 ++ [pad64])
  | [first], datalength =>
    if datalength + 4 ≥ targsize then none
    else some ((base64Group first 0 0).take 2 ++ [pad64, pad64])
  | [], datalength => if datalength ≥ targsize then none else some []

/-- What `b64_decode` holds in its loop. -/
structure Decoding where
  /-- Bytes of the target below `tarindex`. -/
  target : List UInt8
  /-- `target[tarindex]`. -/
  next : UInt8
  /-- `state`: sextets read of the group, modulo four. -/
  state : Nat

/-- The switch of `b64_decode` on one sextet. -/
def decodeSextet (targsize : Nat) (decoding : Decoding) (sextet : Nat) : Option Decoding :=
  let tarindex := decoding.target.length
  match decoding.state with
  | 0 =>
    if tarindex ≥ targsize then none
    else some ⟨decoding.target, UInt8.ofNat (sextet * 4), 1⟩
  | 1 =>
    if tarindex + 1 ≥ targsize then none
    else some ⟨decoding.target ++ [decoding.next ||| UInt8.ofNat (sextet / 16)],
      UInt8.ofNat (sextet % 16 * 16), 2⟩
  | 2 =>
    if tarindex + 1 ≥ targsize then none
    else some ⟨decoding.target ++ [decoding.next ||| UInt8.ofNat (sextet / 4)],
      UInt8.ofNat (sextet % 4 * 64), 3⟩
  | 3 =>
    if tarindex ≥ targsize then none
    else some ⟨decoding.target ++ [decoding.next ||| UInt8.ofNat sextet], 0, 0⟩
  | _ => none

/-- After the padding only spaces may follow, and no bit may be left over. -/
def decodeTail (decoding : Decoding) (rest : List Char) : Option (List UInt8) :=
  if rest.all isspace then
    if decoding.next ≠ 0 then none else some decoding.target
  else none

/-- What follows a first `=`. -/
def decodePad (decoding : Decoding) (rest : List Char) : Option (List UInt8) :=
  match decoding.state with
  | 0 => none
  | 1 => none
  | 2 =>
    match rest.dropWhile isspace with
    | [] => none
    | ch :: rest => if ch ≠ pad64 then none else decodeTail decoding rest
  | _ => decodeTail decoding rest

/-- `b64_decode`, from some point of its loop. -/
def b64Decode (targsize : Nat) (decoding : Decoding) : List Char → Option (List UInt8)
  | [] => if decoding.state ≠ 0 then none else some decoding.target
  | ch :: rest =>
    if isspace ch then b64Decode targsize decoding rest
    else if ch = pad64 then decodePad decoding rest
    else
      match base64Alphabet.idxOf? ch with
      | none => none
      | some sextet =>
        match decodeSextet targsize decoding sextet with
        | none => none
        | some decoding => b64Decode targsize decoding rest

/-- `b64_output_encode_len`. -/
def b64OutputEncodeLen (inputLength : Nat) : Nat := 4 * ((inputLength + 4) / 3) + 1

/-- `b64_output_decode_len`. -/
def b64OutputDecodeLen (inputLength : Nat) : Nat := (inputLength / 4 + 1) * 3 + 1

section RoundTrip

theorem base64Char_read {output : Nat} (sextet : output < 64) :
    isspace (base64Char output) = false ∧ base64Char output ≠ pad64 ∧
      base64Alphabet.idxOf? (base64Char output) = some output := by
  have all : ∀ output : Fin 64, isspace (base64Char output) = false ∧ base64Char output ≠ pad64 ∧
        base64Alphabet.idxOf? (base64Char output) = some output.val := by decide +kernel
  exact all ⟨output, sextet⟩

theorem b64Decode_char (targsize : Nat) (decoding : Decoding) (rest : List Char) {output : Nat}
    (sextet : output < 64) :
    b64Decode targsize decoding (base64Char output :: rest) =
      (decodeSextet targsize decoding output).bind fun decoding =>
        b64Decode targsize decoding rest := by
  have read := base64Char_read sextet
  rw [b64Decode, if_neg (by rw [read.1]; decide), if_neg read.2.1, read.2.2]
  dsimp only
  cases decodeSextet targsize decoding output <;> rfl

theorem join_bits (byte : UInt8) :
    UInt8.ofNat (byte.toNat / 4 * 4) ||| UInt8.ofNat (byte.toNat % 4) = byte ∧
      UInt8.ofNat (byte.toNat / 16 * 16) ||| UInt8.ofNat (byte.toNat % 16) = byte ∧
        UInt8.ofNat (byte.toNat / 64 * 64) ||| UInt8.ofNat (byte.toNat % 64) = byte := by
  have all : ∀ number : Fin 256, let byte := UInt8.ofNat number.val
      UInt8.ofNat (byte.toNat / 4 * 4) ||| UInt8.ofNat (byte.toNat % 4) = byte ∧
        UInt8.ofNat (byte.toNat / 16 * 16) ||| UInt8.ofNat (byte.toNat % 16) = byte ∧
          UInt8.ofNat (byte.toNat / 64 * 64) ||| UInt8.ofNat (byte.toNat % 64) = byte := by
    decide +kernel
  have here := all ⟨byte.toNat, byte.toNat_lt⟩
  rwa [UInt8.ofNat_toNat] at here

variable {targsize : Nat}

theorem b64Decode_first (target : List UInt8) (next first second : UInt8)
    (rest : List Char) (room : target.length + 1 < targsize) :
    b64Decode targsize ⟨target, next, 0⟩ (base64Char (first.toNat / 4) ::
          base64Char (first.toNat % 4 * 16 + second.toNat / 16) :: rest) =
      b64Decode targsize ⟨target ++ [first], UInt8.ofNat (second.toNat / 16 * 16), 2⟩ rest := by
  have small := first.toNat_lt
  have other := second.toNat_lt
  have high : (first.toNat % 4 * 16 + second.toNat / 16) / 16 = first.toNat % 4 := by omega
  have low : (first.toNat % 4 * 16 + second.toNat / 16) % 16 = second.toNat / 16 := by omega
  rw [b64Decode_char targsize _ _ (by omega)]
  have zero : decodeSextet targsize ⟨target, next, 0⟩ (first.toNat / 4) =
      some ⟨target, UInt8.ofNat (first.toNat / 4 * 4), 1⟩ := if_neg (by dsimp only; omega)
  have one : decodeSextet targsize ⟨target, UInt8.ofNat (first.toNat / 4 * 4), 1⟩
      (first.toNat % 4 * 16 + second.toNat / 16) =
      some ⟨target ++ [UInt8.ofNat (first.toNat / 4 * 4) |||
          UInt8.ofNat ((first.toNat % 4 * 16 + second.toNat / 16) / 16)],
        UInt8.ofNat ((first.toNat % 4 * 16 + second.toNat / 16) % 16 * 16), 2⟩ :=
    if_neg (by dsimp only; omega)
  rw [zero, bind_some, b64Decode_char targsize _ _ (by omega), one, bind_some, high,
    low, (join_bits first).1]

theorem b64Decode_second (target : List UInt8) (second third : UInt8)
    (rest : List Char) (room : target.length + 1 < targsize) :
    b64Decode targsize ⟨target, UInt8.ofNat (second.toNat / 16 * 16), 2⟩
        (base64Char (second.toNat % 16 * 4 + third.toNat / 64) :: rest) =
      b64Decode targsize ⟨target ++ [second], UInt8.ofNat (third.toNat / 64 * 64), 3⟩ rest := by
  have small := third.toNat_lt
  have high : (second.toNat % 16 * 4 + third.toNat / 64) / 4 = second.toNat % 16 := by omega
  have low : (second.toNat % 16 * 4 + third.toNat / 64) % 4 = third.toNat / 64 := by omega
  have two : decodeSextet targsize ⟨target, UInt8.ofNat (second.toNat / 16 * 16), 2⟩
      (second.toNat % 16 * 4 + third.toNat / 64) =
      some ⟨target ++ [UInt8.ofNat (second.toNat / 16 * 16) |||
          UInt8.ofNat ((second.toNat % 16 * 4 + third.toNat / 64) / 4)],
        UInt8.ofNat ((second.toNat % 16 * 4 + third.toNat / 64) % 4 * 64), 3⟩ :=
    if_neg (by dsimp only; omega)
  rw [b64Decode_char targsize _ _ (by omega), two, bind_some, high, low, (join_bits second).2.1]

theorem b64Decode_third (target : List UInt8) (third : UInt8) (rest : List Char)
    (room : target.length < targsize) :
    b64Decode targsize ⟨target, UInt8.ofNat (third.toNat / 64 * 64), 3⟩
        (base64Char (third.toNat % 64) :: rest) =
      b64Decode targsize ⟨target ++ [third], 0, 0⟩ rest := by
  have three : decodeSextet targsize ⟨target, UInt8.ofNat (third.toNat / 64 * 64), 3⟩
      (third.toNat % 64) =
      some ⟨target ++ [UInt8.ofNat (third.toNat / 64 * 64) ||| UInt8.ofNat (third.toNat % 64)],
        0, 0⟩ := if_neg (by dsimp only; omega)
  rw [b64Decode_char targsize _ _ (by omega), three, bind_some, (join_bits third).2.2]

theorem b64Decode_pad (targsize : Nat) (decoding : Decoding) (rest : List Char) :
    b64Decode targsize decoding (pad64 :: rest) = decodePad decoding rest := by
  rw [b64Decode, if_neg (by decide), if_pos rfl]

theorem base64Char_plain (output : Nat) :
    (base64Char output).utf8Size = 1 ∧ base64Char output ≠ Char.ofNat 0 := by
  have alphabet : base64Alphabet.all fun ch => ch.utf8Size == 1 && ch != Char.ofNat 0 := by decide
  by_cases inside : output < base64Alphabet.length
  · unfold base64Char
    rw [getD_eq_getElem?_getD, getElem?_eq_getElem inside, getD_some]
    have plain := all_eq_true.1 alphabet _ (getElem_mem inside)
    rwa [Bool.and_eq_true, beq_iff_eq, bne_iff_ne] at plain
  · unfold base64Char
    rw [getD_eq_getElem?_getD, getElem?_eq_none (Nat.le_of_not_lt inside)]
    decide

theorem b64Encode_plain (src : List UInt8) (datalength : Nat) {text : List Char}
    (encoded : b64Encode targsize src datalength = some text) :
    ∀ ch ∈ text, ch.utf8Size = 1 ∧ ch ≠ Char.ofNat 0 := by
  have padding : pad64.utf8Size = 1 ∧ pad64 ≠ Char.ofNat 0 := by decide
  fun_induction b64Encode targsize src datalength generalizing text with
  | case1 | case3 | case5 | case7 => cases encoded
  | case2 first second third rest datalength room ih =>
    rw [map_eq_some_iff] at encoded
    obtain ⟨later, ofRest, rfl⟩ := encoded
    intro ch among
    rcases mem_append.1 among with here | there
    · simp only [base64Group, mem_cons, not_mem_nil, or_false] at here
      rcases here with rfl | rfl | rfl | rfl <;> exact base64Char_plain _
    · exact ih ofRest ch there
  | case4 first second datalength room =>
    cases encoded
    intro ch among
    simp only [base64Group, take_succ_cons, take_zero, cons_append, nil_append,
      mem_cons, not_mem_nil, or_false] at among
    rcases among with rfl | rfl | rfl | rfl
    · exact base64Char_plain _
    · exact base64Char_plain _
    · exact base64Char_plain _
    · exact padding
  | case6 first datalength room =>
    cases encoded
    intro ch among
    simp only [base64Group, take_succ_cons, take_zero, cons_append, nil_append,
      mem_cons, not_mem_nil, or_false] at among
    rcases among with rfl | rfl | rfl | rfl
    · exact base64Char_plain _
    · exact base64Char_plain _
    · exact padding
    · exact padding
  | case8 =>
    cases encoded
    intro ch among
    cases among

theorem b64Decode_b64Encode {encodeSize decodeSize : Nat} (src : List UInt8) (datalength : Nat)
    (target : List UInt8) (next : UInt8)
    (encodeRoom : datalength + (src.length + 2) / 3 * 4 < encodeSize)
    (decodeRoom : target.length + (src.length + 2) / 3 * 3 < decodeSize) :
    ∃ text, b64Encode encodeSize src datalength = some text ∧
      text.length = (src.length + 2) / 3 * 4 ∧
      b64Decode decodeSize ⟨target, next, 0⟩ text = some (target ++ src) := by
  fun_induction b64Encode encodeSize src datalength generalizing target next with
  | case1 first second third rest datalength short =>
    simp only [length_cons] at encodeRoom
    omega
  | case2 first second third rest datalength room ih =>
    simp only [length_cons] at encodeRoom decodeRoom
    have ⟨text, encoded, long, decoded⟩ := ih (target ++ [first, second, third]) 0 (by omega)
      (by simp only [length_append, length_cons, length_nil]; omega)
    refine ⟨base64Group first second third ++ text, by rw [encoded]; rfl, ?_, ?_⟩
    · simp only [base64Group, length_append, length_cons, length_nil, long]
      omega
    · show b64Decode decodeSize ⟨target, next, 0⟩ (_ :: _ :: _ :: _ :: text) = _
      rw [b64Decode_first target next first second _ (by omega),
        b64Decode_second _ second third _ (by simp; omega),
        b64Decode_third _ third _ (by simp; omega)]
      simpa using decoded
  | case3 first second datalength short =>
    simp only [length_cons, length_nil] at encodeRoom
    omega
  | case4 first second datalength room =>
    simp only [length_cons, length_nil] at decodeRoom
    refine ⟨_, rfl, by simp [base64Group], ?_⟩
    show b64Decode decodeSize ⟨target, next, 0⟩ (_ :: _ :: _ :: pad64 :: []) = _
    rw [b64Decode_first target next first second _ (by omega),
      b64Decode_second _ second 0 _ (by simp; omega), b64Decode_pad]
    simp [decodePad, decodeTail]
  | case5 first datalength short =>
    simp only [length_cons, length_nil] at encodeRoom
    omega
  | case6 first datalength room =>
    simp only [length_cons, length_nil] at decodeRoom
    refine ⟨_, rfl, by simp [base64Group], ?_⟩
    show b64Decode decodeSize ⟨target, next, 0⟩ (_ :: _ :: pad64 :: pad64 :: []) = _
    rw [b64Decode_first target next first 0 _ (by omega), b64Decode_pad]
    simp [decodePad, decodeTail, isspace, pad64]
  | case7 datalength short =>
    omega
  | case8 datalength room => exact ⟨[], rfl, rfl, by simp [b64Decode]⟩

end RoundTrip

end Yunetas.Gobj
