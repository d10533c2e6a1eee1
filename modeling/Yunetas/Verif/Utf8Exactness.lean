import Yunetas.Mqtt.Utf8
/-!
# What the UTF-8 check accepts and examines

A text is well formed when it is the encoding of characters, none of them a control character or a
non-character. The check accepts just those texts and stays inside them, except where a sequence
that the end of the text cuts lacks two or three bytes: there it examines what follows.
-/

namespace Yunetas.Mqtt

open List

/-- Neither a control character nor a non-character. -/
def admittedChar (c : Char) : Bool :=
  !(c.toNat ≤ 0x1F || 0x7F ≤ c.toNat && c.toNat ≤ 0x9F) &&
    !(0xFDD0 ≤ c.toNat && c.toNat ≤ 0xFDEF) &&
    !(c.toNat % 0x10000 = 0xFFFE || c.toNat % 0x10000 = 0xFFFF)

/-- The encoding of admitted characters. -/
def WellFormed (text : List UInt8) : Prop :=
  ∃ chars : List Char, text = chars.flatMap String.utf8EncodeChar ∧
    ∀ c ∈ chars, admittedChar c = true

/-- `mqtt_validate_utf8` of the bytes of a text, with its test of the length. -/
def validateUtf8 (after text : List UInt8) : Int :=
  if text.length > 65536 then -1 else if mqttValidateUtf8 after text then 0 else -1

/-- `mqtt_validate_utf8` examines a byte behind the text: where it goes on to a sequence whose cut
its test does not see, and no byte of the text before stops it. -/
def examinesBehind : List UInt8 → Bool
  | [] => false
  | lead :: rest =>
    match codelenOf lead with
    | 0 => false
    | 1 => codepointAdmitted 1 lead.toNat && examinesBehind rest
    | 2 =>
      match rest with
      | second :: rest => admits2 lead second && examinesBehind rest
      | [] => false
    | 3 =>
      match rest with
      | second :: third :: rest => admits3 lead second third && examinesBehind rest
      | [_] => false
      | [] => true
    | _ =>
      match rest with
      | second :: third :: fourth :: rest =>
        admits4 lead second third fourth && examinesBehind rest
      | [_, _] => false
      | [second] => continuation second
      | [] => true

/-- A sequence that lacks two or more bytes, those it has being continuation bytes. -/
def cutSequence : List UInt8 → Bool
  | [] => false
  | lead :: others => others.length + 3 ≤ codelenOf lead && others.all continuation

/-- A text that is well formed up to such a sequence at its end. -/
def CutShort (text : List UInt8) : Prop :=
  ∃ whole rest, text = whole ++ rest ∧ WellFormed whole ∧ cutSequence rest = true

section Sequences

theorem codelenOf_range : ∀ byte : UInt8,
    (codelenOf byte = 0 ∧ (byte.toNat = 0 ∨ 0x80 ≤ byte.toNat ∧ byte.toNat ≤ 0xC1 ∨
        0xF5 ≤ byte.toNat)) ∨
      (codelenOf byte = 1 ∧ 1 ≤ byte.toNat ∧ byte.toNat ≤ 0x7F) ∨
      (codelenOf byte = 2 ∧ 0xC2 ≤ byte.toNat ∧ byte.toNat ≤ 0xDF) ∨
      (codelenOf byte = 3 ∧ 0xE0 ≤ byte.toNat ∧ byte.toNat ≤ 0xEF) ∨
      (codelenOf byte = 4 ∧ 0xF0 ≤ byte.toNat ∧ byte.toNat ≤ 0xF4) :=
  forall_byte (by decide +kernel)

theorem continuation_iff : ∀ byte : UInt8,
    continuation byte = true ↔ 0x80 ≤ byte.toNat ∧ byte.toNat ≤ 0xBF :=
  forall_byte (by decide +kernel)

theorem encode_cases (c : Char) :
    (c.toNat ≤ 0x7F ∧ String.utf8EncodeChar c = [UInt8.ofNat c.toNat]) ∨
    (0x80 ≤ c.toNat ∧ c.toNat ≤ 0x7FF ∧ String.utf8EncodeChar c =
      [UInt8.ofNat (c.toNat / 64 % 32 + 0xC0), UInt8.ofNat (c.toNat % 64 + 0x80)]) ∨
    (0x800 ≤ c.toNat ∧ c.toNat ≤ 0xFFFF ∧ String.utf8EncodeChar c =
      [UInt8.ofNat (c.toNat / 4096 % 16 + 0xE0), UInt8.ofNat (c.toNat / 64 % 64 + 0x80),
        UInt8.ofNat (c.toNat % 64 + 0x80)]) ∨
    (0x10000 ≤ c.toNat ∧ c.toNat ≤ 0x10FFFF ∧ String.utf8EncodeChar c =
      [UInt8.ofNat (c.toNat / 262144 % 8 + 0xF0), UInt8.ofNat (c.toNat / 4096 % 64 + 0x80),
        UInt8.ofNat (c.toNat / 64 % 64 + 0x80), UInt8.ofNat (c.toNat % 64 + 0x80)]) := by
  have valid : c.toNat < 0xD800 ∨ 0xDFFF < c.toNat ∧ c.toNat < 0x110000 := c.valid
  rw [String.utf8EncodeChar]
  by_cases one : c.toNat ≤ 0x7F
  · exact .inl ⟨one, if_pos one⟩
  · by_cases two : c.toNat ≤ 0x7FF
    · exact .inr (.inl ⟨by omega, two, (if_neg one).trans (if_pos two)⟩)
    · by_cases three : c.toNat ≤ 0xFFFF
      · exact .inr (.inr (.inl ⟨by omega, three,
          ((if_neg one).trans (if_neg two)).trans (if_pos three)⟩))
      · exact .inr (.inr (.inr ⟨by omega, by omega,
          ((if_neg one).trans (if_neg two)).trans (if_neg three)⟩))

theorem codepointAdmitted_toNat (c : Char) :
    codepointAdmitted (String.utf8EncodeChar c).length c.toNat = admittedChar c := by
  have valid : c.toNat < 0xD800 ∨ 0xDFFF < c.toNat ∧ c.toNat < 0x110000 := c.valid
  rw [codepointAdmitted, admittedChar]
  rcases encode_cases c with ⟨_, encode⟩ | ⟨_, _, encode⟩ | ⟨_, _, encode⟩ | ⟨_, _, encode⟩ <;>
  · rw [encode]
    grind

theorem exists_char {codelen codepoint : Nat} (admitted : codepointAdmitted codelen codepoint = true)
    (bound : codepoint < 0x110000) : ∃ c : Char, c.toNat = codepoint := by
  have valid : Nat.isValidChar codepoint := by
    simp only [codepointAdmitted, Bool.and_eq_true, Bool.not_eq_true', Bool.and_eq_false_iff,
      decide_eq_false_iff_not] at admitted
    rw [Nat.isValidChar]
    omega
  exact ⟨⟨UInt32.ofNatLT codepoint (Nat.lt_trans bound (by decide)), valid⟩, rfl⟩

variable {lead second third fourth : UInt8}

theorem ofNat_eq_iff {value : Nat} (small : value < 256) (byte : UInt8) :
    UInt8.ofNat value = byte ↔ value = byte.toNat := by
  rw [← UInt8.toNat_inj, UInt8.toNat_ofNat', Nat.mod_eq_of_lt small]

/-- A sequence whose bytes are those of one code point passes just where they are an admitted
character. -/
theorem sequence_iff {bytes : List UInt8} {codelen codepoint : Nat} {follows : Prop}
    (size : bytes.length = codelen)
    (bound : codepointAdmitted codelen codepoint = true → codepoint < 0x110000)
    (encodes : ∀ c : Char, codepointAdmitted codelen c.toNat = true →
      (String.utf8EncodeChar c = bytes ↔ follows ∧ c.toNat = codepoint)) :
    follows ∧ codepointAdmitted codelen codepoint = true ↔
      ∃ c : Char, String.utf8EncodeChar c = bytes ∧ admittedChar c = true := by
  constructor
  · rintro ⟨held, admitted⟩
    have ⟨c, point⟩ := exists_char admitted (bound admitted)
    have encode := (encodes c (by rw [point]; exact admitted)).2 ⟨held, point⟩
    refine ⟨c, encode, ?_⟩
    rw [← codepointAdmitted_toNat, encode, point, size]
    exact admitted
  · rintro ⟨c, encode, admitted⟩
    rw [← codepointAdmitted_toNat, encode, size] at admitted
    have ⟨held, point⟩ := (encodes c admitted).1 encode
    exact ⟨held, point ▸ admitted⟩

theorem admits1_iff (one : codelenOf lead = 1) : codepointAdmitted 1 lead.toNat = true ↔
    ∃ c : Char, String.utf8EncodeChar c = [lead] ∧ admittedChar c = true := by
  have range := codelenOf_range lead
  rw [← true_and (codepointAdmitted 1 lead.toNat = true)]
  apply sequence_iff (by rfl) (fun _ => by omega)
  intro c _
  rcases encode_cases c with ⟨_, bytes⟩ | ⟨_, _, bytes⟩ | ⟨_, _, bytes⟩ | ⟨_, _, bytes⟩ <;>
    simp (disch := omega) [bytes, ofNat_eq_iff, -UInt8.ofNat_add]
  all_goals omega

theorem admits2_iff (two : codelenOf lead = 2) : admits2 lead second = true ↔
    ∃ c : Char, String.utf8EncodeChar c = [lead, second] ∧ admittedChar c = true := by
  have range := codelenOf_range lead
  rw [admits2, Bool.and_eq_true, joinCodepoint, leadBits]
  apply sequence_iff (by rfl) (fun _ => by omega)
  intro c _
  rw [continuation_iff]
  rcases encode_cases c with ⟨_, bytes⟩ | ⟨_, _, bytes⟩ | ⟨_, _, bytes⟩ | ⟨_, _, bytes⟩ <;>
  · simp (disch := omega) [bytes, ofNat_eq_iff, -UInt8.ofNat_add]
    omega

theorem admits3_iff (three : codelenOf lead = 3) : admits3 lead second third = true ↔
    ∃ c : Char, String.utf8EncodeChar c = [lead, second, third] ∧ admittedChar c = true := by
  have range := codelenOf_range lead
  simp only [admits3, Bool.and_eq_true, joinCodepoint, leadBits]
  apply sequence_iff (by rfl) (fun _ => by omega)
  intro c admitted
  have long : 0x800 ≤ c.toNat := by
    simp only [codepointAdmitted, Bool.and_eq_true] at admitted
    grind
  rw [continuation_iff, continuation_iff]
  rcases encode_cases c with ⟨_, bytes⟩ | ⟨_, _, bytes⟩ | ⟨_, _, bytes⟩ | ⟨_, _, bytes⟩ <;>
  · simp (disch := omega) [bytes, ofNat_eq_iff, -UInt8.ofNat_add]
    omega

theorem admits4_iff (four : codelenOf lead = 4) : admits4 lead second third fourth = true ↔
    ∃ c : Char, String.utf8EncodeChar c = [lead, second, third, fourth] ∧
      admittedChar c = true := by
  have range := codelenOf_range lead
  have bounds {codepoint : Nat} (admitted : codepointAdmitted 4 codepoint = true) :
      0x10000 ≤ codepoint ∧ codepoint ≤ 0x10FFFF := by
    simp only [codepointAdmitted, Bool.and_eq_true] at admitted
    grind
  simp only [admits4, Bool.and_eq_true, joinCodepoint, leadBits]
  apply sequence_iff (by rfl) fun admitted => Nat.lt_succ_of_le (bounds admitted).2
  intro c admitted
  have long := (bounds admitted).1
  simp only [continuation_iff]
  rcases encode_cases c with ⟨_, bytes⟩ | ⟨_, _, bytes⟩ | ⟨_, _, bytes⟩ | ⟨_, _, bytes⟩ <;>
  · simp (disch := omega) [bytes, ofNat_eq_iff, -UInt8.ofNat_add]
    omega

theorem encode_codelen {c : Char} {others : List UInt8}
    (encode : String.utf8EncodeChar c = lead :: others) (admitted : admittedChar c = true) :
    codelenOf lead = others.length + 1 := by
  have range := codelenOf_range lead
  have control : 0x20 ≤ c.toNat := by
    simp only [admittedChar, Bool.and_eq_true] at admitted
    grind
  rcases encode_cases c with ⟨_, bytes⟩ | ⟨_, _, bytes⟩ | ⟨_, _, bytes⟩ | ⟨_, _, bytes⟩ <;>
  · rw [encode, List.cons.injEq] at bytes
    have first := (ofNat_eq_iff (by omega) lead).1 bytes.1.symm
    rw [bytes.2]
    simp only [length_cons, length_nil]
    omega

theorem encode_step (after : List UInt8) {c : Char} (admitted : admittedChar c = true)
    (rest : List UInt8) :
    mqttValidateUtf8 after (String.utf8EncodeChar c ++ rest) = mqttValidateUtf8 after rest ∧
      examinesBehind (String.utf8EncodeChar c ++ rest) = examinesBehind rest := by
  have passes {bytes : List UInt8} (encode : String.utf8EncodeChar c = bytes) :
      ∃ c : Char, String.utf8EncodeChar c = bytes ∧ admittedChar c = true := ⟨c, encode, admitted⟩
  have size := String.length_utf8EncodeChar c
  have least := Char.utf8Size_pos c
  have most := Char.utf8Size_le_four c
  match bytes : String.utf8EncodeChar c with
  | [] =>
    rw [bytes, length_nil] at size
    omega
  | [lead] =>
    have codelen : codelenOf lead = 1 := encode_codelen bytes admitted
    have admits := (admits1_iff codelen).2 (passes bytes)
    rw [singleton_append]
    constructor
    · conv_lhs => unfold mqttValidateUtf8
      simp [codelen, admits]
    · conv_lhs => unfold examinesBehind
      simp [codelen, admits]
  | [lead, second] =>
    have codelen : codelenOf lead = 2 := encode_codelen bytes admitted
    have admits := (admits2_iff codelen).2 (passes bytes)
    simp [mqttValidateUtf8, examinesBehind, codelen, admits]
  | [lead, second, third] =>
    have codelen : codelenOf lead = 3 := encode_codelen bytes admitted
    have admits := (admits3_iff codelen).2 (passes bytes)
    simp [mqttValidateUtf8, examinesBehind, codelen, admits]
  | [lead, second, third, fourth] =>
    have codelen : codelenOf lead = 4 := encode_codelen bytes admitted
    have admits := (admits4_iff codelen).2 (passes bytes)
    simp [mqttValidateUtf8, examinesBehind, codelen, admits]
  | _ :: _ :: _ :: _ :: _ :: _ =>
    rw [bytes] at size
    simp only [length_cons] at size
    omega

theorem encode_steps (after : List UInt8) (chars : List Char)
    (admitted : ∀ c ∈ chars, admittedChar c = true) (rest : List UInt8) :
    mqttValidateUtf8 after (chars.flatMap String.utf8EncodeChar ++ rest) =
        mqttValidateUtf8 after rest ∧
      examinesBehind (chars.flatMap String.utf8EncodeChar ++ rest) = examinesBehind rest := by
  induction chars with
  | nil => exact ⟨rfl, rfl⟩
  | cons c others ih =>
    have ⟨valid, behind⟩ := ih fun other member => admitted other (mem_cons_of_mem c member)
    have step := encode_step after (admitted c mem_cons_self)
      (others.flatMap String.utf8EncodeChar ++ rest)
    rw [flatMap_cons, append_assoc]
    exact ⟨step.1.trans valid, step.2.trans behind⟩

/-- A text begins with an admitted character, or is refused inside, or is a cut sequence. -/
theorem next_sequence (after : List UInt8) (lead : UInt8) (rest : List UInt8) :
    (∃ c tail, lead :: rest = String.utf8EncodeChar c ++ tail ∧ admittedChar c = true) ∨
      (mqttValidateUtf8 after (lead :: rest) = false ∧ examinesBehind (lead :: rest) = false) ∨
      (examinesBehind (lead :: rest) = true ∧ cutSequence (lead :: rest) = true) := by
  have found {bytes : List UInt8} (tail : List UInt8)
      (encoded : ∃ c : Char, String.utf8EncodeChar c = bytes ∧ admittedChar c = true) :
      ∃ (c : Char) (tail' : List UInt8), bytes ++ tail = String.utf8EncodeChar c ++ tail' ∧
        admittedChar c = true := by
    obtain ⟨c, encode, admitted⟩ := encoded
    exact ⟨c, tail, by rw [encode], admitted⟩
  rcases codelenOf_range lead with ⟨zero, _⟩ | ⟨one, _⟩ | ⟨two, _⟩ | ⟨three, _⟩ | ⟨four, _⟩
  · refine .inr (.inl ?_)
    unfold mqttValidateUtf8 examinesBehind
    simp [zero]
  · by_cases admits : codepointAdmitted 1 lead.toNat = true
    · exact .inl (found rest ((admits1_iff one).1 admits))
    · refine .inr (.inl ?_)
      unfold mqttValidateUtf8 examinesBehind
      simp [one, Bool.eq_false_iff.2 admits]
  · cases rest with
    | cons second rest =>
      by_cases admits : admits2 lead second = true
      · exact .inl (found rest ((admits2_iff two).1 admits))
      · exact .inr (.inl (by simp [mqttValidateUtf8, examinesBehind, two, admits]))
    | nil => exact .inr (.inl (by simp [mqttValidateUtf8, examinesBehind, two]))
  · rcases rest with _ | ⟨second, _ | ⟨third, rest⟩⟩
    · exact .inr (.inr (by simp [examinesBehind, cutSequence, three]))
    · exact .inr (.inl (by simp [mqttValidateUtf8, examinesBehind, three]))
    · by_cases admits : admits3 lead second third = true
      · exact .inl (found rest ((admits3_iff three).1 admits))
      · exact .inr (.inl (by simp [mqttValidateUtf8, examinesBehind, three, admits]))
  · rcases rest with _ | ⟨second, _ | ⟨third, _ | ⟨fourth, rest⟩⟩⟩
    · exact .inr (.inr (by simp [examinesBehind, cutSequence, four]))
    · by_cases follows : continuation second = true
      · exact .inr (.inr (by simp [examinesBehind, cutSequence, four, follows]))
      · exact .inr (.inl (by simp [mqttValidateUtf8, examinesBehind, four, follows, admits4]))
    · exact .inr (.inl (by simp [mqttValidateUtf8, examinesBehind, four]))
    · by_cases admits : admits4 lead second third fourth = true
      · exact .inl (found rest ((admits4_iff four).1 admits))
      · exact .inr (.inl (by simp [mqttValidateUtf8, examinesBehind, four, admits]))

theorem examinesBehind_cut {text : List UInt8} (cut : cutSequence text = true) :
    examinesBehind text = true := by
  match text with
  | lead :: rest =>
    simp only [cutSequence, Bool.and_eq_true, decide_eq_true_eq] at cut
    rcases codelenOf_range lead with ⟨zero, _⟩ | ⟨one, _⟩ | ⟨two, _⟩ | ⟨three, _⟩ | ⟨four, _⟩
    · omega
    · omega
    · omega
    · have nothing : rest = [] := eq_nil_of_length_eq_zero (by omega)
      simp [nothing, examinesBehind, three]
    · match rest with
      | [] => simp [examinesBehind, four]
      | [second] =>
        have follows : continuation second = true := by simpa using cut.2
        simp [examinesBehind, four, follows]
      | _ :: _ :: _ => simp [four] at cut

end Sequences

theorem WellFormed.append {whole rest : List UInt8} (first : WellFormed whole)
    (last : WellFormed rest) : WellFormed (whole ++ rest) := by
  have ⟨chars, encode, admitted⟩ := first
  have ⟨others, encode', admitted'⟩ := last
  refine ⟨chars ++ others, by rw [encode, encode', flatMap_append], fun c member => ?_⟩
  exact (mem_append.1 member).elim (admitted c) (admitted' c)

theorem wellFormed_char {c : Char} (admitted : admittedChar c = true) :
    WellFormed (String.utf8EncodeChar c) :=
  ⟨[c], by simp, fun _ member => mem_singleton.1 member ▸ admitted⟩

/-- Inside the text the check accepts well formed texts only, and it leaves the text at the end of
one that is cut short. -/
theorem utf8_checked (after : List UInt8) (text : List UInt8) :
    (examinesBehind text = true → CutShort text) ∧
      (examinesBehind text = false → mqttValidateUtf8 after text = true → WellFormed text) := by
  match text with
  | [] => exact ⟨fun behind => by simp [examinesBehind] at behind, fun _ _ => ⟨[], rfl, by simp⟩⟩
  | lead :: rest =>
    rcases next_sequence after lead rest with ⟨c, tail, split, admitted⟩ | ⟨refused, inside⟩ |
      ⟨behind, cut⟩
    · have shorter : tail.length < (lead :: rest).length := by
        rw [split, length_append]
        have := Char.utf8Size_pos c
        simp only [String.length_utf8EncodeChar]
        omega
      have ⟨short, whole⟩ := utf8_checked after tail
      have ⟨valid, behind⟩ := encode_step after admitted tail
      rw [split, valid, behind]
      refine ⟨fun examined => ?_, fun inside accepted =>
        (wellFormed_char admitted).append (whole inside accepted)⟩
      have ⟨first, last, parts, formed, cut⟩ := short examined
      exact ⟨String.utf8EncodeChar c ++ first, last, by rw [parts, append_assoc],
        (wellFormed_char admitted).append formed, cut⟩
    · simp [refused, inside]
    · refine ⟨fun _ => ⟨[], lead :: rest, rfl, ⟨[], rfl, by simp⟩, cut⟩, fun inside => ?_⟩
      rw [behind] at inside
      cases inside
termination_by text.length
decreasing_by exact shorter

/-- The check is exact and stays inside the text unless the text is cut short. -/
theorem validate_utf8_iff (after text : List UInt8) (fits : text.length ≤ 65536) :
    ((validateUtf8 after text = 0 ↔ WellFormed text) ∧ examinesBehind text = false) ↔
      ¬ CutShort text := by
  have ⟨short, whole⟩ := utf8_checked after text
  have result : validateUtf8 after text = 0 ↔ mqttValidateUtf8 after text = true := by
    rw [validateUtf8, if_neg (by omega)]
    split <;> simp_all
  constructor
  · rintro ⟨-, inside⟩ ⟨first, last, split, ⟨chars, encode, admitted⟩, cut⟩
    rw [split, encode, (encode_steps after chars admitted last).2, examinesBehind_cut cut] at inside
    cases inside
  · intro notCut
    have inside : examinesBehind text = false := Bool.eq_false_iff.2 fun behind =>
      notCut (short behind)
    refine ⟨result.trans ⟨whole inside, ?_⟩, inside⟩
    rintro ⟨chars, encode, admitted⟩
    have steps := (encode_steps after chars admitted []).1
    rw [List.append_nil, ← encode] at steps
    rw [steps]
    rfl

/-- A text of one byte that begins a sequence of three is taken with the bytes behind it. -/
theorem validate_utf8_behind :
    validateUtf8 [0x82, 0xAC] [0xE2] = 0 ∧ ¬ WellFormed [0xE2] ∧ examinesBehind [0xE2] = true := by
  refine ⟨by decide, ?_, by decide⟩
  rintro ⟨chars, encode, admitted⟩
  have steps := (encode_steps [] chars admitted []).2
  rw [List.append_nil, ← encode] at steps
  exact absurd steps (by decide)

/-- A text of two characters of two bytes. -/
theorem validate_utf8_plain :
    (validateUtf8 [] [0xC3, 0xB1, 0xC3, 0xA9] = 0 ↔ WellFormed [0xC3, 0xB1, 0xC3, 0xA9]) ∧
      examinesBehind [0xC3, 0xB1, 0xC3, 0xA9] = false := by
  apply (validate_utf8_iff [] _ (by decide)).2
  rintro ⟨whole, rest, split, ⟨chars, encode, admitted⟩, cut⟩
  have behind := (encode_steps [] chars admitted rest).2
  rw [← encode, ← split, examinesBehind_cut cut] at behind
  exact absurd behind (by decide)

end Yunetas.Mqtt
