import Yunetas.Gobj.Gbuffer

/-!
# Base 64 both ways

Every list of bytes is read back from its encoding, and every text that the decoder accepts is,
without its white space, the encoding of what was decoded: the state of the decoder spells the
characters read so far, since the bits that slop past the last byte must be zero at the end.
-/

namespace Yunetas.Gobj

open List Option

/-- The encoding of bytes, in a target that is long enough. -/
def encoded64 : List UInt8 → List Char
  | first :: second :: third :: rest => base64Group first second third ++ encoded64 rest
  | [first, second] => (base64Group first second 0).take 3 ++ [pad64]
  | [first] => (base64Group first 0 0).take 2 ++ [pad64, pad64]
  | [] => []

theorem b64Encode_encoded64 {targsize : Nat} (src : List UInt8) (datalength : Nat)
    (room : datalength + (src.length + 2) / 3 * 4 < targsize) :
    b64Encode targsize src datalength = some (encoded64 src) := by
  fun_induction b64Encode targsize src datalength with
  | case1 first second third rest datalength short =>
    simp only [length_cons] at room
    omega
  | case2 first second third rest datalength enough ih =>
    simp only [length_cons] at room
    rw [ih (by omega)]
    rfl
  | case3 first second datalength short =>
    simp only [length_cons, length_nil] at room
    omega
  | case4 first second datalength enough => rfl
  | case5 first datalength short =>
    simp only [length_cons, length_nil] at room
    omega
  | case6 first datalength enough => rfl
  | case7 datalength short =>
    omega
  | case8 datalength enough => rfl

theorem encoded64_append (rest : List UInt8) : ∀ {full : List UInt8}, full.length % 3 = 0 →
    encoded64 (full ++ rest) = encoded64 full ++ encoded64 rest
  | [], _ => rfl
  | [_], short => nomatch short
  | [_, _], short => nomatch short
  | first :: second :: third :: more, groups => by
    have fewer : more.length % 3 = 0 := by
      simp only [length_cons] at groups
      omega
    show base64Group first second third ++ encoded64 (more ++ rest) = _
    rw [encoded64_append rest fewer, ← append_assoc]
    rfl

theorem or_bits (high low : Nat) :
    (high < 64 → low < 4 → (UInt8.ofNat (high * 4) ||| UInt8.ofNat low).toNat = high * 4 + low) ∧
    (high < 16 → low < 16 → (UInt8.ofNat (high * 16) ||| UInt8.ofNat low).toNat = high * 16 + low) ∧
    (high < 4 → low < 64 →
      (UInt8.ofNat (high * 64) ||| UInt8.ofNat low).toNat = high * 64 + low) := by
  have first : ∀ high : Fin 64, ∀ low : Fin 4,
      (UInt8.ofNat (high.val * 4) ||| UInt8.ofNat low.val).toNat = high.val * 4 + low.val := by
    decide +kernel
  have second : ∀ high : Fin 16, ∀ low : Fin 16,
      (UInt8.ofNat (high.val * 16) ||| UInt8.ofNat low.val).toNat = high.val * 16 + low.val := by
    decide +kernel
  have third : ∀ high : Fin 4, ∀ low : Fin 64,
      (UInt8.ofNat (high.val * 64) ||| UInt8.ofNat low.val).toNat = high.val * 64 + low.val := by
    decide +kernel
  exact ⟨fun highBound lowBound => first ⟨high, highBound⟩ ⟨low, lowBound⟩,
    fun highBound lowBound => second ⟨high, highBound⟩ ⟨low, lowBound⟩,
    fun highBound lowBound => third ⟨high, highBound⟩ ⟨low, lowBound⟩⟩

/-- The characters that a state of the decoder has read. -/
inductive Spells : Decoding → List Char → Prop
  | groups {full : List UInt8} (next : UInt8) (whole : full.length % 3 = 0) :
    Spells ⟨full, next, 0⟩ (encoded64 full)
  | first {full : List UInt8} {sextet : Nat} (whole : full.length % 3 = 0) (bound : sextet < 64) :
    Spells ⟨full, UInt8.ofNat (sextet * 4), 1⟩ (encoded64 full ++ [base64Char sextet])
  | second {full : List UInt8} {byte : UInt8} {low : Nat} (whole : full.length % 3 = 0)
    (bound : low < 16) :
    Spells ⟨full ++ [byte], UInt8.ofNat (low * 16), 2⟩
      (encoded64 full ++ [base64Char (byte.toNat / 4), base64Char (byte.toNat % 4 * 16 + low)])
  | third {full : List UInt8} {byte other : UInt8} {low : Nat} (whole : full.length % 3 = 0)
    (bound : low < 4) :
    Spells ⟨full ++ [byte, other], UInt8.ofNat (low * 64), 3⟩
      (encoded64 full ++ [base64Char (byte.toNat / 4),
        base64Char (byte.toNat % 4 * 16 + other.toNat / 16),
        base64Char (other.toNat % 16 * 4 + low)])

theorem Spells.sextet {targsize : Nat} {decoding after : Decoding} {chars : List Char}
    {sextet : Nat} (spells : Spells decoding chars) (bound : sextet < 64)
    (step : decodeSextet targsize decoding sextet = some after) :
    Spells after (chars ++ [base64Char sextet]) := by
  cases spells with
  | @groups full before whole =>
    have next := (ite_none_left_eq_some.1 step).2
    rw [← some.inj next]
    exact .first whole bound
  | @first full high whole highBound =>
    have next := (ite_none_left_eq_some.1 step).2
    have bits := (or_bits high (sextet / 16)).1 highBound (by omega)
    have read := @Spells.second full (UInt8.ofNat (high * 4) ||| UInt8.ofNat (sextet / 16))
      (sextet % 16) whole (by omega)
    have upper : (high * 4 + sextet / 16) / 4 = high := by omega
    have lower : (high * 4 + sextet / 16) % 4 * 16 + sextet % 16 = sextet := by omega
    rw [bits, upper, lower] at read
    rw [← some.inj next, append_assoc]
    exact read
  | @second full byte high whole highBound =>
    have next := (ite_none_left_eq_some.1 step).2
    have bits := (or_bits high (sextet / 4)).2.1 highBound (by omega)
    have read := @Spells.third full byte (UInt8.ofNat (high * 16) ||| UInt8.ofNat (sextet / 4))
      (sextet % 4) whole (by omega)
    have upper : (high * 16 + sextet / 4) / 16 = high := by omega
    have lower : (high * 16 + sextet / 4) % 16 * 4 + sextet % 4 = sextet := by omega
    rw [bits, upper, lower] at read
    rw [← some.inj next, append_assoc, append_assoc]
    exact read
  | @third full byte other high whole highBound =>
    have next := (ite_none_left_eq_some.1 step).2
    have bits := (or_bits high sextet).2.2 highBound bound
    have upper : (high * 64 + sextet) / 64 = high := by omega
    have lower : (high * 64 + sextet) % 64 = sextet := by omega
    have group : encoded64 (full ++ [byte, other, UInt8.ofNat (high * 64) ||| UInt8.ofNat sextet])
        = encoded64 full ++ [base64Char (byte.toNat / 4),
          base64Char (byte.toNat % 4 * 16 + other.toNat / 16),
          base64Char (other.toNat % 16 * 4 + high), base64Char sextet] := by
      rw [encoded64_append _ whole]
      show encoded64 full ++ (base64Group byte other _ ++ []) = _
      unfold base64Group
      rw [bits, upper, lower]
      rfl
    have read := @Spells.groups
      (full ++ [byte, other, UInt8.ofNat (high * 64) ||| UInt8.ofNat sextet]) 0 (by simp [whole])
    rw [group] at read
    rw [← some.inj next, append_assoc, append_assoc]
    exact read

/-- A text without its white space. -/
def unspaced (text : List Char) : List Char := text.filter fun ch => !isspace ch

theorem unspaced_spaces {text : List Char} (spaces : text.all isspace = true) :
    unspaced text = [] := by
  unfold unspaced
  rw [filter_eq_nil_iff]
  intro ch among
  simpa using all_eq_true.1 spaces ch among

theorem unspaced_cons_space {ch : Char} (space : isspace ch = true) (rest : List Char) :
    unspaced (ch :: rest) = unspaced rest := by
  unfold unspaced
  rw [filter_cons, if_neg (by simp [space])]

theorem unspaced_cons {ch : Char} (other : isspace ch = false) (rest : List Char) :
    unspaced (ch :: rest) = ch :: unspaced rest := by
  unfold unspaced
  rw [filter_cons, if_pos (by simp [other])]

theorem unspaced_dropWhile (text : List Char) :
    unspaced (text.dropWhile isspace) = unspaced text := by
  induction text with
  | nil => rfl
  | cons ch rest ih =>
    cases space : isspace ch with
    | true => rw [dropWhile_cons_of_pos space, ih, unspaced_cons_space space]
    | false =>
      have kept : (ch :: rest).dropWhile isspace = ch :: rest :=
        dropWhile_cons_of_neg (by simp [space])
      rw [kept]

variable {decoding : Decoding} {bytes : List UInt8}

theorem decodeTail_some {rest : List Char} (accepted : decodeTail decoding rest = some bytes) :
    unspaced rest = [] ∧ decoding.next = 0 ∧ bytes = decoding.target := by
  unfold decodeTail at accepted
  split at accepted
  · rename_i spaces
    have inner := ite_none_left_eq_some.1 accepted
    exact ⟨unspaced_spaces spaces, Decidable.not_not.1 inner.1, (some.inj inner.2).symm⟩
  · cases accepted

theorem decodePad_encoded {chars rest : List Char}
    (spells : Spells decoding chars) (accepted : decodePad decoding rest = some bytes) :
    encoded64 bytes = chars ++ pad64 :: unspaced rest := by
  have zero : ∀ low : Nat, ∀ unit : Nat, low * unit < 256 → UInt8.ofNat (low * unit) = 0 →
      low * unit = 0 := by
    intro low unit small empty
    have value : (UInt8.ofNat (low * unit)).toNat = 0 := congrArg UInt8.toNat empty
    have read : (UInt8.ofNat (low * unit)).toNat = low * unit :=
      UInt8.toNat_ofNat_of_lt (by simp [UInt8.size, small])
    omega
  cases spells with
  | groups next whole => cases accepted
  | first whole bound => cases accepted
  | @second full byte low whole bound =>
    simp only [decodePad] at accepted
    split at accepted
    · cases accepted
    · rename_i ch later shape
      have inner := ite_none_left_eq_some.1 accepted
      have pad : ch = pad64 := Decidable.not_not.1 inner.1
      have tail := decodeTail_some inner.2
      have none := zero low 16 (by omega) tail.2.1
      have text : unspaced rest = [pad64] := by
        rw [← unspaced_dropWhile rest, shape, pad, unspaced_cons (by decide), tail.1]
      have first : low = 0 := by omega
      rw [tail.2.2, encoded64_append _ whole, text, first, append_assoc]
      rfl
  | @third full byte other low whole bound =>
    have tail := decodeTail_some (show decodeTail _ rest = some bytes from accepted)
    have none := zero low 64 (by omega) tail.2.1
    have first : low = 0 := by omega
    rw [tail.2.2, encoded64_append _ whole, tail.1, first, append_assoc]
    rfl

/-- A text that is accepted is, without its white space, the encoding of what was decoded. -/
theorem b64Decode_encoded {targsize : Nat} {chars text : List Char} (spells : Spells decoding chars)
    (accepted : b64Decode targsize decoding text = some bytes) :
    encoded64 bytes = chars ++ unspaced text := by
  induction text generalizing decoding chars with
  | nil =>
    have inner := ite_none_left_eq_some.1 accepted
    rw [← some.inj inner.2]
    cases spells with
    | groups next whole => exact (append_nil _).symm
    | first whole bound => exact absurd (show (1 : Nat) ≠ 0 by decide) inner.1
    | second whole bound => exact absurd (show (2 : Nat) ≠ 0 by decide) inner.1
    | third whole bound => exact absurd (show (3 : Nat) ≠ 0 by decide) inner.1
  | cons ch rest ih =>
    rw [b64Decode] at accepted
    split at accepted
    · rename_i space
      rw [unspaced_cons_space space]
      exact ih spells accepted
    · rename_i other
      rw [unspaced_cons (by simpa using other)]
      split at accepted
      · rename_i pad
        rw [pad]
        exact decodePad_encoded spells accepted
      · split at accepted
        · cases accepted
        · rename_i sextet found
          split at accepted
          · cases accepted
          · rename_i after step
            have place := idxOf?_eq_some_iff.1 found
            have bound : sextet < 64 := place.choose
            have char : base64Char sextet = ch := by
              unfold base64Char
              rw [getD_eq_getElem?_getD, getElem?_eq_getElem place.choose, getD_some]
              exact place.choose_spec.1
            have read := ih (spells.sextet bound step) accepted
            rw [read, char, append_assoc, singleton_append]

theorem decodeSextet_length {targsize sextet : Nat} {decoding after : Decoding}
    (step : decodeSextet targsize decoding sextet = some after)
    (inside : decoding.target.length ≤ targsize) : after.target.length ≤ targsize := by
  unfold decodeSextet at step
  split at step
  · have inner := ite_none_left_eq_some.1 step
    rw [← some.inj inner.2]
    exact inside
  · have inner := ite_none_left_eq_some.1 step
    rw [← some.inj inner.2, length_append, length_singleton]
    omega
  · have inner := ite_none_left_eq_some.1 step
    rw [← some.inj inner.2, length_append, length_singleton]
    omega
  · have inner := ite_none_left_eq_some.1 step
    rw [← some.inj inner.2, length_append, length_singleton]
    omega
  · cases step

theorem b64Decode_length {targsize : Nat} {text : List Char}
    (accepted : b64Decode targsize decoding text = some bytes)
    (inside : decoding.target.length ≤ targsize) : bytes.length ≤ targsize := by
  have tail (rest : List Char) (accepted : decodeTail decoding rest = some bytes) :
      bytes.length ≤ targsize := by
    rw [(decodeTail_some accepted).2.2]
    exact inside
  induction text generalizing decoding with
  | nil =>
    have inner := ite_none_left_eq_some.1 accepted
    rw [← some.inj inner.2]
    exact inside
  | cons ch rest ih =>
    rw [b64Decode] at accepted
    split at accepted
    · exact ih accepted inside tail
    · split at accepted
      · unfold decodePad at accepted
        split at accepted
        · cases accepted
        · cases accepted
        · split at accepted
          · cases accepted
          · exact tail _ (ite_none_left_eq_some.1 accepted).2
        · exact tail _ accepted
      · split at accepted
        · cases accepted
        · split at accepted
          · cases accepted
          · rename_i after step
            have later := decodeSextet_length step inside
            apply ih accepted later
            intro more ended
            rw [(decodeTail_some ended).2.2]
            exact later

theorem gbufferBase64ToBinary_some {maxBlock : Nat} {text : List Char} {gbuf : Gbuffer}
    (accepted : gbufferBase64ToBinary maxBlock text = some gbuf) :
    b64Decode (b64OutputDecodeLen (strlen text)) ⟨[], 0, 0⟩ text = some gbuf.leftBytes := by
  unfold gbufferBase64ToBinary at accepted
  dsimp only at accepted
  split at accepted
  · cases accepted
  · rename_i output created
    split at accepted
    · cases accepted
    · rename_i decoded read
      have size := (some.inj (ite_none_left_eq_some.1 created).2).symm
      have inside := b64Decode_length read (Nat.zero_le _)
      have written : (gbufferSetWr output decoded).leftBytes = decoded := by
        unfold gbufferSetWr
        rw [dif_pos (by rw [size]; exact inside)]
        rfl
      rw [read, ← some.inj accepted, written]

/-- Labels as `gbuffer_setlabel` leaves them: none, or a copy of a C string. -/
def LabelSet (maxBlock : Nat) (gbuf : Gbuffer) : Prop :=
  ∃ label : Option (List Char), gbuf.label = label.bind (gbmemStrdup maxBlock)

theorem LabelSet.copied {maxBlock : Nat} {gbuf : Gbuffer} (set : LabelSet maxBlock gbuf)
    (room : 1 ≤ maxBlock) :
    gbmemStrdup maxBlock (gbuf.label.getD []) = some (gbuf.label.getD []) := by
  have ⟨label, set⟩ := set
  have empty : gbmemStrdup maxBlock [] = some [] := if_neg (show ¬ 0 + 1 > maxBlock by omega)
  cases label with
  | none =>
    rw [set]
    exact empty
  | some text =>
    rw [set, bind_some]
    by_cases long : strlen (cString text) + 1 > maxBlock
    · have failed : gbmemStrdup maxBlock text = none := if_pos long
      rw [failed]
      exact empty
    · have kept : gbmemStrdup maxBlock text = some (cString text) := if_neg long
      have again : cString (cString text) = cString text := by
        exact takeWhile_idem
      rw [kept, getD_some]
      unfold gbmemStrdup
      rw [again, if_neg long]

/-- Bytes come back from their encoding where both texts fit in a block; a text that is accepted
is, without its white space, the encoding of what was decoded, so that texts with the same bytes
differ in white space only; and a gbuffer comes back from its serialization with its unread bytes,
its mark and its label, where none becomes an empty one. -/
theorem base64_round_trips (maxBlock : Nat) :
    (∀ src : List UInt8, b64OutputEncodeLen src.length < maxBlock →
      b64OutputDecodeLen ((src.length + 2) / 3 * 4) < maxBlock →
      ∃ text copy, gbufferBinaryToBase64 maxBlock src = some text ∧
        gbufferBase64ToBinary maxBlock text = some copy ∧ copy.leftBytes = src) ∧
    (∀ (text : List Char) (gbuf : Gbuffer), gbufferBase64ToBinary maxBlock text = some gbuf →
      b64OutputEncodeLen gbuf.leftBytes.length < maxBlock →
      gbufferBinaryToBase64 maxBlock gbuf.leftBytes = some (unspaced text)) ∧
    (∀ (text other : List Char) (gbuf copy : Gbuffer),
      gbufferBase64ToBinary maxBlock text = some gbuf →
      gbufferBase64ToBinary maxBlock other = some copy → gbuf.leftBytes = copy.leftBytes →
      unspaced text = unspaced other) ∧
    (∀ gbuf : Gbuffer, LabelSet maxBlock gbuf →
      b64OutputEncodeLen gbuf.leftBytes.length < maxBlock →
      b64OutputDecodeLen ((gbuf.leftBytes.length + 2) / 3 * 4) < maxBlock →
      ∃ copy, gbufferDeserialize maxBlock (gbufferSerialize maxBlock gbuf) = some copy ∧
        copy.leftBytes = gbuf.leftBytes ∧ copy.mark = gbuf.mark ∧
        copy.label = some (gbuf.label.getD [])) := by
  have spelled (text : List Char) (gbuf : Gbuffer)
      (accepted : gbufferBase64ToBinary maxBlock text = some gbuf) :
      encoded64 gbuf.leftBytes = unspaced text :=
    b64Decode_encoded (@Spells.groups [] 0 rfl) (gbufferBase64ToBinary_some accepted)
  refine ⟨?bytes, ?text, ?injective, ?serialized⟩
  case bytes =>
    intro src room otherRoom
    have ⟨text, copy, sent, _, received, bytes⟩ :=
      base64ToBinary_binaryToBase64 room otherRoom
    exact ⟨text, copy, sent, received, bytes⟩
  case text =>
    intro text gbuf accepted room
    have encoded := @b64Encode_encoded64 (b64OutputEncodeLen gbuf.leftBytes.length)
      gbuf.leftBytes 0 (by unfold b64OutputEncodeLen; omega)
    unfold gbufferBinaryToBase64
    dsimp only
    rw [gbufferCreate_room room]
    rw [encoded, spelled text gbuf accepted]
  case injective =>
    intro text other gbuf copy accepted also same
    rw [← spelled text gbuf accepted, same, spelled other copy also]
  case serialized =>
    intro gbuf set room otherRoom
    have ⟨copy, built, bytes, mark, label⟩ := gbufferDeserialize_serialized room otherRoom
    refine ⟨copy, built, bytes, mark, ?_⟩
    rw [label, set.copied (by omega)]

/-- Two bytes come back. -/
theorem base64_round_trips_bytes :
    ∃ text copy, gbufferBinaryToBase64 64 [0, 255] = some text ∧
      gbufferBase64ToBinary 64 text = some copy ∧ copy.leftBytes = [0, 255] :=
  (base64_round_trips 64).1 [0, 255] (by decide) (by decide)

/-- An empty gbuffer without a label. -/
def unlabelled : Gbuffer :=
  { data := [], dataSize := 8, maxMemorySize := 8, written := Nat.le_refl .zero, fits := Nat.zero_le _ }

/-- It comes back with an empty label. -/
theorem label_not_kept :
    unlabelled.label = none ∧ LabelSet 64 unlabelled ∧
    (gbufferDeserialize 64 (gbufferSerialize 64 unlabelled)).map (fun copy => copy.label) =
      some (some []) :=
  ⟨rfl, ⟨none, rfl⟩, by decide⟩

end Yunetas.Gobj
