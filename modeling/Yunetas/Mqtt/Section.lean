import Yunetas.Mqtt.Property

/-!
# What stands in a property section

A section is its length and its items, an identifier with a number, some bytes or two texts each.
`property_read_all` accepts exactly such sections, and makes its json object of the items one after
another.
-/

namespace Yunetas.Mqtt

open List Option

/-! ## The readers of numbers and texts -/

variable {gbuf rest : List UInt8} {memory gbuf rest : List UInt8} {memory rest : List UInt8}

theorem readVarintBytes_sound {left lbytes mult lword : Nat} {word count : Nat}
    (found : readVarintBytes left lbytes mult lword gbuf = some (word, count, rest)) :
    ∃ number, number < 128 ^ left ∧ (0 < lbytes → 0 < number) ∧
      gbuf = varint left number ++ rest ∧ word = lword + number * mult ∧
      count = lbytes + (varint left number).length := by
  induction left generalizing lbytes mult lword gbuf with
  | zero => cases found
  | succ left ih =>
    cases gbuf with
    | nil => cases found
    | cons byte gbuf =>
      have seven := sevenBits_spec byte
      have bound := byte.toNat_lt
      rw [readVarintBytes] at found
      split at found
      · rename_i more
        rw [continues_spec, decide_eq_true_eq] at more
        obtain ⟨high, fits, positive, rfl, rfl, rfl⟩ := ih found
        have first : UInt8.ofNat ((sevenBits byte + 128 * high) % 128 + 128) = byte := by
          apply UInt8.toNat_inj.1
          rw [UInt8.toNat_ofNat']
          omega
        have back : (sevenBits byte + 128 * high) / 128 = high := by omega
        have unfolded : varint (left + 1) (sevenBits byte + 128 * high) = byte :: varint left high := by
          rw [varint, if_neg (by omega), first, back]
        refine ⟨sevenBits byte + 128 * high, by omega, fun _ => by omega, ?_, ?_, ?_⟩
        · rw [unfolded]
          rfl
        · ring
        · rw [unfolded, length_cons]
          omega
      · rename_i last
        rw [continues_spec, decide_eq_true_eq] at last
        split at found
        · cases found
        · rename_i minimal
          obtain ⟨rfl, rfl, rfl⟩ : lword + sevenBits byte * mult = word ∧ lbytes + 1 = count ∧
              gbuf = rest := by
            simpa only [some.injEq, Prod.mk.injEq] using found
          have unfolded : varint (left + 1) (sevenBits byte) = [byte] := by
            have same : UInt8.ofNat (sevenBits byte) = byte := by
              apply UInt8.toNat_inj.1
              rw [UInt8.toNat_ofNat']
              omega
            rw [varint, if_pos (sevenBits_lt byte), same]
          have positive : 0 < 128 ^ left := Nat.pow_pos (by decide)
          refine ⟨sevenBits byte, by omega, fun later => ?_, by rw [unfolded]; rfl, rfl,
            by rw [unfolded]; rfl⟩
          by_contra zero
          refine minimal ⟨by omega, UInt8.toNat_inj.1 ?_⟩
          show byte.toNat = 0
          omega

theorem readVarintBytes_complete {left lbytes mult lword number : Nat} (rest : List UInt8)
    (fits : number < 128 ^ left) (positive : 0 < left) (minimal : 0 < lbytes → 0 < number) :
    readVarintBytes left lbytes mult lword (varint left number ++ rest) =
      some (lword + number * mult, lbytes + (varint left number).length, rest) := by
  induction left generalizing lbytes mult lword number with
  | zero => exact absurd positive (by decide)
  | succ left ih =>
    unfold varint
    split
    · rename_i small
      rw [singleton_append, readVarintBytes, (last_byte small).1, (last_byte small).2]
      have kept : ¬(lbytes + 1 > 1 ∧ UInt8.ofNat number = 0) := by
        rintro ⟨later, zero⟩
        have value := congrArg UInt8.toNat zero
        rw [UInt8.toNat_ofNat'] at value
        change number % 2 ^ 8 = 0 at value
        omega
      rw [if_neg (by decide), if_neg kept]
      rfl
    · have some_left : 0 < left := by
        by_contra none
        rw [Nat.eq_zero_of_not_pos none] at fits
        omega
      rw [cons_append, readVarintBytes, (earlier_byte number).1, (earlier_byte number).2,
        if_pos rfl, ih (by omega) some_left (fun _ => by omega)]
      have joined : number % 128 * mult + number / 128 * (mult * 128) = number * mult := by
        calc number % 128 * mult + number / 128 * (mult * 128) =
              (number % 128 + 128 * (number / 128)) * mult := by ring
          _ = number * mult := by rw [Nat.mod_add_div]
      rw [length_cons, Nat.add_assoc lword, joined, Nat.add_right_comm, Nat.add_assoc lbytes]

theorem readVarintBytes_long {left lbytes mult lword number : Nat} (rest : List UInt8)
    (large : 128 ^ left ≤ number) :
    readVarintBytes left lbytes mult lword (varint (left + 1) number ++ rest) = none := by
  induction left generalizing lbytes mult lword number with
  | zero => rfl
  | succ left ih =>
    have positive : 0 < 128 ^ left := Nat.pow_pos (by decide)
    rw [varint, if_neg (by omega), cons_append, readVarintBytes, (earlier_byte number).1,
      if_pos rfl]
    exact ih (by omega)

theorem mqttReadVarint_sound {word count : Nat}
    (found : mqttReadVarint gbuf = some (word, count, rest)) :
    word < 2 ^ 28 ∧ gbuf = varint 4 word ++ rest ∧ count = (varint 4 word).length := by
  obtain ⟨number, fits, -, bytes, rfl, rfl⟩ := readVarintBytes_sound found
  rw [Nat.zero_add, Nat.zero_add, Nat.mul_one]
  exact ⟨lt_of_lt_of_eq fits (by decide), bytes, rfl⟩

theorem mqttReadVarint_complete {number : Nat} (fits : number < 2 ^ 28) (rest : List UInt8) :
    mqttReadVarint (varint 4 number ++ rest) = some (number, (varint 4 number).length, rest) := by
  have read := @readVarintBytes_complete 4 0 1 0 number rest (lt_of_lt_of_eq fits (by decide))
    (by decide) (fun impossible => absurd impossible (by decide))
  rwa [Nat.zero_add, Nat.zero_add, Nat.mul_one] at read

theorem mqttWriteVarint_eq {number : Nat} (fits : number < 2 ^ 28) :
    mqttWriteVarint number = varint 4 number := by
  rw [mqttWriteVarint, Nat.mod_eq_of_lt (by omega)]
  exact varint_length_of_lt (by decide) (lt_of_lt_of_eq fits (by decide)) 1

theorem mqttReadUint16_sound {word : Nat} (found : mqttReadUint16 gbuf = some (word, rest)) :
    word < 2 ^ 16 ∧ gbuf = toBigEndian 2 word ++ rest := by
  unfold mqttReadUint16 at found
  split at found
  · rename_i msb lsb left
    obtain ⟨rfl, rfl⟩ : msb.toNat * 256 + lsb.toNat = word ∧ left = rest := by
      simpa only [some.injEq, Prod.mk.injEq] using found
    have same := toBigEndian_ofBigEndian [msb, lsb]
    have bound := ofBigEndian_lt [msb, lsb]
    have value : ofBigEndian [msb, lsb] = msb.toNat * 256 + lsb.toNat := by
      simp [ofBigEndian]
    rw [value] at same bound
    rw [length_cons, length_singleton] at same bound
    rw [same, cons_append, singleton_append]
    exact ⟨lt_of_lt_of_eq bound (by decide), rfl⟩
  · cases found

theorem mqttReadUint16_complete {number : Nat} (fits : number < 2 ^ 16) (rest : List UInt8) :
    mqttReadUint16 (toBigEndian 2 number ++ rest) = some (number, rest) := by
  have two : toBigEndian 2 number = [UInt8.ofNat (number / 256), UInt8.ofNat number] := by
    simp [toBigEndian]
  have joined : (UInt8.ofNat (number / 256)).toNat * 256 + (UInt8.ofNat number).toNat = number := by
    rw [UInt8.toNat_ofNat', UInt8.toNat_ofNat']
    omega
  rw [two, cons_append, singleton_append, mqttReadUint16, joined]

theorem mqttReadUint32_sound {word : Nat} (found : mqttReadUint32 gbuf = some (word, rest)) :
    word < 2 ^ 32 ∧ gbuf = toBigEndian 4 word ++ rest := by
  unfold mqttReadUint32 at found
  split at found
  · cases found
  · obtain ⟨rfl, rfl⟩ : ofBigEndian (gbuf.take 4) = word ∧ gbuf.drop 4 = rest := by
      simpa only [some.injEq, Prod.mk.injEq] using found
    have four : (gbuf.take 4).length = 4 := by
      rw [length_take]
      omega
    have same := toBigEndian_ofBigEndian (gbuf.take 4)
    have bound := ofBigEndian_lt (gbuf.take 4)
    rw [four] at same bound
    exact ⟨lt_of_lt_of_eq bound (by decide), by rw [same, take_append_drop]⟩

theorem mqttReadUint32_complete {number : Nat} (fits : number < 2 ^ 32) (rest : List UInt8) :
    mqttReadUint32 (toBigEndian 4 number ++ rest) = some (number, rest) := by
  have four : (toBigEndian 4 number).length = 4 := length_toBigEndian 4 number
  unfold mqttReadUint32
  rw [if_neg (by rw [length_append, four]; omega), take_left' four, drop_left' four,
    ofBigEndian_toBigEndian (lt_of_lt_of_eq fits (by decide))]

/-- Some bytes behind their length. -/
def sized (data : List UInt8) : List UInt8 := toBigEndian 2 data.length ++ data

@[simp] theorem length_sized (data : List UInt8) : (sized data).length = 2 + data.length := by
  rw [sized, length_append, length_toBigEndian]

theorem mqttReadBinary_sound {gbuf rest data : List UInt8}
    (found : mqttReadBinary gbuf = some (data, rest)) :
    data.length < 2 ^ 16 ∧ gbuf = sized data ++ rest := by
  unfold mqttReadBinary at found
  split at found
  · cases found
  · rename_i slen gbuf read
    obtain ⟨fits, rfl⟩ := mqttReadUint16_sound read
    split at found
    · cases found
    · obtain ⟨rfl, rfl⟩ : gbuf.take slen = data ∧ gbuf.drop slen = rest := by
        simpa only [some.injEq, Prod.mk.injEq] using found
      have length : (gbuf.take slen).length = slen := by
        rw [length_take]
        omega
      rw [sized, length, append_assoc, take_append_drop]
      exact ⟨fits, rfl⟩

theorem mqttReadBinary_complete {data : List UInt8} (fits : data.length < 2 ^ 16)
    (rest : List UInt8) : mqttReadBinary (sized data ++ rest) = some (data, rest) := by
  unfold mqttReadBinary sized
  rw [append_assoc, mqttReadUint16_complete fits]
  dsimp only
  rw [if_neg (by rw [length_append]; omega), take_left, drop_left]

/-- A text of no bytes is not checked, any other one is with what follows it. -/
def Passes (after text : List UInt8) : Prop := text ≠ [] → mqttValidateUtf8 after text = true

theorem mqttReadString_sound {memory gbuf rest str : List UInt8}
    (found : mqttReadString memory gbuf = some (str, rest)) :
    str.length < 2 ^ 16 ∧ gbuf = sized str ++ rest ∧ Passes (rest ++ memory) str := by
  unfold mqttReadString at found
  split at found
  · cases found
  · rename_i read gbuf binary
    split at found
    · cases found
    · rename_i valid
      obtain ⟨rfl, rfl⟩ : read = str ∧ gbuf = rest := by
        simpa only [some.injEq, Prod.mk.injEq] using found
      have ⟨fits, bytes⟩ := mqttReadBinary_sound binary
      refine ⟨fits, bytes, fun some_text => ?_⟩
      by_contra refused
      exact valid ⟨some_text, Bool.eq_false_iff.2 refused⟩

theorem mqttReadString_complete {memory rest str : List UInt8} (fits : str.length < 2 ^ 16)
    (passes : Passes (rest ++ memory) str) :
    mqttReadString memory (sized str ++ rest) = some (str, rest) := by
  unfold mqttReadString
  rw [mqttReadBinary_complete fits]
  dsimp only
  rw [if_neg]
  rintro ⟨some_text, refused⟩
  rw [passes some_text] at refused
  cases refused

/-! ## Items -/

/-- What stands behind the identifier of an item. -/
inductive Content
  | number (value : Nat)
  | bytes (data : List UInt8)
  | pair (name value : List UInt8)
  deriving DecidableEq

namespace Content

/-- The content is of a type. -/
def Fits : PropType → Content → Prop
  | .byte, .number value => value < 2 ^ 8
  | .int16, .number value => value < 2 ^ 16
  | .int32, .number value => value < 2 ^ 32
  | .varint, .number value => value < 2 ^ 28
  | .binary, .bytes data | .string, .bytes data => data.length < 2 ^ 16
  | .stringPair, .pair name value => name.length < 2 ^ 16 ∧ value.length < 2 ^ 16
  | _, _ => False

/-- The bytes of a content. -/
def encode : PropType → Content → List UInt8
  | .byte, .number value => toBigEndian 1 value
  | .int16, .number value => toBigEndian 2 value
  | .int32, .number value => toBigEndian 4 value
  | _, .number value => varint 4 value
  | _, .bytes data => sized data
  | _, .pair name value => sized name ++ sized value

/-- The texts of a content pass when `after` follows it. -/
def TextsPass (after : List UInt8) : PropType → Content → Prop
  | .string, .bytes text => Passes after text
  | .stringPair, .pair name value => Passes (sized value ++ after) name ∧ Passes after value
  | _, _ => True

/-- The json value of a content. -/
def value : PropType → Content → Option Value
  | .string, .bytes text => stringValue text
  | .binary, .bytes data => some (.string (gbufferBinaryToBase64 data))
  | _, .number value => some (.integer value)
  | _, _ => none

/-- The json item of a user property. -/
def userProperty : Content → UserProperty
  | .pair name value => .ofTexts name value
  | _ => .ofTexts [] []

end Content

/-- An item of a section. -/
structure Item where
  prop : MqttProp
  content : Content
  deriving DecidableEq

namespace Item

/-- The content is of the type of the property. -/
def Fits (item : Item) : Prop := item.content.Fits item.prop.type

/-- The bytes of an item. -/
def encode (item : Item) : List UInt8 :=
  varint 4 item.prop.code ++ item.content.encode item.prop.type

/-- The texts of an item pass when `after` follows it. -/
def TextsPass (after : List UInt8) (item : Item) : Prop :=
  item.content.TextsPass after item.prop.type

/-- The object with an item more. -/
def addTo (item : Item) (allProperties : Props) : Props :=
  if item.prop = .userProperty then
    allProperties.set (mqttPropertyIdentifierToString .userProperty)
      (.users (userItems allProperties ++ [item.content.userProperty]))
  else
    allProperties.set (mqttPropertyIdentifierToString item.prop)
      (item.prop.object (item.content.value item.prop.type))

/-- The item is not a duplicate. -/
def New (item : Item) (allProperties : Props) : Prop :=
  item.prop = .userProperty ∨
    allProperties.get? (mqttPropertyIdentifierToString item.prop) = none

end Item

@[simp] theorem ofCode?_code (prop : MqttProp) : MqttProp.ofCode? prop.code = some prop := by
  cases prop <;> rfl

theorem code_of_ofCode? {identifier : Nat} {prop : MqttProp}
    (found : MqttProp.ofCode? identifier = some prop) : prop.code = identifier := by
  have passed := find?_some found
  exact of_decide_eq_true passed

theorem type_stringPair {prop : MqttProp} : prop.type = .stringPair ↔ prop = .userProperty := by
  cases prop <;> decide

theorem code_lt (prop : MqttProp) : prop.code < 2 ^ 7 := by
  cases prop <;> decide

theorem length_varint_code (prop : MqttProp) : (varint 4 prop.code).length = 1 := by
  cases prop <;> rfl

/-- A length below 2³² less what was consumed. -/
def Consumes (len consumed left : Nat) : Prop :=
  left < 2 ^ 32 ∧ (left + consumed) % 2 ^ 32 = len % 2 ^ 32

theorem consumes_lenMinus {len consumed : Nat} (small : consumed ≤ 2 ^ 32) :
    Consumes len consumed (lenMinus len consumed) := by
  unfold Consumes lenMinus
  omega

theorem Consumes.trans {len first middle second left : Nat} (one : Consumes len first middle)
    (two : Consumes middle second left) : Consumes len (first + second) left := by
  unfold Consumes at *
  omega

theorem lenMinus_of_le {len consumed : Nat} (enough : consumed ≤ len) (bound : len < 2 ^ 32) :
    lenMinus len consumed = len - consumed := by
  unfold lenMinus
  omega

theorem propertyLenConsume_some {len consumed left : Nat} (bound : len < 2 ^ 32)
    (found : propertyLenConsume len consumed = some left) : Consumes len consumed left := by
  unfold propertyLenConsume at found
  split at found
  · cases found
  · rw [← some.inj found]
    exact consumes_lenMinus (by omega)

theorem propertyLenConsume_of_le {len consumed : Nat} (enough : consumed ≤ len)
    (bound : len < 2 ^ 32) : propertyLenConsume len consumed = some (len - consumed) := by
  unfold propertyLenConsume
  rw [if_neg (by omega), lenMinus_of_le enough bound]

theorem mqttReadByte_sound {byte : UInt8}
    (found : mqttReadByte gbuf = some (byte, rest)) : gbuf = toBigEndian 1 byte.toNat ++ rest := by
  cases gbuf with
  | nil => cases found
  | cons first gbuf =>
    obtain ⟨rfl, rfl⟩ : first = byte ∧ gbuf = rest := by
      simpa only [mqttReadByte, some.injEq, Prod.mk.injEq] using found
    simp [toBigEndian]

theorem readValue_sound {type : PropType} {len left : Nat}
    {value : Option Value} (bound : len < 2 ^ 32)
    (found : readValue memory type gbuf len = some (rest, left, value)) :
    ∃ content : Content, content.Fits type ∧ content.TextsPass (rest ++ memory) type ∧
      gbuf = content.encode type ++ rest ∧ value = content.value type ∧
      Consumes len (content.encode type).length left := by
  unfold readValue at found
  cases type with
  | byte =>
    simp only [map_eq_some_iff, Prod.mk.injEq] at found
    obtain ⟨⟨byte, gbuf⟩, read, rfl, rfl, rfl⟩ := found
    exact ⟨.number byte.toNat, byte.toNat_lt, trivial, mqttReadByte_sound read, rfl,
      consumes_lenMinus (by show 1 ≤ 2 ^ 32; decide)⟩
  | int16 =>
    simp only [map_eq_some_iff, Prod.mk.injEq] at found
    obtain ⟨⟨word, gbuf⟩, read, rfl, rfl, rfl⟩ := found
    have ⟨fits, bytes⟩ := mqttReadUint16_sound read
    exact ⟨.number word, fits, trivial, bytes, rfl, consumes_lenMinus (by show 2 ≤ 2 ^ 32; decide)⟩
  | int32 =>
    simp only [map_eq_some_iff, Prod.mk.injEq] at found
    obtain ⟨⟨word, gbuf⟩, read, rfl, rfl, rfl⟩ := found
    have ⟨fits, bytes⟩ := mqttReadUint32_sound read
    exact ⟨.number word, fits, trivial, bytes, rfl, consumes_lenMinus (by show 4 ≤ 2 ^ 32; decide)⟩
  | varint =>
    simp only [map_eq_some_iff, Prod.mk.injEq] at found
    obtain ⟨⟨word, count, gbuf⟩, read, rfl, rfl, rfl⟩ := found
    obtain ⟨fits, bytes, rfl⟩ := mqttReadVarint_sound read
    have short := varint_length 4 word
    exact ⟨.number word, fits, trivial, bytes, rfl,
      consumes_lenMinus (Nat.le_trans short (by decide))⟩
  | binary =>
    simp only [bind_eq_some_iff, map_eq_some_iff, Prod.mk.injEq] at found
    obtain ⟨⟨data, gbuf⟩, read, len, consumed, rfl, rfl, rfl⟩ := found
    have ⟨fits, bytes⟩ := mqttReadBinary_sound read
    refine ⟨.bytes data, fits, trivial, bytes, rfl, ?_⟩
    show Consumes _ (sized data).length _
    rw [length_sized]
    exact propertyLenConsume_some bound consumed
  | string =>
    simp only [bind_eq_some_iff, map_eq_some_iff, Prod.mk.injEq] at found
    obtain ⟨⟨text, gbuf⟩, read, len, consumed, rfl, rfl, rfl⟩ := found
    have ⟨fits, bytes, passes⟩ := mqttReadString_sound read
    refine ⟨.bytes text, fits, passes, bytes, rfl, ?_⟩
    show Consumes _ (sized text).length _
    rw [length_sized]
    exact propertyLenConsume_some bound consumed
  | stringPair => cases found

theorem readUserProperty_sound {len left : Nat} {item : UserProperty} (bound : len < 2 ^ 32)
    (found : readUserProperty memory gbuf len = some (rest, left, item)) :
    ∃ content : Content, content.Fits .stringPair ∧ content.TextsPass (rest ++ memory) .stringPair ∧
      gbuf = content.encode .stringPair ++ rest ∧ item = content.userProperty ∧
      Consumes len (content.encode .stringPair).length left := by
  unfold readUserProperty at found
  simp only [bind_eq_some_iff, map_eq_some_iff, Prod.mk.injEq] at found
  obtain ⟨⟨name, middle⟩, first, between, one, ⟨value, after⟩, second, left, two, rfl, rfl, rfl⟩ :=
    found
  obtain ⟨nameFits, rfl, namePasses⟩ := mqttReadString_sound first
  obtain ⟨valueFits, rfl, valuePasses⟩ := mqttReadString_sound second
  have consumed := propertyLenConsume_some bound one
  rw [append_assoc] at namePasses
  refine ⟨.pair name value, ⟨nameFits, valueFits⟩, ⟨namePasses, valuePasses⟩, ?_, rfl, ?_⟩
  · exact (append_assoc _ _ _).symm
  · show Consumes len (sized name ++ sized value).length left
    rw [length_append, length_sized, length_sized]
    exact consumed.trans (propertyLenConsume_some consumed.1 two)

theorem propertyRead_sound {len left : Nat} {allProperties after : Props}
    (found : propertyRead memory gbuf len allProperties = .ok (rest, left, after)) :
    ∃ item : Item, item.Fits ∧ item.TextsPass (rest ++ memory) ∧ item.New allProperties ∧
      gbuf = item.encode ++ rest ∧ after = item.addTo allProperties ∧
      Consumes len item.encode.length left := by
  unfold propertyRead at found
  split at found
  · cases found
  · rename_i identifier count gbuf read
    obtain ⟨-, rfl, -⟩ := mqttReadVarint_sound read
    split at found
    · cases found
    · rename_i prop known
      obtain rfl := code_of_ofCode? known
      have one := length_varint_code prop
      have minus := @consumes_lenMinus len 1 (by decide)
      split at found
      · rename_i user
        subst user
        split at found
        · cases found
        · rename_i gbuf lenLeft item read
          obtain ⟨rfl, rfl, rfl⟩ : gbuf = rest ∧ lenLeft = left ∧ _ = after := by
            simpa only [Except.ok.injEq, Prod.mk.injEq] using found
          obtain ⟨content, fits, passes, rfl, rfl, consumed⟩ := readUserProperty_sound minus.1 read
          refine ⟨⟨.userProperty, content⟩, fits, passes, .inl rfl, ?_, rfl, ?_⟩
          · exact (append_assoc _ _ _).symm
          · rw [Item.encode, length_append, one]
            exact minus.trans consumed
      · rename_i notUser
        split at found
        · cases found
        · rename_i absent
          rw [not_isSome_iff_eq_none] at absent
          split at found
          · cases found
          · rename_i gbuf lenLeft value read
            obtain ⟨rfl, rfl, rfl⟩ : gbuf = rest ∧ lenLeft = left ∧ _ = after := by
              simpa only [Except.ok.injEq, Prod.mk.injEq] using found
            obtain ⟨content, fits, passes, rfl, rfl, consumed⟩ := readValue_sound minus.1 read
            refine ⟨⟨prop, content⟩, fits, passes, .inr absent, ?_, ?_, ?_⟩
            · exact (append_assoc _ _ _).symm
            · rw [Item.addTo, if_neg notUser]
            · rw [Item.encode, length_append, one]
              exact minus.trans consumed

theorem readValue_complete {type : PropType} {len : Nat}
    {content : Content} (single : type ≠ .stringPair) (fits : content.Fits type)
    (passes : content.TextsPass (rest ++ memory) type) (enough : (content.encode type).length ≤ len)
    (bound : len < 2 ^ 32) :
    readValue memory type (content.encode type ++ rest) len =
      some (rest, len - (content.encode type).length, content.value type) := by
  unfold readValue
  cases type <;> cases content <;> try exact absurd fits id
  case byte.number value =>
    have small : (UInt8.ofNat value).toNat = value := by
      rw [UInt8.toNat_ofNat']
      exact Nat.mod_eq_of_lt fits
    change 1 ≤ len at enough
    show some (rest, lenMinus len 1, some (Value.integer (UInt8.ofNat value).toNat)) = _
    rw [lenMinus_of_le enough bound, small]
    rfl
  case int16.number value =>
    show (mqttReadUint16 (toBigEndian 2 value ++ rest)).map _ = _
    rw [mqttReadUint16_complete fits]
    change 2 ≤ len at enough
    rw [lenMinus_of_le enough bound]
    rfl
  case int32.number value =>
    show (mqttReadUint32 (toBigEndian 4 value ++ rest)).map _ = _
    rw [mqttReadUint32_complete fits]
    change 4 ≤ len at enough
    rw [lenMinus_of_le enough bound]
    rfl
  case varint.number value =>
    show (mqttReadVarint (varint 4 value ++ rest)).map _ = _
    rw [mqttReadVarint_complete fits]
    change (varint 4 value).length ≤ len at enough
    show some (rest, lenMinus len (varint 4 value).length, some (Value.integer value)) = _
    rw [lenMinus_of_le enough bound]
    rfl
  case binary.bytes data =>
    show (mqttReadBinary (sized data ++ rest)).bind _ = _
    change (sized data).length ≤ len at enough
    rw [length_sized] at enough
    rw [mqttReadBinary_complete fits, bind_some]
    dsimp only
    rw [propertyLenConsume_of_le enough bound, ← length_sized]
    rfl
  case string.bytes text =>
    show (mqttReadString memory (sized text ++ rest)).bind _ = _
    change (sized text).length ≤ len at enough
    rw [length_sized] at enough
    rw [mqttReadString_complete fits passes, bind_some]
    dsimp only
    rw [propertyLenConsume_of_le enough bound, ← length_sized]
    rfl
  case stringPair.pair => exact absurd rfl single

theorem readUserProperty_complete {len : Nat} {content : Content}
    (fits : content.Fits .stringPair) (passes : content.TextsPass (rest ++ memory) .stringPair)
    (enough : (content.encode .stringPair).length ≤ len) (bound : len < 2 ^ 32) :
    readUserProperty memory (content.encode .stringPair ++ rest) len =
      some (rest, len - (content.encode .stringPair).length, content.userProperty) := by
  cases content with
  | number value => exact absurd fits id
  | bytes data => exact absurd fits id
  | pair name value =>
    have ⟨nameFits, valueFits⟩ := fits
    have ⟨namePasses, valuePasses⟩ := passes
    rw [← append_assoc] at namePasses
    change (sized name ++ sized value).length ≤ len at enough
    rw [length_append, length_sized, length_sized] at enough
    show readUserProperty memory ((sized name ++ sized value) ++ rest) len =
      some (rest, len - (sized name ++ sized value).length, .ofTexts name value)
    unfold readUserProperty
    rw [append_assoc, mqttReadString_complete nameFits namePasses, bind_some]
    dsimp only
    rw [propertyLenConsume_of_le (by omega) bound, bind_some,
      mqttReadString_complete valueFits valuePasses, bind_some]
    dsimp only
    rw [propertyLenConsume_of_le (by omega) (by omega), length_append, length_sized,
      length_sized, Nat.sub_sub]
    rfl

theorem propertyRead_complete {len : Nat} {allProperties : Props}
    {item : Item} (fits : item.Fits) (passes : item.TextsPass (rest ++ memory))
    (new : item.New allProperties) (enough : item.encode.length ≤ len) (bound : len < 2 ^ 32) :
    propertyRead memory (item.encode ++ rest) len allProperties =
      .ok (rest, len - item.encode.length, item.addTo allProperties) := by
  have ⟨prop, content⟩ := item
  have one := length_varint_code prop
  have small := code_lt prop
  rw [Item.encode, length_append, one] at enough
  unfold propertyRead
  rw [Item.encode, append_assoc, mqttReadVarint_complete (Nat.lt_trans small (by decide)),
    length_append, one,
    ← Nat.sub_sub]
  dsimp only
  rw [ofCode?_code, lenMinus_of_le (by omega) bound]
  dsimp only
  by_cases user : prop = .userProperty
  · subst user
    have read := readUserProperty_complete fits passes (Nat.le_sub_of_add_le' enough)
      (Nat.lt_of_le_of_lt (Nat.sub_le len 1) bound)
    have same : MqttProp.userProperty.type = .stringPair := rfl
    rw [if_pos rfl, same, read, Item.addTo, if_pos rfl]
  · have single : prop.type ≠ .stringPair := fun pair => user (type_stringPair.1 pair)
    have absent := new.resolve_left user
    have read := readValue_complete single fits passes (Nat.le_sub_of_add_le' enough)
      (Nat.lt_of_le_of_lt (Nat.sub_le len 1) bound)
    rw [if_neg user, absent, if_neg (by decide), read, Item.addTo, if_neg user]

/-! ## Sections -/

/-- The bytes of some items. -/
def encodeItems (items : List Item) : List UInt8 := items.flatMap Item.encode

/-- The json object of some items on top of others. -/
def addItems (allProperties : Props) (items : List Item) : Props :=
  items.foldl (fun allProperties item => item.addTo allProperties) allProperties

/-- Items that `property_read_all` takes when `after` follows them. -/
def Accepts (after : List UInt8) : List Item → Props → Prop
  | [], _ => True
  | item :: items, allProperties =>
    item.Fits ∧ item.TextsPass (encodeItems items ++ after) ∧ item.New allProperties ∧
      Accepts after items (item.addTo allProperties)

open Nat

theorem encode_nonempty (item : Item) : 0 < item.encode.length := by
  rw [Item.encode, length_append, length_varint_code]
  exact lt_of_lt_of_le zero_lt_one (le_add_right _ _)

theorem readProperties_succ (memory : List UInt8) {turns : Nat} {gbuf : List UInt8} (len : Nat)
    (allProperties : Props) (enough : gbuf.length ≤ turns) :
    readProperties memory (turns + 1) gbuf len allProperties =
      readProperties memory turns gbuf len allProperties := by
  induction turns generalizing gbuf len allProperties with
  | zero =>
    obtain rfl := eq_nil_of_length_eq_zero (le_zero.1 enough)
    rfl
  | succ turns ih =>
    rw [readProperties, readProperties]
    by_cases done : len = 0
    · rw [if_pos done, if_pos done]
    · rw [if_neg done, if_neg done]
      cases read : propertyRead memory gbuf len allProperties with
      | error error => rfl
      | ok found =>
        have ⟨rest, left, after⟩ := found
        obtain ⟨item, -, -, -, rfl, -⟩ := propertyRead_sound read
        have some_bytes := encode_nonempty item
        rw [length_append] at enough
        exact ih left after (by omega)

theorem readProperties_turns (memory : List UInt8) {turns : Nat} {gbuf : List UInt8} (len : Nat)
    (allProperties : Props) (enough : gbuf.length ≤ turns) :
    readProperties memory turns gbuf len allProperties =
      readProperties memory gbuf.length gbuf len allProperties := by
  induction turns, enough using le_induction with
  | base => rfl
  | succ turns enough ih => rw [readProperties_succ memory len allProperties enough, ih]

theorem readProperties_sound {memory : List UInt8} {turns len : Nat}
    {allProperties after : Props} (bound : len < 2 ^ 32)
    (found : readProperties memory turns gbuf len allProperties = .ok (rest, after)) :
    ∃ items, Accepts (rest ++ memory) items allProperties ∧ gbuf = encodeItems items ++ rest ∧
      after = addItems allProperties items ∧ (encodeItems items).length % 2 ^ 32 = len := by
  induction turns generalizing gbuf len allProperties with
  | zero =>
    unfold readProperties at found
    split at found
    · rename_i done
      obtain ⟨rfl, rfl⟩ : gbuf = rest ∧ allProperties = after := by
        simpa only [Except.ok.injEq, Prod.mk.injEq] using found
      exact ⟨[], trivial, rfl, rfl, done.symm⟩
    · cases found
  | succ turns ih =>
    unfold readProperties at found
    split at found
    · rename_i done
      obtain ⟨rfl, rfl⟩ : gbuf = rest ∧ allProperties = after := by
        simpa only [Except.ok.injEq, Prod.mk.injEq] using found
      exact ⟨[], trivial, rfl, rfl, done.symm⟩
    · dsimp only at found
      split at found
      · cases found
      · rename_i middle left between read
        obtain ⟨item, fits, passes, new, rfl, rfl, small, consumed⟩ := propertyRead_sound read
        obtain ⟨items, accepts, rfl, rfl, rfl⟩ := ih small found
        refine ⟨item :: items, ⟨fits, ?_, new, accepts⟩, ?_, rfl, ?_⟩
        · rw [← append_assoc]
          exact passes
        · exact (append_assoc _ _ _).symm
        · show (item.encode ++ encodeItems items).length % 2 ^ 32 = len
          rw [length_append]
          omega

theorem readProperties_complete {items : List Item}
    {allProperties : Props} (accepts : Accepts (rest ++ memory) items allProperties)
    (bound : (encodeItems items).length < 2 ^ 32) :
    readProperties memory (encodeItems items ++ rest).length (encodeItems items ++ rest)
      (encodeItems items).length allProperties = .ok (rest, addItems allProperties items) := by
  induction items generalizing allProperties with
  | nil =>
    unfold readProperties
    rfl
  | cons item items ih =>
    have ⟨fits, passes, new, accepts⟩ := accepts
    have some_bytes := encode_nonempty item
    have whole : encodeItems (item :: items) = item.encode ++ encodeItems items := rfl
    rw [whole, length_append] at bound
    rw [← append_assoc] at passes
    have read := propertyRead_complete fits passes new
      (le_add_right item.encode.length (encodeItems items).length) bound
    rw [Nat.add_sub_cancel_left] at read
    have turns : (item.encode ++ encodeItems items ++ rest).length =
        ((item.encode ++ encodeItems items ++ rest).length - 1) + 1 := by
      rw [length_append, length_append]
      omega
    rw [whole, turns, readProperties, if_neg (by rw [length_append]; omega),
      append_assoc, length_append, read]
    dsimp only
    rw [readProperties_turns, ih accepts (by omega)]
    · rfl
    · simp only [length_append]
      omega

theorem propertyReadAll_items {command : Nat} {props : Props}
    (accepted : propertyReadAll memory command gbuf = .ok (props, rest)) :
    ∃ items proplen, Accepts (rest ++ memory) items Dict.empty ∧
      gbuf = varint 4 proplen ++ (encodeItems items ++ rest) ∧ proplen < 2 ^ 28 ∧
      (encodeItems items).length % 2 ^ 32 = proplen ∧
      props = addItems Dict.empty items ∧ mqttPropertyCheckAll command props = true := by
  unfold propertyReadAll at accepted
  split at accepted
  · cases accepted
  · rename_i proplen count gbuf read
    obtain ⟨small, rfl, -⟩ := mqttReadVarint_sound read
    split at accepted
    · cases accepted
    · rename_i left after loop
      split at accepted
      · rename_i checked
        obtain ⟨rfl, rfl⟩ : after = props ∧ left = rest := by
          simpa only [Except.ok.injEq, Prod.mk.injEq] using accepted
        obtain ⟨items, accepts, rfl, rfl, total⟩ := readProperties_sound (by omega) loop
        exact ⟨items, proplen, accepts, rfl, small, total, rfl, checked⟩
      · cases accepted

/-- Of a packet, `property_read_all` accepts a section of items that are admitted, and takes no byte
behind its length. -/
theorem propertyReadAll_sound {command : Nat} {props : Props} (short : gbuf.length < 2 ^ 28)
    (accepted : propertyReadAll memory command gbuf = .ok (props, rest)) :
    ∃ items, Accepts (rest ++ memory) items Dict.empty ∧
      gbuf = varint 4 (encodeItems items).length ++ encodeItems items ++ rest ∧
      props = addItems Dict.empty items ∧ mqttPropertyCheckAll command props = true := by
  obtain ⟨items, proplen, accepts, rfl, small, total, same, checked⟩ :=
    propertyReadAll_items accepted
  rw [length_append, length_append] at short
  have exact_length : (encodeItems items).length = proplen := by
    rw [← total]
    exact (mod_eq_of_lt (by omega)).symm
  exact ⟨items, accepts, by rw [exact_length, append_assoc], same, checked⟩

theorem propertyReadAll_complete {command : Nat} {items : List Item}
    (accepts : Accepts (rest ++ memory) items Dict.empty)
    (short : (encodeItems items).length < 2 ^ 28)
    (checked : mqttPropertyCheckAll command (addItems Dict.empty items) = true) :
    propertyReadAll memory command
        (varint 4 (encodeItems items).length ++ encodeItems items ++ rest) =
      .ok (addItems Dict.empty items, rest) := by
  unfold propertyReadAll
  rw [append_assoc, mqttReadVarint_complete short]
  dsimp only
  rw [readProperties_complete accepts (by omega)]
  dsimp only
  rw [if_pos checked]

theorem propertyReadAll_long {command number : Nat}
    (large : 2 ^ 28 ≤ number) (word : number < 2 ^ 32) :
    propertyReadAll memory command (mqttWriteVarint number ++ rest) = .error .malformedPacket := by
  have none : mqttReadVarint (mqttWriteVarint number ++ rest) = none := by
    rw [mqttWriteVarint, mod_eq_of_lt word]
    exact readVarintBytes_long rest (le_of_eq_of_le (by decide) large)
  rw [propertyReadAll, none]

theorem fits_of_accepts {after : List UInt8} {items : List Item} {allProperties : Props}
    (accepts : Accepts after items allProperties) {item : Item} (among : item ∈ items) :
    item.Fits := by
  induction items generalizing allProperties with
  | nil => exact absurd among not_mem_nil
  | cons first items ih =>
    have ⟨fits, _, _, later⟩ := accepts
    rcases mem_cons.1 among with rfl | inside
    · exact fits
    · exact ih later inside

end Yunetas.Mqtt
