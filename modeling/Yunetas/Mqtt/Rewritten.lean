import Mathlib.Data.List.TakeWhile
import Yunetas.Mqtt.Section

/-!
# Writing what was read

The json object of a section is written as a section again. A text jansson makes no string of is
gone from the object: a user property is written without it, but the value of any other property is
then missing, and the writer takes the length of `NULL`.
-/

namespace Yunetas.Mqtt

open List Option Dict

open Yunetas.Gobj

/-! ## Texts and binary data -/

/-- jansson makes a string of the text. -/
def KeptText (text : List UInt8) : Prop := text ≠ [] ∧ utf8CheckString text = true

instance (text : List UInt8) : Decidable (KeptText text) :=
  inferInstanceAs (Decidable (text ≠ [] ∧ utf8CheckString text = true))

theorem jsonStringn_of_kept {text : List UInt8} (kept : KeptText text) :
    jsonStringn text = some text := by
  rw [jsonStringn, if_neg kept.1, if_pos kept.2]

theorem jsonStringn_of_not_kept {text : List UInt8} (lost : ¬KeptText text) :
    jsonStringn text = none := by
  unfold jsonStringn
  split
  · rfl
  · rename_i some_text
    split
    · rename_i valid
      exact absurd ⟨some_text, valid⟩ lost
    · rfl

theorem cString_of_noNul {bytes : List UInt8} (clean : 0 ∉ bytes) : cString bytes = bytes := by
  unfold cString
  rw [takeWhile_eq_self_iff]
  intro byte among
  apply decide_eq_true
  rintro rfl
  exact clean among

theorem Passes.noNul {after text : List UInt8} (passes : Passes after text) : 0 ∉ text := by
  by_cases empty : text = []
  · rw [empty]
    exact not_mem_nil
  · exact noNul_of_mqttValidateUtf8 (passes empty)

theorem Passes.again {after text : List UInt8} (passes : Passes after text) (kept : KeptText text)
    (other : List UInt8) : Passes other text := by
  intro some_text
  rw [← mqttValidateUtf8_behind after other kept.2]
  exact passes some_text

theorem mqttWriteString_eq {text : List UInt8} (clean : 0 ∉ text) (short : text.length < 2 ^ 16) :
    mqttWriteString text = sized text := by
  rw [mqttWriteString, cString_of_noNul clean, Nat.mod_eq_of_lt short, take_length, sized]

theorem asciiChars_asciiBytes {text : List Char} (ascii : ∀ ch ∈ text, ch.utf8Size = 1) :
    asciiChars (asciiBytes text) = text := by
  unfold asciiChars asciiBytes
  rw [List.map_map]
  conv_rhs => rw [← map_id text]
  apply map_congr_left
  intro ch among
  have small := Char.utf8Size_eq_one_iff.1 (ascii ch among)
  have bound : ch.toNat ≤ 127 := small
  show Char.ofNat (UInt8.ofNat ch.toNat).toNat = ch
  rw [UInt8.toNat_ofNat', Nat.mod_eq_of_lt (by omega), Char.ofNat_toNat]

theorem noNul_asciiBytes {text : List Char}
    (ascii : ∀ ch ∈ text, ch.utf8Size = 1 ∧ ch ≠ Char.ofNat 0) : 0 ∉ asciiBytes text := by
  intro among
  have ⟨ch, inside, zero⟩ := mem_map.1 among
  have ⟨one, some_char⟩ := ascii ch inside
  have bound : ch.toNat ≤ 127 := Char.utf8Size_eq_one_iff.1 one
  have value := congrArg UInt8.toNat zero
  rw [UInt8.toNat_ofNat', Nat.mod_eq_of_lt (by omega)] at value
  apply some_char
  rw [← Char.ofNat_toNat ch, value]
  rfl

theorem base64_kept (data : List UInt8) :
    gbufferBase64ToBinary (cString (gbufferBinaryToBase64 data)) = data := by
  have ⟨text, encoded, long, decoded⟩ := @b64Decode_b64Encode (b64OutputEncodeLen data.length)
    (b64OutputDecodeLen ((data.length + 2) / 3 * 4)) data 0 [] 0
    (by unfold b64OutputEncodeLen; omega) (by unfold b64OutputDecodeLen; rw [length_nil]; omega)
  have plain := b64Encode_plain data 0 encoded
  have length : (asciiBytes text).length = (data.length + 2) / 3 * 4 := by
    rw [asciiBytes, length_map, long]
  rw [gbufferBinaryToBase64, encoded, getD_some, cString_of_noNul (noNul_asciiBytes plain),
    gbufferBase64ToBinary, length, asciiChars_asciiBytes fun ch among => (plain ch among).1, decoded,
    getD_some, nil_append]

/-! ## What is kept of an item -/

/-- The text that stays under `name` when the one read is lost. -/
def userPropertyName : List UInt8 :=
  asciiBytes (mqttPropertyIdentifierToString .userProperty).toList

/-- What the json object keeps of a content. -/
def Content.kept : PropType → Content → Content
  | .stringPair, .pair name value =>
    .pair (if KeptText name then name else userPropertyName) (if KeptText value then value else [])
  | _, content => content

/-- What the json object keeps of an item. -/
def Item.kept (item : Item) : Item := ⟨item.prop, item.content.kept item.prop.type⟩

/-- The value of an item is not lost. -/
def Item.Whole (item : Item) : Prop :=
  ∀ text, item.prop.type = .string → item.content = .bytes text → KeptText text

theorem keptText_userPropertyName : KeptText userPropertyName := by decide +kernel

theorem passes_userPropertyName : Passes [] userPropertyName := fun _ => by decide +kernel

theorem passes_nil (after : List UInt8) : Passes after [] := fun some_text => absurd rfl some_text

theorem getD_name (name : List UInt8) : (UserProperty.ofTexts name []).name =
    if KeptText name then name else userPropertyName := by
  show (jsonStringn name).getD userPropertyName = _
  split
  · rename_i kept
    rw [jsonStringn_of_kept kept, getD_some]
  · rename_i lost
    rw [jsonStringn_of_not_kept lost, getD_none]

theorem getD_value (value : List UInt8) : (jsonStringn value).getD [] =
    if KeptText value then value else [] := by
  split
  · rename_i kept
    rw [jsonStringn_of_kept kept, getD_some]
  · rename_i lost
    rw [jsonStringn_of_not_kept lost, getD_none]

theorem passes_keptName {after name : List UInt8} (passes : Passes after name)
    (other : List UInt8) : Passes other (if KeptText name then name else userPropertyName) := by
  split
  · rename_i kept
    exact passes.again kept other
  · exact passes_userPropertyName.again keptText_userPropertyName other

theorem passes_keptValue {after value : List UInt8} (passes : Passes after value)
    (other : List UInt8) : Passes other (if KeptText value then value else []) := by
  split
  · rename_i kept
    exact passes.again kept other
  · exact passes_nil other

theorem length_keptName {name : List UInt8} (short : name.length < 2 ^ 16) :
    (if KeptText name then name else userPropertyName).length < 2 ^ 16 := by
  split
  · exact short
  · decide +kernel

theorem length_keptValue {value : List UInt8} (short : value.length < 2 ^ 16) :
    (if KeptText value then value else []).length < 2 ^ 16 := by
  split
  · exact short
  · decide

theorem ofTexts_kept (name value : List UInt8) :
    UserProperty.ofTexts (if KeptText name then name else userPropertyName)
      (if KeptText value then value else []) = UserProperty.ofTexts name value := by
  have first : jsonStringn (if KeptText value then value else []) = jsonStringn value := by
    split
    · rfl
    · rename_i lost
      rw [jsonStringn_of_not_kept lost]
      rfl
  have second : (jsonStringn (if KeptText name then name else userPropertyName)).getD
      userPropertyName = (jsonStringn name).getD userPropertyName := by
    split
    · rfl
    · rename_i lost
      rw [jsonStringn_of_not_kept lost, jsonStringn_of_kept keptText_userPropertyName]
      rfl
  unfold UserProperty.ofTexts
  rw [first]
  change UserProperty.mk _ ((jsonStringn _).getD userPropertyName) _ _ = _
  rw [second]
  rfl

variable {item : Item} {after : List UInt8} {allProperties : Props} {items : List Item}

theorem fits_kept (fits : item.Fits) : item.kept.Fits := by
  have ⟨prop, content⟩ := item
  change content.Fits prop.type at fits
  show (content.kept prop.type).Fits prop.type
  cases type : prop.type <;> rw [type] at fits <;> cases content <;> try exact fits
  exact ⟨length_keptName fits.1, length_keptValue fits.2⟩

theorem textsPass_kept {after : List UInt8} {item : Item} (passes : item.TextsPass after)
    (whole : item.Whole) (other : List UInt8) : item.kept.TextsPass other := by
  have ⟨prop, content⟩ := item
  change content.TextsPass after prop.type at passes
  show (content.kept prop.type).TextsPass other prop.type
  cases type : prop.type <;> rw [type] at passes <;> cases content <;> try trivial
  case string.bytes text => exact Passes.again passes (whole text type rfl) other
  case stringPair.pair name value =>
    exact ⟨passes_keptName passes.1 _, passes_keptValue passes.2 _⟩

theorem kept_of_single (single : item.prop ≠ .userProperty) : item.kept = item := by
  have ⟨prop, content⟩ := item
  have type : prop.type ≠ .stringPair := fun pair => single (type_stringPair.1 pair)
  unfold Item.kept Content.kept
  split
  · rename_i pair _
    exact absurd pair type
  · rfl

theorem addTo_kept (item : Item) (allProperties : Props) (fits : item.Fits) :
    item.kept.addTo allProperties = item.addTo allProperties := by
  by_cases user : item.prop = .userProperty
  · have ⟨prop, content⟩ := item
    obtain rfl : prop = .userProperty := user
    cases content with
    | number value => exact absurd fits id
    | bytes data => exact absurd fits id
    | pair name value =>
      exact congrArg (fun item => allProperties.set (mqttPropertyIdentifierToString .userProperty)
        (.users (userItems allProperties ++ [item]))) (ofTexts_kept name value)
  · rw [kept_of_single user]

/-! ## One entry -/

/-- An entry is written as some items, and those are read as the value. -/
structure WrittenAs (name : String) (value read : Property) (items : List Item) : Prop where
  /-- What `property__write` writes. -/
  writes : propertyWrite name value = some (encodeItems items)
  /-- What `property__get_length` counts. -/
  length : propertyGetLength name value = (encodeItems items).length
  /-- What `property_read` makes of it. -/
  reads : ∀ (after : List UInt8) (allProperties : Props), allProperties.get? name = none →
    Accepts after items allProperties ∧ addItems allProperties items = allProperties.set name read

section

variable (prop : MqttProp)
include prop

theorem info_name :
    mosquittoStringToPropertyInfo (mqttPropertyIdentifierToString prop) = some prop := by
  cases prop <;> decide +kernel

theorem identifierOf_name (value : Property) :
    identifierOf (mqttPropertyIdentifierToString prop) value = prop.code := by
  unfold identifierOf
  rw [info_name]

theorem code_ne_zero : prop.code ≠ 0 := by
  cases prop <;> decide

theorem propertyWrite_name (value : Property) :
    propertyWrite (mqttPropertyIdentifierToString prop) value =
      (writeValue prop.code prop.type value).map (varint 4 prop.code ++ ·) := by
  have small := code_lt prop
  unfold propertyWrite
  rw [identifierOf_name]
  rw [if_neg (code_ne_zero prop), ofCode?_code]
  rw [mqttWriteVarint_eq (Nat.lt_trans small (by decide))]

theorem propertyGetLength_name (value : Property) :
    propertyGetLength (mqttPropertyIdentifierToString prop) value = lengthOf prop.type value := by
  rw [propertyGetLength, identifierOf_name, ofCode?_code]

end

theorem length_varint {number : Nat} (fits : number < 2 ^ 28) :
    (varint 4 number).length = idLength number := by
  unfold idLength
  simp only [varint]
  split_ifs <;> first | rfl | omega

theorem encodeItems_singleton (item : Item) : encodeItems [item] = item.encode :=
  append_nil _

theorem reads_single {item : Item} (single : item.prop ≠ .userProperty) (fits : item.Fits)
    (passes : ∀ after, item.TextsPass after) (after : List UInt8) (allProperties : Props)
    (absent : allProperties.get? (mqttPropertyIdentifierToString item.prop) = none) :
    Accepts after [item] allProperties ∧ addItems allProperties [item] =
      allProperties.set (mqttPropertyIdentifierToString item.prop)
        (item.prop.object (item.content.value item.prop.type)) := by
  refine ⟨⟨fits, passes _, .inr absent, trivial⟩, ?_⟩
  show item.addTo allProperties = _
  rw [Item.addTo, if_neg single]

theorem writeValue_object {prop : MqttProp} {content : Content}
    (single : prop ≠ .userProperty) (fits : content.Fits prop.type)
    (passes : content.TextsPass after prop.type) (whole : Item.Whole ⟨prop, content⟩) :
    writeValue prop.code prop.type (prop.object (content.value prop.type)) =
        some (content.encode prop.type) ∧
      lengthOf prop.type (prop.object (content.value prop.type)) =
        1 + (content.encode prop.type).length := by
  have notPair : prop.type ≠ .stringPair := fun pair => single (type_stringPair.1 pair)
  unfold Item.Whole at whole
  cases type : prop.type <;> rw [type] at fits passes <;> cases content <;> try exact absurd fits id
  case byte.number value => exact ⟨rfl, rfl⟩
  case int16.number value => exact ⟨rfl, rfl⟩
  case int32.number value => exact ⟨rfl, rfl⟩
  case varint.number value =>
    constructor
    · show some (mqttWriteVarint value) = some (varint 4 value)
      rw [mqttWriteVarint_eq fits]
    · show (if value < 268435456 then 1 + idLength value else 0) = 1 + (varint 4 value).length
      rw [if_pos (lt_of_lt_of_eq fits (by decide)), length_varint fits]
  case binary.bytes data =>
    constructor
    · show some (toBigEndian 2 (gbufferBase64ToBinary (cString (gbufferBinaryToBase64 data))).length
        ++ (gbufferBase64ToBinary (cString (gbufferBinaryToBase64 data))).take
          ((gbufferBase64ToBinary (cString (gbufferBinaryToBase64 data))).length % 2 ^ 16)) =
        some (sized data)
      rw [base64_kept, Nat.mod_eq_of_lt fits, take_length, sized]
    · show 3 + (gbufferBase64ToBinary (cString (gbufferBinaryToBase64 data))).length =
        1 + (sized data).length
      rw [base64_kept, length_sized]
      omega
  case string.bytes text =>
    have kept := whole text type rfl
    have clean := Passes.noNul passes
    have value : Content.value .string (.bytes text) = some (.string text) := by
      show (jsonStringn text).map Value.string = _
      rw [jsonStringn_of_kept kept, map_some]
    rw [value]
    constructor
    · show some (mqttWriteString text) = some (sized text)
      rw [mqttWriteString_eq clean fits]
    · show 3 + (cString text).length = 1 + (sized text).length
      rw [cString_of_noNul clean, length_sized]
      omega
  case stringPair.pair => exact absurd type notPair

theorem propertyWrite_lost {prop : MqttProp} {content : Content} (fits : content.Fits prop.type)
    (lost : ¬Item.Whole ⟨prop, content⟩) :
    propertyWrite (mqttPropertyIdentifierToString prop)
      (prop.object (content.value prop.type)) = none := by
  unfold Item.Whole at lost
  simp only [not_forall] at lost
  obtain ⟨text, type, rfl, gone⟩ := lost
  have none_kept : Content.value .string (.bytes text) = none := by
    show (jsonStringn text).map Value.string = none
    rw [jsonStringn_of_not_kept gone, map_none]
  rw [propertyWrite_name, type, none_kept]
  rfl

theorem writtenAs_object (single : item.prop ≠ .userProperty)
    (fits : item.Fits) (passes : item.TextsPass after) (whole : item.Whole) :
    WrittenAs (mqttPropertyIdentifierToString item.prop)
      (item.prop.object (item.content.value item.prop.type))
      (item.prop.object (item.content.value item.prop.type)) [item] := by
  have ⟨written, counted⟩ := writeValue_object single fits passes whole
  refine ⟨?_, ?_, reads_single single fits fun other => ?_⟩
  · rw [propertyWrite_name, written, encodeItems_singleton]
    rfl
  · rw [propertyGetLength_name, counted, encodeItems_singleton, Item.encode, length_append,
      length_varint_code]
  · have kept := textsPass_kept passes whole other
    rwa [kept_of_single single] at kept

/-! ## Arrays -/

theorem writeItems_eq {α : Type} (identifier : Nat) (write : α → List UInt8) {list : List α}
    (some_items : list ≠ []) :
    mqttWriteVarint identifier ++ writeItems identifier write list =
      list.flatMap fun item => mqttWriteVarint identifier ++ write item := by
  cases list with
  | nil => exact absurd rfl some_items
  | cons first rest => exact (append_assoc _ _ _).symm

theorem writeUser_eq {content : Content} (fits : content.Fits .stringPair)
    (passes : content.TextsPass after .stringPair) :
    mqttWriteString content.userProperty.name ++
        mqttWriteString (content.userProperty.value.getD []) =
      (content.kept .stringPair).encode .stringPair ∧
    4 + (cString content.userProperty.name).length +
        (cString (content.userProperty.value.getD [])).length =
      ((content.kept .stringPair).encode .stringPair).length := by
  cases content with
  | number value => exact absurd fits id
  | bytes data => exact absurd fits id
  | pair name value =>
    have cleanName := (passes_keptName passes.1 []).noNul
    have cleanValue := (passes_keptValue passes.2 []).noNul
    have keptName : (Content.userProperty (.pair name value)).name =
        if KeptText name then name else userPropertyName := getD_name name
    have keptValue : (Content.userProperty (.pair name value)).value.getD [] =
        if KeptText value then value else [] := getD_value value
    rw [keptName, keptValue, mqttWriteString_eq cleanName (length_keptName fits.1),
      mqttWriteString_eq cleanValue (length_keptValue fits.2), cString_of_noNul cleanName,
      cString_of_noNul cleanValue]
    constructor
    · rfl
    · show _ = (sized _ ++ sized _).length
      rw [length_append, length_sized, length_sized]
      omega

/-- The user properties of some contents. -/
def userProperties (contents : List Content) : Property :=
  .users (contents.map Content.userProperty)

/-- What is kept of some user properties. -/
def keptUsers (contents : List Content) : List Item :=
  contents.map fun content => Item.kept ⟨.userProperty, content⟩

theorem userItems_set (allProperties : Props) (items : List UserProperty) :
    userItems (allProperties.set (mqttPropertyIdentifierToString .userProperty) (.users items)) =
      items := by
  rw [userItems, get?_set_self]

theorem reads_users {contents : List Content}
    (good : ∀ content ∈ contents, content.Fits .stringPair ∧
      ∃ after, content.TextsPass after .stringPair) (after : List UInt8)
    (allProperties : Props) :
    Accepts after (keptUsers contents) allProperties ∧ (contents ≠ [] →
      addItems allProperties (keptUsers contents) =
        allProperties.set (mqttPropertyIdentifierToString .userProperty)
          (.users (userItems allProperties ++ contents.map Content.userProperty))) := by
  induction contents generalizing allProperties with
  | nil => exact ⟨trivial, fun none => absurd rfl none⟩
  | cons content contents ih =>
    have ⟨fits, _, passes⟩ := good content mem_cons_self
    have whole : Item.Whole ⟨.userProperty, content⟩ := fun _ type => by cases type
    have added := addTo_kept ⟨.userProperty, content⟩ allProperties fits
    have rest := ih (fun other among => good other (mem_cons_of_mem _ among))
      (Item.addTo ⟨.userProperty, content⟩ allProperties)
    have again : ∀ other, (Item.kept ⟨.userProperty, content⟩).TextsPass other :=
      @textsPass_kept _ ⟨.userProperty, content⟩ passes whole
    refine ⟨⟨fits_kept fits, again _, .inl rfl, ?_⟩, fun _ => ?_⟩
    · rw [added]
      exact rest.1
    · show addItems (Item.addTo (Item.kept ⟨.userProperty, content⟩) allProperties)
        (keptUsers contents) = _
      rw [added]
      cases contents with
      | nil => rfl
      | cons next later =>
        rw [rest.2 (cons_ne_nil _ _), Item.addTo, if_pos rfl, userItems_set, Dict.set_set,
          append_assoc]
        rfl

theorem writtenAs_users {contents : List Content} (some_users : contents ≠ [])
    (good : ∀ content ∈ contents, content.Fits .stringPair ∧
      ∃ after, content.TextsPass after .stringPair) :
    WrittenAs (mqttPropertyIdentifierToString .userProperty) (userProperties contents)
      (userProperties contents) (keptUsers contents) := by
  have identifier : mqttWriteVarint MqttProp.userProperty.code = varint 4 MqttProp.userProperty.code :=
    mqttWriteVarint_eq (by decide)
  refine ⟨?_, ?_, fun after allProperties absent => ?_⟩
  · rw [propertyWrite_name]
    show some (varint 4 MqttProp.userProperty.code ++ writeItems MqttProp.userProperty.code
      (fun item => mqttWriteString item.name ++ mqttWriteString (item.value.getD []))
      (contents.map Content.userProperty)) = _
    rw [← identifier, writeItems_eq _ _ (by rwa [ne_eq, map_eq_nil_iff]), flatMap_map,
      encodeItems, keptUsers, flatMap_map]
    apply congrArg some
    apply flatMap_congr
    intro content among
    have ⟨fits, _, passes⟩ := good content among
    rw [(writeUser_eq fits passes).1, identifier]
    rfl
  · rw [propertyGetLength_name]
    show ((contents.map Content.userProperty).map fun item =>
      5 + (cString item.name).length + (cString (item.value.getD [])).length).sum = _
    rw [List.map_map, encodeItems, keptUsers, flatMap_map, length_flatMap]
    apply congrArg List.sum
    apply map_congr_left
    intro content among
    have ⟨fits, _, passes⟩ := good content among
    have counted := (writeUser_eq fits passes).2
    show 5 + _ + _ = (varint 4 MqttProp.userProperty.code ++
      (content.kept .stringPair).encode .stringPair).length
    rw [length_append, length_varint_code, ← counted]
    omega
  · have ⟨accepts, added⟩ := reads_users good after allProperties
    refine ⟨accepts, ?_⟩
    rw [added some_users, userItems, absent]
    rfl

/-! ## Subscription identifiers

The broker adds the identifiers of the subscriptions that matched: an integer to a retained message,
an array to one that was published. -/

/-- The item of a subscription identifier. -/
def idItem (id : Nat) : Item := ⟨.subscriptionIdentifier, .number id⟩

/-- What a property alone is read as. -/
def Property.asRead : Property → Property
  | .plain value => MqttProp.subscriptionIdentifier.object (some value)
  | .ids [id] => MqttProp.subscriptionIdentifier.object (some (.integer id))
  | property => property

theorem writtenAs_id {id : Nat} (fits : id < 2 ^ 28) {property : Property}
    (one : property = .plain (.integer id) ∨ property = .ids [id]) :
    WrittenAs (mqttPropertyIdentifierToString .subscriptionIdentifier) property property.asRead
      [idItem id] := by
  have small : id < 268435456 := lt_of_lt_of_eq fits (by decide)
  have number := mqttWriteVarint_eq fits
  have read : property.asRead = MqttProp.subscriptionIdentifier.object (some (.integer id)) := by
    rcases one with rfl | rfl <;> rfl
  refine ⟨?_, ?_, ?_⟩
  · rw [propertyWrite_name, encodeItems_singleton]
    rcases one with rfl | rfl
    · show some (varint 4 11 ++ mqttWriteVarint id) = some (varint 4 11 ++ varint 4 id)
      rw [number]
    · show some (varint 4 11 ++ (mqttWriteVarint id ++ [])) = some (varint 4 11 ++ varint 4 id)
      rw [number, append_nil]
  · rw [propertyGetLength_name, encodeItems_singleton, idItem, Item.encode, length_append,
      length_varint_code]
    show _ = 1 + (varint 4 id).length
    rw [length_varint fits]
    rcases one with rfl | rfl
    · show (if id < 268435456 then 1 + idLength id else 0) = 1 + idLength id
      rw [if_pos small]
    · exact Nat.add_zero _
  · rw [read]
    have notUser : (idItem id).prop ≠ .userProperty := by
      show MqttProp.subscriptionIdentifier ≠ .userProperty
      decide
    exact @reads_single (idItem id) notUser fits (fun _ => trivial)

/-! ## All entries -/

theorem accepts_append {first second : List Item} :
    Accepts after (first ++ second) allProperties ↔
      Accepts (encodeItems second ++ after) first allProperties ∧
        Accepts after second (addItems allProperties first) := by
  induction first generalizing allProperties with
  | nil => exact ⟨fun accepts => ⟨trivial, accepts⟩, fun both => both.2⟩
  | cons item first ih =>
    have joined : encodeItems (first ++ second) ++ after =
        encodeItems first ++ (encodeItems second ++ after) := by
      rw [encodeItems, flatMap_append, append_assoc]
      rfl
    rw [cons_append, Accepts, Accepts, joined, ih]
    constructor
    · rintro ⟨fits, passes, new, one, two⟩
      exact ⟨⟨fits, passes, new, one⟩, two⟩
    · rintro ⟨⟨fits, passes, new, one⟩, two⟩
      exact ⟨fits, passes, new, one, two⟩

theorem writtenAs_entries {entries : List (String × Property)}
    (each : ∀ entry ∈ entries, ∃ items, WrittenAs entry.1 entry.2 entry.2.asRead items)
    (distinct : (entries.map Prod.fst).Nodup) :
    ∃ items, propertyWriteEntries entries = some (encodeItems items) ∧
      (entries.map fun entry => propertyGetLength entry.1 entry.2).sum =
        (encodeItems items).length ∧
      ∀ (after : List UInt8) (allProperties : Props),
        (∀ entry ∈ entries, allProperties.get? entry.1 = none) →
        Accepts after items allProperties ∧ (addItems allProperties items).entries =
          allProperties.entries ++ entries.map fun entry => (entry.1, entry.2.asRead) := by
  induction entries with
  | nil => exact ⟨[], rfl, rfl, fun _ _ _ => ⟨trivial, (append_nil _).symm⟩⟩
  | cons entry rest ih =>
    rw [map_cons, nodup_cons] at distinct
    have ⟨items, here⟩ := each entry mem_cons_self
    have ⟨later, writes, counted, reads⟩ :=
      ih (fun other among => each other (mem_cons_of_mem _ among)) distinct.2
    have joined : encodeItems (items ++ later) = encodeItems items ++ encodeItems later :=
      flatMap_append
    refine ⟨items ++ later, ?_, ?_, fun after allProperties absent => ?_⟩
    · rw [propertyWriteEntries, here.writes, bind_some, writes, map_some, joined]
    · rw [map_cons, sum_cons, here.length, counted, joined, length_append]
    · have ⟨accepts, added⟩ :=
        here.reads (encodeItems later ++ after) allProperties (absent entry mem_cons_self)
      have stillAbsent : ∀ other ∈ rest,
          (allProperties.set entry.1 entry.2.asRead).get? other.1 = none := by
        intro other among
        have ne : other.1 ≠ entry.1 := fun same =>
          distinct.1 (same ▸ mem_map_of_mem among)
        rw [get?_set_ne _ _ ne]
        exact absent other (mem_cons_of_mem _ among)
      have ⟨acceptsLater, read⟩ := reads after _ stillAbsent
      refine ⟨accepts_append.2 ⟨accepts, by rw [added]; exact acceptsLater⟩, ?_⟩
      rw [addItems, foldl_append]
      change (addItems (addItems allProperties items) later).entries = _
      rw [added, read, entries_set_new _ _ (absent entry mem_cons_self), append_assoc]
      rfl

/-! ## What the object of a section holds -/

/-- An entry that was made of some items. -/
def Stored (items : List Item) (entry : String × Property) : Prop :=
  (∃ item ∈ items, ∃ after, item.prop ≠ .userProperty ∧ item.Fits ∧ item.TextsPass after ∧
    entry = (mqttPropertyIdentifierToString item.prop,
      item.prop.object (item.content.value item.prop.type))) ∨
  ∃ contents : List Content, contents ≠ [] ∧ (∀ content ∈ contents, content.Fits .stringPair ∧
    ∃ after, content.TextsPass after .stringPair) ∧
    entry = (mqttPropertyIdentifierToString .userProperty, userProperties contents)

theorem name_injective {prop other : MqttProp}
    (same : mqttPropertyIdentifierToString prop = mqttPropertyIdentifierToString other) :
    prop = other := by
  have found := info_name prop
  rw [same, info_name] at found
  exact (some.inj found).symm

theorem userItems_stored (stored : ∀ entry ∈ allProperties.entries, Stored items entry) :
    ∃ contents : List Content, (∀ content ∈ contents, content.Fits .stringPair ∧
      ∃ after, content.TextsPass after .stringPair) ∧
      userItems allProperties = contents.map Content.userProperty := by
  unfold userItems
  cases found : allProperties.get? (mqttPropertyIdentifierToString .userProperty) with
  | none => exact ⟨[], fun _ among => absurd among not_mem_nil, rfl⟩
  | some property =>
    rcases stored _ (mem_of_lookupEntries found) with
      ⟨item, -, _, single, -, -, same⟩ | ⟨contents, -, good, same⟩
    · exact absurd (name_injective (congrArg Prod.fst same)).symm single
    · obtain rfl : property = userProperties contents := congrArg Prod.snd same
      exact ⟨contents, good, rfl⟩

theorem stored_addTo (inside : item ∈ items) (fits : item.Fits) (passes : item.TextsPass after)
    (stored : ∀ entry ∈ allProperties.entries, Stored items entry) :
    ∀ entry ∈ (item.addTo allProperties).entries, Stored items entry := by
  intro entry among
  by_cases user : item.prop = .userProperty
  · have ⟨prop, content⟩ := item
    obtain rfl : prop = .userProperty := user
    have ⟨contents, good, users⟩ := userItems_stored stored
    rw [Item.addTo, if_pos rfl] at among
    rcases mem_entries_set among with rfl | old
    · refine .inr ⟨contents ++ [content], by simp, fun other inside => ?_, ?_⟩
      · rcases mem_append.1 inside with before | new
        · exact good other before
        · rw [mem_singleton.1 new]
          exact ⟨fits, after, passes⟩
      · rw [users, userProperties, map_append]
        rfl
    · exact stored entry old
  · rw [Item.addTo, if_neg user] at among
    rcases mem_entries_set among with rfl | old
    · exact .inl ⟨item, inside, after, user, fits, passes, rfl⟩
    · exact stored entry old

theorem stored_addItems {items all : List Item}
    (accepts : Accepts after items allProperties) (among : ∀ item ∈ items, item ∈ all)
    (stored : ∀ entry ∈ allProperties.entries, Stored all entry) :
    ∀ entry ∈ (addItems allProperties items).entries, Stored all entry := by
  induction items generalizing allProperties with
  | nil => exact stored
  | cons item items ih =>
    have ⟨fits, passes, _, later⟩ := accepts
    exact ih later (fun other inside => among other (mem_cons_of_mem _ inside))
      (stored_addTo (among item mem_cons_self) fits passes stored)

theorem get?_addItems
    (accepts : Accepts after items allProperties) {name : String} {property : Property}
    (notUser : name ≠ mqttPropertyIdentifierToString .userProperty)
    (found : allProperties.get? name = some property) :
    (addItems allProperties items).get? name = some property := by
  induction items generalizing allProperties with
  | nil => exact found
  | cons item items ih =>
    have ⟨_, _, new, later⟩ := accepts
    apply ih later
    unfold Item.addTo
    split
    · rw [get?_set_ne _ _ notUser, found]
    · rename_i single
      have absent := new.resolve_left single
      have ne : name ≠ mqttPropertyIdentifierToString item.prop := by
        rintro rfl
        rw [found] at absent
        cases absent
      rw [get?_set_ne _ _ ne, found]

theorem get?_of_item (accepts : Accepts after items allProperties) (among : item ∈ items)
    (single : item.prop ≠ .userProperty) :
    (addItems allProperties items).get? (mqttPropertyIdentifierToString item.prop) =
      some (item.prop.object (item.content.value item.prop.type)) := by
  induction items generalizing allProperties with
  | nil => exact absurd among not_mem_nil
  | cons first items ih =>
    have ⟨_, _, _, later⟩ := accepts
    rcases mem_cons.1 among with rfl | inside
    · refine get?_addItems later (fun same => single (name_injective same)) ?_
      rw [Item.addTo, if_neg single, get?_set_self]
    · exact ih later inside

/-! ## The bytes a section needs -/

/-- The bytes counted for all properties. -/
def countedAll (props : Props) : Nat :=
  (props.entries.map fun entry => propertyGetLength entry.1 entry.2).sum

/-- The bytes counted for the identifier of a subscription. -/
def countedId (props : Props) : Nat :=
  ((props.get? (mqttPropertyIdentifierToString .subscriptionIdentifier)).map fun old =>
    propertyGetLength (mqttPropertyIdentifierToString .subscriptionIdentifier) old).getD 0

theorem sum_setEntries {α β : Type} [DecidableEq α] (size : α × β → Nat) (key : α) (value : β)
    (entries : List (α × β)) :
    ((Dict.setEntries key value entries).map size).sum +
        ((Dict.lookupEntries key entries).map fun old => size (key, old)).getD 0 =
      (entries.map size).sum + size (key, value) := by
  induction entries with
  | nil => simp [Dict.setEntries, Dict.lookupEntries]
  | cons entry rest ih =>
    obtain ⟨other, old⟩ := entry
    by_cases here : other = key
    · subst here
      simp only [Dict.setEntries, Dict.lookupEntries, ↓reduceIte, map_cons, sum_cons,
        map_some, getD_some]
      omega
    · simp only [Dict.setEntries, Dict.lookupEntries, if_neg here, map_cons, sum_cons]
      omega

/-- The bytes of what is kept of some items. -/
def keptLength (items : List Item) : Nat := (encodeItems (items.map Item.kept)).length

theorem keptLength_cons (item : Item) (items : List Item) :
    keptLength (item :: items) = item.kept.encode.length + keptLength items :=
  length_append

theorem countedAll_set (props : Props) (name : String) (property : Property) :
    countedAll (props.set name property) +
        ((props.get? name).map fun old => propertyGetLength name old).getD 0 =
      countedAll props + propertyGetLength name property :=
  sum_setEntries (fun entry => propertyGetLength entry.1 entry.2) name property props.entries

theorem propertyGetLength_object
    (single : item.prop ≠ .userProperty) (fits : item.Fits) (passes : item.TextsPass after)
    (whole : item.Whole) :
    propertyGetLength (mqttPropertyIdentifierToString item.prop)
      (item.prop.object (item.content.value item.prop.type)) = item.encode.length := by
  rw [(writtenAs_object single fits passes whole).length, encodeItems_singleton]

/-- The bytes counted for a user property. -/
def countedUser (item : UserProperty) : Nat :=
  5 + (cString item.name).length + (cString (item.value.getD [])).length

theorem propertyGetLength_users (items : List UserProperty) :
    propertyGetLength (mqttPropertyIdentifierToString .userProperty) (.users items) =
      (items.map countedUser).sum :=
  propertyGetLength_name .userProperty (.users items)

theorem countedUser_kept {content : Content} {after : List UInt8} (fits : content.Fits .stringPair)
    (passes : content.TextsPass after .stringPair) :
    countedUser content.userProperty = (Item.kept ⟨.userProperty, content⟩).encode.length := by
  have counted := (writeUser_eq fits passes).2
  show _ = (varint 4 MqttProp.userProperty.code ++
    (content.kept .stringPair).encode .stringPair).length
  rw [length_append, length_varint_code, ← counted, countedUser]
  omega

theorem countedUsers (stored : ∀ entry ∈ allProperties.entries, Stored items entry) :
    ((allProperties.get? (mqttPropertyIdentifierToString .userProperty)).map fun old =>
        propertyGetLength (mqttPropertyIdentifierToString .userProperty) old).getD 0 =
      ((userItems allProperties).map countedUser).sum := by
  unfold userItems
  cases found : allProperties.get? (mqttPropertyIdentifierToString .userProperty) with
  | none => rfl
  | some property =>
    rcases stored _ (mem_of_lookupEntries found) with
      ⟨other, -, _, single, -, -, same⟩ | ⟨contents, -, -, same⟩
    · exact absurd (name_injective (congrArg Prod.fst same)).symm single
    · obtain rfl : property = userProperties contents := congrArg Prod.snd same
      rw [map_some, getD_some]
      exact propertyGetLength_users _

theorem countedAll_addTo (fits : item.Fits) (passes : item.TextsPass after) (whole : item.Whole)
    (new : item.New allProperties)
    (stored : ∀ entry ∈ allProperties.entries, Stored items entry) :
    countedAll (item.addTo allProperties) = countedAll allProperties + item.kept.encode.length := by
  by_cases user : item.prop = .userProperty
  · have ⟨prop, content⟩ := item
    obtain rfl : prop = .userProperty := user
    have one := @countedUser_kept content after fits passes
    have summed := countedAll_set allProperties (mqttPropertyIdentifierToString .userProperty)
      (.users (userItems allProperties ++ [content.userProperty]))
    rw [countedUsers stored, propertyGetLength_users, map_append, sum_append,
      map_singleton, sum_singleton, one] at summed
    show countedAll (allProperties.set (mqttPropertyIdentifierToString .userProperty)
      (.users (userItems allProperties ++ [content.userProperty]))) = _
    omega
  · have summed := countedAll_set allProperties (mqttPropertyIdentifierToString item.prop)
      (item.prop.object (item.content.value item.prop.type))
    rw [new.resolve_left user, propertyGetLength_object user fits passes whole] at summed
    rw [Item.addTo, if_neg user, kept_of_single user]
    exact summed

theorem countedAll_addItems {items all : List Item}
    (accepts : Accepts after items allProperties) (among : ∀ item ∈ items, item ∈ all)
    (whole : ∀ item ∈ items, item.Whole)
    (stored : ∀ entry ∈ allProperties.entries, Stored all entry) :
    countedAll (addItems allProperties items) = countedAll allProperties + keptLength items := by
  induction items generalizing allProperties with
  | nil => rfl
  | cons item items ih =>
    have ⟨fits, passes, new, later⟩ := accepts
    have first := countedAll_addTo fits passes (whole item mem_cons_self) new stored
    have rest := ih later (fun other inside => among other (mem_cons_of_mem _ inside))
      (fun other inside => whole other (mem_cons_of_mem _ inside))
      (stored_addTo (among item mem_cons_self) fits passes stored)
    rw [keptLength_cons, ← Nat.add_assoc, ← first]
    exact rest

/-- The items of subscription identifiers. -/
def idItems (items : List Item) : List Item :=
  items.filter fun item => item.prop = .subscriptionIdentifier

/-- The other items. -/
def otherItems (items : List Item) : List Item :=
  items.filter fun item => item.prop ≠ .subscriptionIdentifier

theorem countedId_addItems (accepts : Accepts after items allProperties) :
    countedId (addItems allProperties items) =
      countedId allProperties + keptLength (idItems items) := by
  induction items generalizing allProperties with
  | nil => rfl
  | cons item items ih =>
    have ⟨fits, passes, new, later⟩ := accepts
    have rest := ih later
    change countedId (addItems (item.addTo allProperties) items) = _
    rw [rest]
    by_cases isId : item.prop = .subscriptionIdentifier
    · have single : item.prop ≠ .userProperty := by
        rw [isId]
        decide
      have whole : item.Whole := fun _ type => by
        rw [isId] at type
        cases type
      have absent := new.resolve_left single
      have first : idItems (item :: items) = item :: idItems items :=
        filter_cons_of_pos (decide_eq_true isId)
      have set : countedId (item.addTo allProperties) = item.encode.length := by
        rw [countedId, Item.addTo, if_neg single, ← isId, get?_set_self]
        exact propertyGetLength_object single fits passes whole
      have none : countedId allProperties = 0 := by
        rw [countedId, ← isId, absent]
        rfl
      rw [first, keptLength_cons, kept_of_single single, set, none, Nat.zero_add]
    · have first : idItems (item :: items) = idItems items :=
        filter_cons_of_neg (by simpa using isId)
      have same : countedId (item.addTo allProperties) = countedId allProperties := by
        unfold countedId Item.addTo
        split
        · rw [get?_set_ne _ _ (fun same => by cases name_injective same)]
        · rw [get?_set_ne _ _ (fun same => isId (name_injective same).symm)]
      rw [first, same]

theorem keptLength_split (items : List Item) :
    keptLength items = keptLength (idItems items) + keptLength (otherItems items) := by
  induction items with
  | nil => rfl
  | cons item items ih =>
    by_cases isId : item.prop = .subscriptionIdentifier
    · have first : idItems (item :: items) = item :: idItems items :=
        filter_cons_of_pos (decide_eq_true isId)
      have other : otherItems (item :: items) = otherItems items :=
        filter_cons_of_neg (by simpa using isId)
      rw [first, other, keptLength_cons, keptLength_cons, ih, Nat.add_assoc]
    · have first : idItems (item :: items) = idItems items :=
        filter_cons_of_neg (by simpa using isId)
      have other : otherItems (item :: items) = item :: otherItems items :=
        filter_cons_of_pos (decide_eq_true isId)
      rw [first, other, keptLength_cons, keptLength_cons, ih]
      omega

end Yunetas.Mqtt
