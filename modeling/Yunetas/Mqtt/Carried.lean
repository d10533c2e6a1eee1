import Yunetas.Mqtt.Rewritten

/-!
# Lists of properties a packet may carry

The writer takes a value alone or the object `property_read` makes. A list whose values fit their
properties is written as items of a section, each name once, and the section is accepted whatever
follows it.
-/

namespace Yunetas.Mqtt

open List Option Dict

/-- A text a packet may carry. -/
structure CarriedText (text : List UInt8) : Prop where
  short : text.length < 2 ^ 16
  clean : text ≠ [] → utf8CheckString text = true ∧ mqttValidateUtf8 [] text = true

/-- A json value gives a content: an array of identifiers only when it holds one. -/
def HeldBy (property : Property) : PropType → Content → Prop
  | .varint, .number value =>
    property.value? = some (.integer value) ∨ property = .ids [value]
  | .byte, .number value | .int16, .number value | .int32, .number value =>
    property.value? = some (.integer value)
  | .string, .bytes text => property.value? = some (.string text) ∧ CarriedText text
  | .binary, .bytes data =>
    ∃ base64, property.value? = some (.string base64) ∧
      data = gbufferBase64ToBinary (cString base64)
  | _, _ => False

/-- A property with some content is admitted in the packets of a command. -/
def Admitted (command : Nat) (prop : MqttProp) (content : Content) : Prop :=
  valueAdmitted prop (jsonIntegerValue (content.value prop.type)) = true ∧
    mosquittoPropertyCheckCommand command prop = true

/-- A property the packets of a command may carry, under its name. -/
inductive Carried (command : Nat) : String × Property → Prop
  | single (prop : MqttProp) (property : Property) (content : Content)
      (notUser : prop ≠ .userProperty) (fits : content.Fits prop.type)
      (held : HeldBy property prop.type content) (admitted : Admitted command prop content) :
      Carried command (mqttPropertyIdentifierToString prop, property)
  | users (items : List UserProperty) (some_items : items ≠ [])
      (carried : ∀ item ∈ items, CarriedText item.name ∧ CarriedText (item.value.getD [])) :
      Carried command (mqttPropertyIdentifierToString .userProperty, .users items)

/-- A list of properties of a packet. -/
structure PropertyList (command : Nat) (props : Props) : Prop where
  carried : ∀ entry ∈ props.entries, Carried command entry
  short : countedAll props < 2 ^ 28

/-! ## The items of a list -/

/-- An item of the packets of a command. -/
structure CarriedItem (command : Nat) (item : Item) : Prop where
  fits : item.Fits
  passes : ∀ after, item.TextsPass after
  admitted : Admitted command item.prop item.content

/-- Two items that stand in one list. -/
def Apart (first second : Item) : Prop := second.prop = .userProperty ∨ second.prop ≠ first.prop

section

variable {text : List UInt8} (carried : CarriedText text)
include carried

theorem CarriedText.passes (after : List UInt8) : Passes after text := by
  intro some_text
  have clean := carried.clean some_text
  have again : Passes [] text := fun _ => clean.2
  exact again.again ⟨some_text, clean.1⟩ after some_text

theorem CarriedText.noNul : 0 ∉ text :=
  (carried.passes []).noNul

theorem CarriedText.written :
    mqttWriteString text = sized text ∧ (cString text).length = text.length :=
  ⟨mqttWriteString_eq carried.noNul carried.short, by rw [cString_of_noNul carried.noNul]⟩

end

/-- What stands in a packet for some entries. -/
structure Stand (command : Nat) (entries : List (String × Property)) (items : List Item) :
    Prop where
  /-- What `property__write` writes. -/
  writes : propertyWriteEntries entries = some (encodeItems items)
  /-- What `property__get_length` counts. -/
  counts : (entries.map fun entry => propertyGetLength entry.1 entry.2).sum =
    (encodeItems items).length
  each : ∀ item ∈ items, CarriedItem command item
  named : ∀ item ∈ items, mqttPropertyIdentifierToString item.prop ∈ entries.map Prod.fst
  apart : items.Pairwise Apart
  some_items : entries ≠ [] → items ≠ []

/-- The item of a user property. -/
def userItem (item : UserProperty) : Item :=
  ⟨.userProperty, .pair item.name (item.value.getD [])⟩

theorem writeValue_held {property : Property} {prop : MqttProp} {content : Content}
    (fits : content.Fits prop.type) (held : HeldBy property prop.type content) :
    writeValue prop.code prop.type property = some (content.encode prop.type) ∧
      lengthOf prop.type property = 1 + (content.encode prop.type).length ∧
      ∀ after, content.TextsPass after prop.type := by
  cases type : prop.type <;> rw [type] at fits held <;> cases content <;> try exact absurd held id
  case byte.number value =>
    refine ⟨?_, rfl, fun _ => trivial⟩
    show some (toBigEndian 1 (jsonIntegerValue property.value?)) = some (toBigEndian 1 value)
    rw [held]
    rfl
  case int16.number value =>
    refine ⟨?_, rfl, fun _ => trivial⟩
    show some (toBigEndian 2 (jsonIntegerValue property.value?)) = some (toBigEndian 2 value)
    rw [held]
    rfl
  case int32.number value =>
    refine ⟨?_, rfl, fun _ => trivial⟩
    show some (toBigEndian 4 (jsonIntegerValue property.value?)) = some (toBigEndian 4 value)
    rw [held]
    rfl
  case varint.number value =>
    have number := mqttWriteVarint_eq fits
    have small : value < 268435456 := lt_of_lt_of_eq fits (by decide)
    refine ⟨?_, ?_, fun _ => trivial⟩
    · show _ = some (varint 4 value)
      rw [← number]
      rcases held with alone | rfl
      · cases property with
        | plain other =>
          obtain rfl := some.inj alone
          rfl
        | object _ _ _ other =>
          obtain rfl : other = some (.integer value) := alone
          rfl
        | users items => cases alone
        | ids items => cases alone
      · show some (mqttWriteVarint value ++ []) = _
        rw [append_nil]
    · show _ = 1 + (varint 4 value).length
      rw [length_varint fits]
      rcases held with alone | rfl
      · have counted : (if value < 268435456 then 1 + idLength value else 0) =
            1 + idLength value := if_pos small
        rw [← counted]
        cases property with
        | plain other =>
          obtain rfl := some.inj alone
          rfl
        | object _ _ _ other =>
          obtain rfl : other = some (.integer value) := alone
          rfl
        | users items => cases alone
        | ids items => cases alone
      · exact Nat.add_zero _
  case binary.bytes data =>
    obtain ⟨base64, alone, rfl⟩ := held
    refine ⟨?_, ?_, fun _ => trivial⟩
    · show (jsonStringValue property.value?).map _ = some (sized _)
      rw [alone]
      show some (toBigEndian 2 (gbufferBase64ToBinary (cString base64)).length ++
        (gbufferBase64ToBinary (cString base64)).take
          ((gbufferBase64ToBinary (cString base64)).length % 2 ^ 16)) = _
      rw [Nat.mod_eq_of_lt fits, take_length, sized]
    · show 3 + strLen .binary property.value? = 1 + (sized _).length
      rw [alone, length_sized]
      show 3 + (gbufferBase64ToBinary (cString base64)).length = _
      omega
  case string.bytes text =>
    obtain ⟨alone, carried⟩ := held
    have written := carried.written
    refine ⟨?_, ?_, carried.passes⟩
    · show (jsonStringValue property.value?).map mqttWriteString = some (sized text)
      rw [alone]
      exact congrArg some written.1
    · show 3 + strLen .string property.value? = 1 + (sized text).length
      rw [alone, length_sized]
      show 3 + (cString text).length = _
      omega

variable {command : Nat} {items : List Item}

theorem stand_of_one {entry : String × Property}
    (writes : propertyWrite entry.1 entry.2 = some (encodeItems items))
    (counts : propertyGetLength entry.1 entry.2 = (encodeItems items).length)
    (each : ∀ item ∈ items, CarriedItem command item ∧
      mqttPropertyIdentifierToString item.prop = entry.1)
    (apart : items.Pairwise Apart) (some_items : items ≠ []) : Stand command [entry] items := by
  refine ⟨?_, ?_, fun item among => (each item among).1, fun item among => ?_, apart,
    fun _ => some_items⟩
  · rw [propertyWriteEntries, writes, bind_some, propertyWriteEntries, map_some, append_nil]
  · rw [map_singleton, sum_singleton, counts]
  · rw [(each item among).2]
    exact mem_singleton_self _

theorem stand_one {entry : String × Property} (carried : Carried command entry) :
    ∃ items, Stand command [entry] items := by
  cases carried with
  | single prop property content notUser fits held admitted =>
    have ⟨written, counted, passes⟩ := writeValue_held fits held
    have one : (varint 4 prop.code ++ content.encode prop.type).length =
        1 + (content.encode prop.type).length := by
      rw [length_append, length_varint_code]
    refine ⟨[⟨prop, content⟩], stand_of_one ?_ ?_ ?_ (pairwise_singleton _ _) (cons_ne_nil _ _)⟩
    · rw [propertyWrite_name, written, encodeItems_singleton]
      rfl
    · rw [propertyGetLength_name, counted, encodeItems_singleton]
      exact one.symm
    · intro item among
      rw [mem_singleton.1 among]
      exact ⟨⟨fits, passes, admitted⟩, rfl⟩
  | users items some_items carried =>
    have one : (varint 4 38).length = 1 := length_varint_code .userProperty
    have identifier : mqttWriteVarint MqttProp.userProperty.code = varint 4 38 :=
      mqttWriteVarint_eq (by decide)
    refine ⟨items.map userItem, stand_of_one ?_ ?_ ?_ ?_ ?_⟩
    · rw [propertyWrite_name]
      show some (varint 4 38 ++ writeItems MqttProp.userProperty.code
        (fun item => mqttWriteString item.name ++ mqttWriteString (item.value.getD [])) items) = _
      rw [← identifier, writeItems_eq _ _ some_items, encodeItems, flatMap_map]
      apply congrArg some
      apply flatMap_congr
      intro item among
      have texts := carried item among
      rw [texts.1.written.1, texts.2.written.1, identifier]
      rfl
    · rw [propertyGetLength_name]
      rw [encodeItems, flatMap_map, length_flatMap]
      apply congrArg List.sum
      apply map_congr_left
      intro item among
      have texts := carried item among
      show _ = (varint 4 38 ++ (sized item.name ++ sized (item.value.getD []))).length
      rw [texts.1.written.2, texts.2.written.2, length_append, length_append,
        length_sized, length_sized, one]
      omega
    · intro item among
      obtain ⟨user, inside, rfl⟩ := mem_map.1 among
      have texts := carried user inside
      exact ⟨⟨⟨texts.1.short, texts.2.short⟩,
        fun after => ⟨texts.1.passes _, texts.2.passes after⟩, rfl, rfl⟩, rfl⟩
    · exact pairwise_map.2 (pairwise_of_forall fun _ _ => .inl rfl)
    · rwa [ne_eq, map_eq_nil_iff]

theorem propertyWriteEntries_append (front back : List (String × Property)) :
    propertyWriteEntries (front ++ back) =
      (propertyWriteEntries front).bind fun bytes => (propertyWriteEntries back).map (bytes ++ ·) := by
  induction front with
  | nil =>
    show propertyWriteEntries back = (propertyWriteEntries back).map fun later => [] ++ later
    cases propertyWriteEntries back <;> rfl
  | cons entry rest ih =>
    rw [cons_append, propertyWriteEntries, propertyWriteEntries, ih]
    cases propertyWrite entry.1 entry.2 with
    | none => rfl
    | some bytes =>
      cases propertyWriteEntries rest with
      | none => rfl
      | some later =>
        cases propertyWriteEntries back with
        | none => rfl
        | some last => exact congrArg some (append_assoc bytes later last).symm

section Stand

variable {command : Nat}

theorem stand_nil : Stand command [] [] :=
  ⟨rfl, rfl, fun _ among => absurd among not_mem_nil,
    fun _ among => absurd among not_mem_nil, List.Pairwise.nil, fun some => absurd rfl some⟩

theorem Stand.append {front back : List (String × Property)} {first second : List Item}
    (one : Stand command front first) (two : Stand command back second)
    (differ : ∀ name ∈ front.map Prod.fst, name ∉ back.map Prod.fst) :
    Stand command (front ++ back) (first ++ second) := by
  have joined : encodeItems (first ++ second) = encodeItems first ++ encodeItems second :=
    flatMap_append
  refine ⟨?_, ?_, fun item among => ?_, fun item among => ?_, ?_, fun some_entries none => ?_⟩
  · rw [propertyWriteEntries_append, one.writes, bind_some, two.writes, map_some, joined]
  · rw [map_append, sum_append, one.counts, two.counts, joined, length_append]
  · exact (mem_append.1 among).elim (one.each item) (two.each item)
  · rw [map_append, mem_append]
    exact (mem_append.1 among).imp (one.named item) (two.named item)
  · refine pairwise_append.2 ⟨one.apart, two.apart, fun item here other there => .inr ?_⟩
    intro same
    apply differ _ (one.named item here)
    rw [← same]
    exact two.named other there
  · obtain ⟨rfl, rfl⟩ := append_eq_nil_iff.1 none
    by_cases left : front = []
    · rw [left, nil_append] at some_entries
      exact two.some_items some_entries rfl
    · exact one.some_items left rfl

theorem stand_entries {entries : List (String × Property)}
    (carried : ∀ entry ∈ entries, Carried command entry) (distinct : (entries.map Prod.fst).Nodup) :
    ∃ items, Stand command entries items := by
  induction entries with
  | nil => exact ⟨[], stand_nil⟩
  | cons entry rest ih =>
    rw [map_cons, nodup_cons] at distinct
    have ⟨items, stand⟩ := stand_one (carried entry mem_cons_self)
    have ⟨later, behind⟩ :=
      ih (fun other among => carried other (mem_cons_of_mem _ among)) distinct.2
    refine ⟨items ++ later, stand.append behind fun name among => ?_⟩
    rw [mem_singleton.1 among]
    exact distinct.1

end Stand

theorem accepts_apart (after : List UInt8)
    (allProperties : Props) (each : ∀ item ∈ items, CarriedItem command item) (apart : items.Pairwise Apart)
    (new : ∀ item ∈ items, item.New allProperties) : Accepts after items allProperties := by
  induction items generalizing allProperties with
  | nil => trivial
  | cons item items ih =>
    have here := each item mem_cons_self
    rw [pairwise_cons] at apart
    refine ⟨here.fits, here.passes _, new item mem_cons_self,
      ih _ (fun other among => each other (mem_cons_of_mem _ among)) apart.2
        fun other among => ?_⟩
    rcases new other (mem_cons_of_mem _ among) with user | absent
    · exact .inl user
    · rcases apart.1 other among with user | differs
      · exact .inl user
      · refine .inr ?_
        unfold Item.addTo
        split
        · rename_i user
          rw [get?_set_ne _ _ fun same => differs ((name_injective same).trans user.symm)]
          exact absent
        · rw [get?_set_ne _ _ fun same => differs (name_injective same)]
          exact absent

theorem propertyChecked_object (command : Nat) (prop : MqttProp) (value : Option Value) :
    propertyChecked command (prop.object value) = (valueAdmitted prop (jsonIntegerValue value) &&
        mosquittoPropertyCheckCommand command prop) := by
  have known : MqttProp.ofCode? (checkedIdentifier (prop.object value)) = some prop :=
    ofCode?_code prop
  rw [propertyChecked, known]
  rfl

section

variable (each : ∀ item ∈ items, CarriedItem command item) (apart : items.Pairwise Apart)
include each apart

theorem checked_items :
    mqttPropertyCheckAll command (addItems Dict.empty items) = true := by
  have accepts := accepts_apart [] Dict.empty each apart fun _ _ => .inr rfl
  have stored := stored_addItems accepts (fun _ inside => inside)
    (fun _ among => absurd among List.not_mem_nil)
  unfold mqttPropertyCheckAll
  rw [List.all_eq_true]
  intro entry among
  rcases stored entry among with ⟨item, inside, _, -, -, -, rfl⟩ | ⟨contents, -, -, rfl⟩
  · have admitted := (each item inside).admitted
    rw [propertyChecked_object, admitted.1, admitted.2]
    rfl
  · rfl

theorem propertyReadAll_carried
    (short : (encodeItems items).length < 2 ^ 28) (memory rest : List UInt8) :
    propertyReadAll memory command
        (varint 4 (encodeItems items).length ++ encodeItems items ++ rest) =
      .ok (addItems Dict.empty items, rest) :=
  propertyReadAll_complete (accepts_apart (rest ++ memory) Dict.empty each apart fun _ _ => .inr rfl)
    short (checked_items each apart)

end

end Yunetas.Mqtt
