import Mathlib.Algebra.Order.BigOperators.Group.List
import Yunetas.Lib.Run
import Yunetas.Mqtt.Aliases

/-!
# Topic aliases name the topic that was sent

The tables of the two ends stay mirrored as long as every alias that is assigned travels in a packet that
is sent. `send__publish` assigns it before it looks at the size of the packet, and the size it looks at
lacks the byte of the command.
-/

namespace Yunetas.Mqtt

open List Option Bool Dict

/-! ## Messages -/

/-- A message a caller passes to `send__publish`. -/
structure OutMessage.Proper (message : OutMessage) : Prop where
  some_topic : message.topic ≠ []
  topic : CarriedText message.topic
  payload : message.payload.length < 2 ^ 28
  qos : message.qos ≤ 2
  /-- `mqtt_mid_generate` gives no 0. -/
  mid : 0 < message.mid ∧ message.mid < 2 ^ 16
  properties : ∀ entry ∈ (propsOf message.properties).entries, Carried cmdPublish.toNat entry
  short : countedAll (propsOf message.properties) < 2 ^ 31
  expiry : message.expiryInterval < 2 ^ 32

/-- The topic gets an alias that was not used yet. -/
def NewAlias (conf : PublishConf) (sender : AliasSender) (topic : List UInt8) : Prop :=
  0 < conf.outgoingAliasMax ∧ sender.jnOutgoingAliasMap.get? topic = none ∧
    sender.nextOutgoingAlias ≤ conf.outgoingAliasMax

/-- The topic is sent as the alias it has. -/
def OldAlias (conf : PublishConf) (sender : AliasSender) (topic : List UInt8) : Prop :=
  0 < conf.outgoingAliasMax ∧ (sender.jnOutgoingAliasMap.get? topic).isSome

instance (conf : PublishConf) (sender : AliasSender) (topic : List UInt8) :
    Decidable (NewAlias conf sender topic) := inferInstanceAs (Decidable (_ ∧ _ ∧ _))

instance (conf : PublishConf) (sender : AliasSender) (topic : List UInt8) :
    Decidable (OldAlias conf sender topic) := inferInstanceAs (Decidable (_ ∧ _))

/-- The bytes of the properties of a message, of its expiry interval and of an alias. -/
def propertyBytes (conf : PublishConf) (sender : AliasSender) (message : OutMessage) : Nat :=
  countedAll (withoutExpiry message.properties) + (if message.expiryInterval > 0 then 5 else 0) +
    if OldAlias conf sender message.topic ∨ NewAlias conf sender message.topic then 3 else 0

/-- The bytes of a message behind the fixed header. -/
def bytesBehindHeader (conf : PublishConf) (sender : AliasSender) (message : OutMessage) : Nat :=
  2 + (if OldAlias conf sender message.topic then 0 else message.topic.length) +
    (if message.qos > 0 then 2 else 0) +
    (packetVarintBytes (propertyBytes conf sender message) + propertyBytes conf sender message) +
    message.payload.length

/-- A packet with so many bytes behind the fixed header is not refused for its size: its length takes four
bytes at most, `packet__check_oversize` admits it and there is memory. -/
def SizeAdmitted (conf : PublishConf) (remaining : Nat) : Prop :=
  remaining < 2 ^ 28 ∧ packetCheckOversize conf.maximumPacketSize remaining = true ∧
    remaining + 1 + packetVarintBytes remaining + 1 ≤ conf.maxBlock

/-- A message that keeps the tables mirrored and the packet within the size. -/
structure Sendable (conf : PublishConf) (link : AliasLink) (message : OutMessage) : Prop where
  noAlias : (propsOf message.properties).get? (mqttPropertyIdentifierToString .topicAlias) = none
  sent : NewAlias conf link.sender message.topic →
    propertyBytes conf link.sender message < 2 ^ 28 ∧
      SizeAdmitted conf (bytesBehindHeader conf link.sender message)
  size : conf.maximumPacketSize ≠ 0 →
    bytesBehindHeader conf link.sender message +
      packetVarintBytes (bytesBehindHeader conf link.sender message) ≠ conf.maximumPacketSize

/-- A packet that was sent is as it should be. -/
structure Delivery.Right (conf : PublishConf) (receiver : ReceiverConf) (delivery : Delivery) :
    Prop where
  topic : delivery.resolved = .ok (some delivery.topic)
  alias_le : ∀ read, readPublish receiver.memory conf.protocolVersion
      (framePacket delivery.bytes) = .ok read →
    ∀ topicAlias, read.topicAlias = some topicAlias → topicAlias ≤ conf.outgoingAliasMax
  size : conf.maximumPacketSize ≠ 0 → delivery.bytes.length ≤ conf.maximumPacketSize

/-! ## The packet of a message -/

/-- The item of an alias. -/
def aliasItems : Option Nat → List Item
  | none => []
  | some aliasId => [⟨.topicAlias, .number aliasId⟩]

theorem countedAll_withoutExpiry (properties : Option Props) :
    countedAll (withoutExpiry properties) ≤ countedAll (propsOf properties) := by
  have fewer : (withoutExpiry properties).entries.Sublist (propsOf properties).entries :=
    filter_sublist
  exact (fewer.map _).sum_le_sum fun _ _ => Nat.zero_le _

theorem stand_expiry (expiryInterval : Nat) :
    ∃ items, Stand cmdPublish.toNat (expiryProp expiryInterval).entries items ∧
      (encodeItems items).length = if expiryInterval > 0 then 5 else 0 := by
  unfold expiryProp
  split
  · have ⟨items, stand⟩ := stand_one (@Carried.single cmdPublish.toNat
      .messageExpiryInterval (.plain (.integer (expiryInterval % 2 ^ 32)))
      (.number (expiryInterval % 2 ^ 32)) (by decide) (Nat.mod_lt _ (by decide)) rfl ⟨rfl, rfl⟩)
    refine ⟨items, stand, ?_⟩
    rw [← stand.counts, map_singleton, sum_singleton, propertyGetLength_name]
    rfl
  · exact ⟨[], stand_nil, rfl⟩

variable {aliasId : Option Nat} {message : OutMessage}

theorem stand_alias (fits : ∀ number, aliasId = some number → 0 < number ∧ number < 2 ^ 16) :
    Stand cmdPublish.toNat (topicAliasProp aliasId).entries (aliasItems aliasId) := by
  cases aliasId with
  | none => exact stand_nil
  | some number =>
    have ⟨positive, small⟩ := fits number rfl
    have same : number % 2 ^ 16 = number := Nat.mod_eq_of_lt small
    have entry : (topicAliasProp (some number)).entries =
        [(mqttPropertyIdentifierToString .topicAlias, .plain (.integer number))] := by
      rw [topicAliasProp, same]
      rfl
    have admitted : valueAdmitted .topicAlias number = true := by
      exact decide_eq_true (by omega)
    have bytes : propertyWrite (mqttPropertyIdentifierToString .topicAlias)
        (.plain (.integer number)) = some (encodeItems [⟨.topicAlias, .number number⟩]) := by
      rw [propertyWrite_name, encodeItems_singleton]
      rfl
    have counted : propertyGetLength (mqttPropertyIdentifierToString .topicAlias)
        (.plain (.integer number)) = (encodeItems [⟨.topicAlias, .number number⟩]).length := by
      rw [propertyGetLength_name, encodeItems_singleton]
      rfl
    rw [entry]
    refine stand_of_one bytes counted (fun item among => ?_) (pairwise_singleton _ _)
      (cons_ne_nil _ _)
    rw [mem_singleton.1 among]
    exact ⟨⟨small, fun _ => trivial, admitted, rfl⟩, rfl⟩

/-- The properties of a packet: those of the message, the expiry interval and the alias. -/
def sentEntries (message : OutMessage) (aliasId : Option Nat) : List (String × Property) :=
  (withoutExpiry message.properties).entries ++ (expiryProp message.expiryInterval).entries ++
    (topicAliasProp aliasId).entries

theorem keys_withoutExpiry {properties : Option Props} {name : String}
    (among : name ∈ (withoutExpiry properties).entries.map Prod.fst) :
    name ≠ mqttPropertyIdentifierToString .messageExpiryInterval ∧
      name ∈ (propsOf properties).entries.map Prod.fst := by
  obtain ⟨entry, inside, rfl⟩ := mem_map.1 among
  have kept := mem_filter.1 inside
  exact ⟨of_decide_eq_true kept.2, mem_map_of_mem kept.1⟩

theorem keys_expiryProp {expiryInterval : Nat} {name : String}
    (among : name ∈ (expiryProp expiryInterval).entries.map Prod.fst) :
    name = mqttPropertyIdentifierToString .messageExpiryInterval := by
  unfold expiryProp at among
  split at among
  · exact mem_singleton.1 among
  · exact absurd among not_mem_nil

theorem keys_topicAliasProp {name : String}
    (among : name ∈ (topicAliasProp aliasId).entries.map Prod.fst) :
    name = mqttPropertyIdentifierToString .topicAlias := by
  cases aliasId with
  | none => exact absurd among not_mem_nil
  | some number => exact mem_singleton.1 among

/-- What stands in the packet of a message: the alias comes last, and no other one is there. -/
theorem stand_message (proper : message.Proper) (noAlias : (propsOf message.properties).get?
      (mqttPropertyIdentifierToString .topicAlias) = none)
    (fits : ∀ number, aliasId = some number → 0 < number ∧ number < 2 ^ 16) :
    ∃ items, Stand cmdPublish.toNat (sentEntries message aliasId) (items ++ aliasItems aliasId) ∧
      (∀ item ∈ items, item.prop ≠ .topicAlias) ∧
      (encodeItems (items ++ aliasItems aliasId)).length =
        countedAll (withoutExpiry message.properties) +
          (if message.expiryInterval > 0 then 5 else 0) + if aliasId.isSome then 3 else 0 := by
  have carried : ∀ entry ∈ (withoutExpiry message.properties).entries,
      Carried cmdPublish.toNat entry := fun entry among =>
    proper.properties entry (mem_filter.1 among).1
  have ⟨own, stand⟩ := stand_entries carried (Dict.nodup _)
  have ⟨expiry, between, counted⟩ := stand_expiry message.expiryInterval
  have last := stand_alias fits
  have two := stand.append between fun name among other =>
    (keys_withoutExpiry among).1 (keys_expiryProp other)
  have free : mqttPropertyIdentifierToString .topicAlias ∉
      (propsOf message.properties).entries.map Prod.fst := by
    rw [← lookupEntries_isSome]
    change ¬((propsOf message.properties).get? _).isSome
    rw [noAlias]
    exact false_ne_true
  have differ : ∀ name ∈ ((withoutExpiry message.properties).entries ++
      (expiryProp message.expiryInterval).entries).map Prod.fst,
      name ≠ mqttPropertyIdentifierToString .topicAlias := by
    rintro name among rfl
    rw [map_append, mem_append] at among
    rcases among with here | there
    · exact free (keys_withoutExpiry here).2
    · exact absurd (name_injective (keys_expiryProp there)) (by decide)
  refine ⟨own ++ expiry, two.append last fun name among other =>
    differ name among (keys_topicAliasProp other), fun item among same => ?_, ?_⟩
  · apply differ _ (two.named item among)
    rw [same]
  · have ownCounted : (encodeItems own).length = countedAll (withoutExpiry message.properties) :=
      stand.counts.symm
    have joined : encodeItems (own ++ expiry ++ aliasItems aliasId) =
        encodeItems own ++ encodeItems expiry ++ encodeItems (aliasItems aliasId) := by
      rw [encodeItems, flatMap_append, flatMap_append]
      rfl
    have aliasCounted : (encodeItems (aliasItems aliasId)).length =
        if aliasId.isSome then 3 else 0 := by
      cases aliasId <;> rfl
    rw [joined, length_append, length_append, ownCounted, counted, aliasCounted]

theorem properties_written {items : List Item}
    (stand : Stand cmdPublish.toNat (sentEntries message aliasId) items)
    (small : (encodeItems items).length < 2 ^ 32) :
    writePublishProperties message aliasId = some (encodeItems items) ∧
      publishProplen message aliasId = (encodeItems items).length := by
  constructor
  · have written := stand.writes
    unfold sentEntries at written
    rw [propertyWriteEntries_append, propertyWriteEntries_append] at written
    unfold writePublishProperties
    rw [← written, bind_assoc]
    cases propertyWriteEntries (withoutExpiry message.properties).entries with
    | none => rfl
    | some own =>
      cases propertyWriteEntries (expiryProp message.expiryInterval).entries with
      | none => rfl
      | some expiry =>
        cases propertyWriteEntries (topicAliasProp aliasId).entries <;> rfl
  · have counted := stand.counts
    unfold sentEntries at counted
    rw [map_append, map_append, sum_append, sum_append] at counted
    unfold publishProplen propertyGetLengthAll
    omega

/-! ## The alias of a message -/

/-- What `send__publish` does about the alias of a topic. -/
inductive Chosen (conf : PublishConf) (sender : AliasSender) (topic : List UInt8) :
    AliasChoice → Prop
  | old (aliasId : Nat) (some_aliases : 0 < conf.outgoingAliasMax)
      (found : sender.jnOutgoingAliasMap.get? topic = some aliasId) :
      Chosen conf sender topic ⟨sender, some aliasId, []⟩
  | new (assigned : NewAlias conf sender topic) :
      Chosen conf sender topic
        ⟨⟨sender.jnOutgoingAliasMap.set topic sender.nextOutgoingAlias,
          sender.nextOutgoingAlias + 1⟩, some sender.nextOutgoingAlias, topic⟩
  | bare (notOld : ¬OldAlias conf sender topic) (notNew : ¬NewAlias conf sender topic) :
      Chosen conf sender topic ⟨sender, none, topic⟩

theorem outgoingAlias_chosen (conf : PublishConf) (sender : AliasSender) {topic : List UInt8}
    (valid : utf8CheckString topic = true) :
    Chosen conf sender topic (outgoingAlias conf.outgoingAliasMax sender topic) := by
  unfold outgoingAlias
  split
  · rename_i some_aliases
    split
    · rename_i aliasId found
      exact .old aliasId some_aliases found
    · rename_i absent
      split
      · rename_i room
        exact .new ⟨some_aliases, absent, room⟩
      · rename_i full
        refine .bare ?_ fun new => full new.2.2
        rintro ⟨-, present⟩
        rw [absent] at present
        cases present
  · rename_i none
    exact .bare (fun old => none old.1) fun new => none new.1

section Sizes

variable {conf : PublishConf} {sender : AliasSender} {topic : List UInt8} {choice : AliasChoice}

theorem Chosen.isSome (chosen : Chosen conf sender topic choice) :
    choice.aliasId.isSome = true ↔ OldAlias conf sender topic ∨ NewAlias conf sender topic := by
  cases chosen with
  | old aliasId some_aliases found =>
    exact ⟨fun _ => .inl ⟨some_aliases, by rw [found]; rfl⟩, fun _ => rfl⟩
  | new assigned => exact ⟨fun _ => .inr assigned, fun _ => rfl⟩
  | bare notOld notNew =>
    exact ⟨fun some => absurd some false_ne_true,
      fun either => either.elim (absurd · notOld) (absurd · notNew)⟩

theorem Chosen.topic_eq (chosen : Chosen conf sender topic choice) :
    choice.topic = if OldAlias conf sender topic then [] else topic := by
  cases chosen with
  | old aliasId some_aliases found =>
    rw [if_pos ⟨some_aliases, by rw [found]; rfl⟩]
  | new assigned =>
    rw [if_neg]
    rintro ⟨-, present⟩
    rw [assigned.2.1] at present
    cases present
  | bare notOld notNew => rw [if_neg notOld]

end Sizes

/-- The bytes of a PUBLISH behind the fixed header. -/
def publishBody (message : OutMessage) (topic : List UInt8) (items : List Item) : List UInt8 :=
  sized topic ++ (if message.qos > 0 then toBigEndian 2 message.mid else []) ++
    (varint 4 (encodeItems items).length ++ encodeItems items) ++ message.payload

theorem varbytes_le {number : Nat} : ¬packetVarintBytes number > 4 ↔ number < 2 ^ 28 := by
  unfold packetVarintBytes
  split_ifs <;> omega

theorem buildPublish_eq (conf : PublishConf) (message : OutMessage) (body : List UInt8)
    (size : Nat) :
    ((∃ error, buildPublish conf message size (some body) = .error error) ∧
      ¬SizeAdmitted conf size) ∨
    (size < 2 ^ 28 ∧ packetCheckOversize conf.maximumPacketSize size = true ∧
      buildPublish conf message size (some body) =
        .ok ((cmdPublish ||| publishFlags conf.retainAvailable message) ::
          varint 4 size ++ body)) := by
  unfold buildPublish
  by_cases oversize : packetCheckOversize conf.maximumPacketSize size = false
  · rw [if_pos oversize]
    refine .inl ⟨⟨_, rfl⟩, fun fits => ?_⟩
    rw [fits.2.1] at oversize
    cases oversize
  · rw [if_neg oversize]
    have admitted := eq_true_of_not_eq_false oversize
    by_cases small : size < 2 ^ 28
    · have four : varint 5 size = varint 4 size :=
        varint_length_of_lt (by decide) (lt_of_lt_of_eq small (by decide)) 1
      have bytes := length_varint_bytes small
      have short := varint_length 4 size
      unfold buildMqttPacket
      rw [four, if_neg (by omega), bytes]
      by_cases room : size + 1 + packetVarintBytes size + 1 > conf.maxBlock
      · rw [if_pos room]
        exact .inl ⟨⟨_, rfl⟩, fun fits => absurd fits.2.2 (Nat.not_le.2 room)⟩
      · rw [if_neg room]
        exact .inr ⟨small, admitted, rfl⟩
    · cases head : buildMqttPacket conf.maxBlock
          (cmdPublish ||| publishFlags conf.retainAvailable message) size with
      | none => exact .inl ⟨⟨_, rfl⟩, fun fits => small fits.1⟩
      | some gbuf =>
        have five : (varint 5 size).length ≠ 5 := by
          intro five
          unfold buildMqttPacket at head
          rw [if_pos five] at head
          cases head
        have most := varint_length 5 size
        have four : (varint (4 + 1) size).length ≤ 4 := by
          show (varint 5 size).length ≤ 4
          omega
        exact absurd (lt_of_lt_of_eq (lt_of_varint_length four) (by decide)) small

/-- A message is sent as a packet: its items are those of its properties and of its alias. -/
structure SentAs (conf : PublishConf) (sender : AliasSender) (message : OutMessage)
    (choice : AliasChoice) (items : List Item) : Prop where
  each : ∀ item ∈ items ++ aliasItems choice.aliasId, CarriedItem cmdPublish.toNat item
  apart : (items ++ aliasItems choice.aliasId).Pairwise Apart
  others : ∀ item ∈ items, item.prop ≠ .topicAlias
  short : (encodeItems (items ++ aliasItems choice.aliasId)).length < 2 ^ 28
  length : (publishBody message choice.topic (items ++ aliasItems choice.aliasId)).length =
    bytesBehindHeader conf sender message
  remaining : bytesBehindHeader conf sender message < 2 ^ 28
  /-- `packet__check_oversize`. -/
  admitted : packetCheckOversize conf.maximumPacketSize
    (bytesBehindHeader conf sender message) = true
  result : sendPublish conf sender message = (choice.sender,
    .ok ((cmdPublish ||| publishFlags conf.retainAvailable message) ::
      varint 4 (bytesBehindHeader conf sender message) ++
      publishBody message choice.topic (items ++ aliasItems choice.aliasId)))

theorem sendPublish_spec {conf : PublishConf} {sender : AliasSender}
    (mqtt5 : conf.protocolVersion = .mqtt5) (aliasMax : conf.outgoingAliasMax < 2 ^ 16)
    (proper : message.Proper)
    (noAlias : (propsOf message.properties).get?
      (mqttPropertyIdentifierToString .topicAlias) = none)
    (assigned : ∀ topic aliasId, sender.jnOutgoingAliasMap.get? topic = some aliasId →
      0 < aliasId ∧ aliasId < 2 ^ 16) (next : 0 < sender.nextOutgoingAlias) :
    ∃ choice, Chosen conf sender message.topic choice ∧
      ((∃ error, sendPublish conf sender message = (choice.sender, .error error) ∧
          ¬(propertyBytes conf sender message < 2 ^ 28 ∧
            SizeAdmitted conf (bytesBehindHeader conf sender message))) ∨
        ∃ items, SentAs conf sender message choice items) := by
  have valid := (proper.topic.clean proper.some_topic).1
  have chosen := outgoingAlias_chosen conf sender valid
  refine ⟨_, chosen, ?_⟩
  generalize chosenEq : outgoingAlias conf.outgoingAliasMax sender message.topic = choice at chosen
  have fits : ∀ number, choice.aliasId = some number → 0 < number ∧ number < 2 ^ 16 := by
    intro number same
    cases chosen with
    | old aliasId some_aliases found =>
      obtain rfl := some.inj same
      exact assigned _ _ found
    | new new =>
      obtain rfl := some.inj same
      exact ⟨next, Nat.lt_of_le_of_lt new.2.2 aliasMax⟩
    | bare notOld notNew => cases same
  have ⟨items, stand, others, length⟩ := stand_message proper noAlias fits
  have aliasBytes : (if choice.aliasId.isSome then 3 else 0) =
      if OldAlias conf sender message.topic ∨ NewAlias conf sender message.topic then 3 else 0 := by
    simp [chosen.isSome]
  have counted : (encodeItems (items ++ aliasItems choice.aliasId)).length =
      propertyBytes conf sender message := by
    rw [length, aliasBytes, propertyBytes]
  have few := countedAll_withoutExpiry message.properties
  have short := proper.short
  have word : propertyBytes conf sender message < 2 ^ 32 := by
    unfold propertyBytes
    split_ifs <;> omega
  have ⟨written, proplen⟩ := properties_written stand (by rw [counted]; exact word)
  have topicText : CarriedText choice.topic := by
    rw [chosen.topic_eq]
    split
    · exact ⟨by decide, fun some => absurd rfl some⟩
    · exact proper.topic
  have ⟨topicWritten, topicLength⟩ := topicText.written
  have topicBytes : choice.topic.length =
      if OldAlias conf sender message.topic then 0 else message.topic.length := by
    rw [chosen.topic_eq]
    split <;> rfl
  have result : sendPublish conf sender message = (choice.sender,
      if packetVarintBytes (propertyBytes conf sender message) > 4 then .error .oversizePacket
      else
        buildPublish conf message
          ((publishPacketlen message choice.topic + (propertyBytes conf sender message +
            packetVarintBytes (propertyBytes conf sender message))) % 2 ^ 32)
          (some (publishStart message choice.topic ++
            (mqttWriteVarint (propertyBytes conf sender message) ++
              encodeItems (items ++ aliasItems choice.aliasId)) ++ message.payload))) := by
    unfold sendPublish
    rw [if_pos mqtt5]
    dsimp only
    rw [chosenEq, written, proplen, counted, map_some]
  by_cases large : packetVarintBytes (propertyBytes conf sender message) > 4
  · rw [if_pos large] at result
    exact .inl ⟨_, result, fun both => absurd (varbytes_le.2 both.1) (not_not.2 large)⟩
  · rw [if_neg large] at result
    have small := varbytes_le.1 large
    have lengthBytes : (varint 4 (propertyBytes conf sender message)).length =
        packetVarintBytes (propertyBytes conf sender message) := length_varint_bytes small
    have bodyLength : (publishBody message choice.topic
        (items ++ aliasItems choice.aliasId)).length = bytesBehindHeader conf sender message := by
      have midBytes : (if message.qos > 0 then toBigEndian 2 message.mid else []).length =
          if message.qos > 0 then 2 else 0 := by
        split
        · exact length_toBigEndian 2 message.mid
        · rfl
      unfold publishBody bytesBehindHeader
      rw [length_append, length_append, length_append, length_sized, midBytes,
        length_append, counted, lengthBytes, topicBytes]
    have total : (publishPacketlen message choice.topic + (propertyBytes conf sender message +
          packetVarintBytes (propertyBytes conf sender message))) % 2 ^ 32 =
        bytesBehindHeader conf sender message := by
      have payload := proper.payload
      have topicShort := topicText.short
      unfold publishPacketlen bytesBehindHeader
      rw [topicLength, ← topicBytes]
      split_ifs <;> omega
    have body : publishStart message choice.topic ++
        (mqttWriteVarint (propertyBytes conf sender message) ++
          encodeItems (items ++ aliasItems choice.aliasId)) ++ message.payload =
        publishBody message choice.topic (items ++ aliasItems choice.aliasId) := by
      unfold publishStart publishBody
      rw [topicWritten, mqttWriteVarint_eq small, counted]
    rw [total, body] at result
    rcases buildPublish_eq conf message _ (bytesBehindHeader conf sender message) with
      ⟨⟨error, refused⟩, large⟩ | ⟨remaining, admitted, built⟩
    · rw [refused] at result
      exact .inl ⟨error, result, fun both => large both.2⟩
    · rw [built] at result
      exact .inr ⟨items, stand.each, stand.apart, others, by rw [counted]; exact small, bodyLength,
        remaining, admitted, result⟩

/-! ## The packet that is received -/

theorem dropWhile_varint {count number : Nat} (some_count : 0 < count)
    (fits : number < 128 ^ count) (payload : List UInt8) :
    ((varint count number ++ payload).dropWhile continues).drop 1 = payload := by
  induction count generalizing number with
  | zero => exact absurd some_count (by decide)
  | succ count ih =>
    unfold varint
    split
    · rename_i small
      rw [singleton_append, dropWhile_cons_of_neg]
      · rfl
      · rw [(last_byte small).1]
        exact false_ne_true
    · have some_left : 0 < count := by
        by_contra none
        rw [Nat.eq_zero_of_not_pos none] at fits
        omega
      rw [cons_append, dropWhile_cons_of_pos (earlier_byte number).1]
      exact ih some_left (by omega)

theorem framePacket_eq (first : UInt8) {size : Nat} (small : size < 2 ^ 28) (body : List UInt8) :
    framePacket (first :: varint 4 size ++ body) = ⟨first &&& 0xF0, first &&& 0x0F, body⟩ := by
  rw [cons_append, framePacket,
    dropWhile_varint (by decide) (lt_of_lt_of_eq small (by decide)) body]

theorem publishFlags_qos (retainAvailable : Bool) (qos : message.qos ≤ 2) :
    (((cmdPublish ||| publishFlags retainAvailable message) &&& 0x0F) &&& 0x06) >>> 1 > 0 ↔
      message.qos > 0 := by
  unfold publishFlags
  have three : message.qos = 0 ∨ message.qos = 1 ∨ message.qos = 2 := by omega
  rcases three with none | one | two
  · rw [none]
    cases message.dup <;> cases message.retain <;> cases retainAvailable <;> decide
  · rw [one]
    cases message.dup <;> cases message.retain <;> cases retainAvailable <;> decide
  · rw [two]
    cases message.dup <;> cases message.retain <;> cases retainAvailable <;> decide

theorem topicAliasOf_none {entries : List (String × Property)} {topicAlias : Option Nat}
    (others : ∀ entry ∈ entries, checkedIdentifier entry.2 ≠ MqttProp.topicAlias.code) :
    topicAliasOf entries topicAlias = topicAlias := by
  induction entries with
  | nil => rfl
  | cons entry rest ih =>
    rw [topicAliasOf, if_neg (others entry mem_cons_self)]
    exact ih fun other among => others other (mem_cons_of_mem _ among)

theorem topicAliasOf_mem {entries : List (String × Property)} {topicAlias : Option Nat}
    {name : String} {property : Property} (distinct : (entries.map Prod.fst).Nodup)
    (named : ∀ entry ∈ entries, checkedIdentifier entry.2 = MqttProp.topicAlias.code →
      entry.1 = name) (among : (name, property) ∈ entries)
    (known : checkedIdentifier property = MqttProp.topicAlias.code) :
    topicAliasOf entries topicAlias = some (jsonIntegerValue property.value?) := by
  induction entries generalizing topicAlias with
  | nil => exact absurd among not_mem_nil
  | cons entry rest ih =>
    rw [map_cons, nodup_cons] at distinct
    rw [topicAliasOf]
    rcases mem_cons.1 among with rfl | later
    · rw [if_pos known]
      refine topicAliasOf_none fun other inside same => ?_
      have again := named other (mem_cons_of_mem _ inside) same
      have key := mem_map_of_mem (f := Prod.fst) inside
      rw [again] at key
      exact distinct.1 key
    · exact ih distinct.2 (fun other inside => named other (mem_cons_of_mem _ inside)) later

theorem topicAliasOf_sent {items : List Item}
    (each : ∀ item ∈ items ++ aliasItems aliasId, CarriedItem cmdPublish.toNat item)
    (apart : (items ++ aliasItems aliasId).Pairwise Apart)
    (others : ∀ item ∈ items, item.prop ≠ .topicAlias) :
    topicAliasOf (addItems Dict.empty (items ++ aliasItems aliasId)).entries none = aliasId := by
  have accepts := accepts_apart [] Dict.empty each apart fun _ _ => .inr rfl
  have stored := stored_addItems accepts (fun _ inside => inside)
    (fun _ among => absurd among not_mem_nil)
  have identified : ∀ entry ∈ (addItems Dict.empty (items ++ aliasItems aliasId)).entries,
      checkedIdentifier entry.2 = MqttProp.topicAlias.code →
      entry.1 = mqttPropertyIdentifierToString .topicAlias ∧
        ∃ item ∈ items ++ aliasItems aliasId, item.prop = .topicAlias := by
    intro entry among same
    rcases stored entry among with ⟨item, inside, _, -, -, -, rfl⟩ | ⟨contents, -, -, rfl⟩
    · have prop : item.prop = .topicAlias := by
        revert same
        show item.prop.code = _ → _
        cases item.prop <;> decide
      exact ⟨congrArg mqttPropertyIdentifierToString prop, item, inside, prop⟩
    · change MqttProp.userProperty.code = MqttProp.topicAlias.code at same
      exact absurd same (by decide)
  cases aliasId with
  | none =>
    refine topicAliasOf_none fun entry among same => ?_
    have ⟨_, item, inside, prop⟩ := identified entry among same
    rw [aliasItems, append_nil] at inside
    exact others item inside prop
  | some number =>
    have last : (⟨.topicAlias, .number number⟩ : Item) ∈ items ++ aliasItems (some number) :=
      mem_append_right _ (mem_singleton_self _)
    have found := get?_of_item accepts last (by show MqttProp.topicAlias ≠ .userProperty; decide)
    exact topicAliasOf_mem (Dict.nodup _) (fun entry among same => (identified entry among same).1)
      (mem_of_lookupEntries found) rfl

section Received

variable {conf : PublishConf} {sender : AliasSender} {message : OutMessage} {choice : AliasChoice}
  {items : List Item}

theorem readPublish_sent (memory : List UInt8) (mqtt5 : conf.protocolVersion = .mqtt5)
    (proper : message.Proper) (topic : CarriedText choice.topic)
    (sent : SentAs conf sender message choice items) :
    readPublish memory conf.protocolVersion (framePacket
      ((cmdPublish ||| publishFlags conf.retainAvailable message) ::
        varint 4 (bytesBehindHeader conf sender message) ++
        publishBody message choice.topic (items ++ aliasItems choice.aliasId))) =
      .ok ⟨if choice.topic = [] then none else some choice.topic, choice.aliasId,
        message.payload⟩ := by
  rw [framePacket_eq _ sent.remaining]
  have start : mqttReadString memory
      (publishBody message choice.topic (items ++ aliasItems choice.aliasId)) =
        some (choice.topic, (if message.qos > 0 then toBigEndian 2 message.mid else []) ++
          ((varint 4 (encodeItems (items ++ aliasItems choice.aliasId)).length ++
            encodeItems (items ++ aliasItems choice.aliasId)) ++ message.payload)) := by
    unfold publishBody
    rw [append_assoc, append_assoc]
    exact mqttReadString_complete topic.short (topic.passes _)
  have middle : readPublishMid
      ((((cmdPublish ||| publishFlags conf.retainAvailable message) &&& 0x0F) &&& 0x06) >>> 1)
      ((if message.qos > 0 then toBigEndian 2 message.mid else []) ++
        ((varint 4 (encodeItems (items ++ aliasItems choice.aliasId)).length ++
          encodeItems (items ++ aliasItems choice.aliasId)) ++ message.payload)) =
        .ok ((varint 4 (encodeItems (items ++ aliasItems choice.aliasId)).length ++
          encodeItems (items ++ aliasItems choice.aliasId)) ++ message.payload) := by
    unfold readPublishMid
    by_cases some_mid : message.qos > 0
    · rw [if_pos ((publishFlags_qos _ proper.qos).2 some_mid), if_pos some_mid,
        mqttReadUint16_complete proper.mid.2]
      have positive := proper.mid.1
      exact if_neg (by omega)
    · rw [if_neg fun qos => some_mid ((publishFlags_qos _ proper.qos).1 qos), if_neg some_mid,
        nil_append]
  have last := propertyReadAll_carried sent.each sent.apart sent.short memory message.payload
  unfold readPublish
  rw [start]
  dsimp only
  rw [if_neg fun both => both.2 mqtt5, middle]
  dsimp only
  rw [if_pos mqtt5, last]
  dsimp only
  rw [topicAliasOf_sent sent.each sent.apart sent.others]

theorem length_sent (sent : SentAs conf sender message choice items) :
    ((cmdPublish ||| publishFlags conf.retainAvailable message) ::
        varint 4 (bytesBehindHeader conf sender message) ++
        publishBody message choice.topic (items ++ aliasItems choice.aliasId)).length =
      1 + packetVarintBytes (bytesBehindHeader conf sender message) +
        bytesBehindHeader conf sender message := by
  rw [length_append, length_cons, length_varint_bytes sent.remaining, sent.length]
  omega

end Received

/-! ## Runs -/

/-- The tables of the two ends are mirrored, and every packet was right. -/
structure Mirrored (conf : PublishConf) (receiver : ReceiverConf) (link : AliasLink) : Prop where
  isOpen : link.closed = false
  next : 0 < link.sender.nextOutgoingAlias
  /-- An alias of the sender is admitted, was used, and stands for its topic at the receiver. -/
  mirrored : ∀ topic aliasId, link.sender.jnOutgoingAliasMap.get? topic = some aliasId →
    0 < aliasId ∧ aliasId < link.sender.nextOutgoingAlias ∧ aliasId ≤ conf.outgoingAliasMax ∧
      link.jnAliasList.get? aliasId = some topic
  right : ∀ delivery ∈ link.deliveries, delivery.Right conf receiver

section Steps

variable {conf : PublishConf} {receiver : ReceiverConf} {link : AliasLink} {message : OutMessage}

theorem handlePublishTopic_alias {jnAliasList : Dict Nat (List UInt8)} {packet : Packet}
    {topic : Option (List UInt8)} {aliasId : Nat} {payload : List UInt8}
    (mqtt5 : conf.protocolVersion = .mqtt5)
    (read : readPublish receiver.memory conf.protocolVersion packet =
      .ok ⟨topic, some aliasId, payload⟩) :
    handlePublishTopic receiver.server receiver.memory conf.protocolVersion conf.outgoingAliasMax
      jnAliasList packet = resolveAlias conf.outgoingAliasMax jnAliasList topic aliasId := by
  unfold handlePublishTopic
  rw [read]
  dsimp only
  split
  · rfl
  · rfl

theorem handlePublishTopic_bare {jnAliasList : Dict Nat (List UInt8)} {packet : Packet}
    {topic payload : List UInt8} (mqtt5 : conf.protocolVersion = .mqtt5)
    (read : readPublish receiver.memory conf.protocolVersion packet =
      .ok ⟨some topic, none, payload⟩) :
    handlePublishTopic receiver.server receiver.memory conf.protocolVersion conf.outgoingAliasMax
      jnAliasList packet = .ok (some topic, jnAliasList) := by
  unfold handlePublishTopic
  rw [read]
  dsimp only
  split
  · rfl
  · unfold resolveTopicAliasC
    exact if_neg (some_ne_none topic)

theorem publish_refused {sender : AliasSender} {error : SendError} (isOpen : link.closed = false)
    (result : sendPublish conf link.sender message = (sender, .error error)) :
    link.publish conf receiver message = { link with sender } := by
  rw [AliasLink.publish, if_neg (by rw [isOpen]; decide), result]

theorem publish_sent {sender : AliasSender} {bytes : List UInt8} (isOpen : link.closed = false)
    (result : sendPublish conf link.sender message = (sender, .ok bytes)) :
    link.publish conf receiver message = link.receive conf receiver sender message.topic bytes := by
  rw [AliasLink.publish, if_neg (by rw [isOpen]; decide), result]

theorem Mirrored.received {sender : AliasSender} {bytes : List UInt8}
    {jnAliasList : Dict Nat (List UInt8)} (mirrored : Mirrored conf receiver link)
    (found : handlePublishTopic receiver.server receiver.memory conf.protocolVersion
      conf.outgoingAliasMax link.jnAliasList (framePacket bytes) =
        .ok (some message.topic, jnAliasList))
    (next : 0 < sender.nextOutgoingAlias)
    (kept : ∀ topic aliasId, sender.jnOutgoingAliasMap.get? topic = some aliasId →
      0 < aliasId ∧ aliasId < sender.nextOutgoingAlias ∧ aliasId ≤ conf.outgoingAliasMax ∧
        jnAliasList.get? aliasId = some topic)
    (admitted : ∀ read, readPublish receiver.memory conf.protocolVersion (framePacket bytes) =
        .ok read →
      ∀ topicAlias, read.topicAlias = some topicAlias → topicAlias ≤ conf.outgoingAliasMax)
    (size : conf.maximumPacketSize ≠ 0 → bytes.length ≤ conf.maximumPacketSize) :
    Mirrored conf receiver (link.receive conf receiver sender message.topic bytes) := by
  unfold AliasLink.receive
  rw [found]
  refine ⟨rfl, next, kept, fun delivery among => ?_⟩
  rcases mem_append.1 among with before | new
  · exact mirrored.right delivery before
  · rw [mem_singleton.1 new]
    exact ⟨rfl, admitted, size⟩

theorem mirrored_publish (mqtt5 : conf.protocolVersion = .mqtt5)
    (aliasMax : conf.outgoingAliasMax < 2 ^ 16) (mirrored : Mirrored conf receiver link)
    (proper : message.Proper) (sendable : Sendable conf link message) :
    Mirrored conf receiver (link.publish conf receiver message) := by
  have valid := (proper.topic.clean proper.some_topic).1
  obtain ⟨choice, chosen, refused | ⟨items, sent⟩⟩ := sendPublish_spec mqtt5 aliasMax proper
    sendable.noAlias (fun topic aliasId found =>
      have known := mirrored.mirrored topic aliasId found
      ⟨known.1, Nat.lt_of_le_of_lt known.2.2.1 aliasMax⟩) mirrored.next
  · have ⟨error, result, large⟩ := refused
    rw [publish_refused mirrored.isOpen result]
    cases chosen with
    | old aliasId some_aliases found => exact mirrored
    | new assigned => exact absurd (sendable.sent assigned) large
    | bare notOld notNew => exact mirrored
  · rw [publish_sent mirrored.isOpen sent.result]
    have size : conf.maximumPacketSize ≠ 0 →
        ((cmdPublish ||| publishFlags conf.retainAvailable message) ::
          varint 4 (bytesBehindHeader conf link.sender message) ++
          publishBody message choice.topic (items ++ aliasItems choice.aliasId)).length ≤
        conf.maximumPacketSize := by
      intro limited
      have admitted := sent.admitted
      have differs := sendable.size limited
      rw [length_sent sent]
      unfold packetCheckOversize at admitted
      rw [or_eq_true, decide_eq_true_eq, decide_eq_true_eq] at admitted
      omega
    cases chosen with
    | old aliasId some_aliases found =>
      have read := readPublish_sent receiver.memory mqtt5 proper
        ⟨by show 0 < 2 ^ 16; decide, fun some => absurd rfl some⟩ sent
      have ⟨positive, used, most, stored⟩ := mirrored.mirrored _ _ found
      refine mirrored.received ?_ mirrored.next mirrored.mirrored (fun other same => ?_) size
      · rw [handlePublishTopic_alias mqtt5 read]
        unfold resolveAlias
        rw [if_neg (by omega), if_pos rfl]
        rw [stored]
      · rw [read] at same
        obtain rfl := Except.ok.inj same
        intro topicAlias is
        obtain rfl := some.inj is
        exact most
    | new assigned =>
      have read := readPublish_sent receiver.memory mqtt5 proper proper.topic sent
      have ⟨some_aliases, absent, room⟩ := assigned
      have next := mirrored.next
      rw [if_neg proper.some_topic] at read
      refine @Mirrored.received _ _ _ _ _ _
        (link.jnAliasList.set link.sender.nextOutgoingAlias message.topic) mirrored ?_
        (Nat.succ_pos _) (fun topic aliasId found => ?_) (fun other same => ?_) size
      · rw [handlePublishTopic_alias mqtt5 read]
        unfold resolveAlias
        rw [if_neg (by omega)]
        dsimp only
        rw [if_pos valid]
      · by_cases same : topic = message.topic
        · subst same
          rw [get?_set_self] at found
          obtain rfl := some.inj found
          exact ⟨next, Nat.lt_succ_self _, room, get?_set_self _ _ _⟩
        · rw [get?_set_ne _ _ same] at found
          have ⟨positive, used, most, stored⟩ := mirrored.mirrored _ _ found
          refine ⟨positive, Nat.lt_succ_of_lt used, most, ?_⟩
          rw [get?_set_ne _ _ (Nat.ne_of_lt used)]
          exact stored
      · rw [read] at same
        obtain rfl := Except.ok.inj same
        intro topicAlias is
        obtain rfl := some.inj is
        exact room
    | bare notOld notNew =>
      have read := readPublish_sent receiver.memory mqtt5 proper proper.topic sent
      rw [if_neg proper.some_topic] at read
      refine mirrored.received (handlePublishTopic_bare mqtt5 read) mirrored.next
        mirrored.mirrored (fun other same => ?_) size
      rw [read] at same
      obtain rfl := Except.ok.inj same
      intro topicAlias is
      cases is

end Steps

/-- Along every run of messages that are sendable, every packet that is sent is resolved as its topic, uses
no alias above the maximum and is not larger than the maximum size. -/
theorem aliases_name_topics (conf : PublishConf) (receiver : ReceiverConf)
    (messages : List OutMessage) (mqtt5 : conf.protocolVersion = .mqtt5)
    (aliasMax : conf.outgoingAliasMax < 2 ^ 16) (proper : ∀ message ∈ messages, message.Proper)
    (sendable : AllSteps (AliasLink.publish conf receiver) (Sendable conf) AliasLink.start
      messages) :
    AllStates (AliasLink.publish conf receiver)
      (fun link => ∀ delivery ∈ link.deliveries, delivery.Right conf receiver) AliasLink.start
      messages := by
  have start : Mirrored conf receiver AliasLink.start :=
    ⟨rfl, Nat.one_pos, fun _ _ found => (by cases found), fun _ among =>
      absurd among List.not_mem_nil⟩
  have both := (AllSteps.of_mem (AliasLink.publish conf receiver) proper AliasLink.start).and _
    sendable
  refine (both.invariant _ (fun link message mirrored steps => ?_) start).mono _
    fun link mirrored => mirrored.right
  exact mirrored_publish mqtt5 aliasMax mirrored steps.1 steps.2

/-- A broker that takes ten aliases and packets of twenty bytes. -/
def smallBroker (outgoingAliasMax maximumPacketSize : Nat) : PublishConf where
  protocolVersion := .mqtt5
  outgoingAliasMax := outgoingAliasMax
  maximumPacketSize := maximumPacketSize
  retainAvailable := true
  maxBlock := 1000

/-- A message of QoS 0 with a payload of zeros. -/
def plainMessage (topic : List UInt8) (payload : Nat) : OutMessage where
  mid := 1
  topic := topic
  payload := List.replicate payload 0
  qos := 0
  retain := false
  dup := false
  properties := none
  expiryInterval := 0

theorem plainMessage_proper {topic : List UInt8} (some_topic : topic ≠ [])
    (carried : CarriedText topic) {payload : Nat} (small : payload < 2 ^ 28) :
    (plainMessage topic payload).Proper where
  some_topic := some_topic
  topic := carried
  payload := by
    show (List.replicate payload (0 : UInt8)).length < 2 ^ 28
    rwa [length_replicate]
  qos := by show 0 ≤ 2; decide
  mid := by show 0 < 1 ∧ 1 < 2 ^ 16; decide
  properties := fun _ among => absurd among not_mem_nil
  short := by show countedAll Dict.empty < 2 ^ 31; decide
  expiry := by show 0 < 2 ^ 32; decide

theorem carried_a : CarriedText [97] := ⟨by decide, fun _ => by decide +kernel⟩

/-- Two messages of one topic, the second with its alias. -/
theorem alias_used_twice :
    AllStates (AliasLink.publish (smallBroker 10 20) ⟨true, []⟩)
      (fun link => ∀ delivery ∈ link.deliveries,
        delivery.Right (smallBroker 10 20) ⟨true, []⟩) AliasLink.start
      [plainMessage [97] 3, plainMessage [97] 4] := by
  apply aliases_name_topics _ _ _ rfl (by decide)
  · intro message among
    rcases List.mem_cons.1 among with rfl | last
    · exact plainMessage_proper (by decide) carried_a (by decide)
    · rw [List.mem_singleton.1 last]
      exact plainMessage_proper (by decide) carried_a (by decide)
  · refine ⟨⟨rfl, fun _ => ⟨by decide +kernel, by decide +kernel, by decide +kernel,
      by decide +kernel⟩, fun _ => by decide +kernel⟩, ⟨rfl, fun new => ?_, fun _ => by decide +kernel⟩,
      trivial⟩
    exact absurd new (by decide +kernel)

/-- The alias of a message that was too large stands for nothing at the receiver; and a packet of eleven
bytes is sent to a receiver that takes ten. -/
theorem alias_never_sent :
    (¬∀ (conf : PublishConf) (receiver : ReceiverConf) (messages : List OutMessage),
      conf.protocolVersion = .mqtt5 → conf.outgoingAliasMax < 2 ^ 16 →
      (∀ message ∈ messages, message.Proper ∧ message.properties = none) →
      AllStates (AliasLink.publish conf receiver)
        (fun link => ∀ delivery ∈ link.deliveries, delivery.Right conf receiver) AliasLink.start
        messages) ∧
    (run (AliasLink.publish (smallBroker 0 10) ⟨true, []⟩) AliasLink.start
      [plainMessage [97] 5]).deliveries.map (·.bytes.length) = [11] := by
  refine ⟨fun always => ?_, rfl⟩
  have right := (always (smallBroker 10 20) ⟨true, []⟩
    [plainMessage [97] 30, plainMessage [97] 0] rfl (by decide) (fun message among => by
      rcases List.mem_cons.1 among with rfl | last
      · exact ⟨plainMessage_proper (by decide) carried_a (by decide), rfl⟩
      · rw [List.mem_singleton.1 last]
        exact ⟨plainMessage_proper (by decide) carried_a (by decide), rfl⟩)).last
  have delivered : (⟨[97], [0x30, 6, 0, 0, 3, 35, 0, 1], .error .protocol⟩ : Delivery) ∈
      (run (AliasLink.publish (smallBroker 10 20) ⟨true, []⟩) AliasLink.start
        [plainMessage [97] 30, plainMessage [97] 0]).deliveries :=
    List.mem_singleton_self _
  cases (right _ delivered).topic

end Yunetas.Mqtt
