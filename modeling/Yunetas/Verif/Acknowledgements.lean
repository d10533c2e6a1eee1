import Yunetas.Mqtt.Acks

/-!
# Acknowledgements are read back

What `send_command_with_mid` builds is read by the handler of the peer when it holds a property, or only
the packet identifier. The handlers compare the bytes left behind the identifier with the numbers for the
length of the whole packet, so a reason code alone, or with an empty list of properties, is taken for
bytes too many.
-/

namespace Yunetas.Mqtt

open List

/-- The acknowledgements. -/
inductive Ack
  | puback
  | pubrec
  | pubrel
  | pubcomp
  deriving DecidableEq

namespace Ack

/-- The command. -/
def command : Ack → UInt8
  | .puback => cmdPuback
  | .pubrec => cmdPubrec
  | .pubrel => cmdPubrel
  | .pubcomp => cmdPubcomp

/-- The flags its sender sets. -/
def flags : Ack → UInt8
  | .pubrel => 2
  | _ => 0

/-- The reason codes of MQTT 5; before it, an acknowledgement has none. -/
def reasons (ack : Ack) (protocolVersion : Protocol) : List UInt8 :=
  if protocolVersion = .mqtt5 then
    match ack with
    | .puback | .pubrec => pubackReasons
    | .pubrel | .pubcomp => pubrelReasons
  else [rcSuccess]

/-- The handler of the peer. -/
def handle (memory : List UInt8) (protocolVersion : Protocol) (ack : Ack) (packet : Packet) :
    Except AckError AckRead :=
  match ack with
  | .puback => handlePubackcomp memory protocolVersion cmdPuback packet
  | .pubrec => handlePubrec memory protocolVersion packet
  | .pubrel => handlePubrel memory protocolVersion packet
  | .pubcomp => handlePubackcomp memory protocolVersion cmdPubcomp packet

/-- The packet with some bytes behind the fixed header. -/
def packet (ack : Ack) (payload : List UInt8) : Packet := ⟨ack.command, ack.flags, payload⟩

/-- The command its properties are checked for. -/
def checkedAs : Ack → UInt8
  | .puback | .pubcomp => cmdPuback
  | .pubrec => cmdPubrec
  | .pubrel => cmdPubrel

end Ack

/-! ## The packet -/

/-- The bytes behind the fixed header. -/
def ackPayload (mid : Nat) (behind : List UInt8) : List UInt8 := toBigEndian 2 mid ++ behind

/-- What stands behind the packet identifier. -/
def behindMid (protocolVersion : Protocol) (reasonCode : UInt8) (properties : Option Props)
    (items : List Item) : List UInt8 :=
  if sendsReason protocolVersion reasonCode properties then
    reasonCode :: (varint 4 (encodeItems items).length ++ encodeItems items)
  else []

variable {protocolVersion : Protocol} {ack : Ack} {mid : Nat} {reasonCode : UInt8}

theorem sent_eq {maxBlock : Nat} {properties : Option Props} {items : List Item} {sent : List UInt8}
    (stand : Stand ack.command.toNat (propsOf properties).entries items)
    (short : (encodeItems items).length < 2 ^ 28)
    (built : sendCommandWithMid maxBlock protocolVersion (ack.command ||| ack.flags) mid false
      reasonCode properties = some sent) :
    writePacket maxBlock (ack.packet (ackPayload mid
      (behindMid protocolVersion reasonCode properties items))) = some sent := by
  have counted : propertyGetLengthAll (propsOf properties) = (encodeItems items).length := by
    rw [propertyGetLengthAll, stand.counts]
    exact Nat.mod_eq_of_lt (by omega)
  have written : propertyWriteAll (propsOf properties) =
      some (varint 4 (encodeItems items).length ++ encodeItems items) := by
    rw [propertyWriteAll, stand.writes, Option.map_some, counted, mqttWriteVarint_eq short]
  have bytes := length_varint_bytes short
  unfold sendCommandWithMid at built
  unfold writePacket Ack.packet ackPayload behindMid
  dsimp only at built ⊢
  rw [if_neg Bool.false_ne_true] at built
  split at built
  · rename_i sends
    have length : (toBigEndian 2 mid ++ reasonCode ::
        (varint 4 (encodeItems items).length ++ encodeItems items)).length =
          2 + 1 + propertyGetRemainingLength (propsOf properties) := by
      rw [propertyGetRemainingLength, counted, length_append, length_toBigEndian,
        length_cons, length_append, bytes]
      omega
    rw [written] at built
    rw [if_pos sends, length]
    cases head : buildMqttPacket maxBlock (ack.command ||| ack.flags)
        (2 + 1 + propertyGetRemainingLength (propsOf properties)) with
    | none => rw [head] at built; cases built
    | some gbuf => rw [head] at built; exact built
  · rename_i plain
    rw [if_neg plain, append_nil, length_toBigEndian]
    cases head : buildMqttPacket maxBlock (ack.command ||| ack.flags) 2 with
    | none => rw [head] at built; cases built
    | some gbuf => rw [head] at built; exact built

/-! ## The handlers -/

/-- Where the handlers find a reason code. -/
def Ack.readReason (memory : List UInt8) (ack : Ack) (mid : Nat) (behind : List UInt8) :
    Except AckError AckRead :=
  match ack with
  | .puback | .pubcomp =>
    match mqttReadByte behind with
    | none => .error .malformedPacket
    | some (reasonCode, gbuf) =>
      match readAckProperties memory cmdPuback gbuf with
      | .error error => .error error
      | .ok gbuf =>
        if reasonCode ∉ ack.reasons .mqtt5 then .error .protocol
        else ackEnd mid (some reasonCode) gbuf
  | .pubrec | .pubrel =>
    readCheckedReason memory ack.command (ack.reasons .mqtt5) mid behind

/-- The reason code of a handler that found none. -/
def Ack.noReason : Ack → Option UInt8
  | .pubrel => none
  | _ => some 0

theorem readMid_written (some_mid : 0 < mid) (fits : mid < 2 ^ 16)
    (behind : List UInt8) : readMid (ackPayload mid behind) = .ok (mid, behind) := by
  rw [readMid, ackPayload, mqttReadUint16_complete fits]
  exact if_neg (by omega)

variable (memory : List UInt8)

theorem handle_eq (protocolVersion : Protocol) (ack : Ack)
    (some_mid : 0 < mid) (fits : mid < 2 ^ 16) (behind : List UInt8) :
    ack.handle memory protocolVersion (ack.packet (ackPayload mid behind)) =
      if protocolVersion = .mqtt5 ∧ behind.length > 2 then ack.readReason memory mid behind
      else ackEnd mid ack.noReason behind := by
  have read := readMid_written some_mid fits behind
  cases ack with
  | puback =>
    show handlePubackcomp memory protocolVersion cmdPuback _ = _
    rw [handlePubackcomp, if_neg fun both => both.2 rfl]
    dsimp only [Ack.packet]
    rw [read]
    rfl
  | pubrec =>
    show handlePubrec memory protocolVersion _ = _
    rw [handlePubrec, if_neg fun flagged => flagged rfl]
    dsimp only [Ack.packet]
    rw [read]
    rfl
  | pubrel =>
    show handlePubrel memory protocolVersion _ = _
    rw [handlePubrel, if_neg fun both => both.2 rfl]
    dsimp only [Ack.packet]
    rw [read]
    rfl
  | pubcomp =>
    show handlePubackcomp memory protocolVersion cmdPubcomp _ = _
    rw [handlePubackcomp, if_neg fun both => both.2 rfl]
    dsimp only [Ack.packet]
    rw [read]
    rfl

/-- The properties of an acknowledgement are those of the one it is checked as: a reason string and user
properties. -/
theorem carried_checked {item : Item} (carried : CarriedItem ack.command.toNat item) :
    CarriedItem ack.checkedAs.toNat item ∧
      (item.prop = .reasonString ∨ item.prop = .userProperty) := by
  have ⟨fits, passes, value, checked⟩ := carried
  have same : mosquittoPropertyCheckCommand ack.checkedAs.toNat item.prop = true ∧
      (item.prop = .reasonString ∨ item.prop = .userProperty) := by
    revert checked
    cases ack <;> cases item.prop <;> decide
  exact ⟨⟨fits, passes, value, same.1⟩, same.2⟩

theorem readAckProperties_written {command : UInt8} {items : List Item}
    (some_items : 3 ≤ (encodeItems items).length) (short : (encodeItems items).length < 2 ^ 28)
    (each : ∀ item ∈ items, CarriedItem command.toNat item) (apart : items.Pairwise Apart) :
    readAckProperties memory command
      (varint 4 (encodeItems items).length ++ encodeItems items) = .ok [] := by
  have one := length_varint_bytes short
  have positive : 1 ≤ packetVarintBytes (encodeItems items).length := by
    unfold packetVarintBytes
    split_ifs <;> decide
  have read := propertyReadAll_carried each apart short memory []
  rw [append_nil] at read
  rw [readAckProperties, if_pos (by rw [length_append]; omega), read]

theorem readCheckedReason_written {memory bytes : List UInt8} {command reasonCode : UInt8}
    {reasons : List UInt8} (mid : Nat) (allowed : reasonCode ∈ reasons)
    (read : readAckProperties memory command bytes = .ok []) :
    readCheckedReason memory command reasons mid (reasonCode :: bytes) =
      .ok ⟨mid, some reasonCode⟩ := by
  rw [readCheckedReason, mqttReadByte]
  dsimp only
  rw [if_neg (not_not.2 allowed), read]
  rfl

theorem readReason_written {memory : List UInt8}
    {items : List Item} (allowed : reasonCode ∈ ack.reasons .mqtt5)
    (some_items : 3 ≤ (encodeItems items).length) (short : (encodeItems items).length < 2 ^ 28)
    (each : ∀ item ∈ items, CarriedItem ack.command.toNat item) (apart : items.Pairwise Apart) :
    ack.readReason memory mid
        (reasonCode :: (varint 4 (encodeItems items).length ++ encodeItems items)) =
      .ok ⟨mid, some reasonCode⟩ := by
  have read := readAckProperties_written memory some_items short
    (fun item among => (carried_checked (each item among)).1) apart
  cases ack with
  | puback =>
    rw [Ack.readReason, mqttReadByte]
    dsimp only [Ack.checkedAs] at read ⊢
    rw [read]
    exact if_neg (not_not.2 allowed)
  | pubrec => exact readCheckedReason_written mid allowed read
  | pubrel => exact readCheckedReason_written mid allowed read
  | pubcomp =>
    rw [Ack.readReason, mqttReadByte]
    dsimp only [Ack.checkedAs] at read ⊢
    rw [read]
    exact if_neg (not_not.2 allowed)

/-! ## What is read back -/

/-- The handler takes the packet and recovers its identifier and its reason code. -/
def ReadBack (memory : List UInt8) (protocolVersion : Protocol) (ack : Ack) (packet : Packet)
    (mid : Nat) (reasonCode : UInt8) : Prop :=
  ∃ read, ack.handle memory protocolVersion packet = .ok read ∧ read.mid = mid ∧
    read.reasonCode.getD rcSuccess = reasonCode

/-- Only the packet identifier is sent, or a property too. -/
def ReadableLayout (protocolVersion : Protocol) (reasonCode : UInt8) (properties : Option Props) :
    Prop :=
  protocolVersion ≠ .mqtt5 ∨ (reasonCode = rcSuccess ∧ properties = none) ∨
    (propsOf properties).entries ≠ []

theorem sendsReason_eq_false {properties : Option Props} :
    sendsReason protocolVersion reasonCode properties = false ↔
      protocolVersion ≠ .mqtt5 ∨ (reasonCode = rcSuccess ∧ properties = none) := by
  cases protocolVersion <;> cases properties <;> simp [sendsReason, rcSuccess]

theorem readBack_short (some_mid : 0 < mid) (fits : mid < 2 ^ 16)
    (success : reasonCode = rcSuccess) :
    ReadBack memory protocolVersion ack (ack.packet (ackPayload mid [])) mid reasonCode := by
  refine ⟨⟨mid, ack.noReason⟩, ?_, rfl, ?_⟩
  · rw [handle_eq memory protocolVersion ack some_mid fits, if_neg fun both => by cases both.2]
    rfl
  · rw [success]
    cases ack <;> rfl

theorem not_readBack_empty (protocolVersion : Protocol) (some_mid : 0 < mid) (fits : mid < 2 ^ 16) :
    ¬ReadBack memory protocolVersion ack (ack.packet (ackPayload mid [reasonCode, 0])) mid
      reasonCode := by
  rintro ⟨read, found, -⟩
  rw [handle_eq memory protocolVersion ack some_mid fits,
    if_neg fun both => absurd both.2 (by show ¬2 > 2; decide)] at found
  cases found

theorem encode_long {item : Item} (good : CarriedItem ack.command.toNat item) :
    3 ≤ item.encode.length := by
  have known := (carried_checked good).2
  have ⟨prop, content⟩ := item
  have one := length_varint_code prop
  have fits := good.fits
  rw [Item.encode, length_append, one]
  rcases known with reason | user
  · obtain rfl : prop = .reasonString := reason
    cases content with
    | number value => exact absurd fits id
    | bytes data =>
      show 3 ≤ 1 + (sized data).length
      rw [length_sized]
      omega
    | pair name value => exact absurd fits id
  · obtain rfl : prop = .userProperty := user
    cases content with
    | number value => exact absurd fits id
    | bytes data => exact absurd fits id
    | pair name value =>
      show 3 ≤ 1 + (sized name ++ sized value).length
      rw [length_append, length_sized, length_sized]
      omega

/-- The bytes of an acknowledgement are those of one packet, which the peer reads back exactly when they
hold a property or only the packet identifier. -/
theorem acknowledgements_read (maxBlock : Nat) (memory : List UInt8) (protocolVersion : Protocol)
    (ack : Ack) (mid : Nat) (reasonCode : UInt8) (properties : Option Props) (sent : List UInt8)
    (some_mid : 0 < mid) (fits : mid < 2 ^ 16)
    (allowed : reasonCode ∈ ack.reasons protocolVersion)
    (list : ∀ props, properties = some props → PropertyList ack.command.toNat props)
    (built : sendCommandWithMid maxBlock protocolVersion (ack.command ||| ack.flags) mid false
      reasonCode properties = some sent) :
    ∃ payload, writePacket maxBlock (ack.packet payload) = some sent ∧
      (ReadBack memory protocolVersion ack (ack.packet payload) mid reasonCode ↔
        ReadableLayout protocolVersion reasonCode properties) := by
  have whole : PropertyList ack.command.toNat (propsOf properties) := by
    cases properties with
    | none => exact ⟨fun _ among => absurd among List.not_mem_nil, by decide⟩
    | some props => exact list props rfl
  have ⟨items, stand⟩ := stand_entries whole.carried (Dict.nodup _)
  have short : (encodeItems items).length < 2 ^ 28 :=
    lt_of_eq_of_lt stand.counts.symm whole.short
  refine ⟨_, sent_eq stand short built, ?_⟩
  unfold behindMid
  cases sends : sendsReason protocolVersion reasonCode properties with
  | false =>
    have plain := sendsReason_eq_false.1 sends
    have success : reasonCode = rcSuccess := by
      rcases plain with earlier | bare
      · unfold Ack.reasons at allowed
        rw [if_neg earlier] at allowed
        exact List.mem_singleton.1 allowed
      · exact bare.1
    rw [if_neg Bool.false_ne_true]
    exact ⟨fun _ => plain.elim .inl fun bare => .inr (.inl bare),
      fun _ => readBack_short memory some_mid fits success⟩
  | true =>
    have reason : ¬(protocolVersion ≠ .mqtt5 ∨ (reasonCode = rcSuccess ∧ properties = none)) :=
      fun plain => by rw [sendsReason_eq_false.2 plain] at sends; cases sends
    have five : protocolVersion = .mqtt5 := by
      by_contra earlier
      exact reason (.inl earlier)
    rw [if_pos rfl]
    by_cases empty : (propsOf properties).entries = []
    · have nothing : encodeItems items = [] := by
        have written := stand.writes
        rw [empty] at written
        exact (Option.some.inj written).symm
      rw [nothing]
      constructor
      · exact fun read =>
          absurd read (not_readBack_empty memory protocolVersion some_mid fits)
      · rintro (earlier | bare | some_entries)
        · exact absurd five earlier
        · exact absurd (.inr bare) reason
        · exact absurd empty some_entries
    · refine ⟨fun _ => .inr (.inr empty), fun _ => ?_⟩
      obtain ⟨first, rest, rfl⟩ := List.exists_cons_of_ne_nil (stand.some_items empty)
      have some_bytes : 3 ≤ (encodeItems (first :: rest)).length := by
        have long := encode_long (stand.each first List.mem_cons_self)
        show 3 ≤ (first.encode ++ encodeItems rest).length
        rw [List.length_append]
        omega
      rw [five] at allowed
      refine ⟨⟨mid, some reasonCode⟩, ?_, rfl, rfl⟩
      have long : (reasonCode :: (varint 4 (encodeItems (first :: rest)).length ++
          encodeItems (first :: rest))).length > 2 := by
        rw [List.length_cons, List.length_append]
        omega
      rw [handle_eq memory protocolVersion ack some_mid fits, if_pos ⟨five, long⟩]
      exact readReason_written allowed some_bytes short stand.each stand.apart

/-- The PUBACK of a message that failed, with a reason string. -/
theorem refusal_with_reason_read :
    ∃ payload, writePacket 1000 (Ack.puback.packet payload) =
        some [0x40, 9, 0, 7, 151, 5, 31, 0, 2, 110, 111] ∧
      (ReadBack [] .mqtt5 .puback (Ack.puback.packet payload) 7 rcQuotaExceeded ↔
        ReadableLayout .mqtt5 rcQuotaExceeded
          (some (Dict.empty.set "reason-string" (.plain (.string [110, 111]))))) := by
  refine acknowledgements_read 1000 [] .mqtt5 .puback 7 rcQuotaExceeded
    (some (Dict.empty.set "reason-string" (.plain (.string [110, 111])))) _ (by decide) (by decide)
    (by decide) ?_ (by decide +kernel)
  intro props same
  rw [← Option.some.inj same]
  have carried : CarriedText [110, 111] := ⟨by decide, fun _ => by decide +kernel⟩
  refine ⟨fun entry among => ?_, by decide +kernel⟩
  rw [List.mem_singleton.1 among]
  exact .single .reasonString _ (.bytes [110, 111]) (by decide) carried.short ⟨rfl, carried⟩
    ⟨by decide +kernel, rfl⟩

/-- The PUBACK of a message without subscribers is not read. -/
theorem no_subscribers_refused :
    ¬∀ (maxBlock : Nat) (memory : List UInt8) (protocolVersion : Protocol) (ack : Ack) (mid : Nat)
      (reasonCode : UInt8) (properties : Option Props) (sent : List UInt8), 0 < mid →
      mid < 2 ^ 16 → reasonCode ∈ ack.reasons protocolVersion →
      (∀ props, properties = some props → PropertyList ack.command.toNat props) →
      sendCommandWithMid maxBlock protocolVersion (ack.command ||| ack.flags) mid false reasonCode
        properties = some sent →
      ∃ payload, writePacket maxBlock (ack.packet payload) = some sent ∧
        ReadBack memory protocolVersion ack (ack.packet payload) mid reasonCode := by
  intro always
  obtain ⟨payload, written, read⟩ := always 1000 [] .mqtt5 .puback 7 rcNoMatchingSubscribers none
    [0x40, 4, 0, 7, 16, 0] (by decide) (by decide) (by decide) (fun _ same => by cases same)
    (by decide +kernel)
  have same : payload = [0, 7, 16, 0] := by
    obtain ⟨gbuf, head, joined⟩ := Option.map_eq_some_iff.1 written
    have start := buildMqttPacket_some head
    rw [start] at joined
    change (cmdPuback ||| 0) :: varint 5 payload.length ++ payload = _ at joined
    have length := congrArg List.length joined
    rw [List.length_append, List.length_cons] at length
    change _ + payload.length = 6 at length
    have small : payload.length < 128 := by omega
    rw [varint, if_pos small] at joined length
    exact List.tail_eq_of_cons_eq (List.tail_eq_of_cons_eq joined)
  subst same
  obtain ⟨found, accepted, _⟩ := read
  have refused : Ack.puback.handle [] .mqtt5 (Ack.puback.packet [0, 7, 16, 0]) =
      .error .malformedPacket := by decide +kernel
  rw [refused] at accepted
  cases accepted

end Yunetas.Mqtt
