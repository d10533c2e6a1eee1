import Yunetas.Gobj.Wire

/-!
# Messages between yunos

What one yuno sends another gets: the event of that name, the same key words, and a gbuffer with the
bytes that remained to be read. Two things stand between the code and that. Public events are found
by name without regard to case, so of two that differ in case only the first registered is found;
and what does not fit in memory blocks is cut. Whatever the message, a binary field of what is
received holds an address that the deserializer returned.
-/

namespace Yunetas.Gobj

open List Option

open Json

/-- The message fits in memory: its text twice in a block of the sender, so that the gbuffer it is
written to can grow, and the base 64 of the gbuffer of `kw` in a block of either side. -/
structure Fits (jansson : Jansson) (sender receiver : Process) (event : String) (kw : Fields) :
    Prop where
  first : 4 * 1024 < sender.maxBlock ∧ 4 * 1024 < receiver.maxBlock
  text : 2 * (jansson.dump (ievMessage event
    (kwSerialize sender.serializeFields kw))).flatten.length ≤ sender.maxBlock
  content : ∀ binary gbuf, kw.get? "gbuffer" = some binary →
    sender.memory binary.integerValue = some gbuf →
      b64OutputEncodeLen gbuf.leftBytes.length < sender.maxBlock ∧
        b64OutputEncodeLen gbuf.leftBytes.length < receiver.maxBlock

/-- The binary field received is that sent: none, or a gbuffer of the receiver with the same bytes to
read and the same mark. -/
def SameBinary (sender receiver : Process) (wire : Option Json) (sent received : Fields) : Prop :=
  match sent.get? "gbuffer" with
  | none => received.get? "gbuffer" = none
  | some binary => ∃ gbuf copy, sender.memory binary.integerValue = some gbuf ∧
      received.get? "gbuffer" = some (.integer receiver.next) ∧
      receiver.memoryAfter wire receiver.next = some copy ∧
      copy.leftBytes = gbuf.leftBytes ∧ copy.mark = gbuf.mark

/-- The public event found for a name is the first with that name in any case. -/
def FoundEvent (yuno : Yuno) (event found : String) : Prop :=
  ∃ before after, yuno.publicEvents = before ++ found :: after ∧ strcaseEq found event = true ∧
    ∀ name ∈ before, strcaseEq name event = false

/-- A binary field of received key words, with what the memory holds then. -/
def BuiltFrom (process : Process) (wire : Option Json) (value : Json) : Prop :=
  ∃ kw serialized, kwGetDict wire "kw" = some kw ∧ kw.get? "__gbuffer___" = some serialized ∧
    match gbufferDeserialize process.maxBlock serialized with
    | none => value = .integer 0
    | some gbuf => value = .integer process.next ∧
        process.memoryAfter wire process.next = some gbuf

variable (process : Process)

theorem serializeFields_distinct : DistinctNames process.serializeFields := by
  show List.Nodup ["gbuffer", "__gbuffer___"]
  decide

/-- The entry of gbuffers. -/
def Process.gbufferField (process : Process) : SerializeField where
  binaryFieldName := "gbuffer"
  serializedFieldName := "__gbuffer___"
  deserialize := process.deserialized
  serialize address := (process.memory address).map (gbufferSerialize process.maxBlock)

theorem get?_kwDeserialize_gbuffer (kw : Fields) :
    (kwDeserialize (binaryTypes process.registries) kw).get? "gbuffer" =
      (kw.get? "__gbuffer___").map fun serialized =>
        .integer (process.deserialized serialized) :=
  get?_kwDeserialize_binary (serializeFields_distinct process) kw
    (mem_singleton.2 rfl : process.gbufferField ∈ process.serializeFields)

theorem builtFrom_of_received {process : Process} {wire : Option Json} {event : Option String}
    {kw : Fields} (read : ievCreateFromGbuffer process.registries wire = some (event, kw))
    {value : Json} (held : kw.get? "gbuffer" = some value) : BuiltFrom process wire value := by
  unfold ievCreateFromGbuffer at read
  dsimp only at read
  split at read
  · cases read
  rename_i sent isDict
  split at read
  · cases read
  cases read
  rw [get?_kwDeserialize_gbuffer] at held
  obtain ⟨serialized, there, rfl⟩ := map_eq_some_iff.1 held
  refine ⟨sent, serialized, isDict, there, ?_⟩
  unfold Process.deserialized Process.memoryAfter
  rw [isDict, bind_some, there, bind_some]
  cases gbufferDeserialize process.maxBlock serialized with
  | none => rfl
  | some gbuf => exact ⟨rfl, if_pos rfl⟩

theorem foundEvent_of_registered {yuno : Yuno} {event : String}
    (registered : event ∈ yuno.publicEvents) :
    ∃ found, gclassFindPublicEvent yuno event = some found ∧ FoundEvent yuno event found := by
  unfold gclassFindPublicEvent
  cases search : yuno.publicEvents.find? fun name => strcaseEq name event with
  | none =>
    have unlike := List.find?_eq_none.1 search event registered
    simp [strcaseEq] at unlike
  | some found =>
    have ⟨alike, before, after, split, unlike⟩ := List.find?_eq_some_iff_append.1 search
    exact ⟨found, rfl, before, after, split, alike, fun name among => by simpa using unlike name among⟩

theorem FoundEvent.eq_of_single {yuno : Yuno} {event found : String}
    (search : FoundEvent yuno event found)
    (single : ∀ name ∈ yuno.publicEvents, strcaseEq name event = true → name = event) :
    found = event := by
  have ⟨before, after, split, alike, _⟩ := search
  exact single found (split ▸ mem_append_right _ mem_cons_self) alike

theorem get?_serialized (kw : Fields) (absent : kw.get? "__gbuffer___" = none) :
    (kwSerialize process.serializeFields kw).get? "__gbuffer___" =
      (kw.get? "gbuffer").bind fun binary =>
        (process.memory binary.integerValue).map (gbufferSerialize process.maxBlock) :=
  get?_kwSerialize_serialized (serializeFields_distinct process) kw
    (fun field among => by rw [mem_singleton.1 among]; exact absent)
    (mem_singleton.2 rfl : process.gbufferField ∈ process.serializeFields)

theorem get?_roundTrip (sender receiver : Process) (kw : Fields) {key : String}
    (notBinary : key ≠ "gbuffer") (notSerialized : key ≠ "__gbuffer___") :
    (kwDeserialize (binaryTypes receiver.registries)
      (kwSerialize sender.serializeFields kw)).get? key = kw.get? key := by
  rw [get?_kwDeserialize _ _ key fun field among => by
      rw [mem_singleton.1 among]
      exact ⟨notBinary, notSerialized⟩,
    get?_kwSerialize _ _ fun field among => by
      rw [mem_singleton.1 among]
      exact ⟨notBinary, notSerialized⟩]

theorem get?_kwDeserialize_serialized (kw : Fields) :
    (kwDeserialize (binaryTypes process.registries) kw).get? "__gbuffer___" = none := by
  show (deserializeField (kw.del "gbuffer") _).get? "__gbuffer___" = none
  unfold deserializeField
  split
  · rename_i missing
    exact missing
  · exact Fields.get?_del _ _ _ |>.trans (if_pos rfl)

/-- What `iev_create_from_gbuffer` makes of the message of `iev_create_to_gbuffer`: the first public
event with that name in any case, the same key words and the same gbuffer, where the message fits in
memory. And whatever the message, a binary field received was built from its wire value. -/
theorem iev_round_trip (jansson : Jansson) (sender receiver : Process) :
    (∀ (event : String) (kw : Fields), event ∈ receiver.yuno.publicEvents → event ≠ "" →
      kw.get? "__gbuffer___" = none →
      (∀ binary, kw.get? "gbuffer" = some binary →
        (sender.memory binary.integerValue).isSome = true) →
      jansson.loads (jansson.dump (ievMessage event
        (kwSerialize sender.serializeFields kw))).flatten =
          some (ievMessage event (kwSerialize sender.serializeFields kw)) →
      Fits jansson sender receiver event kw →
      ∃ gbuf found received,
        ievCreateToGbuffer jansson sender event (some kw) = some gbuf ∧
        ievCreateFromGbuffer receiver.registries (gbuf2json jansson gbuf) =
          some (some found, received) ∧
        FoundEvent receiver.yuno event found ∧
        ((∀ name ∈ receiver.yuno.publicEvents, strcaseEq name event = true → name = event) →
          found = event) ∧
        (∀ key, key ≠ "gbuffer" → received.get? key = kw.get? key) ∧
        SameBinary sender receiver (gbuf2json jansson gbuf) kw received) ∧
    (∀ (wire : Option Json) (event : Option String) (received : Fields) (value : Json),
      ievCreateFromGbuffer receiver.registries wire = some (event, received) →
      received.get? "gbuffer" = some value → BuiltFrom receiver wire value) := by
  refine ⟨fun event kw registered named absent held inverse fits => ?_,
    fun wire event received value read there => builtFrom_of_received read there⟩
  have ⟨gbuf, written, text⟩ := json2gbuf_leftBytes
    (jansson.dump (ievMessage event (kwSerialize sender.serializeFields kw))) fits.first.1 fits.text
  have ⟨found, search, isFound⟩ :=
    @foundEvent_of_registered receiver.registries event registered
  have wire : gbuf2json jansson gbuf =
      some (ievMessage event (kwSerialize sender.serializeFields kw)) := by
    unfold gbuf2json
    rw [text, inverse]
  have isDict : kwGetDict (gbuf2json jansson gbuf) "kw" =
      some (kwSerialize sender.serializeFields kw) := by
    rw [wire]
    rfl
  have isEvent : kwGetStr (gbuf2json jansson gbuf) "event" "" = event := by
    rw [wire]
    rfl
  refine ⟨gbuf, found, kwDeserialize (binaryTypes receiver.registries)
    (kwSerialize sender.serializeFields kw), ?_, ?_, isFound, isFound.eq_of_single, ?_, ?_⟩
  · unfold ievCreateToGbuffer
    rw [if_neg named]
    exact written
  · unfold ievCreateFromGbuffer
    rw [isDict, isEvent]
    dsimp only
    rw [if_neg named, search]
  · intro key notBinary
    by_cases isSerialized : key = "__gbuffer___"
    · rw [isSerialized, get?_kwDeserialize_serialized, absent]
    · exact get?_roundTrip sender receiver kw notBinary isSerialized
  · have received := get?_kwDeserialize_gbuffer receiver (kwSerialize sender.serializeFields kw)
    have serialized := get?_serialized sender kw absent
    unfold SameBinary
    cases binaryField : kw.get? "gbuffer" with
    | none =>
      rw [received, serialized, binaryField]
      rfl
    | some binary =>
      have ⟨content, isContent⟩ := Option.isSome_iff_exists.1 (held binary binaryField)
      have room := fits.content binary content binaryField isContent
      have ⟨copy, built, bytes, mark⟩ :=
        gbufferDeserialize_gbufferSerialize fits.first.2 room.1 room.2
      rw [binaryField, Option.bind_some, isContent, Option.map_some] at serialized
      refine ⟨content, copy, isContent, ?_, ?_, bytes, mark⟩
      · rw [received, serialized, Option.map_some]
        unfold Process.deserialized
        rw [built]
      · unfold Process.memoryAfter
        rw [isDict, Option.bind_some, serialized, Option.bind_some, built]
        exact if_pos rfl

/-- The json library on one message and its text. -/
def janssonOf (message : Json) (text : String) : Jansson :=
  let bytes := text.toList.map fun ch => UInt8.ofNat ch.toNat
  { dump := fun _ => [bytes], loads := fun read => if read = bytes then some message else none }

theorem written_list (data : List UInt8) : 0 ≤ data.length := Nat.zero_le _

theorem fits_list (data : List UInt8) : data.length ≤ data.length := Nat.le_refl _

/-- A gbuffer of given bytes. -/
def gbufferOf (data : List UInt8) : Gbuffer :=
  { data, dataSize := data.length, maxMemorySize := data.length, written := written_list data,
    fits := fits_list data }

/-- A process with some public events and one gbuffer, at the address 16. -/
def processWith (publicEvents : List String) (maxBlock : Nat) (data : List UInt8) : Process where
  yuno := ⟨"role", "name", ⟨1, "yuno", []⟩, none, Dict.empty, publicEvents, fun _ => 0⟩
  maxBlock
  memory address := if address = 16 then some (gbufferOf data) else none
  next := 24

/-- The message of two bytes. -/
def hiMessage : Json :=
  .object [("event", .string "EV_ON_MESSAGE"), ("kw", .object [("id", .integer 7),
    ("__gbuffer___", .object [("label", .string ""), ("mark", .integer 0),
      ("data", .string "aGk=")])])]

/-- Its text. -/
def hiText : String :=
  "\x7b\"event\":\"EV_ON_MESSAGE\",\"kw\":\x7b\"id\":7,\"__gbuffer___\":" ++
    "\x7b\"label\":\"\",\"mark\":0,\"data\":\"aGk=\"\x7d\x7d\x7d"

/-- The two bytes are received. -/
theorem iev_round_trip_hi :
    ∃ gbuf received,
      ievCreateToGbuffer (janssonOf hiMessage hiText)
        (processWith ["EV_ON_MESSAGE"] 65536 [104, 105]) "EV_ON_MESSAGE"
        (some [("gbuffer", .integer 16), ("id", .integer 7)]) = some gbuf ∧
      ievCreateFromGbuffer (processWith ["EV_ON_MESSAGE"] 65536 []).registries
        (gbuf2json (janssonOf hiMessage hiText) gbuf) = some (some "EV_ON_MESSAGE", received) ∧
      SameBinary (processWith ["EV_ON_MESSAGE"] 65536 [104, 105])
        (processWith ["EV_ON_MESSAGE"] 65536 []) (gbuf2json (janssonOf hiMessage hiText) gbuf)
        [("gbuffer", .integer 16), ("id", .integer 7)] received := by
  have binary : ∀ value, Fields.get? [("gbuffer", .integer 16), ("id", .integer 7)] "gbuffer" =
      some value → value = .integer 16 := fun value held => (Option.some.inj held).symm
  have fits : Fits (janssonOf hiMessage hiText) (processWith ["EV_ON_MESSAGE"] 65536 [104, 105])
      (processWith ["EV_ON_MESSAGE"] 65536 []) "EV_ON_MESSAGE"
      [("gbuffer", .integer 16), ("id", .integer 7)] := by
    refine ⟨by decide, by decide, fun value gbuf held content => ?_⟩
    cases binary value held
    cases content
    decide
  have ⟨gbuf, found, received, sent, read, _, single, _, same⟩ :=
    (iev_round_trip (janssonOf hiMessage hiText) (processWith ["EV_ON_MESSAGE"] 65536 [104, 105])
      (processWith ["EV_ON_MESSAGE"] 65536 [])).1 "EV_ON_MESSAGE"
      [("gbuffer", .integer 16), ("id", .integer 7)] List.mem_cons_self (by decide) rfl
      (fun value held => by cases binary value held; rfl) rfl fits
  have isEvent := single fun name among _ => List.mem_singleton.1 among
  exact ⟨gbuf, received, sent, isEvent ▸ read, same⟩

/-- The message that loses the bytes of its gbuffer. -/
def emptiedMessage : Json :=
  .object [("event", .string "EV_ON_MESSAGE"), ("kw", .object [
    ("__gbuffer___", .object [("label", .string ""), ("mark", .integer 0),
      ("data", .string "")])])]

/-- Its text. -/
def emptiedText : String :=
  "\x7b\"event\":\"EV_ON_MESSAGE\",\"kw\":\x7b\"__gbuffer___\":" ++
    "\x7b\"label\":\"\",\"mark\":0,\"data\":\"\"\x7d\x7d\x7d"

/-- A message without key words. -/
def barMessage : Json := .object [("event", .string "ev_on_message"), ("kw", .object [])]

/-- Its text. -/
def barText : String := "\x7b\"event\":\"ev_on_message\",\"kw\":\x7b\x7d\x7d"

/-- Of two public events whose names differ in case the first is received for either. And a gbuffer
whose base 64 is over the largest block, here of 8192 bytes, is received empty. -/
theorem other_event_or_lost_bytes :
    (∃ gbuf, ievCreateToGbuffer (janssonOf barMessage barText)
        (processWith ["EV_ON_MESSAGE", "ev_on_message"] 65536 []) "ev_on_message" (some []) =
          some gbuf ∧
      ievCreateFromGbuffer (processWith ["EV_ON_MESSAGE", "ev_on_message"] 65536 []).registries
        (gbuf2json (janssonOf barMessage barText) gbuf) = some (some "EV_ON_MESSAGE", [])) ∧
    (∃ gbuf copy, kwSerialize
        (processWith ["EV_ON_MESSAGE"] 8192 (List.replicate 7000 0)).serializeFields
        [("gbuffer", .integer 16)] = [("__gbuffer___", .object [("label", .string ""),
          ("mark", .integer 0), ("data", .string "")])] ∧
      ievCreateToGbuffer (janssonOf emptiedMessage emptiedText)
        (processWith ["EV_ON_MESSAGE"] 8192 (List.replicate 7000 0)) "EV_ON_MESSAGE"
        (some [("gbuffer", .integer 16)]) = some gbuf ∧
      ievCreateFromGbuffer (processWith ["EV_ON_MESSAGE"] 8192 []).registries
        (gbuf2json (janssonOf emptiedMessage emptiedText) gbuf) =
          some (some "EV_ON_MESSAGE", [("gbuffer", .integer 24)]) ∧
      (processWith ["EV_ON_MESSAGE"] 8192 []).memoryAfter
        (gbuf2json (janssonOf emptiedMessage emptiedText) gbuf) 24 = some copy ∧
      copy.leftBytes = []) := by
  constructor
  · have ⟨gbuf, written, text⟩ := @json2gbuf_leftBytes 65536
      ((janssonOf barMessage barText).dump barMessage) (by decide) (by decide)
    have wire : gbuf2json (janssonOf barMessage barText) gbuf = some barMessage := by
      unfold gbuf2json
      rw [text]
      rfl
    exact ⟨gbuf, written, by rw [wire]; rfl⟩
  · have ⟨gbuf, written, text⟩ := @json2gbuf_leftBytes 8192
      ((janssonOf emptiedMessage emptiedText).dump emptiedMessage) (by decide) (by decide)
    have wire : gbuf2json (janssonOf emptiedMessage emptiedText) gbuf = some emptiedMessage := by
      unfold gbuf2json
      rw [text]
      rfl
    have long : (gbufferOf (List.replicate 7000 0)).leftBytes.length = 7000 :=
      List.length_replicate
    have lost : gbufferBinaryToBase64 8192 (gbufferOf (List.replicate 7000 0)).leftBytes =
        none := by
      unfold gbufferBinaryToBase64 gbufferCreate b64OutputEncodeLen
      rw [long]
      rfl
    have serialized : gbufferSerialize 8192 (gbufferOf (List.replicate 7000 0)) =
        .object [("label", .string ""), ("mark", .integer 0), ("data", .string "")] := by
      unfold gbufferSerialize
      rw [lost]
      rfl
    obtain ⟨copy, received, empty⟩ : ∃ copy,
        (processWith ["EV_ON_MESSAGE"] 8192 []).memoryAfter (some emptiedMessage) 24 = some copy ∧
          copy.leftBytes = [] := ⟨_, rfl, rfl⟩
    refine ⟨gbuf, copy, ?_, written, by rw [wire]; rfl, by rw [wire]; exact received, empty⟩
    show ((Fields.set [("gbuffer", .integer 16)] "__gbuffer___"
      (gbufferSerialize 8192 (gbufferOf (List.replicate 7000 0)))).del "gbuffer") = _
    rw [serialized]
    rfl

end Yunetas.Gobj
