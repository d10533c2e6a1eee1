import Yunetas.Gobj.Registry
import Yunetas.Gobj.Gbuffer

/-!
# Inter-event messages on the wire

An event goes to another yuno as the text of a json object with its name and its key words. Binary
fields, addresses of gbuffers held as json integers, are replaced by their serialized form on the way
out and rebuilt on the way in. The text is written and read by the json library.
-/

namespace Yunetas.Gobj

open List Option

open Json

/-- An entry of the table of binary fields, with how the object at an address becomes a wire
value. -/
structure SerializeField extends BinaryType where
  /-- `serialize_fn`. -/
  serialize : Int → Option Json

/-- The body of the loop of `kw_serialize`: the binary field gives way to the serialized one. -/
def serializeField (kw : Fields) (field : SerializeField) : Fields :=
  match kw.get? field.binaryFieldName with
  | none => kw
  | some binary =>
    match field.serialize binary.integerValue with
    | none => kw.del field.binaryFieldName
    | some serialized =>
      (kw.set field.serializedFieldName serialized).del field.binaryFieldName

/-- `kw_serialize`. -/
def kwSerialize (fields : List SerializeField) (kw : Fields) : Fields :=
  fields.foldl serializeField kw

/-- No name stands twice in the table. -/
def DistinctNames (fields : List SerializeField) : Prop :=
  (fields.flatMap fun field => [field.binaryFieldName, field.serializedFieldName]).Nodup

/-- The json library: the text of a value in the pieces it is written in, and the value of a text. -/
structure Jansson where
  /-- `json_dump_callback` with `JSON_COMPACT`. -/
  dump : Json → List (List UInt8)
  /-- `json_loads` with `JSON_DECODE_ANY|JSON_ALLOW_NUL`. -/
  loads : List UInt8 → Option Json

/-- A process that runs a yuno. -/
structure Process where
  yuno : Yuno
  maxBlock : Nat
  memory : Int → Option Gbuffer
  next : Int

/-- The address `gbuffer_deserialize` returns: null when no gbuffer is built. -/
def Process.deserialized (process : Process) (serialized : Json) : Int :=
  match gbufferDeserialize process.maxBlock serialized with
  | none => 0
  | some _ => process.next

/-- The registries of the process, its deserializer among them. -/
def Process.registries (process : Process) : Yuno :=
  { process.yuno with gbufferDeserialize := process.deserialized }

/-- The table of binary fields that `gobj_start_up` registers. -/
def Process.serializeFields (process : Process) : List SerializeField :=
  (binaryTypes process.registries).map fun field =>
    { field with
      serialize := fun address =>
        (process.memory address).map (gbufferSerialize process.maxBlock) }

/-- The message of an event. -/
def ievMessage (event : String) (kw : Fields) : Json :=
  .object [("event", .string event), ("kw", .object kw)]

/-- `iev_create_to_gbuffer`. -/
def ievCreateToGbuffer (jansson : Jansson) (process : Process) (event : String)
    (kw : Option Fields) : Option Gbuffer :=
  if event = "" then none
  else json2gbuf process.maxBlock
    (jansson.dump (ievMessage event (kwSerialize process.serializeFields (kw.getD []))))

/-- `gbuf2json`. -/
def gbuf2json (jansson : Jansson) (gbuf : Gbuffer) : Option Json := jansson.loads gbuf.leftBytes

/-- The gbuffers of the process after `iev_create_from_gbuffer` of a message. -/
def Process.memoryAfter (process : Process) (wire : Option Json) : Int → Option Gbuffer :=
  match ((kwGetDict wire "kw").bind fun kw => Fields.get? kw "__gbuffer___").bind
      (gbufferDeserialize process.maxBlock) with
  | none => process.memory
  | some gbuf => fun address => if address = process.next then some gbuf else process.memory address

section Table

variable {fields : List SerializeField}

theorem get?_serializeField (kw : Fields) (field : SerializeField) {key : String}
    (notBinary : key ≠ field.binaryFieldName) (notSerialized : key ≠ field.serializedFieldName) :
    (serializeField kw field).get? key = kw.get? key := by
  unfold serializeField
  split
  · rfl
  split
  · rw [Fields.get?_del, if_neg notBinary]
  · rw [Fields.get?_del, if_neg notBinary, Fields.get?_set, if_neg notSerialized]

theorem get?_deserializeField (kw : Fields) (field : BinaryType) {key : String}
    (notBinary : key ≠ field.binaryFieldName) (notSerialized : key ≠ field.serializedFieldName) :
    (deserializeField kw field).get? key = kw.get? key := by
  unfold deserializeField
  split
  · rfl
  · rw [Fields.get?_del, if_neg notSerialized, Fields.get?_set, if_neg notBinary]

theorem get?_kwSerialize (fields : List SerializeField) (kw : Fields) {key : String}
    (plain : ∀ field ∈ fields, key ≠ field.binaryFieldName ∧ key ≠ field.serializedFieldName) :
    (kwSerialize fields kw).get? key = kw.get? key := by
  unfold kwSerialize
  induction fields generalizing kw with
  | nil => rfl
  | cons field rest ih =>
    have here := plain field mem_cons_self
    rw [foldl_cons, ih _ fun other among => plain other (mem_cons_of_mem _ among),
      get?_serializeField kw field here.1 here.2]

variable {field : SerializeField}

theorem DistinctNames.head {rest : List SerializeField} (distinct : DistinctNames (field :: rest)) :
    field.binaryFieldName ≠ field.serializedFieldName ∧ DistinctNames rest ∧ ∀ other ∈ rest,
        (field.binaryFieldName ≠ other.binaryFieldName ∧
          field.binaryFieldName ≠ other.serializedFieldName) ∧
        (field.serializedFieldName ≠ other.binaryFieldName ∧
          field.serializedFieldName ≠ other.serializedFieldName) := by
  unfold DistinctNames at distinct
  rw [flatMap_cons, nodup_append] at distinct
  refine ⟨by simpa using distinct.1, distinct.2.1, fun other among => ?_⟩
  have apart := distinct.2.2
  have listed (name : String) (own : name = other.binaryFieldName ∨ name = other.serializedFieldName) :
      name ∈ rest.flatMap fun field => [field.binaryFieldName, field.serializedFieldName] :=
    mem_flatMap.2 ⟨other, among, by simpa using own⟩
  exact ⟨⟨apart _ (by simp) _ (listed _ (.inl rfl)), apart _ (by simp) _ (listed _ (.inr rfl))⟩,
    ⟨apart _ (by simp) _ (listed _ (.inl rfl)), apart _ (by simp) _ (listed _ (.inr rfl))⟩⟩

theorem get?_kwSerialize_serialized (distinct : DistinctNames fields) (kw : Fields)
    (absent : ∀ field ∈ fields, kw.get? field.serializedFieldName = none)
    (listed : field ∈ fields) :
    (kwSerialize fields kw).get? field.serializedFieldName =
      (kw.get? field.binaryFieldName).bind fun binary => field.serialize binary.integerValue := by
  induction fields generalizing kw with
  | nil => cases listed
  | cons first rest ih =>
    have names := distinct.head
    have none_here := absent first mem_cons_self
    have step : kwSerialize (first :: rest) kw = kwSerialize rest (serializeField kw first) := rfl
    rw [step]
    rcases mem_cons.1 listed with rfl | later
    · rw [get?_kwSerialize rest _ fun other among => (names.2.2 other among).2]
      unfold serializeField
      split
      · rename_i missing
        rw [missing, none_here]
        rfl
      · rename_i binary held
        rw [held, bind_some]
        split
        · rename_i failed
          rw [Fields.get?_del, if_neg names.1.symm, none_here, failed]
        · rename_i serialized made
          rw [Fields.get?_del, if_neg names.1.symm, Fields.get?_set_self, made]
    · have apart := names.2.2 field later
      rw [ih names.2.1 _ _ later, get?_serializeField kw first apart.1.1.symm apart.2.1.symm]
      intro other among
      have others := names.2.2 other among
      rw [get?_serializeField kw first others.1.2.symm others.2.2.symm]
      exact absent other (mem_cons_of_mem _ among)

/-- The second loop of `kw_deserialize`: the binary name of a field holds the address of what its
deserializer built of the wire value. -/
theorem get?_deserializeFields (distinct : DistinctNames fields) (kw : Fields)
    (absent : ∀ field ∈ fields, kw.get? field.binaryFieldName = none)
    (listed : field ∈ fields) :
    ((fields.map SerializeField.toBinaryType).foldl deserializeField kw).get?
        field.binaryFieldName =
      (kw.get? field.serializedFieldName).map fun serialized =>
        .integer (field.deserialize serialized) := by
  induction fields generalizing kw with
  | nil => cases listed
  | cons first rest ih =>
    have names := distinct.head
    have none_here := absent first mem_cons_self
    rw [map_cons, foldl_cons]
    rcases mem_cons.1 listed with rfl | later
    · have frame : ∀ (others : List SerializeField) (kw : Fields),
          (∀ other ∈ others, field.binaryFieldName ≠ other.binaryFieldName ∧
            field.binaryFieldName ≠ other.serializedFieldName) →
          ((others.map SerializeField.toBinaryType).foldl deserializeField kw).get?
            field.binaryFieldName = kw.get? field.binaryFieldName := by
        intro others
        induction others with
        | nil => exact fun kw _ => rfl
        | cons other others ih =>
          intro kw apart
          rw [map_cons, foldl_cons,
            ih _ fun another among => apart another (mem_cons_of_mem _ among),
            get?_deserializeField kw _ (apart other mem_cons_self).1 (apart other mem_cons_self).2]
      rw [frame rest _ fun other among => (names.2.2 other among).1]
      unfold deserializeField
      split
      · rename_i missing
        rw [missing, none_here]
        rfl
      · rename_i serialized held
        rw [held, Fields.get?_del, if_neg names.1, Fields.get?_set_self, map_some]
    · have apart := names.2.2 field later
      rw [ih names.2.1 _ _ later,
        get?_deserializeField kw first.toBinaryType apart.1.2.symm apart.2.2.symm]
      intro other among
      have others := names.2.2 other among
      rw [get?_deserializeField kw first.toBinaryType others.1.1.symm others.2.1.symm]
      exact absent other (mem_cons_of_mem _ among)

theorem get?_dropBinary (fields : List BinaryType) (kw : Fields) (key : String) :
    (fields.foldl (fun kw field => kw.del field.binaryFieldName) kw).get? key =
      if key ∈ fields.map BinaryType.binaryFieldName then none else kw.get? key := by
  induction fields generalizing kw with
  | nil => rfl
  | cons field rest ih =>
    rw [foldl_cons, ih, Fields.get?_del, map_cons]
    by_cases here : key = field.binaryFieldName
    · simp [here]
    · simp [here]

/-- After `kw_deserialize` a binary name holds an address that the deserializer of the field returned
for the wire value of the message, or nothing. -/
theorem get?_kwDeserialize_binary (distinct : DistinctNames fields) (kw : Fields)
    (listed : field ∈ fields) :
    (kwDeserialize (fields.map SerializeField.toBinaryType) kw).get? field.binaryFieldName =
      (kw.get? field.serializedFieldName).map fun serialized =>
        .integer (field.deserialize serialized) := by
  have notBinary : ∀ (fields : List SerializeField), DistinctNames fields → field ∈ fields →
      field.serializedFieldName ∉
        (fields.map SerializeField.toBinaryType).map BinaryType.binaryFieldName := by
    intro fields distinct listed among
    rw [List.map_map] at among
    have ⟨other, there, same⟩ := mem_map.1 among
    clear among
    induction fields with
    | nil => cases listed
    | cons first rest ih =>
      have names := distinct.head
      rcases mem_cons.1 listed with rfl | later
      · rcases mem_cons.1 there with rfl | further
        · exact names.1 same
        · exact (names.2.2 other further).2.1 same.symm
      · rcases mem_cons.1 there with rfl | further
        · exact (names.2.2 field later).1.2 same
        · exact ih names.2.1 later further
  unfold kwDeserialize
  rw [get?_deserializeFields distinct _ _ listed, get?_dropBinary,
    if_neg (notBinary fields distinct listed)]
  intro other among
  rw [get?_dropBinary, if_pos]
  exact mem_map.2 ⟨_, mem_map_of_mem among, rfl⟩

end Table

end Yunetas.Gobj
