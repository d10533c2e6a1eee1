import Yunetas.Lib.Json

/-!
# Key words

Functions of `kwid.c` and `msg_ievent.c` on the json objects that events carry. A path without a
delimiter is one key. On an array a key is taken as an index, and one that does not start with a
digit is index zero, as `atoi` reads it; no key used here starts with a digit.
-/

namespace Yunetas.Gobj

open List Option

open Json

/-- `kw_find_path` of one key. -/
def kwFindPath (key : String) : Option Json → Option Json
  | some (.object fields) => Fields.get? fields key
  | some (.array items) => items.head?
  | _ => none

/-- `kw_get_str` without flags: the default when the key is missing or is no string. -/
def kwGetStr (json : Option Json) (key default : String) : String :=
  ((kwFindPath key json).bind Json.stringValue).getD default

/-- `kw_get_dict` without flags. -/
def kwGetDict (json : Option Json) (key : String) : Option Fields :=
  match kwFindPath key json with
  | some (.object fields) => some fields
  | _ => none

/-- `kw_get_list` without flags. -/
def kwGetList (json : Option Json) (key : String) : Option (List Json) :=
  match kwFindPath key json with
  | some (.array items) => some items
  | _ => none

/-- `kw_set_dict_value` of one key: a key that is there keeps its value. -/
def kwSetDictValue (kw : Fields) (key : String) (value : Json) : Fields :=
  match kw.get? key with
  | some _ => kw
  | none => kw.set key value

theorem get?_kwSetDictValue (kw : Fields) (key other : String) (value : Json) :
    (kwSetDictValue kw key value).get? other =
      if other = key then some ((kw.get? key).getD value) else kw.get? other := by
  unfold kwSetDictValue
  cases present : kw.get? key with
  | some old =>
    by_cases same : other = key
    · rw [if_pos same, same, present, getD_some]
    · rw [if_neg same]
  | none =>
    rw [Fields.get?_set]
    by_cases same : other = key
    · rw [if_pos same, if_pos same, getD_none]
    · rw [if_neg same, if_neg same]

/-- A binary field of `kw_add_binary_type`: its name, its name on the wire, and how the wire value
becomes an address. -/
structure BinaryType where
  binaryFieldName : String
  serializedFieldName : String
  /-- `deserialize_fn`. -/
  deserialize : Json → Int

/-- The second loop of `kw_deserialize`, for one binary field. -/
def deserializeField (kw : Fields) (field : BinaryType) : Fields :=
  match kw.get? field.serializedFieldName with
  | none => kw
  | some serialized =>
    (kw.set field.binaryFieldName (.integer (field.deserialize serialized))).del
      field.serializedFieldName

/-- `kw_deserialize`: binary fields from outside are dropped, wire fields become binary ones. -/
def kwDeserialize (binaryTypes : List BinaryType) (kw : Fields) : Fields :=
  binaryTypes.foldl deserializeField
    (binaryTypes.foldl (fun kw field => kw.del field.binaryFieldName) kw)

theorem get?_kwDeserialize (binaryTypes : List BinaryType) (kw : Fields) (key : String)
    (plain : ∀ field ∈ binaryTypes, key ≠ field.binaryFieldName ∧ key ≠ field.serializedFieldName) :
    (kwDeserialize binaryTypes kw).get? key = kw.get? key := by
  have dropped : ∀ (fields : List BinaryType) (kw : Fields),
      (∀ field ∈ fields, key ≠ field.binaryFieldName) →
      (fields.foldl (fun kw field => kw.del field.binaryFieldName) kw).get? key = kw.get? key := by
    intro fields
    induction fields with
    | nil => exact fun kw _ => rfl
    | cons field rest ih =>
      intro kw others
      rw [foldl_cons, ih _ fun other among => others other (mem_cons_of_mem _ among),
        Fields.get?_del, if_neg (others field mem_cons_self)]
  have made : ∀ (fields : List BinaryType) (kw : Fields),
      (∀ field ∈ fields, key ≠ field.binaryFieldName ∧ key ≠ field.serializedFieldName) →
      (fields.foldl deserializeField kw).get? key = kw.get? key := by
    intro fields
    induction fields with
    | nil => exact fun kw _ => rfl
    | cons field rest ih =>
      intro kw others
      have here := others field mem_cons_self
      rw [foldl_cons, ih _ fun other among => others other (mem_cons_of_mem _ among)]
      unfold deserializeField
      split
      · rfl
      · rw [Fields.get?_del, if_neg here.2, Fields.get?_set, if_neg here.1]
  unfold kwDeserialize
  rw [made binaryTypes _ plain, dropped binaryTypes kw fun field among => (plain field among).1]

/-- The stack of the routing records, `IEVENT_STACK_ID`. -/
def ieventStackId : String := "ievent_gate_stack"

/-- `msg_iev_get_stack`: the first record of a stack, in place. -/
def msgIevGetStack (kw : Fields) (stack : String) : Option Json :=
  match kwGetDict (some (.object kw)) "__md_iev__" with
  | none => none
  | some metadata =>
    match kwGetList (some (.object metadata)) stack with
    | none => none
    | some items => items.head?

/-- `msg_iev_get_msg_type`. -/
def msgIevGetMsgType (kw : Fields) : String :=
  kwGetStr (kwFindPath "__md_iev__" (some (.object kw))) "__msg_type__" ""

/-- Set fields of the first record of the routing stack in place; a record that is no object
stays. -/
def setRoutingFields (kw : Fields) (values : Fields) : Fields :=
  match kw.get? "__md_iev__" with
  | some (.object metadata) =>
    match Fields.get? metadata ieventStackId with
    | some (.array (.object record :: rest)) =>
      let updated := values.foldl (fun record entry => Fields.set record entry.1 entry.2) record
      kw.set "__md_iev__"
        (.object (Fields.set metadata ieventStackId (.array (.object updated :: rest))))
    | _ => kw
  | _ => kw

theorem get?_setRoutingFields (kw values : Fields) (key : String) (other : key ≠ "__md_iev__") :
    (setRoutingFields kw values).get? key = kw.get? key := by
  unfold setRoutingFields
  split
  · split
    · rw [Fields.get?_set, if_neg other]
    · rfl
  · rfl

end Yunetas.Gobj
