import Yunetas.Lib.Dict

/-!
# Json values

A json object is the list of its entries in the order their keys were set; `get?` reads the first
entry of a key and `set` changes it in place or appends a new one. An object read from a text has no
key twice, which nothing here relies on.
-/

namespace Yunetas

open List

/-- A json value; a real is its 64 bits. -/
inductive Json where
  | null
  | boolean (value : Bool)
  | integer (value : Int)
  | real (bits : UInt64)
  | string (value : String)
  | array (items : List Json)
  | object (entries : List (String × Json))

namespace Json

/-- The entries of an object, in order. -/
abbrev Fields := List (String × Json)

/-- `json_string_value`. -/
def stringValue : Json → Option String
  | string value => some value
  | _ => none

/-- `json_integer_value`. -/
def integerValue : Json → Int
  | integer value => value
  | _ => 0

theorem stringValue_eq_some {json : Json} {text : String} (read : json.stringValue = some text) :
    json = .string text := by
  unfold stringValue at read
  split at read
  · rw [Option.some.inj read]
  · cases read

mutual

/-- The same value, with the entries of objects in the same order. -/
def same : Json → Json → Bool
  | null, null => true
  | boolean left, boolean right => left = right
  | integer left, integer right => left = right
  | real left, real right => left = right
  | string left, string right => left = right
  | array left, array right => sameItems left right
  | object left, object right => sameEntries left right
  | _, _ => false

/-- The same items. -/
def sameItems : List Json → List Json → Bool
  | [], [] => true
  | left :: lefts, right :: rights => same left right && sameItems lefts rights
  | _, _ => false

/-- The same entries. -/
def sameEntries : List (String × Json) → List (String × Json) → Bool
  | [], [] => true
  | (key, left) :: lefts, (other, right) :: rights =>
    key = other && same left right && sameEntries lefts rights
  | _, _ => false

end

mutual

theorem same_refl : ∀ json : Json, same json json = true
  | null => rfl
  | boolean _ => by simp [same]
  | integer _ => by simp [same]
  | real _ => by simp [same]
  | string _ => by simp [same]
  | array items => by
    rw [same]
    exact sameItems_refl items
  | object entries => by
    rw [same]
    exact sameEntries_refl entries

theorem sameItems_refl : ∀ items : List Json, sameItems items items = true
  | [] => rfl
  | item :: rest => by rw [sameItems, same_refl item, sameItems_refl rest, Bool.true_and]

theorem sameEntries_refl : ∀ entries : List (String × Json), sameEntries entries entries = true
  | [] => rfl
  | (key, value) :: rest => by
    rw [sameEntries, same_refl value, sameEntries_refl rest]
    simp

end

namespace Fields

/-- `json_object_get`. -/
def get? (fields : Fields) (key : String) : Option Json := Dict.lookupEntries key fields

/-- `json_object_set`. -/
def set (fields : Fields) (key : String) (value : Json) : Fields := Dict.setEntries key value fields

/-- `json_object_del`. -/
def del (fields : Fields) (key : String) : Fields := fields.filter fun entry => entry.1 ≠ key

variable (fields : Fields)

theorem get?_set (key other : String) (value : Json) :
    (fields.set key value).get? other = if other = key then some value else fields.get? other :=
  Dict.lookupEntries_set key other value fields

@[simp] theorem get?_set_self (key : String) (value : Json) :
    (fields.set key value).get? key = some value := by rw [get?_set, if_pos rfl]

theorem get?_set_ne {key other : String} (value : Json) (ne : other ≠ key) :
    (fields.set key value).get? other = fields.get? other := by rw [get?_set, if_neg ne]

theorem get?_del (key other : String) :
    (fields.del key).get? other = if other = key then none else fields.get? other :=
  Dict.lookupEntries_filter key other fields

/-- `json_object_update`. -/
def update (fields other : Fields) : Fields :=
  other.foldl (fun fields entry => fields.set entry.1 entry.2) fields

/-- Deletion of every key of a list. -/
def delAll (fields : Fields) (keys : List String) : Fields := keys.foldl del fields

theorem get?_delAll (keys : List String) (key : String) :
    (fields.delAll keys).get? key = if key ∈ keys then none else fields.get? key := by
  unfold delAll
  induction keys generalizing fields with
  | nil => rfl
  | cons first rest ih =>
    rw [foldl_cons, ih, get?_del]
    by_cases here : key = first
    · simp [here]
    · simp [here]

theorem get?_update_ne {other : Fields} {key : String}
    (unnamed : key ∉ other.map Prod.fst) : (fields.update other).get? key = fields.get? key := by
  unfold update
  induction other generalizing fields with
  | nil => rfl
  | cons entry rest ih =>
    rw [map_cons, mem_cons, not_or] at unnamed
    rw [foldl_cons, ih _ unnamed.2, get?_set_ne _ _ unnamed.1]

theorem get?_update_eq (left right : Fields) {other : Fields} {key : String}
    (named : key ∈ other.map Prod.fst) :
    (left.update other).get? key = (right.update other).get? key := by
  unfold update
  induction other generalizing left right with
  | nil => cases named
  | cons entry rest ih =>
    rw [foldl_cons, foldl_cons]
    by_cases later : key ∈ rest.map Prod.fst
    · exact ih _ _ later
    · have here : key = entry.1 := by
        rw [map_cons, mem_cons] at named
        exact named.resolve_right later
      have set (fields : Fields) := get?_update_ne (fields.set entry.1 entry.2) later
      unfold update at set
      rw [set, set, here, get?_set_self, get?_set_self]

end Fields

end Json

end Yunetas
