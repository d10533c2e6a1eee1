import Yunetas.Gobj.Match
import Yunetas.Lib.JsonTree
import Yunetas.Lib.Pairing

/-!
# Deep comparison

`kwid_compare_records` and `kwid_compare_lists` of `kwid.c`: two json values are compared level by
level, with keys left out at every dict, and the items of lists are removed from both sides as they
find a partner. A real is compared with a value of another type by a parameter.
-/

namespace Yunetas.Gobj

open Json Pairing List

/-- What a comparison leaves out. -/
structure CompareOptions where
  ignoreKeys : List String
  withoutMetadata : Bool
  withoutPrivate : Bool

/-- The underscores a key starts with. -/
def leadingUnderscores (key : String) : Nat := (key.toList.takeWhile (· = '_')).length

/-- `kw_delete_private_keys` and `kw_delete_metadata_keys`: the keys that start with so many
underscores go. -/
def kwDeleteUnderscored (underscores : Nat) (fields : Fields) : Fields :=
  fields.filter fun entry => leadingUnderscores entry.1 ≠ underscores

/-- `kw_delete_private_keys`. -/
def kwDeletePrivateKeys (fields : Fields) : Fields := kwDeleteUnderscored 1 fields

/-- `kw_delete_metadata_keys`. -/
def kwDeleteMetadataKeys (fields : Fields) : Fields := kwDeleteUnderscored 2 fields

/-- The deletions at a dict. -/
def deleteLeftOut (options : CompareOptions) (fields : Fields) : Fields :=
  let fields := if options.withoutMetadata then kwDeleteMetadataKeys fields else fields
  let fields := if options.withoutPrivate then kwDeletePrivateKeys fields else fields
  fields.delAll options.ignoreKeys

/-- `json_type`. -/
inductive JsonType where
  | object
  | array
  | string
  | integer
  | real
  | true
  | false
  | null
  deriving DecidableEq

/-- `json_typeof`. -/
def jsonTypeof : Json → JsonType
  | .object _ => .object
  | .array _ => .array
  | .string _ => .string
  | .integer _ => .integer
  | .real _ => .real
  | .boolean value => if value then .true else .false
  | .null => .null

/-- Two doubles are equal: the same bits, or both a zero. A json real is never a NaN. -/
def realSame (left right : UInt64) : Bool :=
  left = right || left.toNat % 2 ^ 63 = 0 && right.toNat % 2 ^ 63 = 0

/-- `json_equal` of an item that is no container with any other one. -/
def scalarEqual : Json → Json → Bool
  | .null, .null => true
  | .boolean left, .boolean right => left = right
  | .integer left, .integer right => left = right
  | .real left, .real right => realSame left right
  | .string left, .string right => left = right
  | _, _ => false

/-- `cmp_two_simple_json` answers 0. -/
def cmpSimple (mixed : Json → Json → Bool) (left right : Json) : Bool :=
  cmpEqual (fun left right =>
    match left, right with
    | .real left, .real right => realSame left right
    | left, right => mixed left right) left right

/-- The text that `kw_get_str` finds under `id`; in an array it looks at the first item. -/
def itemId (item : Json) : Option String := (kwFindPath "id" (some item)).bind stringValue

/-- `id1`: the `id` of an item that is an object. -/
def recordId (item : Json) : Option String :=
  match item with
  | .object _ => itemId item
  | _ => none

/-- `kwid_find_record_in_list`. -/
def kwidFindRecordInList (id : String) : List Json → Option Nat
  | [] => none
  | record :: rest =>
    match itemId record with
    | none => none
    | some other => if id = other then some 0 else (kwidFindRecordInList id rest).map (· + 1)

/-- `kw_find_json_in_list` of an item that is no container. -/
def kwFindJsonInList (item : Json) (list : List Json) : Option Nat := list.findIdx? (scalarEqual item)

/-- Where the loop over a list finds the partner of an item, by the comparison of records. -/
def partner (compare : Json → Json → Bool) (item : Json) (expected : List Json) : Option Nat :=
  match recordId item with
  | some id =>
    match kwidFindRecordInList id expected with
    | none => none
    | some idx =>
      match expected[idx]? with
      | none => none
      | some record => if compare item record then some idx else none
  | none =>
    if item.isContainer then expected.findIdx? (compare item)
    else kwFindJsonInList item expected

/-- The loop over the keys of a dict. -/
def compareEntries (mixed compare : Json → Json → Bool) : Fields → Fields → Bool
  | [], expected => expected.isEmpty
  | (key, value) :: rest, expected =>
    match expected.get? key with
    | none => false
    | some value2 =>
      if (if value.isContainer then compare value value2 else cmpSimple mixed value value2) then
        compareEntries mixed compare rest (expected.del key)
      else false

/-- `KWID_MAX_COMPARE_DEPTH`. -/
def kwidMaxCompareDepth : Nat := 64

mutual

/-- `_kwid_compare_records_path`, by the depth that is left. -/
def compareRecords (mixed : Json → Json → Bool) (options : CompareOptions) :
    Nat → Json → Json → Bool
  | 0, _, _ => false
  | left + 1, record, expected =>
    if jsonTypeof record ≠ jsonTypeof expected then false
    else
      match record, expected with
      | .array _, _ => compareLists mixed options left record expected
      | .object fields, .object others =>
        compareEntries mixed (compareRecords mixed options left) (deleteLeftOut options fields)
          (deleteLeftOut options others)
      | _, _ => cmpSimple mixed record expected

/-- `_kwid_compare_lists_path`, by the depth that is left. -/
def compareLists (mixed : Json → Json → Bool) (options : CompareOptions) :
    Nat → Json → Json → Bool
  | 0, _, _ => false
  | left + 1, list, expected =>
    if jsonTypeof list ≠ jsonTypeof expected then false
    else
      match list, expected with
      | .array items, .array others =>
        pairOff (partner (compareRecords mixed options left)) items others
      | .object _, _ => compareRecords mixed options left list expected
      | _, _ => cmpSimple mixed list expected

end

/-- `kwid_compare_records`. -/
def kwidCompareRecords (mixed : Json → Json → Bool) (options : CompareOptions) :
    Json → Json → Bool := compareRecords mixed options kwidMaxCompareDepth

/-- `kwid_compare_lists`. -/
def kwidCompareLists (mixed : Json → Json → Bool) (options : CompareOptions) :
    Json → Json → Bool := compareLists mixed options kwidMaxCompareDepth

/-- A key that a comparison leaves out. -/
def CompareOptions.leavesOut (options : CompareOptions) (key : String) : Bool :=
  options.ignoreKeys.contains key ||
    options.withoutMetadata && leadingUnderscores key = 2 ||
    options.withoutPrivate && leadingUnderscores key = 1

theorem delAll_eq (fields : Fields) (keys : List String) :
    fields.delAll keys = fields.filter fun entry => !keys.contains entry.1 := by
  unfold Fields.delAll
  induction keys generalizing fields with
  | nil => simp
  | cons key rest ih =>
    rw [foldl_cons, ih]
    unfold Fields.del
    rw [filter_filter]
    refine filter_congr fun entry _ => ?_
    by_cases here : entry.1 = key <;> simp [here]

theorem deleteLeftOut_eq (options : CompareOptions) (fields : Fields) :
    deleteLeftOut options fields = fields.filter fun entry => !options.leavesOut entry.1 := by
  unfold deleteLeftOut kwDeleteMetadataKeys kwDeletePrivateKeys kwDeleteUnderscored
  rw [delAll_eq]
  unfold CompareOptions.leavesOut
  cases options.withoutMetadata <;> cases options.withoutPrivate <;>
    simp only [Bool.false_eq_true, if_false, if_true, filter_filter] <;>
    refine filter_congr fun entry _ => ?_ <;>
    cases options.ignoreKeys.contains entry.1 <;> simp [Bool.and_comm]

end Yunetas.Gobj
