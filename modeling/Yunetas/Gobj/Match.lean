import Yunetas.Gobj.Helpers
import Yunetas.Gobj.Kwid

/-!
# Paths and filters

`kw_find_path` walks dicts and lists along the segments of a path, and `kw_match_simple` asks of a
record that the values a filter names, by path or by plain key, compare equal to those the filter
gives. Paths are built one byte to a character.
-/

namespace Yunetas.Gobj

open Json

/-- The delimiter of paths. -/
def pathDelimiter : Char := Char.ofNat 96

/-- `KW_MAX_PATH_DEPTH`. -/
def kwMaxPathDepth : Nat := 64

/-- The segments of a path. -/
def segments (path : List Char) : List (List Char) :=
  path.splitOn pathDelimiter

/-- The value of a segment in a dict or in a list. -/
def pathChild (kw : Json) (segment : List Char) : Option Json :=
  match kw with
  | .object fields => Fields.get? fields (String.ofList segment)
  | .array items =>
    if atoi segment < 0 then none else items[(atoi segment).toNat]?
  | _ => none

/-- `kw_find_path_depth`. A segment before the last is cut to 255 bytes and leads nowhere when its
value is null. -/
def kwFindPathDepth (depth : Nat) (kw : Json) : List (List Char) → Option Json
  | [] => none
  | [last] => if depth ≥ kwMaxPathDepth then none else pathChild kw last
  | segment :: rest =>
    if depth ≥ kwMaxPathDepth then none
    else
      match pathChild kw (segment.take 255) with
      | none => none
      | some .null => none
      | some next => kwFindPathDepth (depth + 1) next rest

/-- `kw_get_dict_value` without flags, of a path in a dict. -/
def kwGetDictValue (kw : Fields) (path : List Char) : Option Json :=
  kwFindPathDepth 0 (.object kw) (segments path)

/-- `jn2integer` of a value that is no real: an octal text after a zero, a hexadecimal one after an
`x`, where it ends at once. -/
def jn2integer : Json → Int
  | .integer value => value
  | .boolean value => if value then 1 else 0
  | .string value =>
    match value.toList with
    | '0' :: rest => strtollBase 8 ('0' :: rest)
    | 'x' :: rest => strtollBase 16 ('x' :: rest)
    | 'X' :: rest => strtollBase 16 ('X' :: rest)
    | chars => strtollBase 10 chars
  | _ => 0

/-- `jn2string` of a string or null, the only values it is asked of here. -/
def jn2string : Json → String
  | .string value => value
  | _ => ""

/-- `cmp_two_simple_json` answers 0. The comparison of two values one of which is a real is a
parameter. -/
def cmpEqual (realEqual : Json → Json → Bool) : Json → Json → Bool
  | .object _, _ => false
  | _, .object _ => false
  | .array _, _ => false
  | _, .array _ => false
  | .real bits, value => realEqual (.real bits) value
  | value, .real bits => realEqual value (.real bits)
  | .integer left, value => left = jn2integer value
  | value, .integer right => jn2integer value = right
  | .boolean left, value => jn2integer (.boolean left) = jn2integer value
  | value, .boolean right => jn2integer value = jn2integer (.boolean right)
  | left, right => jn2string left = jn2string right

/-- A simple condition of a filter: a value found by path, else by the path as a key, compares
equal. -/
def matchValue (realEqual : Json → Json → Bool) (kw : Fields) (path : List Char) (value : Json) :
    Bool :=
  match kwGetDictValue kw path with
  | some record => cmpEqual realEqual record value
  | none =>
    match kw.get? (String.ofList path) with
    | some record => cmpEqual realEqual record value
    | none => false

/-- `snprintf` of a path into `NAME_MAX` bytes. -/
def pathBuffer (path : List Char) : List Char := path.take 254

/-- The path of a key under another path. -/
def joinPath (above key : List Char) : List Char :=
  if above = [] then pathBuffer key
  else pathBuffer (above ++ pathDelimiter :: key)

/-- The path of an item of a list of alternatives; directly under the root it is empty. -/
def itemPath (above : List Char) (idx : Nat) : List Char :=
  if above = [] then []
  else pathBuffer (above ++ pathDelimiter :: (toString idx).toList)

mutual

/-- `_kw_match_simple`, by the test of its simple conditions: a list asks for one of its items, a
dict for all its entries. -/
def kwMatchFilter (test : List Char → Json → Bool) : Json → List Char → Bool
  | .array items, path => kwMatchAny test items path 0
  | .object entries, path => kwMatchAll test entries path
  | _, _ => false

/-- The loop over the items of a list. -/
def kwMatchAny (test : List Char → Json → Bool) : List Json → List Char → Nat → Bool
  | [], _, _ => false
  | item :: rest, path, idx =>
    kwMatchFilter test item (itemPath path idx) || kwMatchAny test rest path (idx + 1)

/-- The loop over the entries of a dict. -/
def kwMatchAll (test : List Char → Json → Bool) : List (String × Json) → List Char → Bool
  | [], _ => true
  | (key, value) :: rest, path =>
    (match value with
      | .array items => kwMatchAny test items (joinPath path key.toList) 0
      | .object entries => kwMatchAll test entries (joinPath path key.toList)
      | simple => test (joinPath path key.toList) simple) &&
      kwMatchAll test rest path

end

/-- `json_size`. -/
def jsonSize : Json → Nat
  | .array items => items.length
  | .object entries => entries.length
  | _ => 0

/-- `kw_match_simple`. -/
def kwMatchSimple (realEqual : Json → Json → Bool) (kw : Fields) (filter : Json) : Bool :=
  if jsonSize filter = 0 then true else kwMatchFilter (matchValue realEqual kw) filter []

theorem kwMatchSimple_congr (realEqual : Json → Json → Bool) {left right : Fields}
    (same : ∀ key, left.get? key = right.get? key) (filter : Json) :
    kwMatchSimple realEqual left filter = kwMatchSimple realEqual right filter := by
  have child (segment : List Char) :
      pathChild (.object left) segment = pathChild (.object right) segment := same _
  have values (path : List Char) : kwGetDictValue left path = kwGetDictValue right path := by
    unfold kwGetDictValue
    cases segments path with
    | nil => rfl
    | cons segment rest =>
      cases rest with
      | nil =>
        unfold kwFindPathDepth
        rw [child]
      | cons next rest =>
        unfold kwFindPathDepth
        rw [child]
  have tests : matchValue realEqual left = matchValue realEqual right := by
    funext path value
    unfold matchValue
    rw [values, same]
  unfold kwMatchSimple
  rw [tests]

end Yunetas.Gobj
