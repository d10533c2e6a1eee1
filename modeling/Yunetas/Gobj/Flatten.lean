import Yunetas.Gobj.Match
import Yunetas.Lib.JsonTree

/-!
# Flattened objects

`json_flatten_dict` gives one dict with an entry for each leaf of a value, under the path of the
leaf, and `json_unflatten_dict` sets the values of such a dict at their paths, making a list where
the next segment is a number and a dict elsewhere. Memory for paths and values is taken to be
there.
-/

namespace Yunetas.Gobj

open Json

/-- The path of a child: its key alone under the empty path. -/
def childPath (currentPath key : List Char) : List Char :=
  if currentPath.isEmpty then key else currentPath ++ pathDelimiter :: key

mutual

/-- `flatten_recursive`: the leaves of a value are added under their paths. -/
def flattenRecursive (result : Fields) (currentPath : List Char) : Json → Fields
  | .object entries => flattenEntries result currentPath entries
  | .array items => flattenItems result currentPath 0 items
  | leaf =>
    if currentPath.isEmpty then result else result.set (String.ofList currentPath) leaf

/-- The loop over the keys of a dict. -/
def flattenEntries (result : Fields) (currentPath : List Char) : List (String × Json) → Fields
  | [] => result
  | (key, child) :: rest =>
    flattenEntries (flattenRecursive result (childPath currentPath key.toList) child) currentPath
      rest

/-- The loop over the items of a list. -/
def flattenItems (result : Fields) (currentPath : List Char) (index : Nat) : List Json → Fields
  | [] => result
  | child :: rest =>
    flattenItems
      (flattenRecursive result (childPath currentPath (Nat.toDigits 10 index)) child) currentPath
      (index + 1) rest

end

/-- `json_flatten_dict`. -/
def jsonFlattenDict (nested : Json) : Json := .object (flattenRecursive [] [] nested)

/-- `is_array_index`: digits only. -/
def isArrayIndex (token : List Char) : Bool := !token.isEmpty && token.all Char.isDigit

/-- `ensure_array_size`: the list is filled with nulls up to an index. -/
def ensureArraySize (items : List Json) (index : Nat) : List Json :=
  items ++ List.replicate (index + 1 - items.length) .null

/-- The container made for what the next token names. -/
def newContainer (next : List Char) : Json :=
  if isArrayIndex next then .array [] else .object []

/-- The child to go on with: a missing or null one becomes a new container. -/
def childOrNew (next : List Char) : Option Json → Json
  | none => newContainer next
  | some .null => newContainer next
  | some child => child

/-- `(size_t)atol(key)`. -/
def arrayIndex (key : List Char) : Nat := (atol key % 2 ^ 64).toNat

/-- The walk of `set_path_value` along its tokens, which changes the value in place; it stops at a
value that is no container. -/
def setTokens (value : Json) : List (List Char) → Json → Json
  | [], current => current
  | [final], .object fields => .object (Fields.set fields (String.ofList final) value)
  | [final], .array items =>
    .array ((ensureArraySize items (arrayIndex final)).set (arrayIndex final) value)
  | key :: next :: rest, .object fields =>
    let child := childOrNew next (Fields.get? fields (String.ofList key))
    .object (Fields.set fields (String.ofList key) (setTokens value (next :: rest) child))
  | key :: next :: rest, .array items =>
    let sized := ensureArraySize items (arrayIndex key)
    let child := childOrNew next sized[arrayIndex key]?
    .array (sized.set (arrayIndex key) (setTokens value (next :: rest) child))
  | _, current => current

/-- The tokens of a path; the first 256 only. -/
def pathTokens (path : List Char) : List (List Char) :=
  (tokens (· = pathDelimiter) path).take 256

/-- `set_path_value`. -/
def setPathValue (root : Json) (path : List Char) (value : Json) : Json :=
  setTokens value (pathTokens path) root

/-- The root that `json_unflatten_dict` starts from: by the first token of the first key. -/
def unflattenRoot : Fields → Json
  | [] => .object []
  | (firstKey, _) :: _ =>
    match tokens (· = pathDelimiter) firstKey.toList with
    | firstToken :: _ => newContainer firstToken
    | [] => .object []

/-- `json_unflatten_dict`. -/
def jsonUnflattenDict : Json → Json
  | .object flat =>
    flat.foldl (fun result entry => setPathValue result entry.1.toList entry.2)
      (unflattenRoot flat)
  | _ => .object []

/-- A test of the test suite. -/
example : jsonUnflattenDict (.object [("a`b", .integer 1), ("a`c`1", .integer 2)]) =
    .object [("a", .object [("b", .integer 1), ("c", .array [.null, .integer 2])])] := by
  rfl

end Yunetas.Gobj
