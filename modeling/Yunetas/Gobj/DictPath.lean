import Yunetas.Gobj.Match
import Yunetas.Lib.JsonTree

/-!
# Setting a value at a path

`kw_set_dict_value` walks dicts and lists along the segments of a path. At the first dict that
lacks its segment it stores the value there, under new dicts for the segments that are left; a
walk that ends anywhere else changes nothing, and 0 is returned all the same.
-/

namespace Yunetas.Gobj

open Json List Option

/-- `kw_find_path`. -/
def kwFindPathText (kw : Json) (path : List Char) : Option Json :=
  kwFindPathDepth 0 kw (segments path)

/-- The loop of `kw_set_dict_value`, which changes the value in place. -/
def setSegments (value : Json) : List (List Char) → Json → Json
  | [], v => v
  | segment :: rest, v =>
    match v with
    | .object fields =>
      match Fields.get? fields (String.ofList segment) with
      | some next =>
        .object (Fields.set fields (String.ofList segment) (setSegments value rest next))
      | none =>
        if rest.isEmpty then .object (Fields.set fields (String.ofList segment) value)
        else
          .object (Fields.set fields (String.ofList segment) (setSegments value rest (.object [])))
    | .array items =>
      match pathChild (.array items) segment with
      | some next => .array (items.set (atoi segment).toNat (setSegments value rest next))
      | none => .array items
    | leaf => leaf

/-- `kw_set_dict_value`: the value after the call and what is returned. -/
def kwSetDictPath (kw : Json) (path : List Char) (value : Json) : Json × Int :=
  match kw with
  | .object fields => (setSegments value (split2 path [pathDelimiter]) (.object fields), 0)
  | other => (other, -1)

/-- A dict. -/
def isDict : Json → Bool
  | .object _ => true
  | _ => false

/-- The walk ends at a dict that lacks its segment. -/
def opens : List (List Char) → Json → Bool
  | [], _ => false
  | segment :: rest, json =>
    match pathChild json segment with
    | some next => opens rest next
    | none => isDict json

/-- The value that is gone on with: a new dict where there is none. -/
def childOrDict (json : Json) (segment : List Char) : Json :=
  (pathChild json segment).getD (.object [])

/-- A value put in the place of a child. -/
def setChild (json : Json) (segment : List Char) (value : Json) : Json :=
  match json with
  | .object fields => .object (Fields.set fields (String.ofList segment) value)
  | .array items => .array (items.set (atoi segment).toNat value)
  | leaf => leaf

/-- What is put in the place of the first segment when the walk opens. -/
def openedChild (value : Json) (json : Json) (segment : List Char)
    (rest : List (List Char)) : Json :=
  if rest.isEmpty then value else setSegments value rest (childOrDict json segment)

section Children

@[simp] theorem pathChild_empty (segment : List Char) : pathChild (.object []) segment = none := rfl

theorem pathChild_set_object (fields : Fields) (segment other : List Char) (value : Json) :
    pathChild (setChild (.object fields) segment value) other =
      if other = segment then some value else pathChild (.object fields) other := by
  show Fields.get? (Fields.set fields (String.ofList segment) value) (String.ofList other) = _
  rw [Fields.get?_set]
  by_cases same : other = segment
  · rw [if_pos (congrArg String.ofList same), if_pos same]
  · rw [if_neg fun equal => same (String.ofList_injective equal), if_neg same]
    rfl

theorem pathChild_array {items : List Json} {segment : List Char} {next : Json}
    (found : pathChild (.array items) segment = some next) :
    0 ≤ atoi segment ∧ items[(atoi segment).toNat]? = some next := by
  unfold pathChild at found
  dsimp only at found
  split at found
  · cases found
  · exact ⟨by omega, found⟩

theorem pathChild_set_array {items : List Json} {segment other : List Char} {next : Json}
    (found : pathChild (.array items) segment = some next) (value : Json)
    (same : atoi other = atoi segment) :
    pathChild (setChild (.array items) segment value) other = some value := by
  have item := pathChild_array found
  have inside : (atoi segment).toNat < items.length := by
    by_contra out
    rw [getElem?_eq_none (by omega)] at item
    cases item.2
  show (if atoi other < 0 then none else (items.set (atoi segment).toNat value)[(atoi other).toNat]?)
    = some value
  rw [same, if_neg (by omega), getElem?_set_self inside]

section

variable {json : Json} {segment : List Char} {next : Json}
  (found : pathChild json segment = some next)
include found

theorem pathChild_setChild (value : Json) :
    pathChild (setChild json segment value) segment = some value := by
  cases json with
  | object fields => rw [pathChild_set_object, if_pos rfl]
  | array items => exact pathChild_set_array found value rfl
  | null => cases found
  | boolean value => cases found
  | integer value => cases found
  | real bits => cases found
  | string value => cases found

theorem setChild_same : setChild json segment next = json := by
  cases json with
  | object fields =>
    exact congrArg Json.object (Dict.setEntries_same (String.ofList segment) next fields found)
  | array items =>
    have item := pathChild_array found
    apply congrArg Json.array
    apply ext_getElem?
    intro index
    by_cases here : (atoi segment).toNat = index
    · rw [← here, item.2, getElem?_set_self]
      by_contra out
      rw [getElem?_eq_none (by omega)] at item
      cases item.2
    · rw [getElem?_set_ne here]
  | null => cases found
  | boolean value => cases found
  | integer value => cases found
  | real bits => cases found
  | string value => cases found

end

end Children

section Walk

attribute [local irreducible] atoi

variable (value : Json)

theorem setSegments_object (segment : List Char) (rest : List (List Char))
    (fields : Fields) : setSegments value (segment :: rest) (.object fields) =
      match Fields.get? fields (String.ofList segment) with
      | some next =>
        .object (Fields.set fields (String.ofList segment) (setSegments value rest next))
      | none =>
        if rest.isEmpty then .object (Fields.set fields (String.ofList segment) value)
        else .object (Fields.set fields (String.ofList segment)
          (setSegments value rest (.object []))) := rfl

theorem setSegments_array (segment : List Char) (rest : List (List Char))
    (items : List Json) : setSegments value (segment :: rest) (.array items) =
      match pathChild (.array items) segment with
      | some next => .array (items.set (atoi segment).toNat (setSegments value rest next))
      | none => .array items := rfl

variable {segment : List Char} {rest : List (List Char)} {json : Json}

theorem setSegments_found {json next : Json}
    (rest : List (List Char)) (found : pathChild json segment = some next) :
    setSegments value (segment :: rest) json =
      setChild json segment (setSegments value rest next) := by
  cases json with
  | object fields =>
    have read : Fields.get? fields (String.ofList segment) = some next := found
    rw [setSegments_object, read]
    rfl
  | array items =>
    rw [setSegments_array, found]
    rfl
  | null => cases found
  | boolean value => cases found
  | integer value => cases found
  | real bits => cases found
  | string value => cases found

theorem setSegments_missing {fields : Fields}
    (rest : List (List Char)) (missing : pathChild (.object fields) segment = none) :
    setSegments value (segment :: rest) (.object fields) = setChild (.object fields) segment
        (if rest.isEmpty then value else setSegments value rest (.object [])) := by
  have read : Fields.get? fields (String.ofList segment) = none := missing
  rw [setSegments_object, read]
  dsimp only
  split
  · rfl
  · rfl

section

variable (opened : opens (segment :: rest) json = true)
include opened

theorem opens_cons :
    (∃ next, pathChild json segment = some next ∧ opens rest next = true) ∨
      (pathChild json segment = none ∧ ∃ fields, json = .object fields) := by
  unfold opens at opened
  split at opened
  · rename_i next found
    exact .inl ⟨next, found, opened⟩
  · rename_i missing
    cases json with
    | object fields => exact .inr ⟨missing, fields, rfl⟩
    | array items => cases opened
    | null => cases opened
    | boolean value => cases opened
    | integer value => cases opened
    | real bits => cases opened
    | string value => cases opened

theorem setSegments_opens :
    setSegments value (segment :: rest) json =
      setChild json segment (openedChild value json segment rest) := by
  unfold openedChild childOrDict
  rcases opens_cons opened with ⟨next, found, later⟩ | ⟨missing, fields, rfl⟩
  · have more : rest.isEmpty = false := by
      cases rest with
      | nil => cases later
      | cons _ _ => rfl
    rw [setSegments_found value rest found, more, if_neg (by decide), found, getD_some]
  · rw [setSegments_missing value rest missing, missing, getD_none]

theorem pathChild_opens :
    pathChild (setSegments value (segment :: rest) json) segment =
      some (openedChild value json segment rest) := by
  rw [setSegments_opens value opened]
  rcases opens_cons opened with ⟨next, found, _⟩ | ⟨_, fields, rfl⟩
  · exact pathChild_setChild found _
  · rw [pathChild_set_object, if_pos rfl]

theorem opens_child (more : rest ≠ []) : opens rest (childOrDict json segment) = true := by
  unfold childOrDict
  rcases opens_cons opened with ⟨next, found, later⟩ | ⟨missing, _⟩
  · rw [found]
    exact later
  · rw [missing]
    cases rest with
    | nil => exact absurd rfl more
    | cons _ _ => rfl

end

theorem opens_last (opened : opens [segment] json = true) :
    pathChild json segment = none ∧ ∃ fields, json = .object fields := by
  rcases opens_cons opened with ⟨next, _, later⟩ | missing
  · cases later
  · exact missing

theorem setSegments_closed (path : List (List Char)) (json : Json)
    (closed : opens path json = false) : setSegments value path json = json := by
  induction path generalizing json with
  | nil => rfl
  | cons segment rest ih =>
    unfold opens at closed
    split at closed
    · rename_i next found
      rw [setSegments_found value rest found, ih next closed, setChild_same found]
    · rename_i missing
      cases json with
      | object fields => cases closed
      | array items =>
        rw [setSegments_array, missing]
      | null => rfl
      | boolean value => rfl
      | integer value => rfl
      | real bits => rfl
      | string value => rfl

theorem setSegments_changes (opened : opens (segment :: rest) json = true) :
    pathChild (setSegments value (segment :: rest) json) segment ≠ pathChild json segment := by
  induction rest generalizing segment json with
  | nil =>
    rw [pathChild_opens value opened, (opens_last opened).1]
    nofun
  | cons next rest ih =>
    have later := ih (opens_child opened (cons_ne_nil _ _))
    rw [pathChild_opens value opened]
    intro same
    apply later
    have child : childOrDict json segment = openedChild value json segment (next :: rest) := by
      unfold childOrDict
      rw [← same, getD_some]
    have put : openedChild value json segment (next :: rest) =
        setSegments value (next :: rest) (childOrDict json segment) := rfl
    rw [← put, ← child]

end Walk

end Yunetas.Gobj
