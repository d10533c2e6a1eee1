import Yunetas.Gobj.Leaves

/-!
# Flattening and back

`json_unflatten_dict` sets the leaves of a value one after the other in an empty object. Setting
never leaves a container empty, and an empty container has no leaf, so an object comes back exactly
when it holds no empty container.
-/

namespace Yunetas.Gobj

open List

open Json

/-- No empty container inside. -/
def filledInside (json : Json) : Bool := json.children.all (everywhere notEmptied)

section Kept

theorem filledInside_object (entries : List (String × Json)) :
    filledInside (.object entries) = true ↔
      ∀ entry ∈ entries, everywhere notEmptied entry.2 = true := by
  unfold filledInside children
  rw [all_eq_true, forall_mem_map]

theorem filledInside_array (items : List Json) :
    filledInside (.array items) = true ↔ ∀ item ∈ items, everywhere notEmptied item = true := by
  unfold filledInside children
  rw [all_eq_true]

theorem filledInside_of_filled {json : Json} (filled : everywhere notEmptied json = true) :
    filledInside json = true := by
  cases json with
  | array items => exact (filledInside_array items).2 ((everywhere_array _ _).1 filled).2
  | object entries => exact (filledInside_object entries).2 ((everywhere_object _ _).1 filled).2
  | null => rfl
  | boolean value => rfl
  | integer value => rfl
  | real bits => rfl
  | string value => rfl

theorem filled_set {fields : Fields} {key : String} {value : Json}
    (inside : ∀ entry ∈ fields, everywhere notEmptied entry.2 = true)
    (filled : everywhere notEmptied value = true) :
    everywhere notEmptied (.object (fields.set key value)) = true := by
  have some : Fields.set fields key value ≠ [] := by
    intro empty
    have read := Fields.get?_set_self fields key value
    rw [empty] at read
    cases read
  rw [everywhere_object]
  refine ⟨by simpa [notEmptied] using some, ?_⟩
  intro entry among
  rcases Dict.mem_setEntries among with new | old
  · rw [new]
    exact filled
  · exact inside entry old

theorem filled_ensured {items : List Json} {index : Nat} {value : Json}
    (inside : ∀ item ∈ items, everywhere notEmptied item = true)
    (filled : everywhere notEmptied value = true) :
    everywhere notEmptied (.array ((ensureArraySize items index).set index value)) = true := by
  have long : index < (ensureArraySize items index).length := by
    unfold ensureArraySize
    rw [length_append, length_replicate]
    omega
  have some : (ensureArraySize items index).set index value ≠ [] := by
    intro empty
    have length := congrArg List.length empty
    rw [length_set, length_nil] at length
    omega
  rw [everywhere_array]
  refine ⟨by simpa [notEmptied] using some, ?_⟩
  intro item among
  rcases mem_or_eq_of_mem_set among with old | new
  · rcases mem_append.1 old with old | null
    · exact inside item old
    · rw [eq_of_mem_replicate null]
      rfl
  · rw [new]
    exact filled

section

variable (next : List Char) {child : Option Json}
  (inside : ∀ json, child = some json → everywhere notEmptied json = true)
include next inside

theorem childOrNew_filledInside : filledInside (childOrNew next child) = true := by
  have new : filledInside (newContainer next) = true := by
    unfold newContainer
    split
    · rfl
    · rfl
  unfold childOrNew
  split
  · exact new
  · exact new
  · exact filledInside_of_filled (inside _ rfl)

theorem childOrNew_cases :
    (childOrNew next child).isContainer = true ∨ ((childOrNew next child).isContainer = false ∧
        everywhere notEmptied (childOrNew next child) = true) := by
  have new : (newContainer next).isContainer = true := by
    unfold newContainer
    split
    · rfl
    · rfl
  unfold childOrNew
  split
  · exact .inl new
  · exact .inl new
  · rename_i json _
    cases container : json.isContainer with
    | true => exact .inl rfl
    | false => exact .inr ⟨rfl, inside _ rfl⟩

end

theorem setTokens_leaf (value : Json) (path : List (List Char)) {current : Json}
    (leaf : current.isContainer = false) : setTokens value path current = current := by
  cases current with
  | array items => cases leaf
  | object entries => cases leaf
  | null => cases path with | nil => rfl | cons _ rest => cases rest <;> rfl
  | boolean value => cases path with | nil => rfl | cons _ rest => cases rest <;> rfl
  | integer value => cases path with | nil => rfl | cons _ rest => cases rest <;> rfl
  | real bits => cases path with | nil => rfl | cons _ rest => cases rest <;> rfl
  | string value => cases path with | nil => rfl | cons _ rest => cases rest <;> rfl

theorem setTokens_filled (value : Json) (simple : value.isContainer = false)
    (path : List (List Char)) (some : path ≠ []) {current : Json}
    (container : current.isContainer = true) (inside : filledInside current = true) :
    everywhere notEmptied (setTokens value path current) = true := by
  have filledValue : everywhere notEmptied value = true := by
    rw [everywhere_leaf _ simple]
    cases value with
    | array items => cases simple
    | object entries => cases simple
    | null => rfl
    | boolean value => rfl
    | integer value => rfl
    | real bits => rfl
    | string value => rfl
  induction path generalizing current with
  | nil => exact absurd rfl some
  | cons token rest ih =>
    cases rest with
    | nil =>
      cases current with
      | array items => exact filled_ensured ((filledInside_array items).1 inside) filledValue
      | object fields => exact filled_set ((filledInside_object fields).1 inside) filledValue
      | null => cases container
      | boolean value => cases container
      | integer value => cases container
      | real bits => cases container
      | string value => cases container
    | cons next rest =>
      have onward (child : Option Json)
          (inside : ∀ json, child = .some json → everywhere notEmptied json = true) :
          everywhere notEmptied (setTokens value (next :: rest) (childOrNew next child)) = true := by
        rcases childOrNew_cases next inside with container | ⟨leaf, filled⟩
        · exact ih (cons_ne_nil _ _) container (childOrNew_filledInside next inside)
        · rw [setTokens_leaf _ _ leaf]
          exact filled
      cases current with
      | array items =>
        have items := (filledInside_array items).1 inside
        apply filled_ensured items
        apply onward
        intro json found
        have among := mem_of_getElem? found
        rcases mem_append.1 among with old | null
        · exact items json old
        · rw [eq_of_mem_replicate null]
          rfl
      | object fields =>
        have values := (filledInside_object fields).1 inside
        apply filled_set values
        apply onward
        intro json found
        exact values _ (Dict.mem_of_lookupEntries found)
      | null => cases container
      | boolean value => cases container
      | integer value => cases container
      | real bits => cases container
      | string value => cases container

theorem build_filledInside (inside : List (List (List Char) × Json))
    (simple : ∀ leaf ∈ inside, leaf.2.isContainer = false) {root : Json}
    (container : root.isContainer = true) (filled : filledInside root = true) :
    filledInside (build root inside) = true := by
  induction inside generalizing root with
  | nil => exact filled
  | cons leaf rest ih =>
    have others : ∀ other ∈ rest, other.2.isContainer = false := fun other among =>
      simple other (mem_cons_of_mem _ among)
    have here := simple leaf mem_cons_self
    have next := setTokens_container leaf.2 leaf.1 container
    show filledInside (build (setTokens leaf.2 leaf.1 root) rest) = true
    by_cases path : leaf.1 = []
    · have same : setTokens leaf.2 leaf.1 root = root := by
        rw [path, setTokens]
      rw [same]
      exact ih others container filled
    · exact ih others next
        (filledInside_of_filled (setTokens_filled leaf.2 here leaf.1 path container filled))

end Kept

theorem unflatten_flatten_build (nested : Fields)
    (well : everywhere wellKeyed (.object nested) = true)
    (shallow : nesting (.object nested) < 256) :
    jsonUnflattenDict (jsonFlattenDict (.object nested)) =
      build (.object []) (leaves (.object nested)) := by
  have good := goodLeaf_of_mem well
  have read : ∀ leaf ∈ leaves (.object nested),
      tokens (fun char => decide (char = pathDelimiter)) (flatEntry [] leaf).1.toList = leaf.1 := by
    intro leaf among
    unfold flatEntry
    rw [String.toList_ofList, nil_append]
    exact tokens_pathText (good leaf among).valid
  have root : unflattenRoot ((leaves (.object nested)).map (flatEntry [])) = .object [] := by
    have heads := announced well rfl
    cases shape : leaves (.object nested) with
    | nil => rfl
    | cons leaf rest =>
      rw [shape] at read heads
      obtain ⟨next, head, kind⟩ := heads leaf mem_cons_self
      have path : tokens (fun char => decide (char = pathDelimiter))
          (flatEntry [] leaf).1.toList = next :: leaf.1.tail := by
        rw [read leaf mem_cons_self]
        exact eq_cons_of_mem_head? head
      show unflattenRoot (((flatEntry [] leaf).1, (flatEntry [] leaf).2) :: _) = _
      rw [unflattenRoot, path]
      exact kind
  have steps : ∀ (inside : List (List (List Char) × Json)) (result : Json),
      (∀ leaf ∈ inside, leaf ∈ leaves (.object nested)) →
      (inside.map (flatEntry [])).foldl
        (fun result entry => setPathValue result entry.1.toList entry.2) result =
        build result inside := by
    intro inside
    induction inside with
    | nil => exact fun _ _ => rfl
    | cons leaf rest ih =>
      intro result among
      have here := among leaf mem_cons_self
      have short := (good leaf here).short
      have path : pathTokens (flatEntry [] leaf).1.toList = leaf.1 := by
        unfold pathTokens
        rw [read leaf here, take_of_length_le (by omega)]
      have step : setPathValue result (flatEntry [] leaf).1.toList (flatEntry [] leaf).2 =
          setTokens leaf.2 leaf.1 result := by
        unfold setPathValue
        rw [path]
        rfl
      rw [map_cons, foldl_cons, step]
      exact ih _ fun other later => among other (mem_cons_of_mem _ later)
  rw [jsonFlattenDict_eq well rfl, jsonUnflattenDict, root]
  exact steps _ _ fun _ among => among

/-- `json_unflatten_dict` undoes `json_flatten_dict` exactly for the objects that hold no empty
container. -/
theorem unflatten_flatten_iff (nested : Fields)
    (well : everywhere wellKeyed (.object nested) = true)
    (shallow : nesting (.object nested) < 256) :
    jsonUnflattenDict (jsonFlattenDict (.object nested)) = .object nested ↔
      filledInside (.object nested) = true := by
  rw [unflatten_flatten_build nested well shallow]
  constructor
  · intro same
    rw [← same]
    exact build_filledInside _ (fun leaf among => (goodLeaf_of_mem well leaf among).simple) rfl rfl
  · intro filled
    rw [filledInside_object] at filled
    rw [everywhere_object, wellKeyed, Bool.and_eq_true, decide_eq_true_eq] at well
    exact build_entries nested [] well.1.1 well.2 filled fun entry among =>
      build_leaves (well.2 entry among) (filled entry among)

/-- An object with a list, a null and nested objects comes back. -/
theorem unflatten_flatten_record :
    jsonUnflattenDict (jsonFlattenDict (.object
      [("name", .string "meter"), ("cells", .array [.null, .object [("x", .integer 1)]])])) =
      .object [("name", .string "meter"), ("cells", .array [.null, .object [("x", .integer 1)]])] :=
  (unflatten_flatten_iff _ (by decide) (by decide)).2 (by decide)

/-- An empty dict, and a list that begins with an empty dict and ends in an empty list. -/
def emptyContainers : Fields :=
  [("options", .object []), ("cells", .array [.object [], .integer 1, .array []])]

/-- The dict does not come back, and the list comes back shorter with a null in front. -/
theorem empty_containers_lost :
    everywhere wellKeyed (.object emptyContainers) = true ∧
    nesting (.object emptyContainers) < 256 ∧
    jsonUnflattenDict (jsonFlattenDict (.object emptyContainers)) =
      .object [("cells", .array [.null, .integer 1])] ∧
    jsonUnflattenDict (jsonFlattenDict (.object emptyContainers)) ≠ .object emptyContainers := by
  have lost : jsonUnflattenDict (jsonFlattenDict (.object emptyContainers)) =
      .object [("cells", .array [.null, .integer 1])] := by rfl
  refine ⟨by decide, by decide, lost, ?_⟩
  rw [lost]
  intro same
  have lengths := congrArg (fun json => json.children.length) same
  exact absurd lengths (by decide)

end Yunetas.Gobj
