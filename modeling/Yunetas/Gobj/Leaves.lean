import Yunetas.Gobj.Flatten

/-!
# The leaves of a value

A value is the sum of its leaves, the values inside that hold no other, each with its path.
`json_flatten_dict` gives an entry for each of them, and setting them at their paths one after the
other rebuilds a value whose containers all have something inside to be rebuilt for.
-/

namespace Yunetas.Gobj

open List Option Bool Dict

open Json

/-- A key that the path of a leaf can hold: not empty, no delimiter, not digits only. -/
def wellKey (key : String) : Bool :=
  !key.toList.isEmpty && !key.toList.contains pathDelimiter && !isArrayIndex key.toList

/-- An object with distinct keys that can be told from indexes, or an array whose indexes are
machine numbers. -/
def wellKeyed : Json → Bool
  | .object entries =>
    decide (entries.map Prod.fst).Nodup && entries.all fun entry => wellKey entry.1
  | .array items => decide (items.length < 2 ^ 63)
  | _ => true

/-- No empty container. -/
def notEmptied : Json → Bool
  | .object entries => !entries.isEmpty
  | .array items => !items.isEmpty
  | _ => true

/-- A leaf of a child seen from its parent. -/
def under (token : List Char) (leaf : List (List Char) × Json) : List (List Char) × Json :=
  (token :: leaf.1, leaf.2)

mutual

/-- The leaves of a value with their paths, in order. -/
def leaves : Json → List (List (List Char) × Json)
  | .object entries => leavesEntries entries
  | .array items => leavesItems 0 items
  | leaf => [([], leaf)]

/-- The leaves under the keys of an object. -/
def leavesEntries : List (String × Json) → List (List (List Char) × Json)
  | [] => []
  | (key, child) :: rest => (leaves child).map (under key.toList) ++ leavesEntries rest

/-- The leaves under the indexes of an array. -/
def leavesItems (index : Nat) : List Json → List (List (List Char) × Json)
  | [] => []
  | child :: rest =>
    (leaves child).map (under (Nat.toDigits 10 index)) ++ leavesItems (index + 1) rest

end

/-- The path of tokens. -/
def pathText (path : List (List Char)) : List Char := path.foldl childPath []

/-- Values set at their tokens one after the other. -/
def build (root : Json) (leaves : List (List (List Char) × Json)) : Json :=
  leaves.foldl (fun result leaf => setTokens leaf.2 leaf.1 result) root

/-- The empty container of the kind of a value. -/
def emptied : Json → Json
  | .array _ => .array []
  | _ => .object []

theorem leaves_leaf {json : Json} (leaf : json.isContainer = false) : leaves json = [([], json)] := by
  cases json with
  | array items => cases leaf
  | object entries => cases leaf
  | null => rfl
  | boolean value => rfl
  | integer value => rfl
  | real bits => rfl
  | string value => rfl

section Paths

/-- A token that a path can hold. -/
abbrev PathToken (token : List Char) : Prop := IsToken (fun char => decide (char = pathDelimiter)) token

theorem pathText_concat (path : List (List Char)) (token : List Char) :
    pathText (path ++ [token]) = childPath (pathText path) token := foldl_concat ..

theorem pathText_cons {first : List Char} (rest : List (List Char)) (nonempty : first ≠ []) :
    pathText (first :: rest) =
      first ++ joined (rest.map fun token => (pathDelimiter, token)) := by
  have walk : ∀ (rest : List (List Char)) (sofar : List Char), sofar ≠ [] →
      rest.foldl childPath sofar =
        sofar ++ joined (rest.map fun token => (pathDelimiter, token)) := by
    intro rest
    induction rest with
    | nil => exact fun sofar _ => (append_nil sofar).symm
    | cons token rest ih =>
      intro sofar some
      have child : childPath sofar token = sofar ++ pathDelimiter :: token := by
        unfold childPath
        rw [if_neg (by simpa using some)]
      rw [foldl_cons, child, ih _ (by simp), map_cons, joined, append_assoc]
  have start : childPath [] first = first := rfl
  unfold pathText
  rw [foldl_cons, start, walk rest first nonempty]

section

variable {path : List (List Char)} (valid : ∀ token ∈ path, PathToken token)
include valid

theorem tokens_pathText :
    tokens (fun char => decide (char = pathDelimiter)) (pathText path) = path := by
  cases path with
  | nil => rfl
  | cons first rest =>
    have here := valid first mem_cons_self
    rw [pathText_cons rest here.nonempty, tokens_joined here]
    · rw [List.map_map]
      exact congrArg (first :: ·) (map_id rest)
    · intro entry among
      have found := mem_map.1 among
      rw [← found.choose_spec.2]
      exact ⟨decide_eq_true rfl, valid _ (mem_cons_of_mem _ found.choose_spec.1)⟩

theorem pathText_nonempty (some : path ≠ []) : pathText path ≠ [] := by
  intro empty
  have read := tokens_pathText valid
  rw [empty, tokens_nil] at read
  exact some read.symm

end

theorem pathText_injective {left right : List (List Char)}
    (validLeft : ∀ token ∈ left, PathToken token) (validRight : ∀ token ∈ right, PathToken token)
    (same : pathText left = pathText right) : left = right := by
  rw [← tokens_pathText validLeft, same, tokens_pathText validRight]

theorem wellKey_token {key : String} (well : wellKey key = true) :
    PathToken key.toList ∧ isArrayIndex key.toList = false := by
  unfold wellKey at well
  simp only [and_eq_true, not_eq_true', isEmpty_eq_false_iff] at well
  refine ⟨⟨well.1.1, fun char inside => ?_⟩, well.2⟩
  rw [decide_eq_false_iff_not]
  intro same
  have contained : key.toList.contains pathDelimiter = true := by
    rw [contains_iff_mem, ← same]
    exact inside
  rw [contained] at well
  exact Bool.noConfusion well.1.2

theorem index_token (index : Nat) :
    PathToken (Nat.toDigits 10 index) ∧ isArrayIndex (Nat.toDigits 10 index) = true := by
  have digits : ∀ char ∈ Nat.toDigits 10 index, char.isDigit = true := fun char among =>
    Nat.isDigit_of_mem_toDigits (by decide) (by decide) among
  refine ⟨⟨Nat.toDigits_ne_nil, fun char inside => ?_⟩, ?_⟩
  · rw [decide_eq_false_iff_not]
    intro same
    exact absurd (same ▸ digits char inside) (by decide)
  · unfold isArrayIndex
    rw [and_eq_true, List.all_eq_true]
    exact ⟨by simp [Nat.toDigits_ne_nil], digits⟩

theorem arrayIndex_toDigits {index : Nat} (small : index < 2 ^ 63) :
    arrayIndex (Nat.toDigits 10 index) = index := by
  unfold arrayIndex
  rw [atol_toDigits small]
  omega

theorem toDigits_injective {left right : Nat}
    (same : Nat.toDigits 10 left = Nat.toDigits 10 right) : left = right := by
  rw [← Nat.ofDigitChars_ten_toDigits (n := left), same, Nat.ofDigitChars_ten_toDigits]

end Paths

section Leaves

theorem mem_leavesEntries {leaf : List (List Char) × Json} {entries : List (String × Json)} :
    leaf ∈ leavesEntries entries ↔
      ∃ entry ∈ entries, ∃ inner ∈ leaves entry.2, under entry.1.toList inner = leaf := by
  induction entries with
  | nil => simp [leavesEntries]
  | cons entry rest ih => simp [leavesEntries, ih]

theorem mem_leavesItems {leaf : List (List Char) × Json} {items : List Json} {index : Nat} :
    leaf ∈ leavesItems index items ↔ ∃ i : Nat, ∃ item, items[i]? = some item ∧
      ∃ inner ∈ leaves item, under (Nat.toDigits 10 (index + i)) inner = leaf := by
  induction items generalizing index with
  | nil => simp [leavesItems]
  | cons item rest ih =>
    rw [leavesItems, mem_append, List.mem_map, ih]
    constructor
    · rintro (here | ⟨i, other, found, inside⟩)
      · exact ⟨0, item, rfl, here⟩
      · have shift : index + (i + 1) = index + 1 + i := by omega
        refine ⟨i + 1, other, found, ?_⟩
        rw [shift]
        exact inside
    · rintro ⟨i, other, found, inside⟩
      cases i with
      | zero =>
        rw [getElem?_cons_zero] at found
        rw [← some.inj found] at inside
        exact .inl inside
      | succ i =>
        have shift : index + (i + 1) = index + 1 + i := by omega
        rw [shift] at inside
        exact .inr ⟨i, other, found, inside⟩

/-- What a leaf of a value with well keys looks like. -/
structure GoodLeaf (json : Json) (leaf : List (List Char) × Json) : Prop where
  valid : ∀ token ∈ leaf.1, PathToken token
  short : leaf.1.length ≤ nesting json
  simple : leaf.2.isContainer = false

theorem goodLeaf_of_mem {json : Json} (well : everywhere wellKeyed json = true) :
    ∀ leaf ∈ leaves json, GoodLeaf json leaf := by
  induction json using treeInduction with
  | leaf json simple =>
    intro leaf among
    rw [leaves_leaf simple, mem_singleton] at among
    rw [among]
    exact ⟨nofun, Nat.zero_le _, simple⟩
  | array items ih =>
    intro leaf among
    rw [everywhere_array] at well
    rw [leaves, mem_leavesItems] at among
    obtain ⟨i, item, found, inner, inside, rfl⟩ := among
    have among := mem_of_getElem? found
    have good := ih item among (well.2 item among) inner inside
    have nested := nesting_item among
    have shorter := good.short
    refine ⟨?_, ?_, good.simple⟩
    · intro token within
      rcases mem_cons.1 within with rfl | within
      · exact (index_token _).1
      · exact good.valid token within
    · change inner.1.length + 1 ≤ _
      omega
  | object entries ih =>
    intro leaf among
    rw [everywhere_object] at well
    rw [leaves, mem_leavesEntries] at among
    obtain ⟨entry, among, inner, inside, rfl⟩ := among
    have good := ih entry among (well.2 entry among) inner inside
    have nested := nesting_entry among
    have shorter := good.short
    have keys := well.1
    rw [wellKeyed, and_eq_true, List.all_eq_true] at keys
    refine ⟨?_, ?_, good.simple⟩
    · intro token within
      rcases mem_cons.1 within with rfl | within
      · exact (wellKey_token (keys.2 entry among)).1
      · exact good.valid token within
    · change inner.1.length + 1 ≤ _
      omega

theorem nodup_map_under {token : List Char} {inside : List (List (List Char) × Json)}
    (distinct : (inside.map Prod.fst).Nodup) :
    ((inside.map (under token)).map Prod.fst).Nodup := by
  have paths : (inside.map (under token)).map Prod.fst =
      (inside.map Prod.fst).map (token :: ·) := by
    rw [List.map_map, List.map_map]
    rfl
  rw [paths]
  exact distinct.map fun left right same => (cons.inj same).2

theorem leaves_nodup {json : Json} (well : everywhere wellKeyed json = true) :
    ((leaves json).map Prod.fst).Nodup := by
  induction json using treeInduction with
  | leaf json simple =>
    rw [leaves_leaf simple]
    exact nodup_singleton _
  | array items ih =>
    rw [everywhere_array] at well
    have each : ∀ item ∈ items, ((leaves item).map Prod.fst).Nodup := fun item among =>
      ih item among (well.2 item among)
    have walk : ∀ (items : List Json) (index : Nat),
        (∀ item ∈ items, ((leaves item).map Prod.fst).Nodup) →
        ((leavesItems index items).map Prod.fst).Nodup := by
      intro items
      induction items with
      | nil => exact fun _ _ => nodup_nil
      | cons item rest more =>
        intro index each
        rw [leavesItems, map_append, nodup_append]
        refine ⟨nodup_map_under (each item mem_cons_self),
          more _ fun other among => each other (mem_cons_of_mem _ among), ?_⟩
        intro path first other second same
        obtain ⟨leaf, inside, rfl⟩ := mem_map.1 first
        obtain ⟨leaf', inside', rfl⟩ := mem_map.1 second
        obtain ⟨inner, _, rfl⟩ := mem_map.1 inside
        obtain ⟨i, _, _, inner', _, rfl⟩ := mem_leavesItems.1 inside'
        have index := toDigits_injective (cons.inj same).1
        omega
    exact walk items 0 each
  | object entries ih =>
    rw [everywhere_object] at well
    have keys := well.1
    rw [wellKeyed, and_eq_true, decide_eq_true_eq] at keys
    have walk : ∀ entries : List (String × Json), (entries.map Prod.fst).Nodup →
        (∀ entry ∈ entries, ((leaves entry.2).map Prod.fst).Nodup) →
        ((leavesEntries entries).map Prod.fst).Nodup := by
      intro entries
      induction entries with
      | nil => exact fun _ _ => nodup_nil
      | cons entry rest more =>
        intro distinct each
        rw [map_cons, nodup_cons] at distinct
        rw [leavesEntries, map_append, nodup_append]
        refine ⟨nodup_map_under (each entry mem_cons_self),
          more distinct.2 fun other among => each other (mem_cons_of_mem _ among), ?_⟩
        intro path first other second same
        obtain ⟨leaf, inside, rfl⟩ := mem_map.1 first
        obtain ⟨leaf', inside', rfl⟩ := mem_map.1 second
        obtain ⟨inner, _, rfl⟩ := mem_map.1 inside
        obtain ⟨entry', among, inner', _, rfl⟩ := mem_leavesEntries.1 inside'
        have key : entry.1 = entry'.1 := String.toList_injective (cons.inj same).1
        exact distinct.1 (key ▸ mem_map_of_mem among)
    exact walk entries keys.1 fun entry among => ih entry among (well.2 entry among)

end Leaves

section Flattening

theorem foldl_set_new (added : List (String × Json)) (fields : Fields)
    (distinct : ((fields ++ added).map Prod.fst).Nodup) :
    added.foldl (fun result entry => Fields.set result entry.1 entry.2) fields =
      fields ++ added := by
  induction added generalizing fields with
  | nil => rw [foldl_nil, append_nil]
  | cons entry rest ih =>
    have absent : Dict.lookupEntries entry.1 fields = none := by
      by_contra present
      have key := (lookupEntries_isSome entry.1 fields).1 (isSome_iff_ne_none.2 present)
      rw [map_append, nodup_append] at distinct
      exact distinct.2.2 entry.1 key entry.1 mem_cons_self rfl
    have here : Fields.set fields entry.1 entry.2 = fields ++ [entry] :=
      Dict.setEntries_new entry.2 absent
    rw [foldl_cons, here, ih, append_assoc]
    · rfl
    · rw [append_assoc]
      exact distinct

/-- An entry of the flat dict for a leaf. -/
def flatEntry (above : List (List Char)) (leaf : List (List Char) × Json) : String × Json :=
  (String.ofList (pathText (above ++ leaf.1)), leaf.2)

theorem map_flatEntry_under (path : List (List Char)) (token : List Char)
    (inside : List (List (List Char) × Json)) :
    (inside.map (under token)).map (flatEntry path) = inside.map (flatEntry (path ++ [token])) := by
  rw [List.map_map]
  apply map_congr_left
  intro leaf _
  have shift : path ++ token :: leaf.1 = path ++ [token] ++ leaf.1 := by
    rw [append_assoc, singleton_append]
  show (String.ofList (pathText (path ++ token :: leaf.1)), leaf.2) = _
  rw [shift]
  rfl

theorem flattenRecursive_eq {json : Json} (well : everywhere wellKeyed json = true)
    (result : Fields) (path : List (List Char)) (valid : ∀ token ∈ path, PathToken token)
    (placed : path ≠ [] ∨ json.isContainer = true) :
    flattenRecursive result (pathText path) json = ((leaves json).map (flatEntry path)).foldl
        (fun result entry => Fields.set result entry.1 entry.2) result := by
  induction json using treeInduction generalizing result path with
  | leaf json simple =>
    have some : path ≠ [] := placed.resolve_right (by simp [simple])
    have text : (pathText path).isEmpty = false := by
      simpa using pathText_nonempty valid some
    have step : flattenRecursive result (pathText path) json =
        result.set (String.ofList (pathText path)) json := by
      cases json with
      | array items => cases simple
      | object entries => cases simple
      | null => rw [flattenRecursive, text, if_neg (by decide)] <;> nofun
      | boolean value => rw [flattenRecursive, text, if_neg (by decide)] <;> nofun
      | integer value => rw [flattenRecursive, text, if_neg (by decide)] <;> nofun
      | real bits => rw [flattenRecursive, text, if_neg (by decide)] <;> nofun
      | string value => rw [flattenRecursive, text, if_neg (by decide)] <;> nofun
    have entry : flatEntry path ([], json) = (String.ofList (pathText path), json) := by
      unfold flatEntry
      rw [append_nil]
    rw [step, leaves_leaf simple, map_cons, map_nil, foldl_cons, foldl_nil,
      entry]
  | array items ih =>
    rw [everywhere_array] at well
    have walk : ∀ (items : List Json) (index : Nat) (result : Fields),
        (∀ item ∈ items, ∀ (result : Fields) (path : List (List Char)),
          (∀ token ∈ path, PathToken token) → path ≠ [] →
          flattenRecursive result (pathText path) item = ((leaves item).map (flatEntry path)).foldl
              (fun result entry => Fields.set result entry.1 entry.2) result) →
        flattenItems result (pathText path) index items =
          ((leavesItems index items).map (flatEntry path)).foldl
            (fun result entry => Fields.set result entry.1 entry.2) result := by
      intro items
      induction items with
      | nil => exact fun _ _ _ => rfl
      | cons item rest more =>
        intro index result each
        have token := (index_token index).1
        have longer : ∀ other ∈ path ++ [Nat.toDigits 10 index], PathToken other := by
          intro other among
          rcases mem_append.1 among with before | last
          · exact valid other before
          · rw [mem_singleton.1 last]
            exact token
        rw [flattenItems, leavesItems, map_append, foldl_append, map_flatEntry_under,
          ← pathText_concat, each item mem_cons_self result _ longer (by simp)]
        exact more _ _ fun other among => each other (mem_cons_of_mem _ among)
    exact walk items 0 result fun item among result path valid some =>
      ih item among (well.2 item among) result path valid (.inl some)
  | object entries ih =>
    rw [everywhere_object] at well
    have keys := well.1
    rw [wellKeyed, and_eq_true, List.all_eq_true] at keys
    have walk : ∀ (entries : List (String × Json)) (result : Fields),
        (∀ entry ∈ entries, wellKey entry.1 = true) →
        (∀ entry ∈ entries, ∀ (result : Fields) (path : List (List Char)),
          (∀ token ∈ path, PathToken token) → path ≠ [] →
          flattenRecursive result (pathText path) entry.2 =
            ((leaves entry.2).map (flatEntry path)).foldl
              (fun result entry => Fields.set result entry.1 entry.2) result) →
        flattenEntries result (pathText path) entries =
          ((leavesEntries entries).map (flatEntry path)).foldl
            (fun result entry => Fields.set result entry.1 entry.2) result := by
      intro entries
      induction entries with
      | nil => exact fun _ _ _ => rfl
      | cons entry rest more =>
        intro result keys each
        have token := (wellKey_token (keys entry mem_cons_self)).1
        have longer : ∀ other ∈ path ++ [entry.1.toList], PathToken other := by
          intro other among
          rcases mem_append.1 among with before | last
          · exact valid other before
          · rw [mem_singleton.1 last]
            exact token
        rw [flattenEntries, leavesEntries, map_append, foldl_append,
          map_flatEntry_under, ← pathText_concat,
          each entry mem_cons_self result _ longer (by simp)]
        exact more _ (fun other among => keys other (mem_cons_of_mem _ among))
          fun other among => each other (mem_cons_of_mem _ among)
    exact walk entries result keys.2 fun entry among result path valid some =>
      ih entry among (well.2 entry among) result path valid (.inl some)

theorem jsonFlattenDict_eq {nested : Json} (well : everywhere wellKeyed nested = true)
    (container : nested.isContainer = true) :
    jsonFlattenDict nested = .object ((leaves nested).map (flatEntry [])) := by
  have set := flattenRecursive_eq well [] [] nofun (.inr container)
  have distinct : (((leaves nested).map (flatEntry [])).map Prod.fst).Nodup := by
    have keys : ((leaves nested).map (flatEntry [])).map Prod.fst =
        ((leaves nested).map Prod.fst).map fun path => String.ofList (pathText path) := by
      rw [List.map_map, List.map_map]
      rfl
    rw [keys]
    apply List.Nodup.map_on _ (leaves_nodup well)
    intro left among right among' same
    obtain ⟨leaf, inside, rfl⟩ := mem_map.1 among
    obtain ⟨leaf', inside', rfl⟩ := mem_map.1 among'
    exact pathText_injective (goodLeaf_of_mem well leaf inside).valid
      (goodLeaf_of_mem well leaf' inside').valid (String.ofList_injective same)
  have start : pathText [] = [] := rfl
  unfold jsonFlattenDict
  rw [start] at set
  rw [set, foldl_set_new _ [] (by rwa [nil_append]), nil_append]

end Flattening

section Rebuilding

theorem setTokens_container (value : Json) (path : List (List Char)) {current : Json}
    (container : current.isContainer = true) :
    (setTokens value path current).isContainer = true := by
  cases current with
  | array items =>
    match path with
    | [] => rfl
    | [_] => rfl
    | _ :: _ :: _ => rfl
  | object entries =>
    match path with
    | [] => rfl
    | [_] => rfl
    | _ :: _ :: _ => rfl
  | null => cases container
  | boolean value => cases container
  | integer value => cases container
  | real bits => cases container
  | string value => cases container

variable {child : Json}

theorem childOrNew_container (next : List Char)
    (container : child.isContainer = true) : childOrNew next (some child) = child := by
  cases child with
  | null => cases container
  | boolean value => rfl
  | integer value => rfl
  | real bits => rfl
  | string value => rfl
  | array items => rfl
  | object entries => rfl

theorem setTokens_key (value : Json) (key : String) {path : List (List Char)} {next : List Char}
    (head : path.head? = some next) (fields : Fields) :
    setTokens value (key.toList :: path) (.object fields) =
      .object (fields.set key (setTokens value path (childOrNew next (fields.get? key)))) := by
  cases path with
  | nil => cases head
  | cons first rest =>
    rw [head?_cons] at head
    rw [← some.inj head, setTokens, String.ofList_toList]

theorem setTokens_index (value : Json) (token : List Char) {path : List (List Char)}
    {next : List Char} (head : path.head? = some next) (items : List Json) :
    setTokens value (token :: path) (.array items) =
      .array ((ensureArraySize items (arrayIndex token)).set (arrayIndex token)
        (setTokens value path
          (childOrNew next (ensureArraySize items (arrayIndex token))[arrayIndex token]?))) := by
  cases path with
  | nil => cases head
  | cons first rest =>
    rw [head?_cons] at head
    rw [← some.inj head, setTokens]

theorem ensureArraySize_next (items : List Json) :
    ensureArraySize items items.length = items ++ [.null] := by
  have one : items.length + 1 - items.length = 1 := by omega
  unfold ensureArraySize
  rw [one]
  rfl

theorem ensureArraySize_inside {items : List Json} {index : Nat} (inside : index < items.length) :
    ensureArraySize items index = items := by
  have zero : index + 1 - items.length = 0 := by omega
  unfold ensureArraySize
  rw [zero]
  exact append_nil items

theorem build_under_key (key : String) (inside : List (List (List Char) × Json))
    (deep : ∀ leaf ∈ inside, leaf.1 ≠ []) (fields : Fields)
    (container : child.isContainer = true) :
    build (.object (fields.set key child)) (inside.map (under key.toList)) =
      .object (fields.set key (build child inside)) := by
  induction inside generalizing child with
  | nil => rfl
  | cons leaf rest ih =>
    have first := head?_eq_some_head (deep leaf mem_cons_self)
    have later : ∀ other ∈ rest, other.1 ≠ [] := fun other among =>
      deep other (mem_cons_of_mem _ among)
    have step : setTokens leaf.2 (key.toList :: leaf.1) (.object (fields.set key child)) =
        .object (fields.set key (setTokens leaf.2 leaf.1 child)) := by
      rw [setTokens_key _ _ first, Fields.get?_set_self, childOrNew_container _ container]
      exact congrArg Json.object (setEntries_twice key child _ fields)
    have rebuilt := ih later (setTokens_container leaf.2 leaf.1 container)
    show build (setTokens leaf.2 (key.toList :: leaf.1) (.object (fields.set key child)))
      (rest.map (under key.toList)) = _
    rw [step, rebuilt]
    rfl

theorem build_under_index (items : List Json) (small : items.length < 2 ^ 63)
    (inside : List (List (List Char) × Json)) (deep : ∀ leaf ∈ inside, leaf.1 ≠ [])
    (container : child.isContainer = true) :
    build (.array (items ++ [child])) (inside.map (under (Nat.toDigits 10 items.length))) =
      .array (items ++ [build child inside]) := by
  induction inside generalizing child with
  | nil => rfl
  | cons leaf rest ih =>
    have first := head?_eq_some_head (deep leaf mem_cons_self)
    have later : ∀ other ∈ rest, other.1 ≠ [] := fun other among =>
      deep other (mem_cons_of_mem _ among)
    have step : setTokens leaf.2 (Nat.toDigits 10 items.length :: leaf.1)
        (.array (items ++ [child])) = .array (items ++ [setTokens leaf.2 leaf.1 child]) := by
      rw [setTokens_index _ _ first, arrayIndex_toDigits small,
        ensureArraySize_inside (by simp), getElem?_append_right (Nat.le_refl _),
        Nat.sub_self, getElem?_cons_zero, childOrNew_container _ container,
        set_append_right _ _ (Nat.le_refl _), Nat.sub_self, set_cons_zero]
    have rebuilt := ih later (setTokens_container leaf.2 leaf.1 container)
    show build (setTokens leaf.2 (Nat.toDigits 10 items.length :: leaf.1)
      (.array (items ++ [child]))) (rest.map (under (Nat.toDigits 10 items.length))) = _
    rw [step, rebuilt]
    rfl

theorem leaves_nonempty {json : Json} (filled : everywhere notEmptied json = true) :
    leaves json ≠ [] := by
  induction json using treeInduction with
  | leaf json simple =>
    rw [leaves_leaf simple]
    exact cons_ne_nil _ _
  | array items ih =>
    rw [everywhere_array] at filled
    cases items with
    | nil => cases filled.1
    | cons item rest =>
      have here := ih item mem_cons_self (filled.2 item mem_cons_self)
      rw [leaves, leavesItems]
      simp [here]
  | object entries ih =>
    rw [everywhere_object] at filled
    cases entries with
    | nil => cases filled.1
    | cons entry rest =>
      have here := ih entry mem_cons_self (filled.2 entry mem_cons_self)
      rw [leaves, leavesEntries]
      simp [here]

theorem announced {json : Json} (well : everywhere wellKeyed json = true)
    (container : json.isContainer = true) :
    ∀ leaf ∈ leaves json, ∃ next, leaf.1.head? = some next ∧ newContainer next = emptied json := by
  cases json with
  | array items =>
    intro leaf among
    rw [leaves, mem_leavesItems] at among
    obtain ⟨i, item, _, inner, _, rfl⟩ := among
    refine ⟨_, rfl, ?_⟩
    unfold newContainer
    rw [(index_token _).2, if_pos rfl]
    rfl
  | object entries =>
    intro leaf among
    rw [everywhere_object, wellKeyed, and_eq_true, List.all_eq_true] at well
    rw [leaves, mem_leavesEntries] at among
    obtain ⟨entry, among, inner, _, rfl⟩ := among
    refine ⟨_, rfl, ?_⟩
    unfold newContainer
    rw [(wellKey_token (well.1.2 entry among)).2, if_neg (by decide)]
    rfl
  | null => cases container
  | boolean value => cases container
  | integer value => cases container
  | real bits => cases container
  | string value => cases container

/-- The leaves of a value rebuild it from the empty container of its kind. -/
def Rebuilt (json : Json) : Prop :=
  json.isContainer = true → build (emptied json) (leaves json) = json

theorem build_new_key (done : Fields) (key : String)
    (well : everywhere wellKeyed child = true) (filled : everywhere notEmptied child = true)
    (rebuilt : Rebuilt child) (absent : key ∉ done.map Prod.fst) :
    build (.object done) ((leaves child).map (under key.toList)) =
      .object (done ++ [(key, child)]) := by
  have unset : Fields.get? done key = none := by
    by_contra present
    exact absent ((lookupEntries_isSome key done).1 (isSome_iff_ne_none.2 present))
  have added (value : Json) : Fields.set done key value = done ++ [(key, value)] :=
    setEntries_new value unset
  cases simple : child.isContainer with
  | false =>
    rw [leaves_leaf simple, ← added child]
    show Json.object (Fields.set done (String.ofList key.toList) child) = _
    rw [String.ofList_toList]
  | true =>
    have whole := rebuilt simple
    have heads := announced well simple
    cases shape : leaves child with
    | nil => exact absurd shape (leaves_nonempty filled)
    | cons leaf rest =>
      rw [shape] at whole heads
      have ⟨next, head, kind⟩ := heads leaf mem_cons_self
      have container : (emptied child).isContainer = true := by
        unfold emptied
        split
        · rfl
        · rfl
      have later : ∀ other ∈ rest, other.1 ≠ [] := by
        intro other among empty
        have ⟨token, first, _⟩ := heads other (mem_cons_of_mem _ among)
        rw [empty] at first
        cases first
      have step : setTokens leaf.2 (key.toList :: leaf.1) (.object done) =
          .object (Fields.set done key (setTokens leaf.2 leaf.1 (emptied child))) := by
        rw [setTokens_key _ _ head, unset, ← kind]
        rfl
      show build (setTokens leaf.2 (key.toList :: leaf.1) (.object done))
        (rest.map (under key.toList)) = _
      rw [step, build_under_key key rest later done (setTokens_container _ _ container), ← added]
      exact congrArg (fun value => Json.object (Fields.set done key value)) whole

theorem build_new_index (done : List Json) (small : done.length < 2 ^ 63)
    (well : everywhere wellKeyed child = true) (filled : everywhere notEmptied child = true)
    (rebuilt : Rebuilt child) :
    build (.array done) ((leaves child).map (under (Nat.toDigits 10 done.length))) =
      .array (done ++ [child]) := by
  have last (value : Json) : (done ++ [Json.null]).set done.length value = done ++ [value] := by
    rw [set_append_right _ _ (Nat.le_refl _), Nat.sub_self, set_cons_zero]
  cases simple : child.isContainer with
  | false =>
    rw [leaves_leaf simple]
    show Json.array ((ensureArraySize done (arrayIndex (Nat.toDigits 10 done.length))).set
      (arrayIndex (Nat.toDigits 10 done.length)) child) = _
    rw [arrayIndex_toDigits small, ensureArraySize_next, last]
  | true =>
    have whole := rebuilt simple
    have heads := announced well simple
    cases shape : leaves child with
    | nil => exact absurd shape (leaves_nonempty filled)
    | cons leaf rest =>
      rw [shape] at whole heads
      have ⟨next, head, kind⟩ := heads leaf mem_cons_self
      have container : (emptied child).isContainer = true := by
        unfold emptied
        split
        · rfl
        · rfl
      have later : ∀ other ∈ rest, other.1 ≠ [] := by
        intro other among empty
        have ⟨token, first, _⟩ := heads other (mem_cons_of_mem _ among)
        rw [empty] at first
        cases first
      have step : setTokens leaf.2 (Nat.toDigits 10 done.length :: leaf.1) (.array done) =
          .array (done ++ [setTokens leaf.2 leaf.1 (emptied child)]) := by
        rw [setTokens_index _ _ head, arrayIndex_toDigits small, ensureArraySize_next,
          getElem?_append_right (Nat.le_refl _), Nat.sub_self, getElem?_cons_zero, last,
          ← kind]
        rfl
      show build (setTokens leaf.2 (Nat.toDigits 10 done.length :: leaf.1) (.array done))
        (rest.map (under (Nat.toDigits 10 done.length))) = _
      rw [step, build_under_index done small rest later (setTokens_container _ _ container)]
      exact congrArg (fun value => Json.array (done ++ [value])) whole

theorem build_entries (entries : List (String × Json)) (done : Fields)
    (distinct : ((done ++ entries).map Prod.fst).Nodup)
    (well : ∀ entry ∈ entries, everywhere wellKeyed entry.2 = true)
    (filled : ∀ entry ∈ entries, everywhere notEmptied entry.2 = true)
    (rebuilt : ∀ entry ∈ entries, Rebuilt entry.2) :
    build (.object done) (leavesEntries entries) = .object (done ++ entries) := by
  induction entries generalizing done with
  | nil => rw [append_nil]; rfl
  | cons entry rest ih =>
    have absent : entry.1 ∉ done.map Prod.fst := by
      intro present
      rw [map_append, nodup_append] at distinct
      exact distinct.2.2 entry.1 present entry.1 mem_cons_self rfl
    have here := build_new_key done entry.1 (well entry mem_cons_self)
      (filled entry mem_cons_self) (rebuilt entry mem_cons_self) absent
    have parts : build (.object done) (leavesEntries (entry :: rest)) =
        build (build (.object done) ((leaves entry.2).map (under entry.1.toList)))
          (leavesEntries rest) := foldl_append ..
    have order : done ++ entry :: rest = done ++ [entry] ++ rest := by
      rw [append_assoc, singleton_append]
    rw [parts, here, order]
    apply ih
    · rw [← order]
      exact distinct
    · exact fun other among => well other (mem_cons_of_mem _ among)
    · exact fun other among => filled other (mem_cons_of_mem _ among)
    · exact fun other among => rebuilt other (mem_cons_of_mem _ among)

theorem build_items (items done : List Json) (small : done.length + items.length < 2 ^ 63)
    (well : ∀ item ∈ items, everywhere wellKeyed item = true)
    (filled : ∀ item ∈ items, everywhere notEmptied item = true)
    (rebuilt : ∀ item ∈ items, Rebuilt item) :
    build (.array done) (leavesItems done.length items) = .array (done ++ items) := by
  induction items generalizing done with
  | nil => rw [append_nil]; rfl
  | cons item rest ih =>
    rw [length_cons] at small
    have here := build_new_index done (by omega) (well item mem_cons_self)
      (filled item mem_cons_self) (rebuilt item mem_cons_self)
    have parts : build (.array done) (leavesItems done.length (item :: rest)) =
        build (build (.array done) ((leaves item).map (under (Nat.toDigits 10 done.length))))
          (leavesItems (done.length + 1) rest) := foldl_append ..
    have order : done ++ item :: rest = done ++ [item] ++ rest := by
      rw [append_assoc, singleton_append]
    have longer : done.length + 1 = (done ++ [item]).length := by
      rw [length_append, length_singleton]
    rw [parts, here, order, longer]
    apply ih
    · omega
    · exact fun other among => well other (mem_cons_of_mem _ among)
    · exact fun other among => filled other (mem_cons_of_mem _ among)
    · exact fun other among => rebuilt other (mem_cons_of_mem _ among)

theorem build_leaves {json : Json} (well : everywhere wellKeyed json = true)
    (filled : everywhere notEmptied json = true) : Rebuilt json := by
  induction json using treeInduction with
  | leaf json simple =>
    intro container
    rw [simple] at container
    cases container
  | array items ih =>
    intro _
    rw [everywhere_array, wellKeyed, decide_eq_true_eq] at well
    rw [everywhere_array] at filled
    exact build_items items [] (by simpa using well.1) well.2 filled.2 fun item among =>
      ih item among (well.2 item among) (filled.2 item among)
  | object entries ih =>
    intro _
    rw [everywhere_object, wellKeyed, and_eq_true, decide_eq_true_eq] at well
    rw [everywhere_object] at filled
    exact build_entries entries [] well.1.1 well.2 filled.2 fun entry among =>
      ih entry among (well.2 entry among) (filled.2 entry among)

end Rebuilding

end Yunetas.Gobj
