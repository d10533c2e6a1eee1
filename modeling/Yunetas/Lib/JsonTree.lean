import Yunetas.Lib.Json

/-!
# Json values as trees

The values directly inside a value, the induction along them, and tests made of a value and of
every value inside it.
-/

namespace Yunetas.Json

open List Bool

/-- The values directly inside a value. -/
def children : Json → List Json
  | .array items => items
  | .object entries => entries.map Prod.snd
  | _ => []

/-- An array or an object. -/
def isContainer : Json → Bool
  | .array _ => true
  | .object _ => true
  | _ => false

mutual

theorem treeInduction {motive : Json → Prop} (leaf : ∀ json, json.isContainer = false → motive json)
    (array : ∀ items, (∀ item ∈ items, motive item) → motive (.array items))
    (object : ∀ entries, (∀ entry ∈ entries, motive entry.2) → motive (.object entries)) :
    ∀ json, motive json
  | .null => leaf _ rfl
  | .boolean _ => leaf _ rfl
  | .integer _ => leaf _ rfl
  | .real _ => leaf _ rfl
  | .string _ => leaf _ rfl
  | .array items => array items (treeInductionItems leaf array object items)
  | .object entries => object entries (treeInductionEntries leaf array object entries)

theorem treeInductionItems {motive : Json → Prop}
    (leaf : ∀ json, json.isContainer = false → motive json)
    (array : ∀ items, (∀ item ∈ items, motive item) → motive (.array items))
    (object : ∀ entries, (∀ entry ∈ entries, motive entry.2) → motive (.object entries)) :
    ∀ items : List Json, ∀ item ∈ items, motive item
  | [], _, among => nomatch among
  | first :: rest, item, among => by
    rcases mem_cons.1 among with same | later
    · rw [same]
      exact treeInduction leaf array object first
    · exact treeInductionItems leaf array object rest item later

theorem treeInductionEntries {motive : Json → Prop}
    (leaf : ∀ json, json.isContainer = false → motive json)
    (array : ∀ items, (∀ item ∈ items, motive item) → motive (.array items))
    (object : ∀ entries, (∀ entry ∈ entries, motive entry.2) → motive (.object entries)) :
    ∀ entries : List (String × Json), ∀ entry ∈ entries, motive entry.2
  | [], _, among => nomatch among
  | (key, value) :: rest, entry, among => by
    rcases mem_cons.1 among with same | later
    · rw [same]
      exact treeInduction leaf array object value
    · exact treeInductionEntries leaf array object rest entry later

end

mutual

/-- A test of a value and of every value inside it. -/
def everywhere (test : Json → Bool) : Json → Bool
  | .array items => test (.array items) && everywhereItems test items
  | .object entries => test (.object entries) && everywhereEntries test entries
  | leaf => test leaf

/-- The test of the items of an array. -/
def everywhereItems (test : Json → Bool) : List Json → Bool
  | [] => true
  | item :: rest => everywhere test item && everywhereItems test rest

/-- The test of the values of an object. -/
def everywhereEntries (test : Json → Bool) : List (String × Json) → Bool
  | [] => true
  | (_, value) :: rest => everywhere test value && everywhereEntries test rest

end

section

variable (test : Json → Bool)
include test

theorem everywhereItems_iff (items : List Json) :
    everywhereItems test items = true ↔ ∀ item ∈ items, everywhere test item = true := by
  induction items with
  | nil => simp [everywhereItems]
  | cons item rest ih => simp [everywhereItems, ih]

theorem everywhereEntries_iff (entries : List (String × Json)) :
    everywhereEntries test entries = true ↔ ∀ entry ∈ entries, everywhere test entry.2 = true := by
  induction entries with
  | nil => simp [everywhereEntries]
  | cons entry rest ih => simp [everywhereEntries, ih]

theorem everywhere_array (items : List Json) :
    everywhere test (.array items) = true ↔
      test (.array items) = true ∧ ∀ item ∈ items, everywhere test item = true := by
  rw [everywhere, and_eq_true, everywhereItems_iff]

theorem everywhere_object (entries : List (String × Json)) :
    everywhere test (.object entries) = true ↔
      test (.object entries) = true ∧ ∀ entry ∈ entries, everywhere test entry.2 = true := by
  rw [everywhere, and_eq_true, everywhereEntries_iff]

theorem everywhere_leaf {json : Json} (leaf : json.isContainer = false) :
    everywhere test json = test json := by
  cases json with
  | array items => cases leaf
  | object entries => cases leaf
  | null => rfl
  | boolean value => rfl
  | integer value => rfl
  | real bits => rfl
  | string value => rfl

end

mutual

/-- The nesting of a value: none for one that holds no other. -/
def nesting : Json → Nat
  | .array items => nestingItems items + 1
  | .object entries => nestingEntries entries + 1
  | _ => 0

/-- The deepest nesting of the items. -/
def nestingItems : List Json → Nat
  | [] => 0
  | item :: rest => max (nesting item) (nestingItems rest)

/-- The deepest nesting of the values. -/
def nestingEntries : List (String × Json) → Nat
  | [] => 0
  | (_, value) :: rest => max (nesting value) (nestingEntries rest)

end

theorem nesting_item {item : Json} {items : List Json} (among : item ∈ items) :
    nesting item < nesting (.array items) := by
  have bound : nesting item ≤ nestingItems items := by
    induction items with
    | nil => cases among
    | cons first rest ih =>
      rw [nestingItems]
      rcases mem_cons.1 among with same | later
      · rw [same]
        exact Nat.le_max_left _ _
      · exact Nat.le_trans (ih later) (Nat.le_max_right _ _)
  rw [nesting]
  omega

theorem nesting_entry {entry : String × Json} {entries : List (String × Json)}
    (among : entry ∈ entries) : nesting entry.2 < nesting (.object entries) := by
  have bound : nesting entry.2 ≤ nestingEntries entries := by
    induction entries with
    | nil => cases among
    | cons first rest ih =>
      rw [nestingEntries]
      rcases mem_cons.1 among with same | later
      · rw [same]
        exact Nat.le_max_left _ _
      · exact Nat.le_trans (ih later) (Nat.le_max_right _ _)
  rw [nesting]
  omega

end Yunetas.Json
