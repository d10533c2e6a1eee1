import Mathlib.Data.List.Nodup
import Mathlib.Data.List.Basic

/-!
# Insertion-ordered dictionaries

A dictionary is the list of its entries in the order the keys were first set, with no key
twice. Setting a present key keeps its place, setting a new one appends it, erasing a key
leaves the others in order: the discipline of an ordered JSON object or of a directory that
only grows. `AList` of Mathlib moves a set key to the front, so it does not serve here.
-/

namespace Yunetas

open List

/-- The entries of a dictionary, in the order their keys were first set. -/
structure Dict (α β : Type) where
  entries : List (α × β)
  nodup : (entries.map Prod.fst).Nodup

namespace Dict

variable {α β : Type} [DecidableEq α]

/-- Replace the value of `key` in place, or append a new entry. -/
def setEntries (key : α) (value : β) : List (α × β) → List (α × β)
  | [] => [(key, value)]
  | entry :: rest =>
    if entry.1 = key then (key, value) :: rest else entry :: setEntries key value rest

/-- The first value stored under `key`. -/
def lookupEntries (key : α) : List (α × β) → Option β
  | [] => none
  | entry :: rest => if entry.1 = key then some entry.2 else lookupEntries key rest

theorem setEntries_keys (key : α) (value : β) (entries : List (α × β)) :
    (setEntries key value entries).map Prod.fst =
      if key ∈ entries.map Prod.fst then entries.map Prod.fst
      else entries.map Prod.fst ++ [key] := by
  induction entries with
  | nil => simp [setEntries]
  | cons entry rest ih =>
    by_cases same : entry.1 = key
    · simp [setEntries, same]
    · by_cases present : key ∈ rest.map Prod.fst
      · simp [setEntries, if_neg same, ih, present, ↓reduceIte]
      · have absent : key ∉ entry.1 :: rest.map Prod.fst := by
          simp only [mem_cons, not_or]
          exact ⟨fun h => same h.symm, present⟩
        simp only [setEntries, if_neg same, map_cons, ih, if_neg present, if_neg absent,
          cons_append]

theorem lookupEntries_set (key other : α) (value : β) (entries : List (α × β)) :
    lookupEntries other (setEntries key value entries) =
      if other = key then some value else lookupEntries other entries := by
  induction entries with
  | nil =>
    by_cases same : other = key
    · simp [setEntries, lookupEntries, same]
    · simp [setEntries, lookupEntries, same, Ne.symm same]
  | cons entry rest ih =>
    by_cases here : entry.1 = key
    · by_cases same : other = key
      · simp [setEntries, lookupEntries, here, same]
      · simp [setEntries, lookupEntries, here, same, Ne.symm same]
    · simp only [setEntries, if_neg here, lookupEntries, ih]
      by_cases same : other = key
      · subst same
        simp [here]
      · simp [if_neg same]

theorem lookupEntries_isSome (key : α) (entries : List (α × β)) :
    (lookupEntries key entries).isSome ↔ key ∈ entries.map Prod.fst := by
  induction entries with
  | nil => simp [lookupEntries]
  | cons entry rest ih =>
    by_cases here : entry.1 = key
    · simp [lookupEntries, here]
    · have ne : key ≠ entry.1 := fun h => here h.symm
      simp [lookupEntries, if_neg here, ih, ne]

variable {key : α} {entries : List (α × β)}

theorem mem_of_lookupEntries {value : β}
    (found : lookupEntries key entries = some value) : (key, value) ∈ entries := by
  induction entries with
  | nil => cases found
  | cons entry rest ih =>
    unfold lookupEntries at found
    split at found
    · rename_i same
      rw [← same, ← Option.some.inj found]
      exact mem_cons_self
    · exact mem_cons_of_mem _ (ih found)

theorem lookupEntries_filter (key other : α) (entries : List (α × β)) :
    lookupEntries other (entries.filter (fun entry => entry.1 ≠ key)) =
      if other = key then none else lookupEntries other entries := by
  induction entries with
  | nil => simp [lookupEntries]
  | cons entry rest ih =>
    by_cases dropped : entry.1 = key
    · by_cases same : other = key
      · simpa [filter_cons, dropped, same] using ih
      · simpa [filter_cons, dropped, same, lookupEntries, Ne.symm same] using ih
    · by_cases same : other = key
      · have ne : entry.1 ≠ other := fun h => dropped (h.trans same)
        simp only [filter_cons, dropped, ne_eq, not_false_eq_true, decide_true, ↓reduceIte,
          lookupEntries, if_neg ne, ih]
      · simp only [filter_cons, dropped, ne_eq, not_false_eq_true, decide_true, ↓reduceIte,
          lookupEntries, ih, if_neg same]

/-- The keys in order. -/
def keys (dict : Dict α β) : List α := dict.entries.map Prod.fst

/-- The value stored under `key`. -/
def get? (dict : Dict α β) (key : α) : Option β := lookupEntries key dict.entries

theorem lookupEntries_of_mem (distinct : (entries.map Prod.fst).Nodup)
    {entry : α × β} (among : entry ∈ entries) : lookupEntries entry.1 entries = some entry.2 := by
  induction entries with
  | nil => exact absurd among not_mem_nil
  | cons first rest ih =>
    rw [map_cons, nodup_cons] at distinct
    unfold lookupEntries
    rcases mem_cons.1 among with rfl | later
    · rw [if_pos rfl]
    · have ne : first.1 ≠ entry.1 := fun same =>
        distinct.1 (same ▸ mem_map_of_mem later)
      rw [if_neg ne]
      exact ih distinct.2 later

variable (dict : Dict α β)

theorem get?_of_mem {entry : α × β} (among : entry ∈ dict.entries) :
    dict.get? entry.1 = some entry.2 :=
  lookupEntries_of_mem dict.nodup among

/-- No entry. -/
def empty : Dict α β := ⟨[], List.nodup_nil⟩

/-- Store `value` under `key`. -/
def set (dict : Dict α β) (key : α) (value : β) : Dict α β where
  entries := setEntries key value dict.entries
  nodup := by
    rw [setEntries_keys]
    split
    · exact dict.nodup
    · rename_i absent
      exact List.nodup_append.2 ⟨dict.nodup, List.nodup_singleton key, by
        intro a left b right
        rw [List.mem_singleton.1 right]
        rintro rfl
        exact absent left⟩

/-- Drop the entry of `key`. -/
def erase (dict : Dict α β) (key : α) : Dict α β where
  entries := dict.entries.filter (fun entry => entry.1 ≠ key)
  nodup := dict.nodup.sublist (List.filter_sublist.map Prod.fst)

@[simp] theorem get?_empty (key : α) : (empty : Dict α β).get? key = none := rfl

omit [DecidableEq α] in
@[simp] theorem keys_empty : (empty : Dict α β).keys = [] := rfl

theorem get?_set (key other : α) (value : β) :
    (dict.set key value).get? other = if other = key then some value else dict.get? other :=
  lookupEntries_set key other value dict.entries

@[simp] theorem get?_set_self (key : α) (value : β) :
    (dict.set key value).get? key = some value := by rw [get?_set, if_pos rfl]

theorem get?_set_ne {key other : α} (value : β) (ne : other ≠ key) :
    (dict.set key value).get? other = dict.get? other := by rw [get?_set, if_neg ne]

theorem get?_erase (key other : α) :
    (dict.erase key).get? other = if other = key then none else dict.get? other :=
  lookupEntries_filter key other dict.entries

theorem keys_set (key : α) (value : β) :
    (dict.set key value).keys = if key ∈ dict.keys then dict.keys else dict.keys ++ [key] :=
  setEntries_keys key value dict.entries

theorem mem_keys (key : α) : key ∈ dict.keys ↔ (dict.get? key).isSome :=
  (lookupEntries_isSome key dict.entries).symm

theorem mem_keys_set {key other : α} (value : β) (among : other ∈ dict.keys) :
    other ∈ (dict.set key value).keys := by
  rw [keys_set]
  split
  · exact among
  · exact mem_append_left _ among

theorem get?_eq_none (absent : key ∉ dict.keys) : dict.get? key = none := by
  rw [mem_keys] at absent
  simpa using absent

theorem setEntries_same (key : α) (value : β) (entries : List (α × β))
    (stored : lookupEntries key entries = some value) : setEntries key value entries = entries := by
  induction entries with
  | nil => cases stored
  | cons entry rest ih =>
    unfold lookupEntries at stored
    unfold setEntries
    split at stored
    · rename_i here
      rw [if_pos here, ← here, ← Option.some.inj stored]
    · rename_i ne
      rw [if_neg ne, ih stored]

theorem set_get? {value : β} (stored : dict.get? key = some value) : dict.set key value = dict := by
  unfold set
  simp [setEntries_same key value dict.entries stored]

theorem setEntries_twice (key : α) (first second : β) (entries : List (α × β)) :
    setEntries key second (setEntries key first entries) = setEntries key second entries := by
  induction entries with
  | nil => simp [setEntries]
  | cons entry rest ih =>
    by_cases here : entry.1 = key
    · simp [setEntries, here]
    · simp [setEntries, here, ih]

theorem set_set (key : α) (first second : β) :
    (dict.set key first).set key second = dict.set key second := by
  unfold set
  simp [setEntries_twice]

theorem setEntries_new (value : β) (absent : lookupEntries key entries = none) :
    setEntries key value entries = entries ++ [(key, value)] := by
  induction entries with
  | nil => rfl
  | cons entry rest ih =>
    unfold lookupEntries at absent
    split at absent
    · cases absent
    · rename_i ne
      rw [setEntries, if_neg ne, ih absent, cons_append]

theorem entries_set_new (value : β) (absent : dict.get? key = none) :
    (dict.set key value).entries = dict.entries ++ [(key, value)] :=
  setEntries_new value absent

theorem mem_setEntries {value : β} {entry : α × β}
    (among : entry ∈ setEntries key value entries) : entry = (key, value) ∨ entry ∈ entries := by
  induction entries with
  | nil => exact .inl (mem_singleton.1 among)
  | cons first rest ih =>
    unfold setEntries at among
    split at among
    · rcases mem_cons.1 among with new | later
      · exact .inl new
      · exact .inr (mem_cons_of_mem _ later)
    · rcases mem_cons.1 among with same | later
      · exact .inr (same ▸ mem_cons_self)
      · exact (ih later).imp_right (mem_cons_of_mem _)

theorem mem_entries_set {dict : Dict α β} {value : β} {entry : α × β}
    (among : entry ∈ (dict.set key value).entries) :
    entry = (key, value) ∨ entry ∈ dict.entries := mem_setEntries among

omit [DecidableEq α] in
theorem ext_entries {dict other : Dict α β} (same : dict.entries = other.entries) :
    dict = other := by
  cases dict
  cases other
  cases same
  rfl

omit [DecidableEq α] in
theorem keys_nodup : dict.keys.Nodup := dict.nodup

/-- Change every value, keeping the keys. -/
def mapValues {γ : Type} (change : β → γ) (dict : Dict α β) : Dict α γ where
  entries := dict.entries.map fun entry => (entry.1, change entry.2)
  nodup := by
    rw [List.map_map]
    exact dict.nodup

@[simp] theorem get?_mapValues {γ : Type} (change : β → γ) (dict : Dict α β) (key : α) :
    (dict.mapValues change).get? key = (dict.get? key).map change := by
  show lookupEntries key (dict.entries.map _) = (lookupEntries key dict.entries).map change
  induction dict.entries with
  | nil => rfl
  | cons entry rest ih =>
    rw [map_cons, lookupEntries, lookupEntries, ih]
    split <;> rfl

end Dict

end Yunetas
