import Yunetas.Lib.Dict

/-!
# Dictionaries built by merging

A list of entries is merged into a dictionary one by one: an entry replaces the value of its key by
one computed from the old value, if any. The keys come in the order of their first entries, and the
value of a key depends only on the entries of that key, in order.
-/

namespace Yunetas.Dict

open List

variable {α β γ : Type} [DecidableEq α]

/-- Merge one entry. -/
def mergeEntry (merge : Option β → γ → β) (dict : Dict α β) (entry : α × γ) : Dict α β :=
  dict.set entry.1 (merge (dict.get? entry.1) entry.2)

/-- Merge entries in order. -/
def mergeAll (merge : Option β → γ → β) (dict : Dict α β) (entries : List (α × γ)) : Dict α β :=
  entries.foldl (mergeEntry merge) dict

theorem mergeAll_append (merge : Option β → γ → β) (dict : Dict α β) (first second : List (α × γ)) :
    dict.mergeAll merge (first ++ second) = (dict.mergeAll merge first).mergeAll merge second :=
  foldl_append

theorem foldl_mergeAll {ι : Type} (merge : Option β → γ → β) (body : Dict α β → ι → Dict α β)
    (entries : ι → List (α × γ))
    (merges : ∀ dict item, body dict item = dict.mergeAll merge (entries item)) (items : List ι)
    (dict : Dict α β) : items.foldl body dict = dict.mergeAll merge (items.flatMap entries) := by
  induction items generalizing dict with
  | nil => rfl
  | cons item rest ih => rw [foldl_cons, ih, merges, flatMap_cons, mergeAll_append]

theorem get?_mergeAll (merge : Option β → γ → β) (dict : Dict α β) (key : α)
    (entries : List (α × γ)) :
    (dict.mergeAll merge entries).get? key =
      (entries.filterMap fun entry => if entry.1 = key then some entry.2 else none).foldl
        (fun old value => some (merge old value)) (dict.get? key) := by
  induction entries generalizing dict with
  | nil => rfl
  | cons entry rest ih =>
    have step : (dict.mergeAll merge (entry :: rest)).get? key =
        ((mergeEntry merge dict entry).mergeAll merge rest).get? key := rfl
    rw [step, ih]
    unfold mergeEntry
    by_cases same : entry.1 = key
    · subst same
      simp
    · simp [get?_set_ne dict _ (Ne.symm same), if_neg same]

theorem find_keys_mergeAll (merge : Option β → γ → β) (wanted : α → Bool) (dict : Dict α β)
    (entries : List (α × γ)) :
    (dict.mergeAll merge entries).keys.find? wanted =
      (dict.keys.find? wanted).or ((entries.map Prod.fst).find? wanted) := by
  induction entries generalizing dict with
  | nil => simp [mergeAll]
  | cons entry rest ih =>
    have step : (dict.mergeAll merge (entry :: rest)).keys =
        ((mergeEntry merge dict entry).mergeAll merge rest).keys := rfl
    rw [step, ih]
    unfold mergeEntry
    rw [keys_set]
    split
    · rename_i present
      cases found : dict.keys.find? wanted with
      | some key => rfl
      | none =>
        have refused : wanted entry.1 = false := by
          simpa using find?_eq_none.1 found entry.1 present
        simp [refused]
    · cases found : dict.keys.find? wanted with
      | some key => simp [find?_append, found]
      | none => cases accepted : wanted entry.1 <;> simp [find?_append, found, accepted]

theorem find_entries (dict : Dict α β) (wanted : α → Bool) :
    dict.entries.find? (fun entry => wanted entry.1) =
      (dict.keys.find? wanted).bind fun key => (dict.get? key).map fun value => (key, value) := by
  have ⟨entries, nodup⟩ := dict
  unfold keys get?
  induction entries with
  | nil => rfl
  | cons entry rest ih =>
    have distinct := nodup_cons.1 nodup
    cases accepted : wanted entry.1 with
    | true => simp [accepted, lookupEntries]
    | false =>
      simp only [find?_cons, accepted, map_cons]
      rw [ih distinct.2]
      cases found : (rest.map Prod.fst).find? wanted with
      | none => rfl
      | some key =>
        have present : key ∈ rest.map Prod.fst := mem_of_find?_eq_some found
        have ne : entry.1 ≠ key := fun same => distinct.1 (same ▸ present)
        simp [lookupEntries, if_neg ne]

end Yunetas.Dict
