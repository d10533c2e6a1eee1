import Yunetas.TrTreedb.InUse
import Yunetas.TrTreedb.Unlinked

/-!
# Rows, their keys and their number

The id of a node created without one in a topic with row ids is the number of the rows of the topic
and one more. It is new when no key that is a number exceeds the number of rows; this is kept when a
row is appended to a key that is there, and when rows are rewritten.
-/

namespace Yunetas.TrTreedb

open List Option Function Dict

theorem toString_nat_inj {first second : Nat} (same : toString first = toString second) :
    first = second := by
  have digits : Nat.toDigits 10 first = Nat.toDigits 10 second := by
    rw [← Nat.toList_repr, ← Nat.toList_repr]
    exact congrArg String.toList same
  rw [← Nat.ofDigitChars_ten_toDigits (n := first), digits, Nat.ofDigitChars_ten_toDigits]

theorem toString_nat_ne_empty (number : Nat) : toString number ≠ "" := by
  intro empty
  have digits : Nat.toDigits 10 number = [] := by
    rw [← Nat.toList_repr]
    exact congrArg String.toList empty
  exact Nat.toDigits_ne_nil digits

/-- The rows under some keys. -/
def countRows (entries : List (String × List Row)) : Nat :=
  (entries.map fun entry => entry.2.length).sum

theorem countRows_cons (entry : String × List Row) (entries : List (String × List Row)) :
    countRows (entry :: entries) = entry.2.length + countRows entries := by
  unfold countRows
  rw [map_cons, sum_cons]

theorem countRows_set (key : String) (rows : List Row) (entries : List (String × List Row)) :
    countRows (Dict.setEntries key rows entries) +
        ((Dict.lookupEntries key entries).getD []).length = countRows entries + rows.length := by
  induction entries with
  | nil => simp [Dict.setEntries, Dict.lookupEntries, countRows]
  | cons entry rest ih =>
    unfold Dict.setEntries Dict.lookupEntries
    split
    · rw [countRows_cons, countRows_cons, getD_some]
      dsimp only
      omega
    · rw [countRows_cons, countRows_cons]
      omega

theorem countRows_erase (key : String) {entries : List (String × List Row)}
    (distinct : (entries.map Prod.fst).Nodup) :
    countRows (entries.filter fun entry => entry.1 ≠ key) +
        ((Dict.lookupEntries key entries).getD []).length = countRows entries := by
  induction entries with
  | nil => rfl
  | cons entry rest ih =>
    rw [map_cons, nodup_cons] at distinct
    have later := ih distinct.2
    unfold Dict.lookupEntries
    by_cases here : entry.1 = key
    · have absent : Dict.lookupEntries key rest = none := by
        rw [← not_isSome_iff_eq_none, lookupEntries_isSome, ← here]
        exact distinct.1
      rw [absent] at later
      rw [if_pos here, getD_some, filter_cons_of_neg (by simp [here]), countRows_cons]
      have kept : countRows (rest.filter fun entry => entry.1 ≠ key) = countRows rest := later
      omega
    · rw [if_neg here, filter_cons_of_pos (by simp [here]), countRows_cons, countRows_cons]
      omega

namespace Store

variable {store : Store} {topic key : String}

theorem size_setRows (store : Store) (topic key : String) (rows : List Row) :
    (store.setRows topic key rows).size topic + (store.rows topic key).length =
      store.size topic + rows.length := by
  have counted := countRows_set key rows (store topic).entries
  unfold size setRows
  rw [update_self]
  exact counted

theorem size_erase (store : Store) (topic key : String) :
    Store.size (Function.update store topic ((store topic).erase key)) topic +
      (store.rows topic key).length = store.size topic := by
  have counted := countRows_erase key (store topic).nodup
  unfold size
  rw [update_self]
  exact counted

theorem get?_setRows (store : Store) (topic key other name : String) (rows : List Row) :
    (store.setRows topic key rows other).get? name =
      if other = topic ∧ name = key then some rows else (store other).get? name := by
  unfold setRows
  by_cases same : other = topic
  · rw [same, update_self, get?_set]
    simp
  · rw [update_of_ne same]
    simp [same, ↓reduceIte]

theorem isSome_of_mem {row : Row} (among : row ∈ store.rows topic key) :
    ((store topic).get? key).isSome := by
  unfold rows at among
  cases found : (store topic).get? key with
  | none =>
    rw [found] at among
    exact absurd among not_mem_nil
  | some rows => rfl

/-- No key of a topic that is a number exceeds the number of its rows. -/
def Fits (store : Store) (topic : String) : Prop :=
  ∀ number : Nat, ((store topic).get? (toString number)).isSome → number ≤ store.size topic

theorem Fits.next (fits : store.Fits topic) :
    (store topic).get? (toString (store.size topic + 1)) = none := by
  rw [← not_isSome_iff_eq_none]
  intro there
  have bound := fits (store.size topic + 1) there
  omega

theorem Fits.setRows {other : String} (fits : store.Fits other) {rows : List Row}
    (more : (store.rows topic key).length ≤ rows.length)
    (bound : other = topic → ∀ number : Nat, toString number = key →
      number ≤ (store.setRows topic key rows).size topic) :
    (store.setRows topic key rows).Fits other := by
  intro number there
  rw [get?_setRows] at there
  by_cases same : other = topic
  · subst same
    have counted := size_setRows store other key rows
    split at there
    · rename_i here
      exact bound rfl number here.2
    · have old := fits number there
      omega
  · have untouched : (store.setRows topic key rows).size other = store.size other := by
      unfold size
      rw [setRows_of_ne store key rows same]
    rw [if_neg fun here => same here.1] at there
    rw [untouched]
    exact fits number there

theorem Fits.erase {other : String} (fits : store.Fits other)
    (room : other = topic → ∀ number : Nat, toString number ≠ key →
      ((store topic).get? (toString number)).isSome →
        number + (store.rows topic key).length ≤ store.size topic) :
    Store.Fits (Function.update store topic ((store topic).erase key)) other := by
  intro number there
  by_cases same : other = topic
  · subst same
    have counted := size_erase store other key
    rw [update_self, get?_erase] at there
    split at there
    · cases there
    · rename_i ne
      have left := room rfl number ne there
      omega
  · have untouched : Store.size (Function.update store topic ((store topic).erase key)) other =
        store.size other := by
      unfold size
      rw [update_of_ne same]
    rw [update_of_ne same] at there
    rw [untouched]
    exact fits number there

end Store

/-- A row of a key: its record names the key and has no links. -/
structure Row.IsOf (cols : List Col) (key : String) (row : Row) : Prop where
  key : (row.record.get? "id").bind Json.stringValue = some key
  unlinked : RecordUnlinked cols row.record

/-- Every row is one of its key. -/
def Store.Keyed (schema : Schema) (store : Store) : Prop :=
  ∀ topic key, ∀ row ∈ store.rows topic key, row.IsOf (schema.cols topic) key

/-- What rewriting rows and appending to keys that are there keeps. -/
structure StoreKept (schema : Schema) (store after : Store) : Prop where
  keys : ∀ topic key, ((store topic).get? key).isSome → ((after topic).get? key).isSome
  keyed : store.Keyed schema → after.Keyed schema
  fits : ∀ topic, store.Fits topic → after.Fits topic

namespace StoreKept

variable {schema : Schema} {store : Store}

theorem refl (schema : Schema) (store : Store) : StoreKept schema store store :=
  ⟨fun _ _ there => there, fun keyed => keyed, fun _ fits => fits⟩

theorem trans {first second third : Store} (left : StoreKept schema first second)
    (right : StoreKept schema second third) : StoreKept schema first third where
  keys topic key there := right.keys topic key (left.keys topic key there)
  keyed keyed := right.keyed (left.keyed keyed)
  fits topic fits := right.fits topic (left.fits topic fits)

theorem keys_setRows (store : Store) (topic key : String) (rows : List Row) (other name : String)
    (there : ((store other).get? name).isSome) :
    ((store.setRows topic key rows other).get? name).isSome := by
  rw [Store.get?_setRows]
  split
  · rfl
  · exact there

theorem keyed_setRows {topic key : String} {rows : List Row} (keyed : store.Keyed schema)
    (own : ∀ row ∈ rows, row.IsOf (schema.cols topic) key) :
    (store.setRows topic key rows).Keyed schema := by
  intro other name row among
  rw [Store.rows_setRows] at among
  split at among
  · rename_i here
    rw [here.1, here.2]
    exact own row among
  · exact keyed other name row among

theorem setRows {topic key : String} {rows : List Row} (there : ((store topic).get? key).isSome)
    (more : (store.rows topic key).length ≤ rows.length)
    (own : store.Keyed schema → ∀ row ∈ rows, row.IsOf (schema.cols topic) key) :
    StoreKept schema store (store.setRows topic key rows) where
  keys := keys_setRows store topic key rows
  keyed keyed := keyed_setRows keyed (own keyed)
  fits other fits := by
    apply fits.setRows more
    rintro rfl number rfl
    have old := fits number there
    have counted := Store.size_setRows store other (toString number) rows
    omega

end StoreKept

section Rewrite

variable {ctx : Context} {state : State}

theorem length_addRow (fileOf : Nat → Nat) (t tag : Nat) (record : Json.Fields) (rows : List Row) :
    (addRow fileOf t tag record rows).length = rows.length + 1 := by
  have ⟨before, after, split, added, _⟩ := addRow_split fileOf t tag record rows
  rw [added, split, length_append, length_append, length_cons]
  omega

theorem isOf_addRow {cols : List Col} {key : String} (fileOf : Nat → Nat) (t tag : Nat)
    {record : Json.Fields} {rows : List Row}
    (keyed : (record.get? "id").bind Json.stringValue = some key)
    (unlinked : RecordUnlinked cols record) (own : ∀ row ∈ rows, row.IsOf cols key) :
    ∀ row ∈ addRow fileOf t tag record rows, row.IsOf cols key := by
  intro row among
  rw [mem_addRow] at among
  rcases among with rfl | old
  · exact ⟨keyed, unlinked⟩
  · exact own row old

theorem rewriteMd_kept (topic key : String) (t rowid : Nat) {change : Row → Row}
    (same : ∀ row, (change row).record = row.record) :
    StoreKept ctx.schema state.store (rewriteMd ctx state topic key t rowid change).2.store := by
  unfold rewriteMd
  dsimp only
  split
  · rename_i works
    rw [Bool.and_eq_true, List.any_eq_true] at works
    have ⟨there, among, _⟩ := works.2
    apply StoreKept.setRows (Store.isSome_of_mem among)
    · unfold rewriteRow
      rw [length_map]
    · intro keyed row isRow
      unfold rewriteRow at isRow
      rw [List.mem_map] at isRow
      obtain ⟨old, oldAmong, rfl⟩ := isRow
      have own := keyed topic key old oldAmong
      split
      · exact ⟨(same old).symm ▸ own.key, (same old).symm ▸ own.unlinked⟩
      · exact own
  · exact StoreKept.refl ctx.schema state.store

end Rewrite

end Yunetas.TrTreedb
