import Mathlib.Algebra.Order.Ring.Int
import Mathlib.Data.List.TakeWhile
import Mathlib.Logic.Function.Basic
import Yunetas.Lib.Json

/-!
# The rows of a key

The store keeps the rows of a key in files, one for each span of time; a row is appended to the file
of its time and found again by its time and its place in that file. Reading backward visits the
files from the last, and skips the rows that are tombstones.
-/

namespace Yunetas.TrTreedb

open List Option

/-- A row of a key. -/
structure Row where
  /-- `__t__`, the time it was appended. -/
  t : Nat
  /-- `i_rowid`, its place in the file of that time, from one on. -/
  rowid : Nat
  /-- `user_flag`: the snapshot it belongs to, 0 for none. -/
  tag : Nat
  /-- `sf_immutable_record`. -/
  immutable : Bool := false
  /-- `sf_deleted_instance`. -/
  deleted : Bool := false
  record : Json.Fields

namespace Row

/-- A row that a load visits: no tombstone and, with a snapshot active, one of that snapshot. -/
def loads (snapTag : Nat) (row : Row) : Bool :=
  !row.deleted && (snapTag = 0 || row.tag = snapTag)

/-- The row at a time and place. -/
def isAt (t rowid : Nat) (row : Row) : Bool := row.t = t && row.rowid = rowid

end Row

/-- The place in its file of the next row. -/
def nextRowid (fileOf : Nat → Nat) (t : Nat) (rows : List Row) : Nat :=
  (rows.countP fun row => fileOf row.t = fileOf t) + 1

/-- The row that is appended to those of a key. -/
def newRow (fileOf : Nat → Nat) (t tag : Nat) (record : Json.Fields) (rows : List Row) : Row where
  t := t
  rowid := nextRowid fileOf t rows
  tag := tag
  record := record

/-- The rows of a key with one appended: after the rows of its file and of those before. -/
def addRow (fileOf : Nat → Nat) (t tag : Nat) (record : Json.Fields) (rows : List Row) : List Row :=
  let upTo := rows.takeWhile fun row => fileOf row.t ≤ fileOf t
  upTo ++ newRow fileOf t tag record rows :: rows.drop upTo.length

/-- Rewrite the row at a time and place. -/
def rewriteRow (t rowid : Nat) (change : Row → Row) (rows : List Row) : List Row :=
  rows.map fun row => if row.isAt t rowid then change row else row

/-- The first row that a load visits and that passes a test. -/
def newest (test : Row → Bool) (rows : List Row) : Option Row := rows.reverse.find? test

section Rows

variable (fileOf : Nat → Nat) (t tag : Nat) (record : Json.Fields) (rows : List Row)

theorem addRow_split : ∃ before after, rows = before ++ after ∧
    addRow fileOf t tag record rows = before ++ newRow fileOf t tag record rows :: after ∧
    ∀ row ∈ before, fileOf row.t ≤ fileOf t := by
  let upTo := rows.takeWhile fun row => fileOf row.t ≤ fileOf t
  refine ⟨upTo, rows.drop upTo.length, ?_, rfl, ?_⟩
  · exact (prefix_iff_eq_append.1 ( takeWhile_prefix _)).symm
  · intro row among
    simpa using mem_takeWhile_imp among

theorem mem_addRow {row : Row} : row ∈ addRow fileOf t tag record rows ↔
    row = newRow fileOf t tag record rows ∨ row ∈ rows := by
  have ⟨before, after, split, added, _⟩ := addRow_split fileOf t tag record rows
  have among : row ∈ rows ↔ row ∈ before ∨ row ∈ after := by rw [split, mem_append]
  rw [added, among, mem_append, mem_cons]
  exact or_left_comm

theorem newest_addRow (test : Row → Bool) :
    newest test (addRow fileOf t tag record rows) = newest test rows ∨
      newest test (addRow fileOf t tag record rows) = some (newRow fileOf t tag record rows) := by
  have ⟨before, after, split, added, _⟩ := addRow_split fileOf t tag record rows
  have whole : newest test rows = (after.reverse.find? test).or (before.reverse.find? test) := by
    unfold newest
    rw [split, reverse_append, find?_append]
  rw [whole, added]
  unfold newest
  rw [reverse_append, reverse_cons, append_assoc, find?_append]
  cases after.reverse.find? test with
  | some row => exact Or.inl rfl
  | none =>
    rw [none_or, none_or, singleton_append, find?_cons]
    cases test (newRow fileOf t tag record rows) with
    | true => exact Or.inr rfl
    | false => exact Or.inl rfl

theorem newest_rewriteRow {test : Row → Bool} {rowid : Nat} {change : Row → Row} {row : Row}
    (found : newest test rows = some row) (same : change row = row)
    (passes : ∀ other, test other = false → test (change other) = false) :
    newest test (rewriteRow t rowid change rows) = some row := by
  unfold newest rewriteRow at *
  rw [← map_reverse]
  revert found
  generalize rows.reverse = reversed
  intro found
  induction reversed with
  | nil => cases found
  | cons first rest ih =>
    rw [find?_cons] at found
    rw [map_cons, find?_cons]
    cases passed : test first with
    | true =>
      rw [passed] at found
      have isRow : first = row := some.inj found
      have kept : (if first.isAt t rowid then change first else first) = row := by
        rw [isRow, same, ite_self]
      rw [kept, ← isRow, passed]
    | false =>
      rw [passed] at found
      have still : test (if first.isAt t rowid then change first else first) = false := by
        split
        · exact passes first passed
        · exact passed
      rw [still]
      exact ih found

theorem newest_rewriteRow_map (test : Row → Bool) (rowid : Nat) (change : Row → Row)
    (same : ∀ row, test (change row) = test row) :
    newest test (rewriteRow t rowid change rows) =
      (newest test rows).map fun row => if row.isAt t rowid then change row else row := by
  unfold newest rewriteRow
  rw [← map_reverse, find?_map]
  congr 2
  funext row
  rw [Function.comp_apply]
  split
  · exact same row
  · rfl

theorem mem_rewriteRow {rowid : Nat} {change : Row → Row} {row : Row} (among : row ∈ rows) :
    (if row.isAt t rowid then change row else row) ∈ rewriteRow t rowid change rows :=
  mem_map_of_mem among

end Rows

/-- The rows of the topics, by key. -/
abbrev Store := String → Dict String (List Row)

/-- The rows of a key. -/
def Store.rows (store : Store) (topic key : String) : List Row :=
  ((store topic).get? key).getD []

/-- Replace the rows of a key. -/
def Store.setRows (store : Store) (topic key : String) (rows : List Row) : Store :=
  Function.update store topic ((store topic).set key rows)

/-- `tranger2_topic_size`: the rows of every key, tombstones too. -/
def Store.size (store : Store) (topic : String) : Nat :=
  ((store topic).entries.map fun entry => entry.2.length).sum

end Yunetas.TrTreedb
