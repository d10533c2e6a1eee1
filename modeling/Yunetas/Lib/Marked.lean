import Mathlib.Data.List.Basic

/-!
# Marks on an append-only log

A log grows at its end and keeps a mark on each of its entries. The marked entries, with their
positions, are a queue: appending a marked entry adds it at the end, clearing the mark of a
position takes it out from wherever it is, and a reader may start past any prefix that holds no
mark.
-/

namespace Yunetas

open List

variable {α : Type}

/-- The marked entries of a log, numbered from a first position. -/
def marked (isMarked : α → Bool) (first : Nat) (log : List α) : List (α × Nat) :=
  (log.zipIdx first).filter fun entry => isMarked entry.1

theorem drop_zipIdx (count first : Nat) (log : List α) :
    (log.zipIdx first).drop count = (log.drop count).zipIdx (first + count) := by
  induction count generalizing first log with
  | zero => rfl
  | succ count ih =>
    cases log with
    | nil => rfl
    | cons entry rest =>
      have shift : first + 1 + count = first + (count + 1) := by omega
      rw [zipIdx_cons, drop_succ_cons, drop_succ_cons, ih, shift]

section

variable (isMarked : α → Bool) (first : Nat)
include isMarked first

@[simp] theorem marked_nil : marked isMarked first [] = [] :=
  rfl

theorem marked_cons (entry : α) (rest : List α) :
    marked isMarked first (entry :: rest) =
      (if isMarked entry then [(entry, first)] else []) ++ marked isMarked (first + 1) rest := by
  rw [marked, zipIdx_cons, filter_cons]
  split <;> rfl

theorem marked_append (before after : List α) :
    marked isMarked first (before ++ after) =
      marked isMarked first before ++ marked isMarked (first + before.length) after := by
  rw [marked, zipIdx_append, filter_append]
  rfl

end

theorem mem_marked {isMarked : α → Bool} {first : Nat} {log : List α} {entry : α × Nat} :
    entry ∈ marked isMarked first log ↔
      first ≤ entry.2 ∧ log[entry.2 - first]? = some entry.1 ∧ isMarked entry.1 = true := by
  rw [marked, mem_filter, mem_zipIdx_iff_le_and_getElem?_sub, and_assoc]

theorem marked_ascending (isMarked : α → Bool) (first : Nat) (log : List α) :
    ((marked isMarked first log).map Prod.snd).Pairwise (· < ·) := by
  have positions : ((log.zipIdx first).map Prod.snd).Pairwise (· < ·) := by
    rw [zipIdx_map_snd]
    exact pairwise_lt_range'
  exact positions.sublist (filter_sublist.map Prod.snd)

theorem marked_set {isMarked : α → Bool} {index : Nat} {entry : α}
    (cleared : isMarked entry = false) (first : Nat) (log : List α) :
    marked isMarked first (log.set index entry) =
      (marked isMarked first log).filter fun other => other.2 ≠ first + index := by
  induction log generalizing first index with
  | nil => rfl
  | cons head rest ih =>
    cases index with
    | zero =>
      have later : (marked isMarked (first + 1) rest).filter
          (fun other => other.2 ≠ first + 0) = marked isMarked (first + 1) rest := by
        apply filter_eq_self.2
        intro other among
        have above := (mem_marked.1 among).1
        simp only [Nat.add_zero, decide_eq_true_eq]
        omega
      have dropped : (if isMarked head then [(head, first)] else []).filter
          (fun other => other.2 ≠ first + 0) = [] := by
        split <;> simp
      rw [set_cons_zero, marked_cons, marked_cons, filter_append, later, dropped, cleared]
      rfl
    | succ index =>
      have shift : first + 1 + index = first + (index + 1) := by omega
      rw [set_cons_succ, marked_cons, marked_cons, filter_append, ih, shift]
      congr 1
      split <;> simp

theorem marked_drop_filter (isMarked : α → Bool) (first count : Nat) (log : List α) :
    marked isMarked (first + count) (log.drop count) =
      (marked isMarked first log).filter fun entry => first + count ≤ entry.2 := by
  induction count generalizing first log with
  | zero =>
    rw [drop_zero]
    apply Eq.symm
    apply filter_eq_self.2
    intro entry among
    have low := (mem_marked.1 among).1
    simp only [decide_eq_true_eq]
    omega
  | succ count ih =>
    cases log with
    | nil => rfl
    | cons entry rest =>
      have shift : first + (count + 1) = first + 1 + count := by omega
      have dropped : (if isMarked entry then [(entry, first)] else []).filter
          (fun other => first + 1 + count ≤ other.2) = [] := by
        split
        · apply filter_eq_nil_iff.2
          intro other among
          rw [mem_singleton.1 among, decide_eq_true_eq]
          omega
        · rfl
      rw [drop_succ_cons, marked_cons, filter_append, shift, ih, dropped, nil_append]

/-- A log whose marks and entries correspond to those of another one: what is made of its marked
entries is made of the chosen entries of the other. -/
theorem marked_agree {β : Type} {isMarked : α → Bool} {chosen : α × Nat → Bool}
    {made other : α × Nat → β} {first : Nat} {before after : List α}
    (length : after.length = before.length)
    (agree : ∀ index old new, before[index]? = some old → after[index]? = some new →
      isMarked new = chosen (old, first + index) ∧
        made (new, first + index) = other (old, first + index)) :
    (marked isMarked first after).map made = ((before.zipIdx first).filter chosen).map other := by
  induction before generalizing first after with
  | nil =>
    rw [length_eq_zero_iff.1 length]
    rfl
  | cons old before ih =>
    cases after with
    | nil => cases length
    | cons new after =>
      have here := agree 0 old new rfl rfl
      have later := @ih (first + 1) after (Nat.succ.inj length) fun index next entry found there => by
        have shift : first + 1 + index = first + (index + 1) := by omega
        rw [shift]
        exact agree (index + 1) next entry found there
      rw [marked_cons, zipIdx_cons, map_append, later, filter_cons]
      rw [Nat.add_zero] at here
      rw [← here.1]
      cases isMarked new with
      | false => rfl
      | true =>
        rw [if_pos rfl, if_pos rfl, map_singleton, here.2]
        rfl

end Yunetas
