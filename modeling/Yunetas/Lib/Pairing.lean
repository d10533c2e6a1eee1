import Mathlib.Data.Multiset.MapFold

/-!
# Pairing lists off

Two lists are the same up to order and a relation when their items can be paired off, which is the
relation `Multiset.Rel` of the two as multisets. A loop that picks a partner for one item after the
other and removes both decides it when the relation is an equivalence: whichever related partner is
picked, the rest can be paired off if anything can.
-/

namespace Yunetas.Pairing

open List

variable {α β : Type} {R : α → β → Prop}

theorem rel_iff_pairs {xs : List α} {ys : List β} :
    Multiset.Rel R (xs : Multiset α) (ys : Multiset β) ↔
      ∃ pairs : List (α × β), (pairs.map Prod.fst).Perm xs ∧ (pairs.map Prod.snd).Perm ys ∧
        ∀ pair ∈ pairs, R pair.1 pair.2 := by
  constructor
  · have paired : ∀ {s : Multiset α} {t : Multiset β}, Multiset.Rel R s t →
        ∃ pairs : List (α × β), (pairs.map Prod.fst : Multiset α) = s ∧
          (pairs.map Prod.snd : Multiset β) = t ∧ ∀ pair ∈ pairs, R pair.1 pair.2 := by
      intro s t related
      induction related with
      | zero => exact ⟨[], rfl, rfl, fun _ among => absurd among not_mem_nil⟩
      | @cons x y s t here _ ih =>
        have ⟨pairs, left, right, each⟩ := ih
        refine ⟨(x, y) :: pairs, ?_, ?_, ?_⟩
        · rw [map_cons, ← Multiset.cons_coe, left]
        · rw [map_cons, ← Multiset.cons_coe, right]
        · intro pair among
          rcases mem_cons.1 among with rfl | later
          · exact here
          · exact each pair later
    intro related
    have ⟨pairs, left, right, each⟩ := paired related
    exact ⟨pairs, Multiset.coe_eq_coe.1 left, Multiset.coe_eq_coe.1 right, each⟩
  · rintro ⟨pairs, left, right, each⟩
    rw [← Multiset.coe_eq_coe.2 left, ← Multiset.coe_eq_coe.2 right]
    clear left right
    induction pairs with
    | nil => exact Multiset.Rel.zero
    | cons pair pairs ih =>
      rw [map_cons, map_cons, ← Multiset.cons_coe, ← Multiset.cons_coe]
      exact .cons (each pair mem_cons_self)
        (ih fun other among => each other (mem_cons_of_mem _ among))

theorem rel_trans {γ : Type} {S : β → γ → Prop} {T : α → γ → Prop} {s : Multiset α}
    {t : Multiset β} {u : Multiset γ}
    (compose : ∀ x ∈ s, ∀ y z, R x y → S y z → T x z) (first : Multiset.Rel R s t)
    (second : Multiset.Rel S t u) : Multiset.Rel T s u := by
  induction first generalizing u with
  | zero =>
    rw [Multiset.rel_zero_left] at second
    rw [second]
    exact Multiset.Rel.zero
  | cons here _ ih =>
    obtain ⟨z, rest, next, others, rfl⟩ := Multiset.rel_cons_left.1 second
    refine .cons (compose _ (Multiset.mem_cons_self _ _) _ _ here next) (ih ?_ others)
    exact fun x among => compose x (Multiset.mem_cons_of_mem among)

theorem rel_cancel {E : α → α → Prop} (equivalence : Equivalence E) {x y : α} {s t : Multiset α}
    (here : E x y) (related : Multiset.Rel E (x ::ₘ s) (y ::ₘ t)) : Multiset.Rel E s t := by
  have ⟨other, rest, partner, others, same⟩ := Multiset.rel_cons_left.1 related
  rcases Multiset.cons_eq_cons.1 same with ⟨-, rfl⟩ | ⟨-, left, rfl, rfl⟩
  · exact others
  · -- `x` was paired with another item than `y`, which takes the partner of `y`
    obtain ⟨mate, before, joined, behind, rfl⟩ := Multiset.rel_cons_right.1 others
    exact .cons (equivalence.trans joined (equivalence.trans (equivalence.symm here) partner)) behind

/-- A loop that picks the position of a partner for one item after the other and removes both. -/
def pairOff (pick : α → List β → Option Nat) : List α → List β → Bool
  | [], ys => ys.isEmpty
  | x :: xs, ys =>
    match pick x ys with
    | none => false
    | some idx => pairOff pick xs (ys.eraseIdx idx)

theorem coe_eraseIdx {ys : List β} {idx : Nat} {y : β} (here : ys[idx]? = some y) :
    (ys : Multiset β) = y ::ₘ (ys.eraseIdx idx : Multiset β) := by
  rw [Multiset.cons_coe, Multiset.coe_eq_coe]
  have ⟨bound, same⟩ := List.getElem?_eq_some_iff.1 here
  rw [← same]
  exact (getElem_cons_eraseIdx_perm bound).symm

end Yunetas.Pairing
