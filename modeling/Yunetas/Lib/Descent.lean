import Mathlib.Data.Option.Basic
import Mathlib.Data.Prod.Basic
import Mathlib.Logic.Relation

/-!
# Recursive descents

A function that visits the children of a value, then theirs, and joins what it finds, returns when
no path of children goes on without end. It is given fuel for the depth of its recursion: enough
fuel gives its result, and more fuel the same one. Paths of children end as long as each new child
is one its parent cannot be reached from.
-/

namespace Yunetas.Descent

open List Option

variable {α β : Type} (children : α → List α) (join : α → List (α × β) → β)

/-- Visit the children of a value and join what is found below each, `none` when fuel runs out. -/
def descend : Nat → α → Option β
  | 0, _ => none
  | fuel + 1, node =>
    ((children node).mapM fun child => (descend fuel child).map fun below => (child, below)).map
      (join node)

/-- One value is a child of another. -/
def IsChild (child parent : α) : Prop := child ∈ children parent

theorem mapM_isSome {γ δ : Type} (f : γ → Option δ) (items : List γ) :
    (items.mapM f).isSome ↔ ∀ item ∈ items, (f item).isSome := by
  induction items with
  | nil => exact iff_of_true rfl fun _ among => absurd among not_mem_nil
  | cons item rest ih =>
    rw [mapM_cons, forall_mem_cons, ← ih]
    cases f item with
    | none => exact iff_of_false nofun fun both => Bool.noConfusion both.1
    | some value =>
      cases rest.mapM f with
      | none => exact iff_of_false nofun fun both => Bool.noConfusion both.2
      | some values => exact iff_of_true rfl ⟨rfl, rfl⟩

theorem mapM_mono {γ δ : Type} {f g : γ → Option δ} {items : List γ} {values : List δ}
    (mapped : items.mapM f = some values)
    (same : ∀ item ∈ items, ∀ value, f item = some value → g item = some value) :
    items.mapM g = some values := by
  have found := (mapM_isSome f items).1 (by rw [mapped]; rfl)
  rw [← mapped]
  induction items generalizing values with
  | nil => rfl
  | cons item rest ih =>
    have ⟨value, isValue⟩ := isSome_iff_exists.1 (found item mem_cons_self)
    have below := fun other among => found other (mem_cons_of_mem _ among)
    have ⟨others, areOthers⟩ := isSome_iff_exists.1 ((mapM_isSome f rest).2 below)
    rw [mapM_cons, mapM_cons, isValue, same item mem_cons_self value isValue,
      ih areOthers (fun other among => same other (mem_cons_of_mem _ among)) below]

theorem descend_succ (fuel : Nat) (node : α) :
    descend children join (fuel + 1) node = ((children node).mapM fun child =>
        (descend children join fuel child).map fun below => (child, below)).map (join node) := rfl

theorem descend_succ_isSome (fuel : Nat) (node : α) :
    (descend children join (fuel + 1) node).isSome ↔
      ∀ child ∈ children node, (descend children join fuel child).isSome := by
  rw [descend_succ, isSome_map, mapM_isSome]
  simp

theorem descend_mono {fuel more : Nat} (le : fuel ≤ more) {node : α} {result : β}
    (done : descend children join fuel node = some result) :
    descend children join more node = some result := by
  induction fuel generalizing more node result with
  | zero => cases done
  | succ fuel ih =>
    cases more with
    | zero => exact absurd le (Nat.not_succ_le_zero fuel)
    | succ more =>
      rw [descend_succ, map_eq_some_iff] at done ⊢
      have ⟨found, mapped, joined⟩ := done
      refine ⟨found, mapM_mono mapped fun child _ value isValue => ?_, joined⟩
      rw [map_eq_some_iff] at isValue ⊢
      have ⟨below, isBelow, pair⟩ := isValue
      exact ⟨below, ih (Nat.le_of_succ_le_succ le) isBelow, pair⟩

theorem common_fuel {items : List α}
    (each : ∀ item ∈ items, ∃ fuel, (descend children join fuel item).isSome) :
    ∃ fuel, ∀ item ∈ items, (descend children join fuel item).isSome := by
  induction items with
  | nil => exact ⟨0, fun _ among => absurd among not_mem_nil⟩
  | cons item rest ih =>
    have ⟨first, ends⟩ := each item mem_cons_self
    have ⟨others, rest_ends⟩ := ih fun other among => each other (mem_cons_of_mem _ among)
    have raise : ∀ {fuel more : Nat} {node : α}, fuel ≤ more →
        (descend children join fuel node).isSome → (descend children join more node).isSome := by
      intro fuel more node le done
      have ⟨result, isResult⟩ := isSome_iff_exists.1 done
      rw [descend_mono children join le isResult]
      rfl
    refine ⟨max first others, ?_⟩
    rw [forall_mem_cons]
    exact ⟨raise (Nat.le_max_left _ _) ends,
      fun other among => raise (Nat.le_max_right _ _) (rest_ends other among)⟩

theorem descend_ends_iff (node : α) :
    (∃ fuel, (descend children join fuel node).isSome) ↔ Acc (IsChild children) node := by
  constructor
  · rintro ⟨fuel, done⟩
    induction fuel generalizing node with
    | zero => cases done
    | succ fuel ih =>
      rw [descend_succ_isSome] at done
      exact Acc.intro node fun child isChild => ih child (done child isChild)
  · intro ending
    induction ending with
    | intro node _ ih =>
      have ⟨fuel, done⟩ := common_fuel children join ih
      exact ⟨fuel + 1, (descend_succ_isSome children join fuel node).2 done⟩

theorem not_acc_of_cycle {below : α → α → Prop} {node : α}
    (cycle : Relation.TransGen below node node) : ¬ Acc below node := by
  intro ending
  have ends := ending.transGen
  induction ends with
  | intro other _ ih => exact ih other cycle cycle (ending.inv_of_transGen cycle)

section Preorder

/-- Each child right before what is found below it. -/
def preorder (_ : α) (found : List (α × List α)) : List α :=
  found.flatMap fun entry => entry.1 :: entry.2

theorem mem_mapM {γ δ : Type} {f : γ → Option δ} {items : List γ} {values : List δ}
    (mapped : items.mapM f = some values) (value : δ) :
    value ∈ values ↔ ∃ item ∈ items, f item = some value := by
  induction items generalizing values with
  | nil =>
    have empty : values = [] := (some.inj mapped).symm
    simp [empty]
  | cons item rest ih =>
    rw [mapM_cons] at mapped
    cases first : f item with
    | none =>
      rw [first] at mapped
      cases mapped
    | some head =>
      cases others : rest.mapM f with
      | none =>
        rw [first, others] at mapped
        cases mapped
      | some tail =>
        rw [first, others] at mapped
        have split : values = head :: tail := (some.inj mapped).symm
        simp only [split, mem_cons, ih others, or_and_right, exists_or, exists_eq_left, first,
          some.injEq]
        exact or_congr eq_comm Iff.rfl

theorem mem_preorder_iff {fuel : Nat} {node : α} {listed : List α}
    (done : descend children preorder fuel node = some listed) (value : α) :
    value ∈ listed ↔ Relation.TransGen (IsChild children) value node := by
  induction fuel generalizing node listed with
  | zero => cases done
  | succ fuel ih =>
    rw [descend_succ, map_eq_some_iff] at done
    have ⟨found, mapped, joined⟩ := done
    have children_found : ∀ entry : α × List α, entry ∈ found ↔
        entry.1 ∈ children node ∧ descend children preorder fuel entry.1 = some entry.2 := by
      intro entry
      rw [mem_mapM mapped]
      simp only [map_eq_some_iff]
      constructor
      · rintro ⟨child, among, below, isBelow, rfl⟩
        exact ⟨among, isBelow⟩
      · rintro ⟨among, isBelow⟩
        exact ⟨entry.1, among, entry.2, isBelow, rfl⟩
    rw [← joined, preorder, mem_flatMap]
    constructor
    · rintro ⟨entry, among, isValue⟩
      have ⟨isChild, isBelow⟩ := (children_found entry).1 among
      rcases mem_cons.1 isValue with isEntry | later
      · exact isEntry ▸ Relation.TransGen.single isChild
      · exact ((ih isBelow).1 later).tail isChild
    · intro path
      have visited : ∀ child ∈ children node, ∃ below,
          descend children preorder fuel child = some below := by
        intro child among
        have all := (mapM_isSome _ _).1 (show ((children node).mapM fun child =>
          (descend children preorder fuel child).map fun below => (child, below)).isSome by
            rw [mapped]; rfl) child among
        rw [isSome_map] at all
        exact isSome_iff_exists.1 all
      rcases Relation.TransGen.tail'_iff.1 path with ⟨child, upTo, isChild⟩
      have ⟨below, isBelow⟩ := visited child isChild
      refine ⟨(child, below), (children_found _).2 ⟨isChild, isBelow⟩, ?_⟩
      rcases Relation.reflTransGen_iff_eq_or_transGen.1 upTo with same | strictly
      · exact same ▸ mem_cons_self
      · exact mem_cons_of_mem _ ((ih isBelow).2 strictly)

end Preorder

section Edges

variable {below after : α → α → Prop}

theorem wellFounded_of_new_edge (ends : WellFounded below) {child parent : α}
    (added : ∀ left right, after left right → below left right ∨ left = child ∧ right = parent)
    (apart : ¬ Relation.ReflTransGen below parent child) : WellFounded after := by
  -- what the parent is not below does not see the new edge
  have unseen : ∀ node, ¬ Relation.ReflTransGen below parent node → Acc after node := by
    intro node
    induction node using ends.induction with
    | _ node ih =>
      intro notBelow
      apply Acc.intro
      intro other edge
      rcases added other node edge with old | ⟨-, isParent⟩
      · exact ih other old fun path => notBelow (path.tail old)
      · exact absurd (isParent ▸ Relation.ReflTransGen.refl) notBelow
  constructor
  intro node
  induction node using ends.induction with
  | _ node ih =>
    apply Acc.intro
    intro other edge
    rcases added other node edge with old | ⟨isChild, -⟩
    · exact ih other old
    · exact isChild ▸ unseen child apart

end Edges

end Yunetas.Descent
