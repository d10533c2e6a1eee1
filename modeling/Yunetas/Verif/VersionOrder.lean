import Mathlib
import Yunetas.Gobj.Helpers

/-!
# The order of versions

A version stands for the sequence of its numbers with zeros behind the last one, and `version_cmp`
is the lexicographic comparison of these sequences, a linear order. So versions are preordered, two
of them compare equal when their numbers are the same up to zeros at the end, and the first number
that differs decides whatever comes later.
-/

namespace Yunetas.Gobj

open List Option

/-- What a version stands for: its numbers as `version_cmp` reads them, then zeros. -/
def versionSequence (version : List Char) : Lex (ℕ → ℤ) :=
  toLex (segmentNumber (versionSegments version))

/-- The numbers of a version, of any size. -/
def versionNumbers (version : List Char) : List Int :=
  (versionSegments version).map (leadingNumber 10)

/-- The numbers of a version fit in a `long`. -/
def NumbersFit (version : List Char) : Prop :=
  ∀ number ∈ versionNumbers version, -2 ^ 63 ≤ number ∧ number < 2 ^ 63

instance (version : List Char) : Decidable (NumbersFit version) :=
  inferInstanceAs (Decidable (∀ _ ∈ _, _ ∧ _))

/-- The number of a version at a place, zero where it has none. -/
def numberAt (version : List Char) (i : Nat) : Int := (versionNumbers version).getD i 0

/-- The same numbers up to zeros at the end. -/
def SameNumbers (version1 version2 : List Char) : Prop :=
  ∃ zeros1 zeros2 : Nat, versionNumbers version1 ++ List.replicate zeros1 0 =
    versionNumbers version2 ++ List.replicate zeros2 0

theorem segmentNumber_beyond {segments : List (List Char)} {i : Nat}
    (beyond : segments.length ≤ i) : segmentNumber segments i = 0 := by
  unfold segmentNumber
  rw [dif_neg (by omega)]

theorem segmentNumber_of_fit {version : List Char} (fit : NumbersFit version) (i : Nat) :
    segmentNumber (versionSegments version) i = numberAt version i := by
  by_cases inside : i < (versionSegments version).length
  · have among : leadingNumber 10 (versionSegments version)[i] ∈ versionNumbers version :=
      mem_map_of_mem (getElem_mem inside)
    have bounds := fit _ among
    have read := atol_of_fits bounds.1 bounds.2
    unfold segmentNumber numberAt versionNumbers
    rw [dif_pos inside, read, getD_eq_getElem?_getD, getElem?_map,
      getElem?_eq_getElem inside, map_some, getD_some]
  · have long : (versionNumbers version).length ≤ i := by
      unfold versionNumbers
      rw [length_map]
      omega
    unfold numberAt
    rw [segmentNumber_beyond (by omega), getD_eq_getElem?_getD,
      getElem?_eq_none long, getD_none]

theorem versionCmp_sequence (version1 version2 : List Char) :
    (versionCmp version1 version2 = -1 ∧ versionSequence version1 < versionSequence version2) ∨
    (versionCmp version1 version2 = 0 ∧ versionSequence version1 = versionSequence version2) ∨
    (versionCmp version1 version2 = 1 ∧ versionSequence version2 < versionSequence version1) := by
  unfold versionCmp
  dsimp only
  split
  · rename_i i found
    have first := find?_range_eq_some.1 found
    have differs : segmentNumber (versionSegments version1) i ≠
        segmentNumber (versionSegments version2) i := by simpa using first.1
    have before : ∀ j < i, segmentNumber (versionSegments version1) j =
        segmentNumber (versionSegments version2) j := by
      intro j earlier
      simpa using first.2.2 j earlier
    rcases lt_or_gt_of_ne differs with less | greater
    · exact .inl ⟨if_pos less, i, before, less⟩
    · exact .inr (.inr ⟨if_neg (lt_asymm greater), i, fun j earlier => (before j earlier).symm,
        greater⟩)
  · rename_i same
    have equal : segmentNumber (versionSegments version1) =
        segmentNumber (versionSegments version2) := by
      funext i
      by_cases inside : i < max (versionSegments version1).length (versionSegments version2).length
      · simpa using find?_range_eq_none.1 same i inside
      · rw [segmentNumber_beyond (by omega), segmentNumber_beyond (by omega)]
    exact .inr (.inl ⟨rfl, congrArg toLex equal⟩)

theorem versionCmp_le_iff (version1 version2 : List Char) :
    versionCmp version1 version2 ≤ 0 ↔ versionSequence version1 ≤ versionSequence version2 := by
  rcases versionCmp_sequence version1 version2 with less | equal | greater
  · rw [less.1]
    exact iff_of_true (by decide) less.2.le
  · rw [equal.1]
    exact iff_of_true (le_refl _) equal.2.le
  · rw [greater.1]
    exact iff_of_false (by decide) (not_le_of_gt greater.2)

theorem versionCmp_eq_iff (version1 version2 : List Char) :
    versionCmp version1 version2 = 0 ↔ versionSequence version1 = versionSequence version2 := by
  rcases versionCmp_sequence version1 version2 with less | equal | greater
  · rw [less.1]
    exact iff_of_false (by decide) less.2.ne
  · exact iff_of_true equal.1 equal.2
  · rw [greater.1]
    exact iff_of_false (by decide) greater.2.ne'

theorem versionCmp_less {version1 version2 : List Char}
    (less : versionSequence version1 < versionSequence version2) :
    versionCmp version1 version2 = -1 := by
  rcases versionCmp_sequence version1 version2 with same | equal | greater
  · exact same.1
  · exact absurd equal.2 less.ne
  · exact absurd greater.2 (lt_asymm less)

theorem versionCmp_swap (version1 version2 : List Char) :
    versionCmp version2 version1 = -versionCmp version1 version2 := by
  rcases versionCmp_sequence version1 version2 with less | equal | greater
  · rcases versionCmp_sequence version2 version1 with other | other | other
    · exact absurd other.2 (lt_asymm less.2)
    · exact absurd other.2 less.2.ne'
    · rw [less.1, other.1]
      rfl
  · rw [equal.1, (versionCmp_eq_iff version2 version1).2 equal.2.symm]
    rfl
  · rw [greater.1, versionCmp_less greater.2]

theorem getD_append_zeros (numbers : List Int) (zeros i : Nat) :
    (numbers ++ List.replicate zeros 0).getD i 0 = numbers.getD i 0 := by
  rw [getD_eq_getElem?_getD, getD_eq_getElem?_getD]
  by_cases inside : i < numbers.length
  · rw [getElem?_append_left inside]
  · rw [getElem?_append_right (by omega), getElem?_eq_none (l := numbers) (by omega),
      getElem?_replicate]
    split
    · rfl
    · rfl

theorem sameNumbers_iff (version1 version2 : List Char) :
    SameNumbers version1 version2 ↔ ∀ i, numberAt version1 i = numberAt version2 i := by
  constructor
  · intro same i
    have padded := same.choose_spec.choose_spec
    have read := congrArg (fun numbers => numbers.getD i 0) padded
    rwa [getD_append_zeros, getD_append_zeros] at read
  · intro same
    have lengths : (versionNumbers version1).length + (versionNumbers version2).length =
        (versionNumbers version2).length + (versionNumbers version1).length := Nat.add_comm _ _
    refine ⟨(versionNumbers version2).length, (versionNumbers version1).length, ?_⟩
    apply ext_getElem
    · rw [length_append, length_append, length_replicate, length_replicate, lengths]
    · intro i inside1 inside2
      have read1 := getD_append_zeros (versionNumbers version1) (versionNumbers version2).length i
      have read2 := getD_append_zeros (versionNumbers version2) (versionNumbers version1).length i
      rw [getD_eq_getElem _ _ inside1] at read1
      rw [getD_eq_getElem _ _ inside2] at read2
      rw [read1, read2]
      exact same i

/-- `version_cmp` is a total preorder of versions. Versions whose numbers fit compare equal exactly
when they have the same numbers up to zeros at the end, and the first number that differs decides
whatever comes later. -/
theorem version_order :
    (∀ version, versionCmp version version = 0) ∧
    (∀ version1 version2, versionCmp version2 version1 = -versionCmp version1 version2) ∧
    (∀ version1 version2 version3, versionCmp version1 version2 ≤ 0 →
      versionCmp version2 version3 ≤ 0 → versionCmp version1 version3 ≤ 0) ∧
    (∀ version1 version2, versionCmp version1 version2 ≤ 0 ∨ versionCmp version2 version1 ≤ 0) ∧
    (∀ version1 version2, NumbersFit version1 → NumbersFit version2 →
      (versionCmp version1 version2 = 0 ↔ SameNumbers version1 version2)) ∧
    (∀ version1 version2 i, NumbersFit version1 → NumbersFit version2 →
      (∀ j < i, numberAt version1 j = numberAt version2 j) →
      numberAt version1 i < numberAt version2 i →
      versionCmp version1 version2 < 0 ∧ 0 < versionCmp version2 version1) := by
  refine ⟨?reflexive, versionCmp_swap, ?transitive, ?total, ?equal, ?raised⟩
  case reflexive =>
    intro version
    exact (versionCmp_eq_iff version version).2 rfl
  case transitive =>
    intro version1 version2 version3 first second
    rw [versionCmp_le_iff] at first second ⊢
    exact first.trans second
  case total =>
    intro version1 version2
    rw [versionCmp_le_iff, versionCmp_le_iff]
    exact le_total _ _
  case equal =>
    intro version1 version2 fit1 fit2
    rw [versionCmp_eq_iff, sameNumbers_iff]
    constructor
    · intro same i
      have read : segmentNumber (versionSegments version1) i =
          segmentNumber (versionSegments version2) i := congrFun same i
      rwa [segmentNumber_of_fit fit1, segmentNumber_of_fit fit2] at read
    · intro same
      apply congrArg toLex
      funext i
      rw [segmentNumber_of_fit fit1, segmentNumber_of_fit fit2, same i]
  case raised =>
    intro version1 version2 i fit1 fit2 before raised
    have less : versionSequence version1 < versionSequence version2 := by
      refine ⟨i, fun j earlier => ?_, ?_⟩
      · have here := before j earlier
        rwa [← segmentNumber_of_fit fit1, ← segmentNumber_of_fit fit2] at here
      · rwa [← segmentNumber_of_fit fit1, ← segmentNumber_of_fit fit2] at raised
    have compared := versionCmp_less less
    have swapped := versionCmp_swap version1 version2
    omega

/-- The release that lost every comparison to an older one. -/
theorem version_order_revisions :
    versionCmp "1.9.0.0-2".toList "1.9.0.0-10".toList < 0 ∧
    0 < versionCmp "1.9.0.0-10".toList "1.9.0.0-2".toList :=
  version_order.2.2.2.2.2 "1.9.0.0-2".toList "1.9.0.0-10".toList 4 (by decide) (by decide)
    (by decide) (by decide)

end Yunetas.Gobj
