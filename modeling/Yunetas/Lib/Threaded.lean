import Mathlib.Data.List.Nodup
/-!
# Sequences threaded through two links

A sequence is threaded through a pair of partial link functions when the first sends each of its
members to the member after it and the second to the member before it. Reading it backward is
reading its reverse with the links exchanged, so a fact about one end is a fact about the other.
-/

namespace Yunetas.Lib

open List

variable {ι : Type} {next prev next' prev' : ι → Option ι} {seq left right : List ι} {item : ι}

/-- Each member's links lead to its neighbours in the sequence. -/
def Threaded (next prev : ι → Option ι) (seq : List ι) : Prop :=
  ∀ left item right, seq = left ++ item :: right →
    prev item = left.getLast? ∧ next item = right.head?

/-- Follows a link from a place until it leads nowhere; `none` when `fuel` ends before. -/
def follow (link : ι → Option ι) : Nat → Option ι → Option (List ι)
  | _, .none => .some []
  | 0, .some _ => .none
  | fuel + 1, .some item => (follow link fuel (link item)).map (item :: ·)

theorem Threaded.nil : Threaded next prev [] := by
  intro left item right split
  simp at split

theorem Threaded.reverse (threaded : Threaded next prev seq) : Threaded prev next seq.reverse := by
  intro left item right split
  have mirrored : seq = right.reverse ++ item :: left.reverse := by
    rw [← reverse_reverse seq, split]
    simp
  have links := threaded _ _ _ mirrored
  rw [getLast?_reverse, head?_reverse] at links
  exact links.symm

theorem Threaded.follow_right (threaded : Threaded next prev seq) :
    ∀ {right left : List ι}, seq = left ++ right → ∀ fuel, right.length ≤ fuel →
      follow next fuel right.head? = some right
  | [], _, _, fuel, _ => by cases fuel <;> rfl
  | item :: right, left, split, 0, enough => by simp at enough
  | item :: right, left, split, fuel + 1, enough => by
      have link := (threaded left item right split).2
      have rest : follow next fuel right.head? = some right :=
        threaded.follow_right (by simpa using split : seq = (left ++ [item]) ++ right) fuel
          (by simpa using enough)
      simp [follow, link, rest]

theorem Threaded.forward (threaded : Threaded next prev seq) {fuel : Nat}
    (enough : seq.length ≤ fuel) : follow next fuel seq.head? = some seq :=
  threaded.follow_right (nil_append seq).symm fuel enough

theorem Threaded.backward (threaded : Threaded next prev seq) {fuel : Nat}
    (enough : seq.length ≤ fuel) : follow prev fuel seq.getLast? = some seq.reverse := by
  have read := threaded.reverse.forward (by simpa using enough : seq.reverse.length ≤ fuel)
  rwa [head?_reverse] at read

theorem Threaded.congr (threaded : Threaded next prev seq)
    (nexts : ∀ item ∈ seq, next' item = next item)
    (prevs : ∀ item ∈ seq, prev' item = prev item) : Threaded next' prev' seq := by
  intro left item right split
  have member : item ∈ seq := by simp [split]
  rw [nexts item member, prevs item member]
  exact threaded left item right split

theorem Threaded.append (threaded : Threaded next prev seq)
    (itemNext : next' item = none) (itemPrev : prev' item = seq.getLast?)
    (prevs : ∀ other ∈ seq, prev' other = prev other)
    (lastNext : ∀ last, seq.getLast? = some last → next' last = some item)
    (nexts : ∀ other ∈ seq, seq.getLast? ≠ some other → next' other = next other)
    (once : seq.Nodup) : Threaded next' prev' (seq ++ [item]) := by
  intro left other right split
  rcases eq_nil_or_concat right with rfl | ⟨right, last, rfl⟩
  · have ⟨same, itself⟩ : seq = left ∧ item = other := by simpa using split
    subst same itself
    exact ⟨itemPrev, itemNext⟩
  · have ⟨within, itself⟩ : seq = left ++ other :: right ∧ item = last := by
      have shape : seq ++ [item] = (left ++ other :: right) ++ [last] := by simpa using split
      simpa using append_inj' shape rfl
    have links := threaded left other right within
    have member : other ∈ seq := by simp [within]
    refine ⟨(prevs other member).trans links.1, ?_⟩
    cases right with
    | nil =>
      rw [lastNext other (by simp [within]), itself]
      rfl
    | cons following right =>
      have inner : seq.getLast? ≠ some other := by
        intro ends
        have later : other ∈ following :: right := by
          rw [within] at ends
          have ends' : (following :: right).getLast? = some other := by simpa using ends
          exact mem_of_getLast? ends'
        rw [within] at once
        have apart := (nodup_append.1 once).2.1
        exact (nodup_cons.1 apart).1 later
      rw [nexts other member inner, links.2]
      rfl

theorem Threaded.remove (threaded : Threaded next prev (left ++ item :: right))
    (leftNext : ∀ last, left.getLast? = some last → next' last = right.head?)
    (rightPrev : ∀ head, right.head? = some head → prev' head = left.getLast?)
    (nexts : ∀ other ∈ left ++ right, left.getLast? ≠ some other → next' other = next other)
    (prevs : ∀ other ∈ left ++ right, right.head? ≠ some other → prev' other = prev other)
    (once : (left ++ item :: right).Nodup) : Threaded next' prev' (left ++ right) := by
  have apart : ∀ other ∈ left, other ∉ right := by
    intro other before after
    exact (nodup_append.1 once).2.2 other before other (by simp [after]) rfl
  intro before other after split
  have member : other ∈ left ++ right := by simp [split]
  rcases append_eq_append_iff.1 split with ⟨middle, rfl, rest⟩ | ⟨middle, rfl, rest⟩
  · -- the other member stands behind the one taken out
    have links := threaded (left ++ item :: middle) other after (by simp [rest])
    have behind : other ∈ right := by simp [rest]
    have notLast : left.getLast? ≠ some other := fun last =>
      apart other (mem_of_getLast? last) behind
    refine ⟨?_, (nexts other member notLast).trans links.2⟩
    cases middle with
    | nil => simpa using rightPrev other (by simp [rest])
    | cons first middle =>
      have notHead : right.head? ≠ some other := by
        intro head
        have same : first = other := by simpa [rest] using head
        have twice := (nodup_append.1 once).2.1
        simp [rest, same] at twice
      rw [prevs other member notHead, links.1]
      simp [getLast?_append, getLast?_cons]
  · cases middle with
    | nil =>
      have within : right = other :: after := by simpa using rest.symm
      have links := threaded (before ++ [item]) other after (by simp [within])
      have notLast : before.getLast? ≠ some other := fun last =>
        apart other (by simpa using mem_of_getLast? last) (by simp [within])
      refine ⟨by simpa using rightPrev other (by simp [within]), ?_⟩
      rw [nexts other member (by simpa using notLast), links.2]
    | cons same middle =>
      have ⟨itself, within⟩ : other = same ∧ after = middle ++ right := by simpa using rest
      subst itself within
      have links := threaded before other (middle ++ item :: right) (by simp)
      have notHead : right.head? ≠ some other := fun head =>
        apart other (by simp) (mem_of_head? head)
      refine ⟨(prevs other member notHead).trans links.1, ?_⟩
      cases middle with
      | nil => simpa using leftNext other (by simp)
      | cons following middle =>
        have notLast : (before ++ other :: following :: middle).getLast? ≠ some other := by
          intro last
          have later : other ∈ following :: middle := by
            have ends : (following :: middle).getLast? = some other := by simpa using last
            exact mem_of_getLast? ends
          have twice := (nodup_append.1 (nodup_append.1 once).1).2.1
          exact (nodup_cons.1 twice).1 later
        rw [nexts other member notLast, links.2]
        rfl

end Yunetas.Lib
