import Mathlib.Data.List.Sort
import Mathlib.Data.List.TakeWhile

/-!
# Scans that may stop early

A scan visits the elements of a list in order, keeps those that pass a test and gives up at
the first one that raises an end flag. Where the elements carry a strictly increasing key, the
result is a sublist cut by a condition on each element, so two scans agree exactly when their
conditions agree element by element.
-/

namespace Yunetas

open List Bool

variable {α : Type}

/-- Elements in the strict order of an integer key. -/
abbrev Ascending (key : α → Int) (list : List α) : Prop :=
  list.Pairwise (fun left right => key left < key right)

variable {key : α → Int} {list : List α}

theorem Ascending.eq_of_key (sorted : Ascending key list)
    {left right : α} (leftIn : left ∈ list) (rightIn : right ∈ list)
    (same : key left = key right) : left = right := by
  induction list with
  | nil => exact absurd leftIn not_mem_nil
  | cons head rest ih =>
    have ⟨headLt, restSorted⟩ := pairwise_cons.1 sorted
    rcases mem_cons.1 leftIn with rfl | leftRest <;>
      rcases mem_cons.1 rightIn with rfl | rightRest
    · rfl
    · exact absurd same (ne_of_lt (headLt right rightRest))
    · exact absurd same (ne_of_gt (headLt left leftRest))
    · exact ih restSorted leftRest rightRest

/-- Visit a list in order, keep the elements that pass, stop after the first that ends it. -/
def scan (keep stop : α → Bool) : List α → List α
  | [] => []
  | head :: rest =>
    (if keep head then [head] else []) ++ (if stop head then [] else scan keep stop rest)

theorem scan_eq_filter {keep stop : α → Bool}
    (exclusive : ∀ element ∈ list, stop element = true → keep element = false) :
    scan keep stop list = (list.takeWhile (fun element => !stop element)).filter keep := by
  induction list with
  | nil => rfl
  | cons head rest ih =>
    have restExclusive := fun element inRest => exclusive element (mem_cons_of_mem head inRest)
    cases ends : stop head with
    | true =>
      have dropped := exclusive head mem_cons_self ends
      simp [scan, ends, dropped]
    | false =>
      cases kept : keep head <;> simp [scan, ends, kept, ih restExclusive]

theorem mem_takeWhile_iff_split {test : α → Bool} {element : α} :
    element ∈ list.takeWhile test ↔ ∃ before after, list = before ++ element :: after ∧
      test element = true ∧ ∀ other ∈ before, test other = true := by
  constructor
  · intro inside
    have ⟨before, later, split⟩ := append_of_mem inside
    have whole := (takeWhile_append_dropWhile (p := test) (l := list)).symm
    have passes : ∀ other ∈ list.takeWhile test, test other = true :=
      fun other among => mem_takeWhile_imp among
    refine ⟨before, later ++ list.dropWhile test, ?_, passes element inside, fun other among => ?_⟩
    · rw [split, append_assoc] at whole
      exact whole
    · exact passes other (by rw [split]; exact mem_append_left _ among)
  · rintro ⟨before, after, rfl, passes, all⟩
    rw [takeWhile_append_of_pos all, takeWhile_cons, if_pos passes]
    exact mem_append_right _ mem_cons_self

/-- The part of an ascending list before the first failure: what passes with all before it. -/
theorem mem_takeWhile (sorted : Ascending key list) (test : α → Bool) (element : α) :
    element ∈ list.takeWhile test ↔
      element ∈ list ∧ ∀ other ∈ list, key other ≤ key element → test other = true := by
  induction list with
  | nil => simp
  | cons head rest ih =>
    have ⟨headLt, restSorted⟩ := pairwise_cons.1 sorted
    rw [takeWhile_cons]
    cases passes : test head with
    | true =>
      simp only [if_true, mem_cons]
      constructor
      · rintro (rfl | inside)
        · refine ⟨Or.inl rfl, fun other among low => ?_⟩
          rcases among with rfl | inRest
          · exact passes
          · have := headLt other inRest
            omega
        · have ⟨inRest, before⟩ := (ih restSorted).1 inside
          refine ⟨Or.inr inRest, fun other among low => ?_⟩
          rcases among with rfl | otherRest
          · exact passes
          · exact before other otherRest low
      · rintro ⟨rfl | inRest, before⟩
        · exact Or.inl rfl
        · exact Or.inr ((ih restSorted).2 ⟨inRest, fun other otherRest low =>
            before other (Or.inr otherRest) low⟩)
    | false =>
      simp only [false_eq_true, if_false, not_mem_nil, false_iff, mem_cons]
      rintro ⟨rfl | inRest, before⟩
      · have := before element (Or.inl rfl) le_rfl
        simp [passes] at this
      · have := before head (Or.inl rfl) (le_of_lt (headLt element inRest))
        simp [passes] at this

theorem mem_scan {keep stop : α → Bool} (sorted : Ascending key list)
    (exclusive : ∀ element ∈ list, stop element = true → keep element = false) (element : α) :
    element ∈ scan keep stop list ↔ element ∈ list ∧ keep element = true ∧
        ∀ other ∈ list, key other < key element → stop other = false := by
  rw [scan_eq_filter exclusive, mem_filter, mem_takeWhile sorted]
  constructor
  · rintro ⟨⟨inside, before⟩, kept⟩
    refine ⟨inside, kept, fun other among low => ?_⟩
    simpa using before other among (le_of_lt low)
  · rintro ⟨inside, kept, before⟩
    refine ⟨⟨inside, fun other among low => ?_⟩, kept⟩
    rcases lt_or_eq_of_le low with lower | same
    · simp [before other among lower]
    · obtain rfl := sorted.eq_of_key among inside same
      cases ends : stop other with
      | true => simp [exclusive other among ends] at kept
      | false => rfl

theorem scan_sublist (keep stop : α → Bool) (list : List α) :
    (scan keep stop list).Sublist list := by
  induction list with
  | nil => exact List.Sublist.slnil
  | cons head rest ih =>
    cases kept : keep head <;> cases ends : stop head <;>
      simp only [scan, kept, ends, false_eq_true, if_false, if_true, nil_append, singleton_append]
    · exact ih.cons head
    · exact nil_sublist _
    · exact ih.cons_cons head
    · exact (nil_sublist rest).cons_cons head

theorem scan_append (keep stop : α → Bool) (left right : List α) :
    scan keep stop (left ++ right) =
      scan keep stop left ++ if left.any stop then [] else scan keep stop right := by
  induction left with
  | nil => simp [scan]
  | cons head rest ih =>
    cases ends : stop head <;> simp [scan, ends, ih]

theorem Ascending.ext {left right : List α} (leftSorted : Ascending key left)
    (rightSorted : Ascending key right) : left = right ↔ ∀ element, element ∈ left ↔
      element ∈ right := by
  constructor
  · rintro rfl element
    rfl
  · intro same
    exact leftSorted.eq_of_mem_iff rightSorted (fun {element} => same element)

theorem find?_of_pairwise {before : α → α → Prop} {test : α → Bool} {first : α}
    (ordered : list.Pairwise before) (found : list.find? test = some first) {other : α}
    (among : other ∈ list) : test other = false ∨ other = first ∨ before first other := by
  obtain ⟨-, earlier, later, rfl, failed⟩ := find?_eq_some_iff_append.1 found
  rcases mem_append.1 among with inEarlier | inLater
  · exact Or.inl (by simpa using failed other inEarlier)
  · rcases mem_cons.1 inLater with same | after
    · exact Or.inr (Or.inl same)
    · have order := (pairwise_append.1 ordered).2.1
      exact Or.inr (Or.inr ((pairwise_cons.1 order).1 other after))

theorem ascending_windows {pages : Nat → List α} {limit : Nat}
    (ascending : ∀ page, Ascending key (pages page))
    (within : ∀ page, ∀ element ∈ pages page,
      (page * limit : Int) < key element ∧ key element ≤ page * limit + limit) (count : Nat) :
    Ascending key ((List.range count).flatMap pages) := by
  apply pairwise_flatMap.2
  refine ⟨fun page _ => ascending page, pairwise_lt_range.imp ?_⟩
  intro page next order left inPage right inNext
  have high := (within page left inPage).2
  have low := (within next right inNext).1
  have apart : ((page : Int) + 1) * limit ≤ next * limit :=
    Int.mul_le_mul_of_nonneg_right (by omega) (Int.natCast_nonneg limit)
  rw [Int.add_mul, Int.one_mul] at apart
  omega

/-! ## Chains of blocks -/

section

variable {β ρ : Type} {lo hi : β → Int} {items : β → List ρ} {place : ρ → Int}
  {blocks before after : List β} {block : β} {element : ρ}

/-- The blocks that go on from a number with no gap and no empty one between. -/
def chain (lo hi : β → Int) (next : Int) : List β → List β
  | [] => []
  | block :: rest =>
    if lo block = next ∧ lo block ≤ hi block then block :: chain lo hi (hi block + 1) rest else []

/-- Blocks in order, each with a range for the places of its elements. -/
structure Ranged (lo hi : β → Int) (items : β → List ρ) (place : ρ → Int) (blocks : List β) :
    Prop where
  closed : ∀ block ∈ blocks, lo block ≤ hi block + 1
  within : ∀ block ∈ blocks, ∀ element ∈ items block,
    lo block ≤ place element ∧ place element ≤ hi block
  ordered : blocks.Pairwise fun left right => hi left < lo right

/-- From one number to another every number is in a block, and no empty block stands between. -/
structure Bridged (lo hi : β → Int) (blocks : List β) (low high : Int) : Prop where
  numbered : ∀ number, low ≤ number → number ≤ high →
    ∃ block ∈ blocks, lo block ≤ number ∧ number ≤ hi block
  filled : ∀ block ∈ blocks, hi block < lo block → lo block ≤ low ∨ high < lo block

theorem Ranged.sublist (ranged : Ranged lo hi items place blocks) (part : after.Sublist blocks) :
    Ranged lo hi items place after where
  closed block among := ranged.closed block (part.subset among)
  within block among := ranged.within block (part.subset among)
  ordered := ranged.ordered.sublist part

theorem Ranged.mem_range (ranged : Ranged lo hi items place blocks)
    (inside : element ∈ blocks.flatMap items) :
    ∃ block ∈ blocks, element ∈ items block ∧ lo block ≤ place element ∧
      place element ≤ hi block := by
  have ⟨block, among, row⟩ := mem_flatMap.1 inside
  exact ⟨block, among, row, ranged.within block among element row⟩

theorem mem_chain {next : Int} (ranged : Ranged lo hi items place blocks)
    (above : ∀ block ∈ blocks, next ≤ lo block) :
    element ∈ (chain lo hi next blocks).flatMap items ↔ element ∈ blocks.flatMap items ∧
        (∀ number, next ≤ number → number ≤ place element →
          ∃ block ∈ blocks, lo block ≤ number ∧ number ≤ hi block) ∧
        ∀ block ∈ blocks, hi block < lo block → place element < lo block := by
  induction blocks generalizing next with
  | nil => simp [chain]
  | cons first rest ih =>
    have ⟨later, _⟩ := pairwise_cons.1 ranged.ordered
    have restRanged := ranged.sublist (sublist_cons_self first rest)
    have start := above first mem_cons_self
    have inFirst := ranged.within first mem_cons_self element
    have inRest (inside : element ∈ rest.flatMap items) : hi first < place element := by
      have ⟨block, among, _, low, _⟩ := restRanged.mem_range inside
      have after := later block among
      omega
    rw [chain, flatMap_cons, mem_append]
    by_cases goes : lo first = next ∧ lo first ≤ hi first
    · have ahead : ∀ block ∈ rest, hi first + 1 ≤ lo block := later
      rw [if_pos goes, flatMap_cons, mem_append, ih restRanged ahead]
      constructor
      · rintro (row | ⟨inside, joined, filled⟩)
        · have range := inFirst row
          refine ⟨Or.inl row, fun number low high => ?_, fun block among empty => ?_⟩
          · exact ⟨first, mem_cons_self, by omega, by omega⟩
          · rcases mem_cons.1 among with rfl | there
            · omega
            · have after := later block there
              omega
        · refine ⟨Or.inr inside, fun number low high => ?_, fun block among empty => ?_⟩
          · by_cases within : number ≤ hi first
            · exact ⟨first, mem_cons_self, by omega, within⟩
            · have ⟨block, among, range⟩ := joined number (by omega) high
              exact ⟨block, mem_cons_of_mem first among, range⟩
          · rcases mem_cons.1 among with rfl | there
            · omega
            · exact filled block there empty
      · rintro ⟨row | inside, joined, filled⟩
        · exact Or.inl row
        · refine Or.inr ⟨inside, fun number low high => ?_, fun block there =>
            filled block (mem_cons_of_mem first there)⟩
          have ⟨block, among, range⟩ := joined number (by omega) high
          rcases mem_cons.1 among with rfl | there
          · omega
          · exact ⟨block, there, range⟩
    · rw [if_neg goes, flatMap_nil]
      refine iff_of_false not_mem_nil ?_
      rintro ⟨inside, joined, filled⟩
      have lowest : next ≤ place element := by
        rcases inside with row | inside
        · have range := inFirst row
          omega
        · have past := inRest inside
          have shut := ranged.closed first mem_cons_self
          omega
      have ⟨block, among, range⟩ := joined next (Int.le_refl next) lowest
      rcases mem_cons.1 among with rfl | there
      · omega
      · -- the first block is empty, and the element is not before it
        have after := later block there
        have shut := ranged.closed first mem_cons_self
        have past := filled first mem_cons_self (by omega)
        rcases inside with row | inside
        · omega
        · omega

/-- The elements of a block from a number on, and of the chain behind the block: those joined to
that number. -/
theorem mem_chain_from {start : Int} (ranged : Ranged lo hi items place (before ++ block :: after))
    (low : lo block ≤ start) (high : start ≤ hi block) :
    (element ∈ items block ∧ start ≤ place element) ∨
        element ∈ (chain lo hi (hi block + 1) after).flatMap items ↔
      element ∈ (before ++ block :: after).flatMap items ∧ start ≤ place element ∧
        Bridged lo hi (before ++ block :: after) start (place element) := by
  have ⟨_, orderedAfter, across⟩ := pairwise_append.1 ranged.ordered
  have ⟨later, _⟩ := pairwise_cons.1 orderedAfter
  have earlier : ∀ other ∈ before, hi other < lo block :=
    fun other among => across other among block mem_cons_self
  have restRanged : Ranged lo hi items place after := ranged.sublist
    ((sublist_cons_self block after).trans (sublist_append_right before _))
  have member (other : β) (among : other ∈ before ++ block :: after) :
      (lo other ≤ hi other + 1 ∧ hi other < lo block) ∨ other = block ∨ other ∈ after := by
    rcases mem_append.1 among with first | others
    · exact Or.inl ⟨ranged.closed other among, earlier other first⟩
    · exact Or.inr (mem_cons.1 others)
  have behind (other : β) (among : other ∈ after) : other ∈ before ++ block :: after :=
    mem_append_right _ (mem_cons_of_mem _ among)
  rw [mem_chain restRanged fun other among => later other among]
  constructor
  · rintro (⟨row, from_start⟩ | ⟨inside, joined, filled⟩)
    · have bounds := ranged.within block (by simp) element row
      refine ⟨mem_flatMap.2 ⟨block, by simp, row⟩, from_start, fun number bottom top => ?_,
        fun other among empty => ?_⟩
      · exact ⟨block, by simp, by omega, by omega⟩
      · rcases member other among with _ | rfl | last
        · omega
        · omega
        · have past := later other last
          omega
    · have ⟨owner, among, row, bottom, _⟩ := restRanged.mem_range inside
      have past := later owner among
      refine ⟨mem_flatMap.2 ⟨owner, behind owner among, row⟩, by omega,
        fun number from_start top => ?_, fun other there empty => ?_⟩
      · by_cases within : number ≤ hi block
        · exact ⟨block, by simp, by omega, within⟩
        · have ⟨other, there, held⟩ := joined number (by omega) top
          exact ⟨other, behind other there, held⟩
      · rcases member other there with _ | rfl | last
        · omega
        · omega
        · exact Or.inr (filled other last empty)
  · rintro ⟨inside, from_start, joined⟩
    have ⟨owner, among, row, bottom, top⟩ := ranged.mem_range inside
    rcases member owner among with _ | rfl | last
    · omega
    · exact Or.inl ⟨row, from_start⟩
    · have past := later owner last
      refine Or.inr ⟨mem_flatMap.2 ⟨owner, last, row⟩, fun number low top => ?_,
        fun other there empty => ?_⟩
      · have ⟨other, there, held⟩ := joined.numbered number (by omega) top
        rcases member other there with _ | rfl | there
        · omega
        · omega
        · exact ⟨other, there, held⟩
      · have past := later other there
        have apart := joined.filled other (behind other there) empty
        omega

theorem take_drop_numbered {key : ρ → Int} {list : List ρ} {base : Int}
    (numbered : ∀ (position : Nat) element, list[position]? = some element →
      key element = base + position) (count : Nat) :
    list.take count = list.filter (fun element => key element < base + count) ∧
      list.drop count = list.filter fun element => base + count ≤ key element := by
  have taken (element : ρ) (among : element ∈ list.take count) : key element < base + count := by
    have ⟨position, there⟩ := mem_iff_getElem?.1 among
    rw [getElem?_take] at there
    split at there
    · have known := numbered position element there
      omega
    · cases there
  have dropped (element : ρ) (among : element ∈ list.drop count) : base + count ≤ key element := by
    have ⟨position, there⟩ := mem_iff_getElem?.1 among
    rw [getElem?_drop] at there
    have known := numbered (count + position) element there
    omega
  have split (test : ρ → Bool) : list.filter test =
      (list.take count).filter test ++ (list.drop count).filter test := by
    rw [← filter_append, take_append_drop]
  constructor
  · rw [split, filter_eq_self.2 fun element among => decide_eq_true (taken element among),
      filter_eq_nil_iff.2 fun element among => by simpa using dropped element among,
      append_nil]
  · rw [split, filter_eq_nil_iff.2 fun element among => by simpa using taken element among,
      filter_eq_self.2 fun element among => decide_eq_true (dropped element among),
      nil_append]

end

theorem map_eq_map_iff {β : Type} {image : α → β} {left right : List α}
    (apart : ∀ one ∈ left, ∀ other ∈ right, image one = image other → one = other) :
    left.map image = right.map image ↔ left = right := by
  constructor
  · intro same
    induction left generalizing right with
    | nil => exact (map_eq_nil_iff.1 same.symm).symm
    | cons one rest ih =>
      cases right with
      | nil => cases same
      | cons other others =>
        have ⟨here, later⟩ := List.cons.inj same
        have first := apart one mem_cons_self other mem_cons_self here
        have tail := ih (fun left inLeft right inRight => apart left (mem_cons_of_mem _ inLeft)
          right (mem_cons_of_mem _ inRight)) later
        rw [first, tail]
  · exact fun same => congrArg (List.map image) same

end Yunetas
