import Yunetas.Lib.Threaded
import Yunetas.Gobj.DlList
/-!
# The double link lists are sequences

What the lists are for: a sequence for every list, no item in two of them. The memory mirrors
such sequences when every list is threaded through the links of its items and every item names
the list it is in; each call keeps the two in step and returns the same result for both.
-/

namespace Yunetas.Gobj.Dl

open List Function Option

open Lib

variable {ι κ : Type} [DecidableEq ι] [DecidableEq κ]

/-- The lists as sequences. -/
abbrev Sequences (ι κ : Type) := κ → List ι

open Classical in
/-- What a call means for the sequences; `-1` is a refusal. -/
noncomputable def seqCall (lists : Sequences ι κ) : DlCall ι κ → Sequences ι κ × Int
  | .add dl item =>
      if ∃ owner, item ∈ lists owner then (lists, -1)
      else (Function.update lists dl (lists dl ++ [item]), 0)
  | .insert dl item =>
      if ∃ owner, item ∈ lists owner then (lists, -1)
      else (Function.update lists dl (item :: lists dl), 0)
  | .delete _ none => (lists, -1)
  | .delete dl (some item) =>
      if item ∈ lists dl then (Function.update lists dl ((lists dl).erase item), 0)
      else (lists, -1)
  | .flush dl => (Function.update lists dl [], 0)

/-- The calls one after the other on the sequences, with what each returned. -/
noncomputable def seqCalls (lists : Sequences ι κ) :
    List (DlCall ι κ) → Sequences ι κ × List Int
  | [] => (lists, [])
  | call :: rest =>
      let (left, result) := seqCall lists call
      let (final, results) := seqCalls left rest
      (final, result :: results)

def DlMemory.next (memory : DlMemory ι κ) (item : ι) : Option ι := (memory.items item).next

def DlMemory.prev (memory : DlMemory ι κ) (item : ι) : Option ι := (memory.items item).prev

/-- The memory holds the sequences. -/
structure Mirrors (memory : DlMemory ι κ) (lists : Sequences ι κ) : Prop where
  threaded : ∀ dl, Threaded memory.next memory.prev (lists dl)
  head : ∀ dl, (memory.lists dl).head = (lists dl).head?
  tail : ∀ dl, (memory.lists dl).tail = (lists dl).getLast?
  count : ∀ dl, (memory.lists dl).itemsInContainer = (lists dl).length
  owned : ∀ item dl, (memory.items item).dl = some dl ↔ item ∈ lists dl
  loose : ∀ item, (memory.items item).dl = none → memory.prev item = none ∧ memory.next item = none
  once : ∀ dl, (lists dl).Nodup

/-- What a reader of the lists sees: forward the sequences, backward their reverse, their
lengths, and no item in two lists. -/
structure Reads (memory : DlMemory ι κ) (lists : Sequences ι κ) : Prop where
  forward : ∀ dl fuel, (lists dl).length ≤ fuel →
    follow memory.next fuel (memory.lists dl).head = some (lists dl)
  backward : ∀ dl fuel, (lists dl).length ≤ fuel →
    follow memory.prev fuel (memory.lists dl).tail = some (lists dl).reverse
  count : ∀ dl, (memory.lists dl).itemsInContainer = (lists dl).length
  once : ∀ dl, (lists dl).Nodup
  single : ∀ item dl other, item ∈ lists dl → item ∈ lists other → dl = other

omit [DecidableEq ι] [DecidableEq κ] in
theorem Mirrors.reads {memory : DlMemory ι κ} {lists : Sequences ι κ}
    (mirrors : Mirrors memory lists) : Reads memory lists where
  forward dl fuel enough := by
    rw [mirrors.head]
    exact (mirrors.threaded dl).forward enough
  backward dl fuel enough := by
    rw [mirrors.tail]
    exact (mirrors.threaded dl).backward enough
  count := mirrors.count
  once := mirrors.once
  single item dl other inOne inOther := by
    have owner := (mirrors.owned item dl).2 inOne
    have owner' := (mirrors.owned item other).2 inOther
    exact some.inj (owner.symm.trans owner')

omit [DecidableEq ι] [DecidableEq κ] in
theorem mirrors_start : Mirrors ({} : DlMemory ι κ) (fun _ => []) where
  threaded _ := Threaded.nil
  head _ := rfl
  tail _ := rfl
  count _ := rfl
  owned _ _ := by simp
  loose _ _ := ⟨rfl, rfl⟩
  once _ := nodup_nil

section Step

variable {memory memory' : DlMemory ι κ} {lists : Sequences ι κ} {dl : κ} {item : ι} {seq : List ι}

/-- One list takes another sequence: what has to hold of its new members, of the members that
left, and of everything outside it. -/
theorem Mirrors.changed (mirrors : Mirrors memory lists)
    (threaded : Threaded memory'.next memory'.prev seq)
    (head : (memory'.lists dl).head = seq.head?) (tail : (memory'.lists dl).tail = seq.getLast?)
    (count : (memory'.lists dl).itemsInContainer = seq.length) (once : seq.Nodup)
    (others : ∀ other, other ≠ dl → memory'.lists other = memory.lists other)
    (inside : ∀ item ∈ seq, (memory'.items item).dl = some dl ∧
      ∀ other, item ∈ lists other → other = dl)
    (gone : ∀ item ∈ lists dl, item ∉ seq →
      (memory'.items item).dl = none ∧ memory'.prev item = none ∧ memory'.next item = none)
    (outside : ∀ item, item ∉ lists dl → item ∉ seq → memory'.items item = memory.items item) :
    Mirrors memory' (Function.update lists dl seq) := by
  have single := mirrors.reads.single
  have kept : ∀ other, other ≠ dl → ∀ item ∈ lists other, memory'.items item = memory.items item := by
    intro other apart item member
    apply outside
    · exact fun within => apart (single item other dl member within)
    · exact fun within => apart ((inside item within).2 other member)
  constructor
  case threaded =>
    intro other
    by_cases same : other = dl
    · simpa [same] using threaded
    · have nexts : ∀ item ∈ lists other, memory'.next item = memory.next item := by
        intro item member
        exact congrArg DlItem.next (kept other same item member)
      have prevs : ∀ item ∈ lists other, memory'.prev item = memory.prev item := by
        intro item member
        exact congrArg DlItem.prev (kept other same item member)
      simpa [same] using (mirrors.threaded other).congr nexts prevs
  case head =>
    intro other
    by_cases same : other = dl
    · simpa [same] using head
    · simpa [same, others other same] using mirrors.head other
  case tail =>
    intro other
    by_cases same : other = dl
    · simpa [same] using tail
    · simpa [same, others other same] using mirrors.tail other
  case count =>
    intro other
    by_cases same : other = dl
    · simpa [same] using count
    · simpa [same, others other same] using mirrors.count other
  case once =>
    intro other
    by_cases same : other = dl
    · simpa [same] using once
    · simpa [same] using mirrors.once other
  case owned =>
    intro item other
    by_cases within : item ∈ seq
    · have ⟨owner, alone⟩ := inside item within
      by_cases same : other = dl
      · simp [same, owner, within]
      · have away : item ∉ lists other := fun member => same (alone other member)
        simp [same, owner, away, Ne.symm same]
    · by_cases before : item ∈ lists dl
      · by_cases same : other = dl
        · simp [same, (gone item before within).1, within]
        · have away : item ∉ lists other := fun member => same (single item other dl member before)
          simp [same, (gone item before within).1, away]
      · rw [outside item before within, mirrors.owned]
        by_cases same : other = dl <;> simp [same, before, within]
  case loose =>
    intro item ownerless
    by_cases within : item ∈ seq
    · simp [(inside item within).1] at ownerless
    · by_cases before : item ∈ lists dl
      · exact (gone item before within).2
      · have same := outside item before within
        rw [same] at ownerless
        have links := mirrors.loose item ownerless
        rwa [DlMemory.prev, DlMemory.next, same]

omit [DecidableEq ι] [DecidableEq κ] in
theorem Mirrors.checkLinks_iff (mirrors : Mirrors memory lists) (item : ι) :
    checkLinks (memory.items item) = true ↔ ∃ owner, item ∈ lists owner := by
  cases owner : (memory.items item).dl with
  | some dl =>
    have member := (mirrors.owned item dl).1 owner
    simp [checkLinks, owner, show ∃ owner, item ∈ lists owner from ⟨dl, member⟩]
  | none =>
    have links := mirrors.loose item owner
    have nowhere : ∀ dl, item ∉ lists dl := by
      intro dl member
      simp [(mirrors.owned item dl).2 member] at owner
    simp only [DlMemory.prev, DlMemory.next] at links
    simp [checkLinks, owner, links.1, links.2, nowhere]

theorem dlAdd_taken (free : checkLinks (memory.items item) = false)
    (fresh : (memory.lists dl).tail ≠ some item) :
    dlAdd memory dl item = (
      { items := fun other =>
          if other = item then ⟨some dl, none, (memory.lists dl).tail, (memory.lists dl).lastId + 1⟩
          else if (memory.lists dl).tail = some other then
            { memory.items other with next := some item }
          else memory.items other
        lists := Function.update memory.lists dl {
          head := if (memory.lists dl).tail.isNone then some item else (memory.lists dl).head
          tail := some item
          itemsInContainer := (memory.lists dl).itemsInContainer + 1
          lastId := (memory.lists dl).lastId + 1 } }, 0) := by
  cases tail : (memory.lists dl).tail with
  | none =>
    simp only [dlAdd, free, tail, dlOwn, DlMemory.setItem, DlMemory.setList]
    simp
    funext other
    by_cases itself : other = item <;> simp [itself]
  | some last =>
    have apart : item ≠ last := by simpa [tail, eq_comm] using fresh
    simp only [dlAdd, free, tail, dlOwn, DlMemory.setItem, DlMemory.setList]
    simp [apart]
    funext other
    by_cases itself : other = item
    · simp [itself]
    · by_cases same : other = last
      · simp [same, apart.symm]
      · simp [itself, same, Ne.symm same]

theorem Mirrors.dlAdd (mirrors : Mirrors memory lists) (dl : κ) (item : ι) :
    Mirrors (dlAdd memory dl item).1 (seqCall lists (.add dl item)).1 ∧
      (Dl.dlAdd memory dl item).2 = (seqCall lists (.add dl item)).2 := by
  cases links : checkLinks (memory.items item) with
  | true =>
    have owned := (mirrors.checkLinks_iff item).1 links
    simp only [Dl.dlAdd, links, seqCall, if_pos owned]
    exact ⟨mirrors, rfl⟩
  | false =>
    have fresh : ¬ ∃ owner, item ∈ lists owner := by
      rw [← mirrors.checkLinks_iff item, links]
      simp
    have away : item ∉ lists dl := fun member => fresh ⟨dl, member⟩
    have tail := mirrors.tail dl
    have notLast : (lists dl).getLast? ≠ some item := fun last =>
      away (mem_of_getLast? last)
    rw [seqCall, if_neg fresh, dlAdd_taken links (tail ▸ notLast), tail]
    refine ⟨?_, rfl⟩
    apply mirrors.changed
    case threaded =>
      apply (mirrors.threaded dl).append
      · simp [DlMemory.next]
      · simp [DlMemory.prev]
      · intro other member
        have apart : other ≠ item := fun same => away (same ▸ member)
        by_cases last : (lists dl).getLast? = some other <;> simp [DlMemory.prev, apart, last]
      · intro last final
        have apart : last ≠ item := fun same => notLast (same ▸ final)
        simp [DlMemory.next, apart, final]
      · intro other member inner
        have apart : other ≠ item := fun same => away (same ▸ member)
        simp [DlMemory.next, apart, inner]
      · exact mirrors.once dl
    case head =>
      cases seq : lists dl <;> simp [mirrors.head, seq]
    case tail => simp
    case count => simp [mirrors.count]
    case once =>
      rw [← concat_eq_append]
      exact List.Nodup.concat away (mirrors.once dl)
    case others => exact fun other apart => by simp [apart]
    case inside =>
      intro other within
      rcases mem_append.1 within with member | single
      · have apart : other ≠ item := fun same => away (same ▸ member)
        have owner := (mirrors.owned other dl).2 member
        refine ⟨?_, fun place inside => mirrors.reads.single other place dl inside member⟩
        by_cases last : (lists dl).getLast? = some other <;> simp [apart, last, owner]
      · rw [mem_singleton.1 single]
        exact ⟨by simp, fun place inside => absurd ⟨place, inside⟩ fresh⟩
    case gone => exact fun other member left => absurd (mem_append_left _ member) left
    case outside =>
      intro other apart left
      have notItem : other ≠ item := fun same => left (by simp [same])
      have inner : (lists dl).getLast? ≠ some other := fun last =>
        apart (mem_of_getLast? last)
      simp [notItem, inner]

def DlItem.mirror (fields : DlItem ι κ) : DlItem ι κ :=
  { fields with next := fields.prev, prev := fields.next }

def DlList.mirror (list : DlList ι) : DlList ι :=
  { list with head := list.tail, tail := list.head }

/-- The memory with its two directions exchanged. -/
def DlMemory.mirror (memory : DlMemory ι κ) : DlMemory ι κ where
  items item := (memory.items item).mirror
  lists dl := (memory.lists dl).mirror

omit [DecidableEq ι] [DecidableEq κ] in
theorem Mirrors.mirror (mirrors : Mirrors memory lists) :
    Mirrors memory.mirror fun dl => (lists dl).reverse where
  threaded dl := (mirrors.threaded dl).reverse
  head dl := (mirrors.tail dl).trans head?_reverse.symm
  tail dl := (mirrors.head dl).trans getLast?_reverse.symm
  count dl := (mirrors.count dl).trans length_reverse.symm
  owned item dl := (mirrors.owned item dl).trans mem_reverse.symm
  loose item free := (mirrors.loose item free).symm
  once dl := by simpa using mirrors.once dl

omit [DecidableEq κ] in
theorem mirror_setItem (memory : DlMemory ι κ) (item : ι) (fields : DlItem ι κ → DlItem ι κ) :
    (memory.setItem item fields).mirror =
      memory.mirror.setItem item fun before => (fields before.mirror).mirror := by
  simp only [DlMemory.mirror, DlMemory.setItem, DlMemory.mk.injEq, and_true]
  funext place
  by_cases same : place = item <;> simp [same, DlItem.mirror]

omit [DecidableEq ι] in
theorem mirror_setList (memory : DlMemory ι κ) (dl : κ) (fields : DlList ι → DlList ι) :
    (memory.setList dl fields).mirror =
      memory.mirror.setList dl fun before => (fields before.mirror).mirror := by
  simp only [DlMemory.mirror, DlMemory.setList, DlMemory.mk.injEq, true_and]
  funext place
  by_cases same : place = dl <;> simp [same, DlList.mirror]

theorem mirror_dlOwn (memory : DlMemory ι κ) (dl : κ) (item : ι) :
    (dlOwn memory dl item).mirror = dlOwn memory.mirror dl item := by
  rw [dlOwn, mirror_setItem, mirror_setList]
  simp [dlOwn, DlItem.mirror, DlList.mirror, DlMemory.setList, DlMemory.mirror]

theorem dlInsert_mirror (memory : DlMemory ι κ) (dl : κ) (item : ι) :
    dlInsert memory dl item =
      ((dlAdd memory.mirror dl item).1.mirror, (dlAdd memory.mirror dl item).2) := by
  have twice : memory.mirror.mirror = memory := rfl
  have links : checkLinks (memory.mirror.items item) = checkLinks (memory.items item) := by
    simp [checkLinks, DlMemory.mirror, DlItem.mirror, Bool.or_comm]
  have ends : (memory.mirror.lists dl).tail = (memory.lists dl).head := rfl
  rw [dlInsert, dlAdd, links, ends]
  cases checkLinks (memory.items item) with
  | true => simp [twice]
  | false =>
    cases head : (memory.lists dl).head <;>
      simp [mirror_dlOwn, mirror_setItem, mirror_setList, twice, DlItem.mirror, DlList.mirror]

section

variable (mirrors : Mirrors memory lists)
include mirrors

theorem Mirrors.dlInsert (dl : κ) (item : ι) :
    Mirrors (dlInsert memory dl item).1 (seqCall lists (.insert dl item)).1 ∧
      (Dl.dlInsert memory dl item).2 = (seqCall lists (.insert dl item)).2 := by
  have ⟨added, result⟩ := mirrors.mirror.dlAdd dl item
  have back := added.mirror
  rw [dlInsert_mirror]
  have mirrored : (∃ owner, item ∈ (lists owner).reverse) ↔ ∃ owner, item ∈ lists owner := by
    simp
  simp only [seqCall] at back result ⊢
  by_cases owned : ∃ owner, item ∈ lists owner
  · rw [if_pos (mirrored.2 owned)] at back result
    rw [if_pos owned]
    exact ⟨by simpa using back, result⟩
  · rw [if_neg fun within => owned (mirrored.1 within)] at back result
    rw [if_neg owned]
    refine ⟨?_, result⟩
    convert back using 1
    funext other
    by_cases same : other = dl
    · subst same
      simp
    · simp [same]

section

variable {left right : List ι} (split : lists dl = left ++ item :: right)
include split

theorem Mirrors.dlUnlink_eq :
    dlUnlink memory dl item =
      { items := fun other => { memory.items other with
          next := if left.getLast? = some other then right.head? else (memory.items other).next
          prev := if right.head? = some other then left.getLast? else (memory.items other).prev }
        lists := Function.update memory.lists dl { memory.lists dl with
          head := (left ++ right).head?, tail := (left ++ right).getLast? } } := by
  have ⟨before, after⟩ := mirrors.threaded dl left item right split
  have head := mirrors.head dl
  have tail := mirrors.tail dl
  have once := mirrors.once dl
  rw [DlMemory.prev] at before
  rw [DlMemory.next] at after
  rw [split] at head tail once
  rcases eq_nil_or_concat left with rfl | ⟨left, last, rfl⟩
  · have first : (memory.lists dl).head = some item := by simpa using head
    cases right with
    | nil => simp [dlUnlink, before, after, first, DlMemory.setList]
    | cons following right =>
      have ends : (memory.lists dl).tail = (following :: right).getLast? := by simpa using tail
      simp [dlUnlink, before, after, first, DlMemory.setList, DlMemory.setItem, ends]
      funext other
      by_cases same : other = following
      · simp [same]
      · simp [same, Ne.symm same]
  · have apart : item ≠ last := by
      intro same
      simp [same, nodup_append] at once
    have begins : (memory.lists dl).head = (left ++ [last]).head? := by
      cases left <;> simpa using head
    simp only [concat_eq_append, getLast?_concat] at before
    simp only [dlUnlink, before, DlMemory.setItem, update_of_ne apart, after]
    cases right with
    | nil =>
      simp [DlMemory.setList, begins]
      funext other
      by_cases same : other = last
      · simp [same]
      · simp [same, Ne.symm same]
    | cons following right =>
      have ends : (memory.lists dl).tail = (left ++ [last] ++ following :: right).getLast? := by
        simpa [getLast?_append, getLast?_cons] using tail
      have neighbours : following ≠ last := by
        intro same
        simp [same, nodup_append] at once
      have neither : (left ++ [last]).head? = (left ++ [last] ++ following :: right).head? := by
        cases left <;> rfl
      simp only [head?_cons, concat_eq_append, getLast?_concat,
        ← neither, ← begins, ← ends, update_eq_self]
      congr 1
      funext other
      by_cases same : other = last
      · simp [same, neighbours, neighbours.symm]
      · by_cases same' : other = following
        · simp [same', neighbours, neighbours.symm]
        · simp [same, same', Ne.symm same, Ne.symm same']

theorem Mirrors.unlinked :
    Mirrors (dlDelete memory dl (some item)).1 (Function.update lists dl (left ++ right)) ∧
      (Dl.dlDelete memory dl (some item)).2 = 0 := by
  have member : item ∈ lists dl := by simp [split]
  have once := mirrors.once dl
  rw [split] at once
  have accepted : dlDelete memory dl (some item) =
      (((dlUnlink memory dl item).setList dl fun list =>
        { list with itemsInContainer := list.itemsInContainer - 1 }).setItem item fun fields =>
          { fields with prev := none, next := none, dl := none }, 0) := by
    have owner := (mirrors.owned item dl).2 member
    simp [dlDelete, checkNoLinks, owner, mirrors.head, mirrors.tail, mirrors.count, split]
  rw [accepted, mirrors.dlUnlink_eq split]
  refine ⟨?_, rfl⟩
  have apart : ∀ other ∈ left ++ right, other ≠ item := by
    intro other within same
    rw [same] at within
    exact (nodup_cons.1 (nodup_middle.1 once)).1 within
  apply mirrors.changed
  case threaded =>
    have threaded := mirrors.threaded dl
    rw [split] at threaded
    apply threaded.remove
    · intro last ends
      simp [DlMemory.next, DlMemory.setItem, DlMemory.setList, ends,
        apart last (mem_append_left _ (mem_of_getLast? ends))]
    · intro head starts
      simp [DlMemory.prev, DlMemory.setItem, DlMemory.setList, starts,
        apart head (mem_append_right _ (mem_of_head? starts))]
    · intro other within inner
      simp [DlMemory.next, DlMemory.setItem, DlMemory.setList, inner, apart other within]
    · intro other within inner
      simp [DlMemory.prev, DlMemory.setItem, DlMemory.setList, inner, apart other within]
    · exact once
  case head => simp [DlMemory.setItem, DlMemory.setList]
  case tail => simp [DlMemory.setItem, DlMemory.setList]
  case count =>
    simp [DlMemory.setItem, DlMemory.setList, mirrors.count, split]
  case once => exact (nodup_cons.1 (nodup_middle.1 once)).2
  case others => exact fun other apart => by simp [DlMemory.setItem, DlMemory.setList, apart]
  case inside =>
    intro other within
    have before : other ∈ lists dl := by
      rw [split]
      exact mem_append.2 ((mem_append.1 within).imp_right (mem_cons_of_mem item))
    have owner := (mirrors.owned other dl).2 before
    refine ⟨?_, fun place inside => mirrors.reads.single other place dl inside before⟩
    simp [DlMemory.setItem, DlMemory.setList, owner, apart other within]
  case gone =>
    intro other before left
    have itself : other = item := by
      rw [split] at before
      grind
    simp [itself, DlMemory.setItem, DlMemory.prev, DlMemory.next]
  case outside =>
    intro other before away
    have notLast : left.getLast? ≠ some other := fun ends =>
      away (mem_append_left _ (mem_of_getLast? ends))
    have notHead : right.head? ≠ some other := fun starts =>
      away (mem_append_right _ (mem_of_head? starts))
    have apart : other ≠ item := fun same => before (same ▸ member)
    simp [DlMemory.setItem, DlMemory.setList, notLast, notHead, apart]

end

theorem Mirrors.dlDelete (dl : κ) (item : Option ι) :
    Mirrors (dlDelete memory dl item).1 (seqCall lists (.delete dl item)).1 ∧
      (Dl.dlDelete memory dl item).2 = (seqCall lists (.delete dl item)).2 := by
  cases item with
  | none => exact ⟨mirrors, rfl⟩
  | some item =>
    by_cases member : item ∈ lists dl
    · have ⟨left, right, split⟩ := append_of_mem member
      have away : item ∉ left := by
        have once := mirrors.once dl
        rw [split] at once
        intro before
        exact (nodup_append.1 once).2.2 item before item mem_cons_self rfl
      have erased : (lists dl).erase item = left ++ right := by
        rw [split, erase_append_right _ away, erase_cons_head]
      simp only [seqCall, if_pos member, erased]
      exact mirrors.unlinked split
    · have foreign : (memory.items item).dl ≠ some dl := fun owner =>
        member ((mirrors.owned item dl).1 owner)
      have refused : Dl.dlDelete memory dl (some item) = (memory, -1) := by
        simp [Dl.dlDelete, foreign]
      simp only [seqCall, if_neg member, refused]
      exact ⟨mirrors, trivial⟩

end

theorem Mirrors.dlFlushLoop (dl : κ) : ∀ (seq : List ι) {memory : DlMemory ι κ}
    {lists : Sequences ι κ}, Mirrors memory lists → lists dl = seq → ∀ fuel, seq.length < fuel →
      ∃ flushed, dlFlushLoop dl fuel memory = some flushed ∧
        Mirrors flushed (Function.update lists dl [])
  | [], memory, lists, mirrors, held, fuel + 1, enough => by
      have first := mirrors.head dl
      rw [held] at first
      refine ⟨memory, by simp [Dl.dlFlushLoop, first], ?_⟩
      rwa [← held, update_eq_self]
  | first :: rest, memory, lists, mirrors, held, fuel + 1, enough => by
      have head := mirrors.head dl
      have split : lists dl = [] ++ first :: rest := held
      have ⟨deleted, _⟩ := mirrors.unlinked split
      have ⟨flushed, ends, empty⟩ :=
        deleted.dlFlushLoop dl rest (by simp) fuel (by simpa using enough)
      rw [held] at head
      refine ⟨flushed, by simpa [Dl.dlFlushLoop, head] using ends, ?_⟩
      simpa using empty

theorem Mirrors.call (mirrors : Mirrors memory lists) (call : DlCall ι κ) :
    ∃ left, dlCall memory call = some (left, (seqCall lists call).2) ∧
      Mirrors left (seqCall lists call).1 := by
  cases call with
  | add dl item =>
    have ⟨added, result⟩ := mirrors.dlAdd dl item
    exact ⟨_, by rw [dlCall, ← result], added⟩
  | insert dl item =>
    have ⟨inserted, result⟩ := mirrors.dlInsert dl item
    exact ⟨_, by rw [dlCall, ← result], inserted⟩
  | delete dl item =>
    have ⟨deleted, result⟩ := mirrors.dlDelete dl item
    exact ⟨_, by rw [dlCall, ← result], deleted⟩
  | flush dl =>
    have ⟨flushed, ends, empty⟩ :=
      mirrors.dlFlushLoop dl (lists dl) rfl ((lists dl).length + 1) (Nat.lt_succ_self _)
    refine ⟨flushed, ?_, empty⟩
    simp [dlCall, dlFlush, mirrors.count, ends, seqCall]

theorem dlCall_refused {call : DlCall ι κ} {left : DlMemory ι κ} {result : Int}
    (called : dlCall memory call = some (left, result)) (refused : result ≠ 0) : left = memory := by
  cases call with
  | add dl item =>
    simp only [dlCall, Dl.dlAdd, some.injEq] at called
    grind
  | insert dl item =>
    simp only [dlCall, Dl.dlInsert, some.injEq] at called
    grind
  | delete dl item =>
    cases item with
    | none => grind [dlCall, Dl.dlDelete]
    | some item =>
      simp only [dlCall, Dl.dlDelete, some.injEq] at called
      grind
  | flush dl =>
    simp only [dlCall, map_eq_some_iff, Prod.mk.injEq] at called
    grind

theorem Mirrors.calls : ∀ (calls : List (DlCall ι κ)) {memory : DlMemory ι κ}
    {lists : Sequences ι κ}, Mirrors memory lists →
      ∃ left, dlCalls memory calls = some (left, (seqCalls lists calls).2) ∧
        Mirrors left (seqCalls lists calls).1
  | [], memory, _, mirrors => ⟨memory, rfl, mirrors⟩
  | call :: rest, _, _, mirrors => by
      have ⟨between, called, stepped⟩ := mirrors.call call
      have ⟨left, ran, reached⟩ := Mirrors.calls rest stepped
      exact ⟨left, by simp [dlCalls, called, ran, seqCalls], reached⟩

end Step

/-- Every run of calls on empty lists and loose items ends, returns what the sequences return,
and leaves lists that read as those sequences; a refused call changes nothing. -/
theorem dl_lists_refine (calls : List (DlCall ι κ)) :
    ∃ memory, dlCalls {} calls = some (memory, (seqCalls (fun _ => []) calls).2) ∧
      Reads memory (seqCalls (fun _ => []) calls).1 ∧
      ∀ call left result, dlCall memory call = some (left, result) → result ≠ 0 →
        left = memory := by
  have ⟨memory, ran, mirrors⟩ := Mirrors.calls calls mirrors_start
  exact ⟨memory, ran, mirrors.reads, fun _ _ _ => dlCall_refused⟩

end Yunetas.Gobj.Dl
