import Yunetas.Gobj.Compare

/-!
# Deep comparison is exact

Two values are alike when they are the same up to the keys left out, with dicts as maps and lists as
multisets at every level. `kwid_compare_records` answers that, unless it runs out of depth, takes two
scalars under the same key for equal that differ, or looks for a record by its id in a list where the
search ends before it or finds another record.
-/

namespace Yunetas.Gobj

open List Option Bool Dict

open Json Pairing

section Comparison

variable (mixed : Json → Json → Bool) (options : CompareOptions)

/-- The entries that a comparison looks at. -/
def CompareOptions.kept (fields : Fields) : Fields :=
  fields.filter fun entry => !options.leavesOut entry.1

/-- The same value up to the keys left out: the items of lists can be paired off, and so can the kept
entries of dicts, under the same keys. -/
inductive Alike : Json → Json → Prop
  | scalar {left right : Json} : scalarEqual left right = true → Alike left right
  | array {lefts rights : List Json} (pairs : List (Json × Json)) :
    (pairs.map Prod.fst).Perm lefts → (pairs.map Prod.snd).Perm rights →
    (∀ pair ∈ pairs, Alike pair.1 pair.2) → Alike (.array lefts) (.array rights)
  | object {lefts rights : Fields} (pairs : List (String × Json × Json)) :
    (pairs.map fun pair => (pair.1, pair.2.1)).Perm (options.kept lefts) →
    (pairs.map fun pair => (pair.1, pair.2.2)).Perm (options.kept rights) →
    (∀ pair ∈ pairs, Alike pair.2.1 pair.2.2) → Alike (.object lefts) (.object rights)

/-- Entries with the same key and alike values. -/
def AlikeEntry (left right : String × Json) : Prop :=
  left.1 = right.1 ∧ Alike options left.2 right.2

variable {options}

theorem alike_array_iff {lefts : List Json} {right : Json} :
    Alike options (.array lefts) right ↔ ∃ rights, right = .array rights ∧
      Multiset.Rel (Alike options) (lefts : Multiset Json) rights := by
  constructor
  · intro alike
    cases alike with
    | scalar same =>
      cases right <;> cases same
    | array pairs firsts seconds each =>
      exact ⟨_, rfl, rel_iff_pairs.2 ⟨pairs, firsts, seconds, each⟩⟩
  · rintro ⟨rights, rfl, related⟩
    have ⟨pairs, firsts, seconds, each⟩ := rel_iff_pairs.1 related
    exact .array pairs firsts seconds each

theorem alike_object_iff {lefts : Fields} {right : Json} :
    Alike options (.object lefts) right ↔ ∃ rights, right = .object rights ∧
      Multiset.Rel (AlikeEntry options) (options.kept lefts : Multiset (String × Json))
        (options.kept rights) := by
  constructor
  · intro alike
    cases alike with
    | scalar same =>
      cases right <;> cases same
    | object pairs firsts seconds each =>
      refine ⟨_, rfl, rel_iff_pairs.2
        ⟨pairs.map fun pair => ((pair.1, pair.2.1), (pair.1, pair.2.2)), ?_, ?_, ?_⟩⟩
      · rwa [List.map_map]
      · rwa [List.map_map]
      · intro pair among
        obtain ⟨source, member, rfl⟩ := mem_map.1 among
        exact ⟨rfl, each source member⟩
  · rintro ⟨rights, rfl, related⟩
    have ⟨pairs, firsts, seconds, each⟩ := rel_iff_pairs.1 related
    refine .object (pairs.map fun pair => (pair.1.1, pair.1.2, pair.2.2)) ?_ ?_ ?_
    · rwa [List.map_map]
    · rw [List.map_map]
      refine (List.Perm.of_eq (map_congr_left fun pair among => ?_)).trans seconds
      exact Prod.ext (each pair among).1 rfl
    · intro pair among
      obtain ⟨source, member, rfl⟩ := mem_map.1 among
      exact (each source member).2

variable {left right : Json}

theorem alike_leaf_iff (leaf : left.isContainer = false) :
    Alike options left right ↔ scalarEqual left right = true := by
  constructor
  · intro alike
    cases alike with
    | scalar same => exact same
    | array => cases leaf
    | object => cases leaf
  · exact .scalar

theorem realSame_symm {left right : UInt64} (same : realSame left right = true) :
    realSame right left = true := by
  unfold realSame at same ⊢
  rw [or_eq_true, and_eq_true, decide_eq_true_eq, decide_eq_true_eq,
    decide_eq_true_eq] at same ⊢
  rcases same with equal | zeros
  · exact .inl equal.symm
  · exact .inr zeros.symm

theorem realSame_trans {left middle right : UInt64} (first : realSame left middle = true)
    (second : realSame middle right = true) : realSame left right = true := by
  unfold realSame at first second ⊢
  rw [or_eq_true, and_eq_true, decide_eq_true_eq, decide_eq_true_eq,
    decide_eq_true_eq] at first second ⊢
  rcases first with rfl | zeros
  · exact second
  · rcases second with rfl | others
    · exact .inr zeros
    · exact .inr ⟨zeros.1, others.2⟩

theorem scalarEqual_refl {json : Json} (leaf : json.isContainer = false) :
    scalarEqual json json = true := by
  cases json with
  | array => cases leaf
  | object => cases leaf
  | null => rfl
  | boolean => simp [scalarEqual]
  | integer => simp [scalarEqual]
  | string => simp [scalarEqual]
  | real => simp [scalarEqual, realSame]

theorem scalarEqual_symm (same : scalarEqual left right = true) :
    scalarEqual right left = true := by
  cases left <;> cases right <;> simp only [scalarEqual, decide_eq_true_eq, false_eq_true] at same ⊢
  · exact same.symm
  · exact same.symm
  · exact realSame_symm same
  · exact same.symm

theorem scalarEqual_trans {left middle right : Json} (first : scalarEqual left middle = true)
    (second : scalarEqual middle right = true) : scalarEqual left right = true := by
  cases left <;> cases middle <;>
    simp [scalarEqual] at first
  · exact second
  · rw [first]
    exact second
  · rw [first]
    exact second
  · cases right <;> simp only [scalarEqual, false_eq_true] at second ⊢
    exact realSame_trans first second
  · rw [first]
    exact second

theorem isContainer_of_scalarEqual (same : scalarEqual left right = true) :
    left.isContainer = false ∧ right.isContainer = false := by
  cases left <;> cases right <;> first | exact ⟨rfl, rfl⟩ | cases same

theorem Alike.refl (json : Json) : Alike options json json := by
  induction json using treeInduction with
  | leaf json leaf => exact .scalar (scalarEqual_refl leaf)
  | array items inside =>
    exact alike_array_iff.2 ⟨items, rfl, Multiset.rel_refl_of_refl_on inside⟩
  | object entries inside =>
    refine alike_object_iff.2 ⟨entries, rfl, Multiset.rel_refl_of_refl_on fun entry among => ?_⟩
    exact ⟨rfl, inside entry (mem_of_mem_filter among)⟩

theorem Alike.symm (alike : Alike options left right) : Alike options right left := by
  induction alike with
  | scalar same => exact .scalar (scalarEqual_symm same)
  | array pairs firsts seconds _ ih =>
    refine .array (pairs.map Prod.swap) ?_ ?_ ?_
    · rwa [List.map_map]
    · rwa [List.map_map]
    · intro pair among
      obtain ⟨source, member, rfl⟩ := mem_map.1 among
      exact ih source member
  | object pairs firsts seconds _ ih =>
    refine .object (pairs.map fun pair => (pair.1, pair.2.2, pair.2.1)) ?_ ?_ ?_
    · rwa [List.map_map]
    · rwa [List.map_map]
    · intro pair among
      obtain ⟨source, member, rfl⟩ := mem_map.1 among
      exact ih source member

theorem Alike.trans {left middle right : Json} (first : Alike options left middle)
    (second : Alike options middle right) : Alike options left right := by
  induction left using treeInduction generalizing middle right with
  | leaf json leaf =>
    have same := (alike_leaf_iff leaf).1 first
    have other := (alike_leaf_iff (isContainer_of_scalarEqual same).2).1 second
    exact .scalar (scalarEqual_trans same other)
  | array items inside =>
    obtain ⟨middles, rfl, related⟩ := alike_array_iff.1 first
    obtain ⟨rights, rfl, others⟩ := alike_array_iff.1 second
    have compose : ∀ item ∈ (items : Multiset Json), ∀ next last, Alike options item next →
        Alike options next last → Alike options item last :=
      fun item among next last here there => inside item among here there
    exact alike_array_iff.2 ⟨rights, rfl, rel_trans compose related others⟩
  | object entries inside =>
    obtain ⟨middles, rfl, related⟩ := alike_object_iff.1 first
    obtain ⟨rights, rfl, others⟩ := alike_object_iff.1 second
    have compose : ∀ entry ∈ (options.kept entries : Multiset (String × Json)), ∀ next last,
        AlikeEntry options entry next → AlikeEntry options next last →
        AlikeEntry options entry last :=
      fun entry among next last here there => ⟨here.1.trans there.1,
        inside entry (mem_of_mem_filter among) here.2 there.2⟩
    exact alike_object_iff.2 ⟨rights, rfl, rel_trans compose related others⟩

theorem alike_equivalence : Equivalence (Alike options) :=
  ⟨Alike.refl, Alike.symm, Alike.trans⟩

variable (options)

/-- When an item of a list is alike to a record with an id, the first item that bears the id is so,
and every item before it has an id. -/
def Found (item : Json) (others : List Json) : Prop :=
  ∀ id, recordId item = some id → (∃ other ∈ others, Alike options item other) →
    ∃ before other after, others = before ++ other :: after ∧ itemId other = some id ∧
      Alike options item other ∧ ∀ earlier ∈ before, ∃ text, itemId earlier = some text ∧ text ≠ id

mutual

/-- Nothing is mistaken where two values are compared. -/
def Unmistaken : Json → Json → Prop
  | .array lefts, .array rights => UnmistakenItems lefts rights
  | .object lefts, .object rights => UnmistakenEntries lefts rights
  | _, _ => True

/-- As the items of two lists are paired off, every record is found by its id among those that are
left. -/
def UnmistakenItems : List Json → List Json → Prop
  | [], _ => True
  | item :: rest, others =>
    (∀ other ∈ others, Unmistaken item other) ∧ Found options item others ∧
      ∀ idx other, others[idx]? = some other → Alike options item other →
        UnmistakenItems rest (others.eraseIdx idx)

/-- No scalar is taken for another one under the same key. -/
def UnmistakenEntries : List (String × Json) → List (String × Json) → Prop
  | [], _ => True
  | (key, value) :: rest, others =>
    (options.leavesOut key = false → ∀ other, Fields.get? others key = some other →
      (value.isContainer = false → cmpSimple mixed value other = true →
        scalarEqual value other = true) ∧ Unmistaken value other) ∧
      UnmistakenEntries rest others

end

mutual

/-- The depth that a comparison takes: two for a list, one for a dict, without the keys left out. -/
def depthTaken : Json → Nat
  | .array items => depthItems items + 2
  | .object entries => depthEntries entries + 1
  | _ => 0

/-- The deepest item. -/
def depthItems : List Json → Nat
  | [] => 0
  | item :: rest => max (depthTaken item) (depthItems rest)

/-- The deepest value under a kept key. -/
def depthEntries : List (String × Json) → Nat
  | [] => 0
  | (key, value) :: rest =>
    max (if options.leavesOut key then 0 else depthTaken value) (depthEntries rest)

end

/-- The depth that `kwid_compare_lists` takes. -/
def listDepth : Json → Nat
  | .array items => depthItems options items + 1
  | .object entries => depthEntries options entries + 2
  | _ => 1

/-- The object has no key twice. -/
def distinctKeys : Json → Bool
  | .object entries => decide (entries.map Prod.fst).Nodup
  | _ => true

variable {mixed options}

theorem depthItems_le_iff {items : List Json} {bound : Nat} :
    depthItems options items ≤ bound ↔ ∀ item ∈ items, depthTaken options item ≤ bound := by
  induction items with
  | nil => simp [depthItems]
  | cons first rest ih => rw [depthItems, Nat.max_le, ih, forall_mem_cons]

theorem depthEntries_le_iff {entries : Fields} {bound : Nat} :
    depthEntries options entries ≤ bound ↔
      ∀ entry ∈ options.kept entries, depthTaken options entry.2 ≤ bound := by
  induction entries with
  | nil => simp [depthEntries, CompareOptions.kept]
  | cons first rest ih =>
    have ⟨key, value⟩ := first
    rw [depthEntries, Nat.max_le, ih]
    unfold CompareOptions.kept
    cases dropped : options.leavesOut key with
    | true =>
      rw [filter_cons_of_neg (by simp [dropped]), if_pos rfl]
      exact and_iff_right (Nat.zero_le _)
    | false =>
      rw [filter_cons_of_pos (by simp [dropped]), if_neg (by decide), forall_mem_cons]

theorem depthTaken_leaf {json : Json} (leaf : json.isContainer = false) :
    depthTaken options json = 0 := by
  cases json with
  | array => cases leaf
  | object => cases leaf
  | _ => rw [depthTaken] <;> simp

theorem depthTaken_pos {json : Json} (container : json.isContainer = true) :
    0 < depthTaken options json := by
  cases json with
  | array items => exact Nat.succ_pos _
  | object entries => exact Nat.succ_pos _
  | null => cases container
  | boolean => cases container
  | integer => cases container
  | real => cases container
  | string => cases container

theorem UnmistakenEntries.entry {lefts rights : Fields} (clear : UnmistakenEntries mixed options lefts rights)
    {entry : String × Json} (among : entry ∈ options.kept lefts) {other : Json}
    (found : Fields.get? rights entry.1 = some other) :
    (entry.2.isContainer = false → cmpSimple mixed entry.2 other = true →
      scalarEqual entry.2 other = true) ∧ Unmistaken mixed options entry.2 other := by
  have ⟨member, keeps⟩ := mem_filter.1 among
  induction lefts with
  | nil => cases member
  | cons first rest ih =>
    have ⟨key, value⟩ := first
    rw [UnmistakenEntries] at clear
    rcases mem_cons.1 member with rfl | later
    · exact clear.1 (by simpa using keeps) other found
    · exact ih clear.2 (mem_filter.2 ⟨later, keeps⟩) later

theorem cmpSimple_same_type (leaf : left.isContainer = false)
    (same : jsonTypeof left = jsonTypeof right) :
    cmpSimple mixed left right = true ↔ scalarEqual left right = true := by
  cases left with
  | array => cases leaf
  | object => cases leaf
  | null =>
    cases right with
    | null => exact Iff.rfl
    | boolean other => cases other <;> cases same
    | _ => cases same
  | boolean value =>
    cases right with
    | boolean other => cases value <;> cases other <;> exact Iff.rfl
    | _ => cases value <;> cases same
  | integer value =>
    cases right with
    | integer other => exact Iff.rfl
    | boolean other => cases other <;> cases same
    | _ => cases same
  | string value =>
    cases right with
    | string other => exact Iff.rfl
    | boolean other => cases other <;> cases same
    | _ => cases same
  | real bits =>
    cases right with
    | real other => exact Iff.rfl
    | boolean other => cases other <;> cases same
    | _ => cases same

theorem Alike.typeof {left right : Json} (alike : Alike options left right) :
    jsonTypeof left = jsonTypeof right := by
  cases alike with
  | array => rfl
  | object => rfl
  | scalar same =>
    cases left <;> cases right <;>
      simp [scalarEqual] at same
    · rfl
    · rw [same]
    · rfl
    · rfl
    · rfl

theorem cmpSimple_of_equal (same : scalarEqual left right = true) :
    cmpSimple mixed left right = true :=
  (cmpSimple_same_type (isContainer_of_scalarEqual same).1
    (@Alike.typeof ⟨[], false, false⟩ _ _ (.scalar same))).2 same

theorem isContainer_of_recordId {item : Json} {id : String} (named : recordId item = some id) :
    item.isContainer = true := by
  cases item with
  | object => rfl
  | _ => cases named

theorem kwidFindRecordInList_found {id : String} {before after : List Json} {other : Json}
    (bears : itemId other = some id)
    (others : ∀ earlier ∈ before, ∃ text, itemId earlier = some text ∧ text ≠ id) :
    kwidFindRecordInList id (before ++ other :: after) = some before.length := by
  induction before with
  | nil =>
    rw [nil_append, kwidFindRecordInList, bears]
    exact if_pos rfl
  | cons first rest ih =>
    have ⟨text, named, differs⟩ := others first mem_cons_self
    have later := ih fun earlier among => others earlier (mem_cons_of_mem _ among)
    rw [cons_append, kwidFindRecordInList, named]
    simp [if_neg (Ne.symm differs), later]

variable {compare : Json → Json → Bool} {fits : Json → Prop}

theorem partner_sound {item : Json} {others : List Json}
    (leaf : item.isContainer = false → fits item)
    (exact' : item.isContainer = true → ∀ other ∈ others,
      (compare item other = true ↔ Alike options item other ∧ fits item))
    {idx : Nat} (found : partner compare item others = some idx) :
    ∃ other, others[idx]? = some other ∧ Alike options item other ∧ fits item := by
  unfold partner at found
  cases named : recordId item with
  | some id =>
    simp only [named] at found
    have container := isContainer_of_recordId named
    cases place : kwidFindRecordInList id others with
    | none => simp [place, reduceCtorEq] at found
    | some start =>
      simp only [place] at found
      cases here : others[start]? with
      | none => simp [here, reduceCtorEq] at found
      | some record =>
        simp only [here] at found
        obtain ⟨same, equal⟩ := ite_none_right_eq_some.1 found
        have index : start = idx := some.inj equal
        have alike := (exact' container record (mem_of_getElem? here)).1 same
        exact ⟨record, index ▸ here, alike⟩
  | none =>
    simp only [named] at found
    cases container : item.isContainer with
    | true =>
      rw [container, if_pos rfl] at found
      obtain ⟨bound, same, _⟩ := findIdx?_eq_some_iff_getElem.1 found
      exact ⟨others[idx], getElem?_eq_getElem bound,
        (exact' container _ (getElem_mem bound)).1 same⟩
    | false =>
      rw [container, if_neg (by decide)] at found
      obtain ⟨bound, same, _⟩ := findIdx?_eq_some_iff_getElem.1 found
      exact ⟨others[idx], getElem?_eq_getElem bound, .scalar same, leaf container⟩

theorem partner_complete {item : Json} {others : List Json}
    (exact' : item.isContainer = true → ∀ other ∈ others,
      (compare item other = true ↔ Alike options item other ∧ fits item))
    (finds : Found options item others) (some' : ∃ other ∈ others, Alike options item other)
    (within : fits item) : ∃ idx, partner compare item others = some idx := by
  unfold partner
  cases named : recordId item with
  | some id =>
    have container := isContainer_of_recordId named
    obtain ⟨before, other, after, rfl, bears, alike, named'⟩ := finds id named some'
    have among : other ∈ before ++ other :: after := mem_append_right _ mem_cons_self
    have here : (before ++ other :: after)[before.length]? = some other := by simp
    have same := (exact' container other among).2 ⟨alike, within⟩
    refine ⟨before.length, ?_⟩
    simp [kwidFindRecordInList_found bears named', same]
  | none =>
    have ⟨other, among, alike⟩ := some'
    cases container : item.isContainer with
    | true =>
      have same := (exact' container other among).2 ⟨alike, within⟩
      have found : (others.findIdx? (compare item)).isSome = true := by
        rw [findIdx?_isSome]
        exact any_eq_true.2 ⟨other, among, same⟩
      exact isSome_iff_exists.1 found
    | false =>
      have same := (alike_leaf_iff container).1 alike
      have found : (kwFindJsonInList item others).isSome = true := by
        unfold kwFindJsonInList
        rw [findIdx?_isSome]
        exact any_eq_true.2 ⟨other, among, same⟩
      exact isSome_iff_exists.1 found

/-- Lists are paired off when they are the same multiset up to being alike, with every item within
the depth. -/
theorem items_exact {items others : List Json} (clear : UnmistakenItems mixed options items others)
    (leaf : ∀ item : Json, item.isContainer = false → fits item)
    (exact' : ∀ item ∈ items, item.isContainer = true → ∀ other ∈ others,
      Unmistaken mixed options item other →
        (compare item other = true ↔ Alike options item other ∧ fits item)) :
    pairOff (partner compare) items others = true ↔
      Multiset.Rel (Alike options) (items : Multiset Json) others ∧ ∀ item ∈ items, fits item := by
  induction items generalizing others with
  | nil =>
    rw [pairOff, Multiset.coe_nil, Multiset.rel_zero_left, Multiset.coe_eq_zero, List.isEmpty_iff]
    exact ⟨fun empty => ⟨empty, fun _ among => absurd among not_mem_nil⟩, And.left⟩
  | cons item rest ih =>
    rw [UnmistakenItems] at clear
    have ⟨here, finds, onward⟩ := clear
    have exactHere : item.isContainer = true → ∀ other ∈ others,
        (compare item other = true ↔ Alike options item other ∧ fits item) :=
      fun container other among =>
        exact' item mem_cons_self container other among (here other among)
    -- with the partner gone, the others are paired off
    have behind : ∀ idx other, others[idx]? = some other → Alike options item other →
        (pairOff (partner compare) rest (others.eraseIdx idx) = true ↔
          Multiset.Rel (Alike options) (rest : Multiset Json)
            (others.eraseIdx idx : Multiset Json) ∧ ∀ item ∈ rest, fits item) := by
      intro idx other place alike
      refine ih (onward idx other place alike) ?_
      intro next among container candidate member
      exact exact' next (mem_cons_of_mem _ among) container candidate
        (mem_of_mem_eraseIdx member)
    rw [pairOff, ← Multiset.cons_coe, forall_mem_cons]
    constructor
    · intro paired
      cases found : partner compare item others with
      | none => simp [found] at paired
      | some idx =>
        simp only [found] at paired
        have ⟨other, place, alike, within⟩ := partner_sound (leaf item) exactHere found
        have ⟨related, fitting⟩ := (behind idx other place alike).1 paired
        rw [coe_eraseIdx place]
        exact ⟨.cons alike related, within, fitting⟩
    · rintro ⟨related, within, fitting⟩
      have ⟨other, others', alike, _, same⟩ := Multiset.rel_cons_left.1 related
      have among : other ∈ others := by
        rw [← Multiset.mem_coe, same]
        exact Multiset.mem_cons_self _ _
      have ⟨idx, found⟩ := partner_complete exactHere finds ⟨other, among, alike⟩ within
      have ⟨picked, place, alike', _⟩ := partner_sound (leaf item) exactHere found
      rw [coe_eraseIdx place] at related
      simp only [found]
      exact (behind idx picked place alike').2 ⟨rel_cancel alike_equivalence alike' related, fitting⟩

theorem coe_del {fields : Fields} (distinct : (fields.map Prod.fst).Nodup) {key : String}
    {value : Json} (found : fields.get? key = some value) :
    (fields : Multiset (String × Json)) = (key, value) ::ₘ (fields.del key : Multiset _) := by
  rw [Multiset.cons_coe, Multiset.coe_eq_coe]
  unfold Fields.get? at found
  unfold Fields.del
  induction fields with
  | nil => cases found
  | cons first rest ih =>
    rw [map_cons, nodup_cons] at distinct
    rw [Dict.lookupEntries] at found
    by_cases here : first.1 = key
    · rw [if_pos here] at found
      have same : first = (key, value) := Prod.ext here (some.inj found)
      have none' : rest.filter (fun entry => decide (entry.1 ≠ key)) = rest := by
        refine filter_eq_self.2 fun entry among => ?_
        have other : entry.1 ≠ key := fun equal =>
          distinct.1 (here ▸ equal ▸ mem_map_of_mem among)
        exact decide_eq_true other
      rw [filter_cons_of_neg (by simp [here]), none', same]
    · rw [if_neg here] at found
      rw [filter_cons_of_pos (by simp [here])]
      exact ((ih distinct.2 found).cons first).trans (List.Perm.swap _ _ _)

theorem entries_exact {lefts rights : Fields} (distinct : (rights.map Prod.fst).Nodup)
    (exact' : ∀ entry ∈ lefts, ∀ other, rights.get? entry.1 = some other →
      ((if entry.2.isContainer then compare entry.2 other else cmpSimple mixed entry.2 other) = true ↔
        Alike options entry.2 other ∧ fits entry.2)) :
    compareEntries mixed compare lefts rights = true ↔
      Multiset.Rel (AlikeEntry options) (lefts : Multiset (String × Json)) rights ∧
        ∀ entry ∈ lefts, fits entry.2 := by
  induction lefts generalizing rights with
  | nil =>
    rw [compareEntries, Multiset.coe_nil, Multiset.rel_zero_left, Multiset.coe_eq_zero,
      List.isEmpty_iff]
    exact ⟨fun empty => ⟨empty, fun _ among => absurd among not_mem_nil⟩, And.left⟩
  | cons entry rest ih =>
    have ⟨key, value⟩ := entry
    have here := exact' (key, value) mem_cons_self
    have distinct' : ((rights.del key).map Prod.fst).Nodup :=
      distinct.sublist (filter_sublist.map _)
    have behind := ih distinct' (fun entry among other found => by
      refine exact' entry (mem_cons_of_mem _ among) other ?_
      rw [Fields.get?_del] at found
      exact (ite_none_left_eq_some.1 found).2)
    rw [compareEntries, ← Multiset.cons_coe, forall_mem_cons]
    -- an entry with the key is the one that is found
    have unique : ∀ {other : String × Json} {others : Multiset (String × Json)},
        AlikeEntry options (key, value) other → (rights : Multiset _) = other ::ₘ others →
        rights.get? key = some other.2 := by
      intro other others alike same
      have among : other ∈ rights := by
        rw [← Multiset.mem_coe, same]
        exact Multiset.mem_cons_self _ _
      have named : key = other.1 := alike.1
      rw [named]
      exact lookupEntries_of_mem distinct among
    cases found : rights.get? key with
    | none =>
      refine ⟨fun compared => by simp at compared, fun ⟨related, _⟩ => ?_⟩
      have ⟨other, others, alike, _, same⟩ := Multiset.rel_cons_left.1 related
      exact absurd (found.symm.trans (unique alike same)) (by simp)
    | some value2 =>
      have taken := coe_del distinct found
      have exactHere := here value2 found
      dsimp only at exactHere ⊢
      constructor
      · intro compared
        have ⟨same, onward⟩ := ite_else_false.1 compared
        have ⟨alike, within⟩ := exactHere.1 same
        have ⟨related, fitting⟩ := behind.1 onward
        rw [taken]
        exact ⟨.cons ⟨rfl, alike⟩ related, within, fitting⟩
      · rintro ⟨related, within, fitting⟩
        have ⟨other, others, alike, onward, same⟩ := Multiset.rel_cons_left.1 related
        have value' : value2 = other.2 := some.inj (found.symm.trans (unique alike same))
        have entry' : (key, value2) = other := Prod.ext alike.1 value'
        rw [taken, entry', Multiset.cons_inj_right] at same
        rw [if_pos (exactHere.2 ⟨value' ▸ alike.2, within⟩), behind, same]
        exact ⟨onward, fitting⟩

theorem get?_kept (fields : Fields) {key : String} (keeps : options.leavesOut key = false) :
    (options.kept fields).get? key = fields.get? key := by
  unfold Fields.get? CompareOptions.kept
  induction fields with
  | nil => rfl
  | cons first rest ih =>
    rw [Dict.lookupEntries]
    by_cases here : first.1 = key
    · rw [filter_cons_of_pos (by simp [here, keeps]), Dict.lookupEntries, if_pos here, if_pos here]
    · rw [if_neg here, ← ih]
      cases dropped : options.leavesOut first.1 with
      | true => rw [filter_cons_of_neg (by simp [dropped])]
      | false =>
        rw [filter_cons_of_pos (by simp [dropped]), Dict.lookupEntries, if_neg here]

theorem compare_differ {left : Nat} {record expected : Json}
    (differ : jsonTypeof record ≠ jsonTypeof expected) :
    compareRecords mixed options left record expected = false ∧
      compareLists mixed options left record expected = false := by
  cases left with
  | zero => exact ⟨by rw [compareRecords], by rw [compareLists]⟩
  | succ left =>
    constructor
    · exact if_pos differ
    · exact if_pos differ

theorem compare_leaf {left : Nat} {record expected : Json} (leaf : record.isContainer = false)
    (same : jsonTypeof record = jsonTypeof expected) :
    compareRecords mixed options (left + 1) record expected = cmpSimple mixed record expected ∧
      compareLists mixed options (left + 1) record expected = cmpSimple mixed record expected := by
  unfold compareRecords compareLists
  rw [if_neg (not_not.2 same), if_neg (not_not.2 same)]
  cases record with
  | array => cases leaf
  | object => cases leaf
  | null => exact ⟨rfl, rfl⟩
  | boolean => exact ⟨rfl, rfl⟩
  | integer => exact ⟨rfl, rfl⟩
  | real => exact ⟨rfl, rfl⟩
  | string => exact ⟨rfl, rfl⟩

theorem compareRecords_array (left : Nat) (items others : List Json) :
    compareRecords mixed options (left + 1) (.array items) (.array others) =
      compareLists mixed options left (.array items) (.array others) := by
  exact if_neg (not_not.2 rfl)

theorem compareRecords_object (left : Nat) (fields others : Fields) :
    compareRecords mixed options (left + 1) (.object fields) (.object others) =
      compareEntries mixed (compareRecords mixed options left) (options.kept fields)
        (options.kept others) := by
  refine (if_neg (not_not.2 rfl)).trans ?_
  exact congrArg₂ _ (deleteLeftOut_eq options fields) (deleteLeftOut_eq options others)

theorem compareLists_array (left : Nat) (items others : List Json) :
    compareLists mixed options (left + 1) (.array items) (.array others) =
      pairOff (partner (compareRecords mixed options left)) items others := by
  unfold compareLists
  exact if_neg (not_not.2 rfl)

theorem compareLists_object (left : Nat) (fields others : Fields) :
    compareLists mixed options (left + 1) (.object fields) (.object others) =
      compareRecords mixed options left (.object fields) (.object others) := by
  unfold compareLists
  exact if_neg (not_not.2 rfl)

theorem typeof_array {items : List Json} {other : Json}
    (same : jsonTypeof (.array items) = jsonTypeof other) : ∃ others, other = .array others := by
  cases other with
  | array others => exact ⟨others, rfl⟩
  | boolean value => cases value <;> cases same
  | _ => cases same

theorem typeof_object {fields : Fields} {other : Json}
    (same : jsonTypeof (.object fields) = jsonTypeof other) : ∃ others, other = .object others := by
  cases other with
  | object others => exact ⟨others, rfl⟩
  | boolean value => cases value <;> cases same
  | _ => cases same

/-- A comparison accepts two values that are alike and take no more depth than is left. -/
theorem compare_exact {left : Nat} {record expected : Json}
    (keyed : everywhere distinctKeys record = true)
    (keyed' : everywhere distinctKeys expected = true)
    (clear : Unmistaken mixed options record expected) :
    (0 < left → (compareRecords mixed options left record expected = true ↔
      Alike options record expected ∧ depthTaken options record ≤ left)) ∧
    (compareLists mixed options left record expected = true ↔
      Alike options record expected ∧ listDepth options record ≤ left) := by
  by_cases same : jsonTypeof record = jsonTypeof expected
  case neg =>
    have unlike : ¬ Alike options record expected := fun alike => same alike.typeof
    have ⟨records, lists⟩ := @compare_differ mixed options left record expected same
    rw [records, lists]
    exact ⟨fun _ => iff_of_false (by decide) fun both => unlike both.1,
      iff_of_false (by decide) fun both => unlike both.1⟩
  induction left generalizing record expected with
  | zero =>
    refine ⟨fun some' => absurd some' (by decide), ?_⟩
    rw [compareLists]
    refine iff_of_false (by decide) fun ⟨_, enough⟩ => ?_
    cases record <;> simp [listDepth] at enough
  | succ left ih =>
    -- a container inside is compared with the depth behind
    have inside : ∀ {item other : Json}, everywhere distinctKeys item = true →
        everywhere distinctKeys other = true → Unmistaken mixed options item other →
        item.isContainer = true →
        (compareRecords mixed options left item other = true ↔
          Alike options item other ∧ depthTaken options item ≤ left) := by
      intro item other keyed keyed' clear container
      by_cases same : jsonTypeof item = jsonTypeof other
      · by_cases some' : 0 < left
        · exact (ih keyed keyed' clear same).1 some'
        · have none' : left = 0 := by omega
          have deep : 0 < depthTaken options item := depthTaken_pos container
          subst none'
          rw [compareRecords]
          exact iff_of_false (by decide) fun both => absurd both.2 (by omega)
      · rw [(compare_differ same).1]
        exact iff_of_false (by decide) fun both => same both.1.typeof
    cases leaf : record.isContainer with
    | false =>
      have ⟨records, lists⟩ := @compare_leaf mixed options left record expected leaf same
      have shallow : listDepth options record = 1 := by
        cases record with
        | array => cases leaf
        | object => cases leaf
        | _ => rfl
      rw [records, lists, cmpSimple_same_type leaf same, alike_leaf_iff leaf, depthTaken_leaf leaf,
        shallow]
      exact ⟨fun _ => (and_iff_left (Nat.zero_le _)).symm,
        (and_iff_left (Nat.succ_le_succ (Nat.zero_le _))).symm⟩
    | true =>
      cases record with
      | array items =>
        obtain ⟨others, rfl⟩ := typeof_array same
        have lists := (ih keyed keyed' clear same).2
        rw [everywhere_array] at keyed keyed'
        rw [Unmistaken] at clear
        rw [compareRecords_array, lists, compareLists_array, alike_array_iff, listDepth, depthTaken,
          @items_exact mixed options (compareRecords mixed options left)
            (fun item => depthTaken options item ≤ left) items others clear
            (fun item leaf => by rw [depthTaken_leaf leaf]; exact Nat.zero_le _)
            (fun item among container other among' clear =>
              inside (keyed.2 item among) (keyed'.2 other among') clear container)]
        rw [← depthItems_le_iff, Nat.add_le_add_iff_right]
        refine ⟨fun _ => and_congr_right fun _ => by omega, and_congr_left fun _ => ?_⟩
        exact ⟨fun related => ⟨others, rfl, related⟩, fun ⟨_, equal, related⟩ => by
          cases equal
          exact related⟩
      | object fields =>
        obtain ⟨others, rfl⟩ := typeof_object same
        have records : compareRecords mixed options (left + 1) (.object fields) (.object others) =
              true ↔ Alike options (.object fields) (.object others) ∧
                depthTaken options (.object fields) ≤ left + 1 := by
          rw [everywhere_object] at keyed keyed'
          rw [Unmistaken] at clear
          rw [compareRecords_object, alike_object_iff, depthTaken, Nat.add_le_add_iff_right,
            depthEntries_le_iff]
          have distinct : ((options.kept others).map Prod.fst).Nodup :=
            (of_decide_eq_true keyed'.1).sublist (filter_sublist.map _)
          rw [@entries_exact mixed options _ (fun item => depthTaken options item ≤ left) _ _
            distinct]
          · refine and_congr_left fun _ => ?_
            exact ⟨fun related => ⟨others, rfl, related⟩, fun ⟨_, equal, related⟩ => by
              cases equal
              exact related⟩
          · intro entry among other found
            have keeps : options.leavesOut entry.1 = false := by
              simpa using (mem_filter.1 among).2
            rw [get?_kept others keeps] at found
            have ⟨scalar, clear'⟩ := clear.entry among found
            have member := (mem_filter.1 among).1
            have member' := mem_of_lookupEntries found
            cases leaf : entry.2.isContainer with
            | true =>
              rw [if_pos rfl]
              exact inside (keyed.2 entry member) (keyed'.2 _ member') clear' leaf
            | false =>
              rw [if_neg (by decide), alike_leaf_iff leaf, depthTaken_leaf leaf]
              exact ⟨fun same => ⟨scalar leaf same, Nat.zero_le _⟩,
                fun both => cmpSimple_of_equal both.1⟩
        refine ⟨fun _ => records, ?_⟩
        rw [compareLists_object]
        by_cases some' : 0 < left
        · rw [(ih keyed keyed' clear same).1 some', depthTaken, listDepth]
          exact and_congr_right fun _ => by omega
        · have none' : left = 0 := by omega
          subst none'
          rw [compareRecords, listDepth]
          exact iff_of_false (by decide) fun both => absurd both.2 (by omega)
      | _ => cases leaf

theorem unmistaken_leaf {value other : Json} (leaf : value.isContainer = false) :
    Unmistaken mixed options value other := by
  cases value with
  | array => cases leaf
  | object => cases leaf
  | _ => rw [Unmistaken] <;> simp

theorem unmistakenItems_leaves {items others : List Json}
    (leaves : ∀ item ∈ items, item.isContainer = false) : UnmistakenItems mixed options items others := by
  induction items generalizing others with
  | nil => trivial
  | cons item rest ih =>
    have leaf := leaves item mem_cons_self
    rw [UnmistakenItems]
    refine ⟨fun other _ => unmistaken_leaf leaf, fun id named => ?_, fun _ _ _ _ => ?_⟩
    · exact absurd (isContainer_of_recordId named) (by rw [leaf]; decide)
    · exact ih fun next among => leaves next (mem_cons_of_mem _ among)

variable (mixed options)

end Comparison

end Yunetas.Gobj
