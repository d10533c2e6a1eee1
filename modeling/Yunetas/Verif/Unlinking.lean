import Yunetas.TrTreedb.Session
import Yunetas.TrTreedb.Upkeep

/-!
# Unlinking undoes linking

`treedb_link_nodes` puts a child into the hook of a parent and a reference to the parent into a
column of the child; `treedb_unlink_nodes` takes both out again. A list is searched for the very
child and for the very reference, so it takes back only what a link put there. A text is emptied
whatever it refers to, and a dictionary loses whatever is under the key of the child, though it may
be another node. So a link is undone, and what was never linked stays as it was, exactly where the
text of the child is empty and nothing is under its key.
-/

namespace Yunetas.TrTreedb

open List Option Function

open Timeranger2 (nameMax)

namespace Link

/-- The item is what the hook holds of this child. -/
def isHeld (child : Addr) (link : Link) (item : Item) : Bool :=
  if link.dataHook then item.isData child link.field else item.isNode child

/-- The key of the child in a hook that is a dictionary. -/
def slotKey (childTopic : String) (link : Link) : Option String :=
  if link.dataHook then dataKey childTopic link.childId link.field else some link.childId

/-- The hook holds the child, or the column of the child refers to the parent. -/
def isMade (child : Addr) (ref : Option String) (link : Link) : Bool :=
  (hookList link.hookCell).any (link.isHeld child) ||
    ref.any fun ref => (refTexts link.childCell).contains ref

/-- Nothing else is where a link is written: the text of the child is empty, and a dictionary has
nothing under the key of the child, which no reference replaces. -/
structure Free (childTopic : String) (ref : Option String) (link : Link) : Prop where
  text : ∀ text, link.childCell = .json (.string text) → text = ""
  slot : ∀ entries, link.hookCell = .dict entries → ∀ key ∈ link.slotKey childTopic,
    Dict.lookupEntries key entries = none
  named : ∀ entries, link.hookCell = .dict entries → link.field = "id" → ref = none

end Link

/-- A child is linked to a parent by a hook, on either side. -/
def isLinked (schema : Schema) (graph : Graph) (hook : String) (parent child : Addr) : Bool :=
  (checkLink schema graph hook parent child).any fun link =>
    link.isMade child (parentRef (graph.heap parent).topic link.parentId hook)

/-- The hooks and the references of every node are the same. -/
def SameLinks (schema : Schema) (before after : Graph) : Prop :=
  ∀ addr field, schema.isLinkField (before.heap addr).topic field = true →
    (after.heap addr).get? field = (before.heap addr).get? field

/-- Nothing else is where a link of this parent and child is written. -/
def LinkFree (schema : Schema) (graph : Graph) (hook : String) (parent child : Addr) : Prop :=
  ∀ link, checkLink schema graph hook parent child = some link →
    link.Free (graph.heap child).topic (parentRef (graph.heap parent).topic link.parentId hook)

section Cells

variable {heap : Addr → Node} {childTopic : String} {child : Addr} {ref : Option String}
  {link : Link}

theorem filter_ne_of_absent {key : String} {entries : List (String × Item)}
    (absent : Dict.lookupEntries key entries = none) :
    (entries.filter fun entry => entry.1 ≠ key) = entries := by
  have notIn : key ∉ entries.map Prod.fst := by
    rw [← Dict.lookupEntries_isSome, absent]
    exact Bool.false_ne_true
  apply filter_eq_self.2
  intro entry among
  have ne : entry.1 ≠ key := fun same => notIn (same ▸ mem_map_of_mem among)
  simpa using ne

theorem filter_ne_of_present {key : String} {entries : List (String × Item)}
    (same : (entries.filter fun entry => entry.1 ≠ key) = entries) :
    Dict.lookupEntries key entries = none := by
  have lookup := Dict.lookupEntries_filter key key entries
  rw [same, if_pos rfl] at lookup
  exact lookup

theorem not_isText {text : String} {items : List Item}
    (absent : text ∉ refTexts (.list items)) : ∀ item ∈ items, ¬ item.isText text = true := by
  intro item among isText
  apply absent
  unfold refTexts
  rw [mem_filterMap]
  cases item with
  | json value =>
    cases value with
    | string other => exact ⟨_, among, congrArg some (of_decide_eq_true isText)⟩
    | _ => cases isText
  | _ => cases isText

/-- Unlinking a child that is not in the hook leaves the hook exactly when nothing is under the key
of the child. -/
theorem hookWithout_eq_iff (notMade : link.isMade child ref = false) :
    hookWithout childTopic child link = link.hookCell ↔
      ∀ entries, link.hookCell = .dict entries → ∀ key ∈ link.slotKey childTopic,
        Dict.lookupEntries key entries = none := by
  unfold Link.isMade at notMade
  rw [Bool.or_eq_false_iff] at notMade
  have notHeld := notMade.1
  unfold hookWithout Link.slotKey
  cases hook : link.hookCell with
  | json value => exact iff_of_true rfl (by rintro _ ⟨⟩)
  | list items =>
    rw [hook] at notHeld
    have stays : (items.eraseP fun item =>
        if link.dataHook then item.isData child link.field else item.isNode child) = items := by
      apply eraseP_of_forall_not
      intro item among held
      exact absurd held (any_eq_false.1 notHeld item among)
    exact iff_of_true (congrArg Cell.list stays) (by rintro _ ⟨⟩)
  | dict entries =>
    cases dataHook : link.dataHook with
    | false =>
      simp only [Bool.false_eq_true, ↓reduceIte, Cell.dict.injEq, mem_def,
        some.injEq, forall_eq']
      exact ⟨filter_ne_of_present, filter_ne_of_absent⟩
    | true =>
      simp only [↓reduceIte]
      cases dataKey childTopic link.childId link.field with
      | none => exact iff_of_true rfl (by rintro _ _ _ ⟨⟩)
      | some key =>
        simp only [Cell.dict.injEq, mem_def, some.injEq, forall_eq']
        exact ⟨filter_ne_of_present, filter_ne_of_absent⟩

/-- Unlinking a child that does not refer to the parent leaves its column exactly when that holds no
text but the empty one. -/
theorem notReferring_eq_iff (notMade : link.isMade child ref = false)
    (refers : link.childCell.canRefer link.dataHook = true) :
    notReferring ref link.childCell = link.childCell ↔
      ∀ text, link.childCell = .json (.string text) → text = "" := by
  unfold Link.isMade at notMade
  rw [Bool.or_eq_false_iff] at notMade
  have noRef := notMade.2
  cases cell : link.childCell with
  | json value =>
    rw [cell] at refers
    cases value with
    | string text =>
      simp only [notReferring, Cell.json.injEq, Json.string.injEq, forall_eq']
      exact eq_comm
    | _ => cases refers
  | list items =>
    refine iff_of_true ?_ nofun
    cases ref with
    | none => rfl
    | some ref =>
      apply congrArg Cell.list
      apply eraseP_of_forall_not
      rw [cell] at noRef
      exact not_isText (by simpa using noRef)
  | dict entries =>
    refine iff_of_true ?_ nofun
    cases ref with
    | none => rfl
    | some ref =>
      rw [cell] at noRef
      have absent : ref ∉ entries.map Prod.fst := by simpa [refTexts] using noRef
      apply congrArg Cell.dict
      apply filter_ne_of_absent
      rw [← not_isSome_iff_eq_none, Dict.lookupEntries_isSome]
      exact absent

theorem hookWithout_hookWith (notMade : link.isMade child ref = false) {again : Link}
    (sameData : again.dataHook = link.dataHook) (sameField : again.field = link.field)
    (added : again.hookCell = hookWith heap childTopic child link)
    (free : ∀ entries, link.hookCell = .dict entries →
      again.childId = link.childId ∧ ∀ key ∈ link.slotKey childTopic,
        Dict.lookupEntries key entries = none) :
    hookWithout childTopic child again = link.hookCell := by
  unfold Link.isMade at notMade
  rw [Bool.or_eq_false_iff] at notMade
  have notHeld := notMade.1
  unfold hookWithout
  rw [added, sameData, sameField]
  unfold hookWith
  cases hook : link.hookCell with
  | json value => rfl
  | list items =>
    rw [hook] at notHeld
    have others : ∀ item ∈ items, ¬ (if link.dataHook then item.isData child link.field
        else item.isNode child) = true := fun item among held =>
      absurd held (any_eq_false.1 notHeld item among)
    by_cases there : childInHookArray heap items child link.childId link.field link.dataHook = true
    · simp only [there, ↓reduceIte]
      rw [eraseP_of_forall_not others]
    · simp only [there, Bool.false_eq_true, ↓reduceIte]
      rw [eraseP_append_right _ others]
      cases link.dataHook <;> simp [heldItem, Item.isData, Item.isNode]
  | dict entries =>
    have slot := free entries hook
    rw [slot.1]
    have absent := slot.2
    unfold Link.slotKey at absent
    cases dataHook : link.dataHook with
    | false =>
      rw [dataHook] at absent
      have unused := absent link.childId rfl
      simp only [Bool.false_eq_true, ↓reduceIte]
      rw [Dict.setEntries_new _ unused, filter_append, filter_ne_of_absent unused]
      simp
    | true =>
      rw [dataHook] at absent
      simp only [↓reduceIte] at absent ⊢
      cases key : dataKey childTopic link.childId link.field with
      | none => rfl
      | some key' =>
        have unused := absent key' key
        simp only
        rw [Dict.setEntries_new _ unused, filter_append, filter_ne_of_absent unused]
        simp

theorem notReferring_referring (notMade : link.isMade child ref = false)
    (refers : link.childCell.canRefer link.dataHook = true)
    (blank : ∀ text, link.childCell = .json (.string text) → text = "") :
    notReferring ref (referring ref link.childCell) = link.childCell := by
  cases ref with
  | none => exact (notReferring_eq_iff notMade refers).2 blank
  | some ref =>
    unfold Link.isMade at notMade
    rw [Bool.or_eq_false_iff] at notMade
    have noRef := notMade.2
    cases cell : link.childCell with
    | json value =>
      rw [cell] at refers
      cases value with
      | string text =>
        rw [blank text cell]
        rfl
      | _ => cases refers
    | list items =>
      rw [cell] at noRef
      have others : ∀ item ∈ items, ¬ item.isText ref = true := not_isText (by simpa using noRef)
      have absent : items.any (Item.isText ref) = false := any_eq_false.2 others
      simp only [referring, absent, Bool.false_eq_true, ↓reduceIte, notReferring]
      rw [eraseP_append_right _ others]
      simp [Item.isText]
    | dict entries =>
      rw [cell] at noRef
      have absent : ref ∉ entries.map Prod.fst := by simpa [refTexts] using noRef
      rw [← Dict.lookupEntries_isSome, not_isSome_iff_eq_none] at absent
      simp only [referring, notReferring]
      rw [Dict.setEntries_new _ absent, filter_append, filter_ne_of_absent absent]
      simp

end Cells

section Graphs

variable {schema : Schema} {graph : Graph} {hook : String} {parent child : Addr} {link : Link}

section

variable (found : link.Checked schema graph hook parent child)
include found

theorem checkLink_of_checked : checkLink schema graph hook parent child = some link := by
  unfold checkLink
  rw [if_neg found.apart, found.hookFound, found.linked]
  dsimp only
  rw [found.parentId, found.childId, found.childFound]
  dsimp only
  rw [← found.dataHook, found.holds, found.refers]
  rfl

theorem Link.Checked.hookLink : schema.isLinkField (graph.heap parent).topic hook = true := by
  have linked := found.linked
  unfold Schema.childField at linked
  rw [bind_eq_some_iff] at linked
  have ⟨links, isHook, _⟩ := linked
  exact Schema.isLinkField_of_hookLinks isHook

theorem Link.Checked.hook_ne : hook ≠ "id" := by
  intro same
  have named := found.parentId
  have holds := found.holds
  unfold Node.str? at named
  rw [← same, found.hookFound] at named
  cases cell : link.hookCell with
  | json value =>
    rw [cell] at holds
    cases holds
  | list items =>
    rw [cell] at named
    cases named
  | dict entries =>
    rw [cell] at named
    cases named

end

/-- A graph with the hook of the parent and the column of the child written. -/
structure Rewritten (hook field : String) (parent child : Addr) (hookCell childCell : Cell)
    (before after : Graph) : Prop where
  atHook : (after.heap parent).get? hook = some hookCell
  atField : (after.heap child).get? field = some childCell
  others : ∀ addr name, ¬ (addr = parent ∧ name = hook) → ¬ (addr = child ∧ name = field) →
    (after.heap addr).get? name = (before.heap addr).get? name

theorem rewritten_setField {before : Graph} {field : String} (apart : parent ≠ child)
    (hookCell childCell : Cell)
    (others : ∀ addr name, ¬ (addr = parent ∧ name = hook) → ¬ (addr = child ∧ name = field) →
      (graph.heap addr).get? name = (before.heap addr).get? name) :
    Rewritten hook field parent child hookCell childCell before
      ((graph.setField parent hook hookCell).setField child field childCell) where
  atHook := by
    rw [Graph.heap_setField, update_of_ne apart, Graph.heap_setField,
      update_self, Node.get?_set_self]
  atField := by rw [Graph.heap_setField, update_self, Node.get?_set_self]
  others addr name notHook notField := by
    rw [← others addr name notHook notField, Graph.heap_setField]
    by_cases isChild : addr = child
    · have otherField : name ≠ field := fun same => notField ⟨isChild, same⟩
      rw [isChild, update_self, Node.get?_set_ne _ _ otherField, Graph.heap_setField,
        update_of_ne (Ne.symm apart)]
    · rw [update_of_ne isChild, Graph.heap_setField]
      by_cases isParent : addr = parent
      · have otherField : name ≠ hook := fun same => notHook ⟨isParent, same⟩
        rw [isParent, update_self, Node.get?_set_ne _ _ otherField]
      · rw [update_of_ne isParent]

theorem Rewritten.of_heap {field : String} {hookCell childCell : Cell} {before after other : Graph}
    (rewritten : Rewritten hook field parent child hookCell childCell before after)
    (same : other.heap = after.heap) :
    Rewritten hook field parent child hookCell childCell before other := by
  constructor
  · rw [same]
    exact rewritten.atHook
  · rw [same]
    exact rewritten.atField
  · rw [same]
    exact rewritten.others

theorem Rewritten.sameLinks_iff {hookCell childCell : Cell} {after : Graph}
    (rewritten : Rewritten hook link.field parent child hookCell childCell graph after)
    (found : link.Checked schema graph hook parent child) :
    SameLinks schema graph after ↔ hookCell = link.hookCell ∧ childCell = link.childCell := by
  constructor
  · intro same
    have sameHook := same parent hook found.hookLink
    have sameField := same child link.field (Schema.isLinkField_of_childField found.linked)
    rw [rewritten.atHook, found.hookFound] at sameHook
    rw [rewritten.atField, found.childFound] at sameField
    exact ⟨some.inj sameHook, some.inj sameField⟩
  · rintro ⟨sameHook, sameField⟩ addr field -
    by_cases isHook : addr = parent ∧ field = hook
    · rw [isHook.1, isHook.2, rewritten.atHook, found.hookFound, sameHook]
    · by_cases isField : addr = child ∧ field = link.field
      · rw [isField.1, isField.2, rewritten.atField, found.childFound, sameField]
      · exact rewritten.others addr field isHook isField

theorem holdsChildren_hookWith (heap : Addr → Node) (childTopic : String) (child : Addr)
    (holds : link.hookCell.holdsChildren = true) :
    (hookWith heap childTopic child link).holdsChildren = true := by
  unfold hookWith
  cases hook : link.hookCell with
  | json value =>
    rw [hook] at holds
    cases holds
  | list items => dsimp only; split <;> rfl
  | dict entries =>
    dsimp only
    split
    · split <;> rfl
    · rfl

theorem canRefer_referring (ref : Option String) {cell : Cell} {dataHook : Bool}
    (refers : cell.canRefer dataHook = true) : (referring ref cell).canRefer dataHook = true := by
  cases ref with
  | none => exact refers
  | some ref =>
    cases cell with
    | json value =>
      cases value with
      | string text => exact refers
      | _ => cases refers
    | list items => unfold referring; dsimp only; split <;> rfl
    | dict entries => rfl

/-- The graph after both sides of a link are written. -/
def Link.write (link : Link) (graph : Graph) (hook : String) (parent child : Addr)
    (ref : Option String) : Graph :=
  (graph.setField parent hook (hookWith graph.heap (graph.heap child).topic child link)).setField
    child link.field (referring ref link.childCell)

theorem Link.write_parent (link : Link) (graph : Graph) (hook : String) (apart : parent ≠ child)
    (ref : Option String) : (link.write graph hook parent child ref).heap parent =
      (graph.heap parent).set hook (hookWith graph.heap (graph.heap child).topic child link) := by
  unfold Link.write
  rw [Graph.heap_setField, update_of_ne apart, Graph.heap_setField, update_self]

theorem Link.write_child (link : Link) (graph : Graph) (hook : String) (apart : parent ≠ child)
    (ref : Option String) : (link.write graph hook parent child ref).heap child =
      (graph.heap child).set link.field (referring ref link.childCell) := by
  unfold Link.write
  rw [Graph.heap_setField, update_self, Graph.heap_setField,
    update_of_ne (Ne.symm apart)]

/-- The id of the child after the link is written: the reference, where that is its id. -/
def Link.writtenId (link : Link) (ref : Option String) : String :=
  if link.field = "id" then ref.getD link.childId else link.childId

/-- What unlinking finds of a link that was just written. -/
def Link.written (link : Link) (graph : Graph) (child : Addr) (ref : Option String) : Link where
  field := link.field
  dataHook := link.dataHook
  parentId := link.parentId
  childId := link.writtenId ref
  hookCell := hookWith graph.heap (graph.heap child).topic child link
  childCell := referring ref link.childCell

theorem Link.Checked.childCell_id (found : link.Checked schema graph hook parent child)
    (isId : link.field = "id") : link.childCell = .json (.string link.childId) := by
  have named := found.childId
  have cell := found.childFound
  rw [isId] at cell
  unfold Node.str? at named
  rw [cell] at named
  cases inner : link.childCell with
  | json value =>
    rw [inner] at named
    cases value with
    | string text =>
      rw [some.inj named]
    | _ => cases named
  | list items =>
    rw [inner] at named
    cases named
  | dict entries =>
    rw [inner] at named
    cases named

theorem Link.Checked.written (found : link.Checked schema graph hook parent child)
    (ref : Option String) :
    (link.written graph child ref).Checked schema (link.write graph hook parent child ref) hook
      parent child := by
  have heap_parent := link.write_parent graph hook found.apart ref
  have heap_child := link.write_child graph hook found.apart ref
  refine ⟨found.apart, ?_, ?_, ?_, ?_, ?_, ?_, ?_, ?_⟩
  · rw [heap_parent, Node.get?_set_self]
    rfl
  · rw [heap_parent, heap_child, Node.set_topic, Node.set_topic]
    exact found.linked
  · rw [heap_child, Node.set_topic]
    exact found.dataHook
  · rw [heap_parent, Node.str?_set_ne _ _ (Ne.symm found.hook_ne)]
    exact found.parentId
  · rw [heap_child]
    unfold Link.written Link.writtenId
    by_cases isId : link.field = "id"
    · rw [if_pos isId, isId, found.childCell_id isId]
      unfold Node.str?
      rw [Node.get?_set_self]
      cases ref <;> rfl
    · rw [if_neg isId, Node.str?_set_ne _ _ (Ne.symm isId)]
      exact found.childId
  · rw [heap_child]
    exact Node.get?_set_self _ _ _
  · exact holdsChildren_hookWith _ _ _ found.holds
  · exact canRefer_referring ref found.refers

theorem checkLink_of_heap {after : Graph} (same : after.heap = graph.heap) :
    checkLink schema after hook parent child = checkLink schema graph hook parent child := by
  unfold checkLink
  rw [same]

theorem parentRef_ne (topic id hook : String) : parentRef topic id hook ≠ some "" := by
  intro empty
  unfold parentRef nameText at empty
  rw [map_eq_some_iff] at empty
  have ⟨chars, fits, isEmpty⟩ := empty
  have noChars : chars = [] := by
    have back := congrArg String.toList isEmpty
    rw [String.toList_ofList] at back
    exact back
  rw [noChars] at fits
  cases text : (topic ++ "^" ++ id ++ "^" ++ hook).toList with
  | nil =>
    have some_char := congrArg List.length text
    simp at some_char
  | cons char rest =>
    rw [text] at fits
    unfold fit at fits
    have room : char.utf8Size ≤ nameMax - 1 := by
      have small := char.utf8Size_le_four
      unfold nameMax
      omega
    rw [if_pos room, map_eq_some_iff] at fits
    have ⟨_, _, cut⟩ := fits
    cases cut

theorem unlinkAndSave_rewritten (ctx : Context) {state : State} {before : Graph}
    (found : link.Checked ctx.schema state.graph hook parent child)
    (others : ∀ addr name, ¬ (addr = parent ∧ name = hook) → ¬ (addr = child ∧ name = link.field) →
      (state.graph.heap addr).get? name = (before.heap addr).get? name) :
    Rewritten hook link.field parent child (hookWithout (state.graph.heap child).topic child link)
      (notReferring (parentRef (state.graph.heap parent).topic link.parentId hook) link.childCell)
      before (unlinkAndSave ctx state hook parent child).2.graph := by
  have written := rewritten_setField found.apart
    (hookWithout (state.graph.heap child).topic child link)
    (notReferring (parentRef (state.graph.heap parent).topic link.parentId hook) link.childCell)
    others
  unfold unlinkAndSave unlinkNodes
  rw [checkLink_of_checked found]
  exact written.of_heap (saveNode_keeps ctx _ child).1

section

variable (ctx : Context) {state : State}
  (found : link.Checked ctx.schema state.graph hook parent child)
include ctx found

theorem linkAndSave_heap :
    (linkAndSave ctx state hook parent child).2.graph.heap =
      (link.write state.graph hook parent child
        (parentRef (state.graph.heap parent).topic link.parentId hook)).heap := by
  unfold linkAndSave linkNodes
  rw [checkLink_of_checked found]
  exact (saveNode_keeps ctx _ child).1

/-- Where nothing else is in the cells of a link, linking and unlinking gives them back exactly when
no entry is left behind by a child whose id is its reference. -/
theorem twice_iff (notMade : link.isMade child
      (parentRef (state.graph.heap parent).topic link.parentId hook) = false)
    (slot : ∀ entries, link.hookCell = .dict entries →
      ∀ key ∈ link.slotKey (state.graph.heap child).topic, Dict.lookupEntries key entries = none)
    (text : ∀ text, link.childCell = .json (.string text) → text = "") :
    SameLinks ctx.schema state.graph
        (unlinkAndSave ctx (linkAndSave ctx state hook parent child).2 hook parent child).2.graph ↔
      ∀ entries, link.hookCell = .dict entries → link.field = "id" →
        parentRef (state.graph.heap parent).topic link.parentId hook = none := by
  have heap := linkAndSave_heap ctx found
  have notEmpty := parentRef_ne (state.graph.heap parent).topic link.parentId hook
  revert heap notMade notEmpty
  generalize isRef : parentRef (state.graph.heap parent).topic link.parentId hook = ref
  generalize (linkAndSave ctx state hook parent child).2 = linked
  intro notMade heap notEmpty
  have again : (link.written state.graph child ref).Checked ctx.schema linked.graph hook parent
      child := by
    have written := found.written ref
    have recheck := checkLink_of_checked written
    rw [← checkLink_of_heap heap] at recheck
    exact checkLink_some recheck
  have sameParent : (linked.graph.heap parent).topic = (state.graph.heap parent).topic := by
    rw [heap, link.write_parent _ _ found.apart]
    rfl
  have sameChild : (linked.graph.heap child).topic = (state.graph.heap child).topic := by
    rw [heap, link.write_child _ _ found.apart]
    rfl
  have others : ∀ addr name, ¬ (addr = parent ∧ name = hook) →
      ¬ (addr = child ∧ name = link.field) →
      (linked.graph.heap addr).get? name = (state.graph.heap addr).get? name := by
    rw [heap]
    exact (rewritten_setField found.apart _ _ fun _ _ _ _ => rfl).others
  have unlinked := unlinkAndSave_rewritten ctx again others
  have rewritten : Rewritten hook link.field parent child _ _ state.graph _ := unlinked
  rw [sameParent, sameChild] at rewritten
  have undone := rewritten.sameLinks_iff found
  have backRef : (link.written state.graph child ref).parentId = link.parentId := rfl
  have backCell : (link.written state.graph child ref).childCell = referring ref link.childCell :=
    rfl
  rw [backRef, isRef, backCell, notReferring_referring notMade found.refers text] at undone
  rw [undone]
  simp only [and_true]
  constructor
  · intro restored entries isDict isId
    by_contra some_ref
    obtain ⟨ref, rfl⟩ := Option.ne_none_iff_exists'.1 some_ref
    have isText := found.childCell_id isId
    have noId : link.childId = "" := text link.childId isText
    have noHook : link.dataHook = false := by
      have refers := found.refers
      rw [isText] at refers
      simpa [Cell.canRefer] using refers
    have unused : Dict.lookupEntries "" entries = none := by
      apply slot entries isDict
      unfold Link.slotKey
      rw [noHook, noId]
      rfl
    have left : Dict.lookupEntries "" ((Dict.setEntries "" (.node child) entries).filter
        fun entry => entry.1 ≠ ref) = some (.node child) := by
      have otherKey : "" ≠ ref := fun same => notEmpty (congrArg some same.symm)
      rw [Dict.lookupEntries_filter, if_neg otherKey, Dict.lookupEntries_set, if_pos rfl]
    have kept : (Dict.setEntries "" (.node child) entries).filter (fun entry => entry.1 ≠ ref) =
        entries := by
      rw [isDict] at restored
      unfold hookWithout Link.written hookWith Link.writtenId at restored
      simpa [isDict, noHook, noId, isId] using restored
    rw [kept, unused] at left
    cases left
  · intro named
    apply @hookWithout_hookWith state.graph.heap _ child ref link notMade
      (link.written state.graph child ref) rfl rfl rfl
    intro entries isDict
    refine ⟨?_, slot entries isDict⟩
    unfold Link.written Link.writtenId
    split
    · rename_i isId
      rw [named entries isDict isId]
      rfl
    · rfl

end

end Graphs

/-- For a child that is not linked to a parent by a hook, linking and unlinking gives back the links
of every node, and unlinking alone leaves them, exactly when nothing else is where the link is
written. -/
theorem unlink_undoes_link_iff (ctx : Context) (state : State) (hook : String)
    (parent child : Addr) (notLinked : isLinked ctx.schema state.graph hook parent child = false) :
    (SameLinks ctx.schema state.graph
        (unlinkAndSave ctx (linkAndSave ctx state hook parent child).2 hook parent child).2.graph ∧
      SameLinks ctx.schema state.graph (unlinkAndSave ctx state hook parent child).2.graph) ↔
      LinkFree ctx.schema state.graph hook parent child := by
  unfold isLinked at notLinked
  cases checked : checkLink ctx.schema state.graph hook parent child with
  | none =>
    have linkRefused : linkAndSave ctx state hook parent child = (false, state) := by
      unfold linkAndSave linkNodes
      rw [checked]
      rfl
    have unlinkRefused : unlinkAndSave ctx state hook parent child = (false, state) := by
      unfold unlinkAndSave unlinkNodes
      rw [checked]
      rfl
    rw [linkRefused, unlinkRefused]
    refine iff_of_true ⟨fun _ _ _ => rfl, fun _ _ _ => rfl⟩ ?_
    intro link isLink
    rw [checked] at isLink
    cases isLink
  | some link =>
    rw [checked, Option.any_some] at notLinked
    have found := checkLink_some checked
    have free_iff : LinkFree ctx.schema state.graph hook parent child ↔
        link.Free (state.graph.heap child).topic
          (parentRef (state.graph.heap parent).topic link.parentId hook) := by
      unfold LinkFree
      rw [checked]
      simp
    rw [free_iff]
    have alone : SameLinks ctx.schema state.graph
        (unlinkAndSave ctx state hook parent child).2.graph ↔ _ :=
      (unlinkAndSave_rewritten ctx found fun _ _ _ _ => rfl).sameLinks_iff found
    rw [hookWithout_eq_iff notLinked, notReferring_eq_iff notLinked found.refers] at alone
    have both := twice_iff ctx found notLinked
    constructor
    · rintro ⟨restored, kept⟩
      have ⟨slot, text⟩ := alone.1 kept
      exact ⟨text, slot, (both slot text).1 restored⟩
    · intro free
      exact ⟨(both free.slot free.text).2 free.named, alone.2 ⟨free.slot, free.text⟩⟩

/-- Three departments with the third under the first: the treedb they are in. -/
def threeDepartments : State :=
  run (step departmentsCtx) (start departmentsCtx)
    [newDepartment "a", newDepartment "b", newDepartment "c", underDepartment "a" "c"]

/-- The third department and the second, which it is not under. -/
theorem unlink_undoes_link_departments :
    (SameLinks departmentsCtx.schema threeDepartments.graph
        (unlinkAndSave departmentsCtx (linkAndSave departmentsCtx threeDepartments "departments" 1 2).2
          "departments" 1 2).2.graph ∧
      SameLinks departmentsCtx.schema threeDepartments.graph
        (unlinkAndSave departmentsCtx threeDepartments "departments" 1 2).2.graph) ↔
      LinkFree departmentsCtx.schema threeDepartments.graph "departments" 1 2 :=
  unlink_undoes_link_iff departmentsCtx threeDepartments "departments" 1 2 (by decide)

/-- A department that is unlinked from one it was never under, or was just linked to, is no longer
under the one it was. -/
theorem unlink_forgets_department :
    isLinked departmentsCtx.schema threeDepartments.graph "departments" 1 2 = false ∧
      ¬ SameLinks departmentsCtx.schema threeDepartments.graph
        (unlinkAndSave departmentsCtx (linkAndSave departmentsCtx threeDepartments "departments" 1 2).2
          "departments" 1 2).2.graph ∧
      ¬ SameLinks departmentsCtx.schema threeDepartments.graph
        (unlinkAndSave departmentsCtx threeDepartments "departments" 1 2).2.graph := by
  have text : ∀ after, SameLinks departmentsCtx.schema threeDepartments.graph after →
      (after.heap 2).str? "department_id" =
        (threeDepartments.graph.heap 2).str? "department_id" := by
    intro after same
    unfold Node.str?
    rw [same 2 "department_id" (by decide)]
  refine ⟨by decide, fun same => ?_, fun same => ?_⟩
  · exact absurd (text _ same) (by decide)
  · exact absurd (text _ same) (by decide)

end Yunetas.TrTreedb
