import Yunetas.TrTreedb.Deletes

/-!
# What links leave alone

Linking, unlinking and rebuilding hooks write link columns only: hooks, fkeys and the columns that a
hook links. Every other field of every node, the topics of the nodes and the indexes stay.
-/

namespace Yunetas.TrTreedb

open List Option Function Bool TrTreedb.Graph

namespace Schema

/-- A column that links write: a hook, an fkey or one that a hook links. -/
def isLinkField (schema : Schema) (topic field : String) : Bool :=
  (schema.cols topic).any (fun col => col.id = field && (col.hook.isSome || col.fkey)) ||
    !(schema.linksTo topic field).isEmpty

variable {schema : Schema} {topic hook childTopic field : String}

theorem topic?_mem {name : String} {topic : Topic}
    (found : schema.topic? name = some topic) : topic ∈ schema.topics ∧ topic.name = name := by
  have named := find?_some found
  exact ⟨mem_of_find?_eq_some found, by simpa using named⟩

theorem topic?_of_mem {topic : Topic} (among : topic ∈ schema.topics) :
    schema.topic? topic.name = some topic := by
  unfold topic?
  have distinct : (schema.topics.map Topic.name).Nodup := schema.distinct
  revert among distinct
  induction schema.topics with
  | nil => exact fun among => absurd among not_mem_nil
  | cons first rest ih =>
    intro among distinct
    rw [map_cons, nodup_cons] at distinct
    rw [find?_cons]
    rcases mem_cons.1 among with rfl | later
    · simp
    · have ne : first.name ≠ topic.name := fun same =>
        distinct.1 (same ▸ mem_map_of_mem later)
      simp only [ne, decide_false]
      exact ih later distinct.2

theorem cols_of_mem {topic : Topic} (among : topic ∈ schema.topics) :
    schema.cols topic.name = topic.cols := by
  unfold cols
  rw [topic?_of_mem among]

theorem isLinkField_of_col {topic : String} {col : Col}
    (among : col ∈ schema.cols topic) (flagged : (col.hook.isSome || col.fkey) = true) :
    schema.isLinkField topic col.id = true := by
  unfold isLinkField
  rw [Bool.or_eq_true, List.any_eq_true]
  exact Or.inl ⟨col, among, by simp [flagged]⟩

theorem isLinkField_of_hookLinks {topic hook : String}
    {links : List (String × String)} (found : schema.hookLinks topic hook = some links) :
    schema.isLinkField topic hook = true := by
  unfold hookLinks at found
  rw [bind_eq_some_iff] at found
  have ⟨col, named, hooks⟩ := found
  rw [bind_eq_some_iff] at named
  have ⟨parent, isTopic, isCol⟩ := named
  have among : col ∈ schema.cols topic := by
    unfold cols
    rw [isTopic]
    exact (colOf_some isCol).1
  have id : col.id = hook := (colOf_some isCol).2
  rw [← id]
  exact isLinkField_of_col among (by simp [hooks])

section

variable (linked : schema.childField topic hook childTopic = some field)
include linked

theorem childField_linksTo :
    (topic, hook) ∈ schema.linksTo childTopic field := by
  unfold childField at linked
  rw [bind_eq_some_iff] at linked
  have ⟨links, found, entry⟩ := linked
  unfold hookLinks at found
  rw [bind_eq_some_iff] at found
  have ⟨col, named, hooks⟩ := found
  rw [bind_eq_some_iff] at named
  have ⟨parent, isTopic, isCol⟩ := named
  have parentIn := topic?_mem isTopic
  have colIn : col ∈ parent.hookCols := by
    unfold Topic.hookCols
    rw [mem_filter]
    exact ⟨(colOf_some isCol).1, by simp [hooks]⟩
  have id : col.id = hook := (colOf_some isCol).2
  unfold linksTo
  rw [mem_flatMap]
  refine ⟨parent, parentIn.1, ?_⟩
  rw [mem_filterMap]
  refine ⟨col, colIn, ?_⟩
  rw [hooks, getD_some, if_pos (Dict.mem_of_lookupEntries entry), parentIn.2, id]

theorem isLinkField_of_childField :
    schema.isLinkField childTopic field = true := by
  unfold isLinkField
  rw [or_eq_true]
  right
  cases found : schema.linksTo childTopic field with
  | nil => exact absurd (found ▸ childField_linksTo linked) not_mem_nil
  | cons first rest => rfl

end

theorem isHook_of_col {topic : Topic} (among : topic ∈ schema.topics) {col : Col}
    (isCol : col ∈ topic.cols) (flagged : col.hook.isSome = true) :
    schema.isHook topic.name col.id = true := by
  have found : topic.col? col.id = some col := colOf_mem topic.distinct isCol
  unfold isHook hookLinks
  rw [topic?_of_mem among, bind_some, found]
  exact flagged

theorem isHook_of_linksTo (links : (topic, hook) ∈ schema.linksTo childTopic field) :
    schema.isHook topic hook = true := by
  unfold linksTo at links
  rw [mem_flatMap] at links
  have ⟨parent, parentIn, inner⟩ := links
  rw [mem_filterMap] at inner
  have ⟨col, colIn, entry⟩ := inner
  split at entry
  · obtain ⟨rfl, rfl⟩ := Prod.mk.inj (some.inj entry)
    unfold Topic.hookCols at colIn
    rw [mem_filter] at colIn
    exact isHook_of_col parentIn colIn.1 colIn.2
  · cases entry

end Schema

/-- The nodes of a primary index are of its topic. -/
def Graph.Typed (graph : Graph) : Prop :=
  ∀ topic id addr, graph.getNode topic id = some addr → (graph.heap addr).topic = topic

/-- Two graphs whose nodes differ in the columns that may be touched only. -/
structure SameBut (touched : String → String → Bool) (before after : Graph) : Prop where
  next : after.next = before.next
  primary : after.primary = before.primary
  secondary : after.secondary = before.secondary
  topic : ∀ addr, (after.heap addr).topic = (before.heap addr).topic
  field : ∀ addr field, touched (before.heap addr).topic field = false →
    (after.heap addr).get? field = (before.heap addr).get? field
  blank : ∀ addr, (before.heap addr).fields = [] → (after.heap addr).fields = []

/-- Two graphs that differ in link columns only. -/
abbrev SameButLinks (schema : Schema) : Graph → Graph → Prop := SameBut schema.isLinkField

/-- Two graphs that differ in hooks only. -/
abbrev SameButHooks (schema : Schema) : Graph → Graph → Prop := SameBut schema.isHook

namespace SameBut

variable {touched : String → String → Bool}

theorem refl (graph : Graph) : SameBut touched graph graph :=
  ⟨rfl, rfl, rfl, fun _ => rfl, fun _ _ _ => rfl, fun _ none => none⟩

theorem trans {first second third : Graph} (left : SameBut touched first second)
    (right : SameBut touched second third) : SameBut touched first third where
  next := right.next.trans left.next
  primary := right.primary.trans left.primary
  secondary := right.secondary.trans left.secondary
  topic addr := (right.topic addr).trans (left.topic addr)
  field addr field plain := by
    have still : touched (second.heap addr).topic field = false := by
      rw [left.topic]
      exact plain
    exact (right.field addr field still).trans (left.field addr field plain)
  blank addr none := right.blank addr (left.blank addr none)

theorem mono {more : String → String → Bool} {before after : Graph}
    (same : SameBut touched before after)
    (within : ∀ topic field, touched topic field = true → more topic field = true) :
    SameBut more before after where
  next := same.next
  primary := same.primary
  secondary := same.secondary
  topic := same.topic
  field addr field plain := by
    apply same.field
    rw [← not_eq_true] at plain ⊢
    exact fun hit => plain (within _ _ hit)
  blank := same.blank

theorem setField (graph : Graph) (addr : Addr) (field : String) (cell : Cell)
    (may : touched (graph.heap addr).topic field = true)
    (has : ((graph.heap addr).get? field).isSome) :
    SameBut touched graph (graph.setField addr field cell) where
  next := rfl
  primary := rfl
  secondary := rfl
  topic other := by
    rw [heap_setField]
    by_cases same : other = addr
    · rw [same, update_self, Node.set_topic]
    · rw [update_of_ne same]
  field other name plain := by
    rw [heap_setField]
    by_cases same : other = addr
    · have ne : name ≠ field := by
        rintro rfl
        rw [same, may] at plain
        cases plain
      rw [same, update_self, Node.get?_set_ne _ _ ne]
    · rw [update_of_ne same]
  blank other none := by
    rw [heap_setField]
    by_cases same : other = addr
    · rw [same] at none
      rw [Node.get?, none] at has
      cases has
    · rw [update_of_ne same]
      exact none

theorem foldl {α : Type} (items : List α) (change : Graph → α → Graph) (graph : Graph)
    (keeps : ∀ other item, item ∈ items → SameBut touched graph other →
      SameBut touched other (change other item)) :
    SameBut touched graph (items.foldl change graph) := by
  apply foldlRecOn
  · exact refl graph
  · intro other sofar item among
    exact sofar.trans (keeps other item among sofar)

section

variable {before after : Graph} (same : SameBut touched before after)
include same

theorem str? (addr : Addr)
    {field : String} (plain : touched (before.heap addr).topic field = false) :
    (after.heap addr).str? field = (before.heap addr).str? field := by
  unfold Node.str?
  rw [same.field addr field plain]

theorem typed (typed : before.Typed) : after.Typed := by
  intro topic id addr found
  rw [same.topic]
  unfold Graph.getNode at found
  rw [same.primary] at found
  exact typed topic id addr found

end

end SameBut

theorem Schema.isLinkField_of_isHook {schema : Schema} {topic field : String}
    (hook : schema.isHook topic field = true) : schema.isLinkField topic field = true := by
  have ⟨links, found⟩ := isSome_iff_exists.1 hook
  exact isLinkField_of_hookLinks found

theorem SameButHooks.links {schema : Schema} {before after : Graph}
    (same : SameButHooks schema before after) : SameButLinks schema before after :=
  SameBut.mono same fun _ _ => Schema.isLinkField_of_isHook

/-- What the checks of a link found. -/
structure Link.Checked (schema : Schema) (graph : Graph) (hook : String) (parent child : Addr)
    (link : Link) : Prop where
  apart : parent ≠ child
  hookFound : (graph.heap parent).get? hook = some link.hookCell
  linked : schema.childField (graph.heap parent).topic hook (graph.heap child).topic =
    some link.field
  dataHook : link.dataHook = schema.isHook (graph.heap child).topic link.field
  parentId : (graph.heap parent).str? "id" = some link.parentId
  childId : (graph.heap child).str? "id" = some link.childId
  childFound : (graph.heap child).get? link.field = some link.childCell
  holds : link.hookCell.holdsChildren = true
  refers : link.childCell.canRefer link.dataHook = true

variable {graph : Graph} {parent child : Addr}

theorem checkLink_some {schema : Schema} {hook : String}
    {link : Link} (checked : checkLink schema graph hook parent child = some link) :
    link.Checked schema graph hook parent child := by
  unfold checkLink at checked
  dsimp only at checked
  split at checked
  · cases checked
  rename_i apart
  split at checked
  · rename_i hookCell field hookFound fieldFound
    split at checked
    · rename_i parentId childId childCell parentFound childFound cellFound
      split at checked
      · rename_i fits
        rw [and_eq_true] at fits
        rw [← some.inj checked]
        exact ⟨apart, hookFound, fieldFound, rfl, parentFound, childFound, cellFound, fits.1,
          fits.2⟩
      · cases checked
    · cases checked
  · cases checked

variable {schema : Schema}

theorem setLink_same {hook : String} {link : Link}
    (checked : checkLink schema graph hook parent child = some link) (hookCell childCell : Cell) :
    SameButLinks schema graph
      ((graph.setField parent hook hookCell).setField child link.field childCell) := by
  have found := checkLink_some checked
  have hookLink : schema.isLinkField (graph.heap parent).topic hook = true := by
    have linked := found.linked
    unfold Schema.childField at linked
    rw [bind_eq_some_iff] at linked
    have ⟨links, isHook, _⟩ := linked
    exact Schema.isLinkField_of_hookLinks isHook
  have first : SameButLinks schema graph (graph.setField parent hook hookCell) :=
    SameBut.setField graph parent hook hookCell hookLink (by simp [found.hookFound])
  have childLink := Schema.isLinkField_of_childField found.linked
  have still : (graph.setField parent hook hookCell).heap child = graph.heap child := by
    rw [heap_setField, update_of_ne (Ne.symm found.apart)]
  apply first.trans
  apply SameBut.setField
  · rw [first.topic]
    exact childLink
  · rw [still, found.childFound]
    rfl

theorem linkNodes_same {graph linked : Graph} {hook : String}
    (done : linkNodes schema graph hook parent child = some linked) :
    SameButLinks schema graph linked := by
  unfold linkNodes at done
  rw [map_eq_some_iff] at done
  obtain ⟨link, checked, rfl⟩ := done
  exact setLink_same checked _ _

theorem unlinkNodes_same {graph unlinked : Graph} {hook : String}
    (done : unlinkNodes schema graph hook parent child = some unlinked) :
    SameButLinks schema graph unlinked := by
  unfold unlinkNodes at done
  rw [map_eq_some_iff] at done
  obtain ⟨link, checked, rfl⟩ := done
  exact setLink_same checked _ _

theorem linkChildToParent_cases {graph : Graph} (typed : graph.Typed) (child : Addr)
    (field ref : String) :
    linkChildToParent schema graph child field ref = graph ∨
      ∃ parent hook cell, schema.isHook (graph.heap parent).topic hook = true ∧
        ((graph.heap parent).get? hook).isSome = true ∧
        linkChildToParent schema graph child field ref = graph.setField parent hook cell := by
  unfold linkChildToParent
  split
  · exact Or.inl rfl
  rename_i topic id hook decoded
  split
  · exact Or.inl rfl
  rename_i described
  have linked : (topic, hook) ∈ schema.linksTo (graph.heap child).topic field := by
    simp only [ne_eq, Decidable.not_not] at described
    exact mem_of_getLast? described
  split
  · exact Or.inl rfl
  rename_i parent found
  have isHook : schema.isHook (graph.heap parent).topic hook = true := by
    rw [typed topic id parent found]
    exact Schema.isHook_of_linksTo linked
  dsimp only
  split
  · rename_i items stored
    split
    · exact Or.inl rfl
    · exact Or.inr ⟨parent, hook, _, isHook, by simp [stored], rfl⟩
  · rename_i entries stored
    exact Or.inr ⟨parent, hook, _, isHook, by simp [stored], rfl⟩
  · exact Or.inl rfl

theorem linkChildToParent_same (typed : graph.Typed) (child : Addr) (field ref : String) :
    SameButHooks schema graph (linkChildToParent schema graph child field ref) := by
  rcases @linkChildToParent_cases schema graph typed child field ref
    with same | ⟨parent, hook, cell, isHook, has, done⟩
  · rw [same]
    exact SameBut.refl graph
  · rw [done]
    exact SameBut.setField graph parent hook cell isHook has

theorem loadLinks_same (typed : graph.Typed) (child : Addr) :
    SameButHooks schema graph (loadLinks schema graph child) := by
  apply SameBut.foldl
  intro other col _ sofar
  split
  · apply SameBut.foldl
    intro third ref _ further
    exact linkChildToParent_same (further.typed (sofar.typed typed)) child col.id ref
  · exact SameBut.refl other

theorem loadAllLinks_same (typed : graph.Typed) :
    SameButHooks schema graph (loadAllLinks schema graph) := by
  apply SameBut.foldl
  intro other topic _ sofar
  apply SameBut.foldl
  intro third entry _ further
  exact loadLinks_same (further.typed (sofar.typed typed)) entry.2

theorem searchAndRemoveWrongUpRef_same (graph : Graph) (child : Addr) (ref : String) :
    SameButLinks schema graph (searchAndRemoveWrongUpRef schema graph child ref) := by
  apply SameBut.foldl
  intro other col among sofar
  split
  · rename_i cell stored
    apply SameBut.setField
    · rw [mem_filter] at among
      rw [sofar.topic]
      exact Schema.isLinkField_of_col among.1 (by simp [among.2])
    · rw [stored]
      rfl
  · exact SameBut.refl other

theorem cleanRef_same (child : Addr) (cleaned : Graph × Bool) (ref : String) :
    SameButLinks schema cleaned.1 (cleanRef schema child cleaned ref).1 := by
  unfold cleanRef
  dsimp only
  split
  · exact SameBut.refl cleaned.1
  split
  · split
    · rename_i unlinked done
      exact unlinkNodes_same done
    · exact SameBut.refl cleaned.1
  · exact searchAndRemoveWrongUpRef_same cleaned.1 child ref

theorem cleanNode_same (graph : Graph) (child : Addr) :
    SameButLinks schema graph (cleanNode schema graph child).1 := by
  apply foldlRecOn (motive := fun cleaned : Graph × Bool =>
    SameButLinks schema graph cleaned.1)
  · exact SameBut.refl graph
  · intro cleaned sofar ref _
    exact sofar.trans (cleanRef_same child cleaned ref)

end Yunetas.TrTreedb
