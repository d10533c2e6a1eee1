import Yunetas.TrTreedb.InUse
import Yunetas.TrTreedb.Walks

/-!
# No paths without end

The paths through the hooks of a name end when no node is below itself. Unlinking takes edges away
and a new node has no children, so only a link can close a cycle: one that puts a child into a hook
while the parent is already below that child.
-/

namespace Yunetas.TrTreedb

open List Option Function

namespace Link

/-- Linking puts the child itself into the hook: not a column of it, and not again. -/
def addsChild (heap : Addr → Node) (child : Addr) (link : Link) : Bool :=
  !link.dataHook && match link.hookCell with
    | .list items => !childInHookArray heap items child link.childId link.field false
    | .dict _ => true
    | .json _ => false

end Link

/-- No hook of a topic is among what a new instance takes from the node of its id. -/
def Topic.hooksStay (topic : Topic) : Bool :=
  topic.cols.all fun col => !(col.inherit && col.hook.isSome)

variable (ctx : Context)

/-- An operation closes no cycle: no child is linked to a parent that is below it, and no new
instance takes a hook from the node of its id. -/
def ClosesNoCycle (state : State) : Op → Prop
  | .create topicName kw uuid _ =>
    ∀ topic, ctx.schema.topic? topicName = some topic →
      ∀ id, newId state topic kw uuid = some id →
        (state.graph.getNode topicName id).isSome = true → topic.hooksStay = true
  | .link hook parentRef childRef =>
    ∀ parent, state.graph.resolve parentRef = some parent →
      ∀ child, state.graph.resolve childRef = some child →
        ∀ link, checkLink ctx.schema state.graph hook parent child = some link →
          link.addsChild state.graph.heap child = true →
            ¬ Relation.ReflTransGen (Under ctx.schema state.graph hook) parent child
  | _ => True

/-- The operations that make trees: creations, links and unlinks. -/
def Op.makesTrees : Op → Bool
  | .create .. => true
  | .link .. => true
  | .unlink .. => true
  | _ => false

variable {ctx}

variable {schema : Schema}

theorem under_iff {graph : Graph} {hook : String} {child parent : Addr} :
    Under schema graph hook child parent ↔ schema.isHook (graph.heap parent).topic hook = true ∧
        ∃ cell, (graph.heap parent).get? hook = some cell ∧ .node child ∈ hookList cell := by
  unfold Under listChildren
  by_cases isHook : schema.isHook (graph.heap parent).topic hook = true
  · simp only [isHook, ↓reduceIte, true_and]
    cases (graph.heap parent).get? hook with
    | none => simp
    | some cell =>
      cases cell with
      | json value => simp [getHookList, hookList]
      | list items => simp [getHookList, hookList]
      | dict entries => simp [getHookList, hookList]
  · simp [isHook]

theorem under_of_heap {before after : Graph} (same : after.heap = before.heap)
    (hook : String) : Under schema after hook = Under schema before hook := by
  funext child parent
  rw [eq_iff_iff, under_iff, under_iff, same]

theorem under_setField {graph : Graph} {addr : Addr} {field hook : String}
    {cell : Cell} {child parent : Addr}
    (under : Under schema (graph.setField addr field cell) hook child parent) :
    Under schema graph hook child parent ∨ parent = addr ∧ hook = field ∧
      schema.isHook (graph.heap addr).topic field = true ∧ .node child ∈ hookList cell := by
  rw [under_iff] at under ⊢
  have ⟨isHook, held, stored, among⟩ := under
  rw [Graph.heap_setField] at isHook stored
  by_cases here : parent = addr
  · rw [here, update_self] at isHook stored
    rw [Node.set_topic] at isHook
    by_cases isField : hook = field
    · rw [isField, Node.get?_set_self] at stored
      rw [isField] at isHook
      rw [← some.inj stored] at among
      exact Or.inr ⟨here, isField, isHook, among⟩
    · rw [Node.get?_set_ne _ _ isField] at stored
      rw [here]
      exact Or.inl ⟨isHook, held, stored, among⟩
  · rw [update_of_ne here] at isHook stored
    exact Or.inl ⟨isHook, held, stored, among⟩

theorem under_setField_of_subset {graph : Graph} {addr : Addr}
    {field hook : String} {old cell : Cell} {child parent : Addr}
    (stored : (graph.heap addr).get? field = some old)
    (subset : ∀ child, .node child ∈ hookList cell → .node child ∈ hookList old)
    (under : Under schema (graph.setField addr field cell) hook child parent) :
    Under schema graph hook child parent := by
  rcases under_setField under with before | ⟨rfl, rfl, isHook, among⟩
  · exact before
  · exact under_iff.2 ⟨isHook, old, stored, subset child among⟩

section Link

variable {schema : Schema} {graph : Graph} {hook : String} {parent child : Addr} {link : Link}

theorem referring_subset (ref : Option String) {cell : Cell} (other : Addr)
    (among : .node other ∈ hookList (referring ref cell)) : .node other ∈ hookList cell := by
  cases ref with
  | none => exact among
  | some ref =>
    cases cell with
    | json value => exact absurd among not_mem_nil
    | list items =>
      unfold referring at among
      dsimp only at among
      split at among
      · exact among
      · simpa [hookList] using among
    | dict entries =>
      have ⟨entry, isEntry, isNode⟩ := mem_map.1 among
      rcases Dict.mem_setEntries isEntry with new | old
      · rw [new] at isNode
        cases isNode
      · exact mem_map.2 ⟨entry, old, isNode⟩

theorem notReferring_subset (ref : Option String) {cell : Cell} (other : Addr)
    (among : .node other ∈ hookList (notReferring ref cell)) : .node other ∈ hookList cell := by
  cases cell with
  | json value => cases ref <;> exact absurd among not_mem_nil
  | list items =>
    cases ref with
    | none => exact among
    | some ref => exact mem_of_mem_eraseP among
  | dict entries =>
    cases ref with
    | none => exact among
    | some ref => exact (filter_sublist.map Prod.snd).subset among

theorem hookWith_subset (heap : Addr → Node) (childTopic : String) (other : Addr)
    (among : .node other ∈ hookList (hookWith heap childTopic child link)) :
    .node other ∈ hookList link.hookCell ∨ other = child ∧ link.addsChild heap child = true := by
  unfold hookWith at among
  unfold Link.addsChild
  cases hook : link.hookCell with
  | json value =>
    rw [hook] at among
    exact Or.inl among
  | list items =>
    rw [hook] at among
    dsimp only at among
    split at among
    · exact Or.inl among
    · rename_i absent
      rcases mem_append.1 among with old | new
      · exact Or.inl old
      · cases dataHook : link.dataHook with
        | true =>
          rw [dataHook] at new
          simp [heldItem] at new
        | false =>
          rw [dataHook] at new absent
          simp only [heldItem, Bool.false_eq_true, ↓reduceIte, mem_singleton,
            Item.node.injEq] at new
          exact Or.inr ⟨new, by simp [absent]⟩
  | dict entries =>
    rw [hook] at among
    have fromSet : ∀ (key : String) (item : Item),
        .node other ∈ hookList (.dict (Dict.setEntries key item entries)) →
          .node other ∈ hookList (.dict entries) ∨ item = .node other := by
      intro key item held
      have ⟨entry, isEntry, isNode⟩ := mem_map.1 held
      rcases Dict.mem_setEntries isEntry with new | old
      · rw [new] at isNode
        exact Or.inr isNode
      · exact Or.inl (mem_map.2 ⟨entry, old, isNode⟩)
    cases dataHook : link.dataHook with
    | true =>
      simp only [dataHook, ↓reduceIte] at among
      split at among
      · rcases fromSet _ _ among with old | new
        · exact Or.inl old
        · cases new
      · exact Or.inl among
    | false =>
      simp only [dataHook, Bool.false_eq_true, ↓reduceIte] at among
      rcases fromSet _ _ among with old | new
      · exact Or.inl old
      · exact Or.inr ⟨(Item.node.inj new).symm, rfl⟩

theorem linkNodes_under {after : Graph} (done : linkNodes schema graph hook parent child = some after)
    {name : String} {left right : Addr} (under : Under schema after name left right) :
    Under schema graph name left right ∨ left = child ∧ right = parent ∧ name = hook ∧
      ∃ link, checkLink schema graph hook parent child = some link ∧
        link.addsChild graph.heap child = true := by
  unfold linkNodes at done
  rw [map_eq_some_iff] at done
  obtain ⟨link, checked, rfl⟩ := done
  have found := checkLink_some checked
  have stored : ((graph.setField parent hook
      (hookWith graph.heap (graph.heap child).topic child link)).heap child).get? link.field =
        some link.childCell := by
    rw [Graph.heap_setField, update_of_ne (Ne.symm found.apart)]
    exact found.childFound
  have first := under_setField_of_subset stored (fun other => referring_subset _ other) under
  rcases under_setField first with before | ⟨isParent, isHook, hooked, among⟩
  · exact Or.inl before
  · rcases hookWith_subset _ _ left among with old | ⟨isChild, adds⟩
    · left
      rw [isParent, isHook]
      exact under_iff.2 ⟨hooked, link.hookCell, found.hookFound, old⟩
    · exact Or.inr ⟨isChild, isParent, isHook, link, checked, adds⟩

theorem unlinkNodes_under {after : Graph}
    (done : unlinkNodes schema graph hook parent child = some after) {name : String}
    {left right : Addr} (under : Under schema after name left right) :
    Under schema graph name left right := by
  unfold unlinkNodes at done
  rw [map_eq_some_iff] at done
  obtain ⟨link, checked, rfl⟩ := done
  have found := checkLink_some checked
  have stored : ((graph.setField parent hook
      (hookWithout (graph.heap child).topic child link)).heap child).get? link.field =
        some link.childCell := by
    rw [Graph.heap_setField, update_of_ne (Ne.symm found.apart)]
    exact found.childFound
  apply under_setField_of_subset found.hookFound
    fun other among => hookWithout_subset _ child link _ among
  exact under_setField_of_subset stored (fun other => notReferring_subset _ other) under

end Link

section Create

/-- No hook of a node holds a node. -/
def Node.Childless (schema : Schema) (node : Node) : Prop :=
  ∀ hook, schema.isHook node.topic hook = true → ∀ cell, node.get? hook = some cell →
    ∀ child, .node child ∉ hookList cell

theorem hookList_ofJson (value : Json) (child : Addr) :
    .node child ∉ hookList (Cell.ofJson value) := by
  cases value with
  | array items => simp [Cell.ofJson, hookList]
  | object entries => simp [Cell.ofJson, hookList]
  | _ => exact not_mem_nil

theorem createPureRecord_json {conv : Conversions} {now : Int} {kw : Json.Fields} {cols : List Col}
    {fields : List (String × Cell)} (made : createPureRecord conv now kw cols = some fields) :
    ∀ entry ∈ fields, ∃ value, entry.2 = Cell.ofJson value := by
  induction cols generalizing fields with
  | nil =>
    rw [← some.inj made]
    exact fun _ among => absurd among not_mem_nil
  | cons col rest ih =>
    unfold createPureRecord at made
    split at made
    · cases made
    · rename_i value _
      have ⟨others, isOthers, split⟩ := map_eq_some_iff.1 made
      rw [← split, forall_mem_cons]
      exact ⟨⟨value, rfl⟩, ih isOthers⟩

variable {schema : Schema}

section

variable {node : Node} (childless : node.Childless schema)
include childless

theorem Node.Childless.set {field : String} {cell : Cell}
    (none : schema.isHook node.topic field = true → ∀ child, .node child ∉ hookList cell) :
    (node.set field cell).Childless schema := by
  intro hook isHook held stored child
  rw [Node.set_topic] at isHook
  rw [Node.get?_set] at stored
  split at stored
  · rename_i same
    rw [← some.inj stored]
    exact none (same ▸ isHook) child
  · exact childless hook isHook held stored child

theorem Node.Childless.inheritLinks (cols : List Col) (previous : Node) :
    (inheritLinks cols previous node).1.Childless schema := by
  apply foldlRecOn (motive := fun inherited : Node × Bool => inherited.1.Childless schema)
  · exact childless
  · intro inherited sofar col _
    dsimp only
    split
    · rename_i items stored
      apply sofar.set
      intro isHook child among
      rcases mem_append.1 among with old | new
      · exact sofar col.id isHook _ stored child old
      · simp at new
    · apply sofar.set
      exact fun _ _ => not_mem_nil
    · exact sofar

theorem Node.Childless.copyInheritFields {cols : List Col} (previous : Node)
    (noHook : ∀ col ∈ cols, col.inherit = true → schema.isHook node.topic col.id = false) :
    (copyInheritFields cols previous node).Childless schema := by
  apply (foldlRecOn (motive := fun copied : Node =>
    copied.topic = node.topic ∧ copied.Childless schema) _ _ _ _).2
  · exact ⟨rfl, childless⟩
  · intro copied sofar col among
    have plain := noHook col (mem_filter.1 among).1 (mem_filter.1 among).2
    split
    · refine ⟨sofar.1, sofar.2.set fun isHook => ?_⟩
      rw [sofar.1, plain] at isHook
      cases isHook
    · exact sofar

end

variable {state : State} {topicName : String} {kw : Json.Fields} {uuid : String} {now : Int}

theorem isHook_eq_false {topic : Topic} {name : String}
    (found : schema.topic? name = some topic) {col : Col} (among : col ∈ topic.cols)
    (noHook : col.hook.isSome = false) : schema.isHook name col.id = false := by
  unfold Schema.isHook Schema.hookLinks
  rw [found, bind_some]
  have isCol : topic.col? col.id = some col := colOf_mem topic.distinct among
  rw [isCol, bind_some]
  exact noHook

theorem Created.childless (created : Created ctx state topicName kw uuid now)
    (stay : (state.graph.getNode topicName created.id).isSome = true →
      created.topic.hooksStay = true) : created.node.Childless ctx.schema := by
  have new : (⟨topicName, created.fields⟩ : Node).Childless ctx.schema := by
    intro hook _ cell stored child
    have ⟨value, isJson⟩ := createPureRecord_json created.pure _ (Dict.mem_of_lookupEntries stored)
    dsimp only at isJson
    rw [isJson]
    exact hookList_ofJson value child
  unfold node inherited inheritFrom
  cases found : (if created.pkey2s.isEmpty = true then none else created.previous).map
      state.node with
  | none => exact new
  | some previous =>
    have ⟨addr, isAddr, _⟩ := created.previous_of_inherits found
    have there : (state.graph.getNode topicName created.id).isSome = true := by
      rw [show state.graph.getNode topicName created.id = some addr from isAddr]
      rfl
    have hooksStay := stay there
    apply (new.inheritLinks created.topic.cols previous).copyInheritFields
    intro col among inherit
    have kept := all_eq_true.1 hooksStay col among
    rw [inherit, Bool.true_and, Bool.not_eq_true'] at kept
    have sameTopic : (inheritLinks created.topic.cols previous ⟨topicName, created.fields⟩).1.topic =
        topicName := inheritLinks_topic ..
    rw [sameTopic]
    exact isHook_eq_false created.isTopic among kept

/-- The paths through every hook end. -/
def Graph.PathsEnd (schema : Schema) (graph : Graph) : Prop :=
  ∀ hook, WellFounded (Under schema graph hook)

theorem Graph.PathsEnd.mono {schema : Schema} {before after : Graph} (ends : before.PathsEnd schema)
    (fewer : ∀ hook left right, Under schema after hook left right →
      Under schema before hook left right) : after.PathsEnd schema := fun hook =>
  Subrelation.wf (fun edge => fewer hook _ _ edge) (ends hook)

/-- A graph while a new node is put into the hooks of its parents: the node has no children and is
not in the indexes. -/
structure Graph.Growing (schema : Schema) (fresh : Addr) (graph : Graph) : Prop where
  ends : graph.PathsEnd schema
  leaf : ∀ hook child, ¬ Under schema graph hook child fresh
  apart : ∀ topic id, graph.getNode topic id ≠ some fresh

namespace Graph.Growing

variable {schema : Schema} {fresh : Addr} {graph : Graph}

theorem alloc (ends : graph.PathsEnd schema) (inUse : graph.InUse) {node : Node}
    (childless : node.Childless schema) : (graph.alloc node).Growing schema graph.next := by
  have leaf : ∀ hook child, ¬ Under schema (graph.alloc node) hook child graph.next := by
    intro hook child under
    rw [under_iff, Graph.heap_alloc, update_self] at under
    have ⟨isHook, cell, stored, among⟩ := under
    exact childless hook isHook cell stored child among
  refine ⟨ends.mono fun hook left right under => ?_, leaf, fun topic id found => ?_⟩
  · have other : right ≠ graph.next := fun same => leaf hook left (same ▸ under)
    rw [under_iff, Graph.heap_alloc, update_of_ne other] at under
    exact under_iff.2 under
  · exact Nat.lt_irrefl _ (inUse topic id graph.next found).1

section

variable (growing : graph.Growing schema fresh)
include growing

theorem setHook {parent : Addr} {hook : String}
    {old cell : Cell} (stored : (graph.heap parent).get? hook = some old)
    (subset : ∀ child, .node child ∈ hookList cell → .node child ∈ hookList old ∨ child = fresh)
    (apart : parent ≠ fresh) : (graph.setField parent hook cell).Growing schema fresh := by
  have added : ∀ name left right, Under schema (graph.setField parent hook cell) name left right →
      Under schema graph name left right ∨ left = fresh ∧ right = parent := by
    intro name left right under
    rcases under_setField under with before | ⟨isParent, isHook, hooked, among⟩
    · exact Or.inl before
    · rcases subset left among with held | isFresh
      · left
        rw [isParent, isHook]
        exact under_iff.2 ⟨hooked, old, stored, held⟩
      · exact Or.inr ⟨isFresh, isParent⟩
  refine ⟨fun name => ?_, fun name child under => ?_, growing.apart⟩
  · apply Descent.wellFounded_of_new_edge (growing.ends name) (added name)
    intro path
    rcases Relation.ReflTransGen.cases_tail path with same | ⟨child, -, edge⟩
    · exact apart same.symm
    · exact growing.leaf name child edge
  · rcases added name child fresh under with before | ⟨-, isParent⟩
    · exact growing.leaf name child before
    · exact apart isParent.symm

theorem linkChildToParent (field ref : String) :
    (linkChildToParent schema graph fresh field ref).Growing schema fresh := by
  unfold TrTreedb.linkChildToParent
  split
  · exact growing
  rename_i topic id hook _
  split
  · exact growing
  split
  · exact growing
  rename_i parent found
  have apart : parent ≠ fresh := fun same => growing.apart topic id (same ▸ found)
  have held : ∀ dataHook child, .node child = heldItem fresh field dataHook → child = fresh := by
    intro dataHook child same
    cases dataHook with
    | true => cases same
    | false => exact Item.node.inj same
  dsimp only
  split
  · rename_i items stored
    split
    · exact growing
    · apply growing.setHook stored _ apart
      intro child among
      rcases mem_append.1 among with old | new
      · exact Or.inl old
      · exact Or.inr (held _ child (mem_singleton.1 new))
  · rename_i entries stored
    apply growing.setHook stored _ apart
    intro child among
    have ⟨entry, isEntry, isNode⟩ := mem_map.1 among
    rcases Dict.mem_setEntries isEntry with new | old
    · rw [new] at isNode
      exact Or.inr (held _ child isNode.symm)
    · exact Or.inl (mem_map.2 ⟨entry, old, isNode⟩)
  · exact growing

theorem loadLinks :
    (loadLinks schema graph fresh).Growing schema fresh := by
  apply foldlRecOn (motive := fun loaded : Graph => loaded.Growing schema fresh)
  · exact growing
  · intro loaded sofar col _
    split
    · apply foldlRecOn (motive := fun loaded : Graph => loaded.Growing schema fresh)
      · exact sofar
      · exact fun loaded sofar ref _ => sofar.linkChildToParent col.id ref
    · exact sofar

end

end Graph.Growing

end Create

section Step

variable {state : State}

section

variable (ends : state.graph.PathsEnd ctx.schema)
include ends

theorem createNode_pathsEnd (inUse : state.graph.InUse)
    (topicName : String) (kw : Json.Fields) (uuid : String) (now : Int)
    (closes : ClosesNoCycle ctx state (.create topicName kw uuid now)) :
    (createNode ctx state topicName kw uuid now).2.graph.PathsEnd ctx.schema := by
  rcases createNode_cases ctx state topicName kw uuid now with ⟨-, same⟩ | ⟨created, done⟩
  · rw [same.graph]
    exact ends
  rw [done]
  have childless := created.childless (closes created.topic created.isTopic created.id created.isId)
  have allocated := Graph.Growing.alloc ends inUse childless
  have linked : created.linked.PathsEnd ctx.schema := by
    unfold Created.linked
    split
    · exact allocated.loadLinks.ends
    · exact allocated.ends
  have heap : created.after.graph.heap = created.linked.heap := by
    unfold Created.after indexNode
    rw [(addSecondaries_keeps ..).1]
    split <;> rfl
  intro hook
  rw [under_of_heap heap]
  exact linked hook

theorem linkAndSave_pathsEnd {hook : String} {parent child : Addr}
    (apart : ∀ link, checkLink ctx.schema state.graph hook parent child = some link →
      link.addsChild state.graph.heap child = true →
        ¬ Relation.ReflTransGen (Under ctx.schema state.graph hook) parent child) :
    (linkAndSave ctx state hook parent child).2.graph.PathsEnd ctx.schema := by
  unfold linkAndSave
  split
  · exact ends
  rename_i graph linked
  intro name
  rw [under_of_heap (saveNode_keeps ctx { state with graph } child).1]
  by_cases adds : name = hook ∧
      ∃ link, checkLink ctx.schema state.graph hook parent child = some link ∧
        link.addsChild state.graph.heap child = true
  · obtain ⟨rfl, link, checked, added⟩ := adds
    apply Descent.wellFounded_of_new_edge (ends name) _ (apart link checked added)
    intro left right under
    rcases linkNodes_under linked under with before | ⟨isChild, isParent, -⟩
    · exact Or.inl before
    · exact Or.inr ⟨isChild, isParent⟩
  · apply Subrelation.wf _ (ends name)
    intro left right under
    rcases linkNodes_under linked under with before | ⟨-, -, sameHook, added⟩
    · exact before
    · exact absurd ⟨sameHook, added⟩ adds

theorem unlinkAndSave_pathsEnd (hook : String) (parent child : Addr) :
    (unlinkAndSave ctx state hook parent child).2.graph.PathsEnd ctx.schema := by
  unfold unlinkAndSave
  split
  · exact ends
  rename_i graph unlinked
  intro name
  rw [under_of_heap (saveNode_keeps ctx { state with graph } child).1]
  exact Subrelation.wf (fun under => unlinkNodes_under unlinked under) (ends name)

end

theorem step_pathsEnd {op : Op} (makes : op.makesTrees = true) (closes : ClosesNoCycle ctx state op)
    (good : state.graph.InUse ∧ state.graph.PathsEnd ctx.schema) :
    (step ctx state op).graph.InUse ∧ (step ctx state op).graph.PathsEnd ctx.schema := by
  refine ⟨step_inUse state op good.1, ?_⟩
  unfold step
  cases op with
  | create topic kw uuid now => exact createNode_pathsEnd good.2 good.1 topic kw uuid now closes
  | link hook parentRef childRef =>
    unfold exec withNode
    dsimp only
    cases isParent : state.graph.resolve parentRef with
    | none => exact good.2
    | some parent =>
      cases isChild : state.graph.resolve childRef with
      | none => exact good.2
      | some child =>
        exact linkAndSave_pathsEnd good.2 (closes parent isParent child isChild)
  | unlink hook parentRef childRef =>
    unfold exec withNode
    dsimp only
    cases state.graph.resolve parentRef with
    | none => exact good.2
    | some parent =>
      cases state.graph.resolve childRef with
      | none => exact good.2
      | some child => exact unlinkAndSave_pathsEnd good.2 hook parent child
  | _ => cases makes

theorem openTopics_empty (ctx : Context) (snapTag : Nat) (topics : List Topic) (loading : Loading) :
    openTopics ctx (fun _ => Dict.empty) snapTag topics loading = loading := by
  apply foldlRecOn (motive := fun loaded : Loading => loaded = loading)
  · rfl
  · intro loaded same topic _
    rw [same]
    apply foldlRecOn (motive := fun loaded : Loading => loaded = loading)
    · rfl
    · exact fun loaded same pkey2 _ => same

theorem start_graph (ctx : Context) : (start ctx).graph = Graph.empty := by
  have system : openSystem ctx (fun _ => Dict.empty) 0 =
      ⟨Graph.empty, Loading.empty.md, fun _ => Dict.empty, 0⟩ := by
    unfold openSystem
    rw [openTopics_empty]
    rfl
  unfold start openDb
  rw [system]
  have nothing : activatedSnap ctx ⟨Graph.empty, Loading.empty.md, fun _ => Dict.empty, 0⟩ =
      (none, ⟨Graph.empty, Loading.empty.md, fun _ => Dict.empty, 0⟩) := rfl
  rw [nothing]
  have loaded : openUser ctx (none, ⟨Graph.empty, Loading.empty.md, fun _ => Dict.empty, 0⟩) =
      Loading.empty := openTopics_empty ctx _ _ _
  dsimp only
  rw [loaded]
  apply foldlRecOn (motive := fun graph : Graph => graph = Graph.empty)
  · rfl
  · intro graph same topic _
    rw [same]
    rfl

theorem start_pathsEnd (ctx : Context) :
    (start ctx).graph.InUse ∧ (start ctx).graph.PathsEnd ctx.schema := by
  rw [start_graph]
  refine ⟨fun _ _ _ found => (nomatch found), fun hook => ⟨fun addr => Acc.intro addr ?_⟩⟩
  intro child under
  have ⟨_, cell, stored, _⟩ := under_iff.1 under
  cases stored

end Step

end Yunetas.TrTreedb
