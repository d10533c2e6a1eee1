import Yunetas.TrTreedb.Coherent
import Yunetas.TrTreedb.Fields

/-!
# Operations on coherent indexes

A save puts a node into its slots, so it keeps the indexes coherent when the id of the node is in
the primary index. A creation does when the new node has the keys it is filed under, an update when
it leaves the keys alone, and a deletion when the children it unlinks are still in the indexes.
-/

namespace Yunetas.TrTreedb

open List Option Function TrTreedb.Graph

variable {ctx : Context} {schema : Schema}

/-- The node may be put into slots: its topic has none or its id is in the primary index. -/
def Graph.Indexed (schema : Schema) (graph : Graph) (addr : Addr) : Prop :=
  schema.pkey2s (graph.heap addr).topic = [] ∨
    (graph.getNode (graph.heap addr).topic (graph.heap addr).id).isSome

instance (graph : Graph) (addr : Addr) : Decidable (graph.Indexed schema addr) :=
  inferInstanceAs (Decidable (_ ∨ _))

theorem Node.id_of_str? {node : Node} {id : String} (named : node.str? "id" = some id) :
    node.id = id := by
  unfold Node.id Node.str
  rw [named, getD_some]

namespace Graph

variable {graph after : Graph}

theorem Coherent.indexed_getNode (coherent : graph.Coherent schema) {topic id : String}
    {addr : Addr} (found : graph.getNode topic id = some addr) : graph.Indexed schema addr := by
  have node := coherent.primary topic id addr found
  right
  rw [node.topic, Node.id_of_str? node.id, found]
  rfl

section

variable (coherent : graph.Coherent schema) {ref : Ref} {addr : Addr}
  (found : graph.resolve ref = some addr)
include coherent found

theorem Coherent.indexed : graph.Indexed schema addr := by
  cases ref with
  | node topic id => exact coherent.indexed_getNode found
  | version topic pkey2 id key2 =>
    unfold resolve getInstance at found
    dsimp only at found
    split at found
    · cases found
    have held := coherent.secondary topic pkey2 id key2 addr found
    right
    rw [held.node.topic, Node.id_of_str? held.node.id]
    exact held.primary

theorem Coherent.named : ∃ id, graph.IsNode schema (graph.heap addr).topic id addr := by
  cases ref with
  | node topic id =>
    have node := coherent.primary topic id addr found
    exact ⟨id, node.topic.symm ▸ node⟩
  | version topic pkey2 id key2 =>
    unfold resolve getInstance at found
    dsimp only at found
    split at found
    · cases found
    have node := (coherent.secondary topic pkey2 id key2 addr found).node
    exact ⟨id, node.topic.symm ▸ node⟩

end

theorem Indexed.of_sameKeys {addr : Addr} (indexed : graph.Indexed schema addr)
    (same : SameKeys schema graph after) : after.Indexed schema addr := by
  unfold Indexed at indexed ⊢
  rw [same.topic]
  by_cases known : (schema.topic? (graph.heap addr).topic).isSome
  · have id : (after.heap addr).id = (graph.heap addr).id := by
      unfold Node.id Node.str
      rw [same.id addr known]
    have getNode : ∀ topic id, after.getNode topic id = graph.getNode topic id := by
      intro topic id
      unfold Graph.getNode
      rw [same.primary]
    rw [id, getNode]
    exact indexed
  · left
    unfold Schema.pkey2s
    rw [not_isSome_iff_eq_none.1 known]

end Graph

section Save

variable {graph : Graph}

theorem pointSlots_eq (schema : Schema) (graph : Graph) (addr : Addr) :
    pointSlots schema graph addr = ((schema.pkey2s (graph.heap addr).topic).filter fun pkey2 =>
        (graph.heap addr).str pkey2 ≠ "").foldl (fun other pkey2 =>
          other.addSecondary (graph.heap addr).topic pkey2 (graph.heap addr).id
            ((graph.heap addr).str pkey2) addr) graph := by
  unfold pointSlots
  dsimp only
  rw [foldl_filter]
  congr 1
  funext other pkey2
  by_cases empty : (graph.heap addr).str pkey2 = "" <;> simp [empty]

theorem addSecondaries_keeps (graph : Graph) (topic id : String) (addr : Addr)
    (pkey2s : List String) (value : String → String) :
    let after := pkey2s.foldl (fun graph pkey2 =>
      graph.addSecondary topic pkey2 id (value pkey2) addr) graph
    after.heap = graph.heap ∧ after.next = graph.next ∧ after.primary = graph.primary := by
  induction pkey2s generalizing graph with
  | nil => exact ⟨rfl, rfl, rfl⟩
  | cons first rest ih => exact ih (graph.addSecondary topic first id (value first) addr)

theorem indexNode_keeps (graph : Graph) (topic : Topic) (id : String) (kw : Json.Fields)
    (isNew : Bool) (pkey2s : List String) (addr : Addr) :
    let named := if isNew then graph.addPrimary topic.name id addr else graph
    let after := indexNode graph topic id kw isNew pkey2s addr
    after.heap = named.heap ∧ after.next = named.next ∧ after.primary = named.primary :=
  addSecondaries_keeps ..

theorem pointSlots_keeps (schema : Schema) (graph : Graph) (addr : Addr) :
    (pointSlots schema graph addr).heap = graph.heap ∧
      (pointSlots schema graph addr).next = graph.next ∧
      (pointSlots schema graph addr).primary = graph.primary := by
  rw [pointSlots_eq]
  exact addSecondaries_keeps ..

theorem pointSlots_coherent (coherent : graph.Coherent schema) {addr : Addr} {id : String}
    (known : (schema.topic? (graph.heap addr).topic).isSome)
    (named : (graph.heap addr).str? "id" = some id) (indexed : graph.Indexed schema addr) :
    (pointSlots schema graph addr).Coherent schema := by
  have node : graph.IsNode schema (graph.heap addr).topic (graph.heap addr).id addr :=
    ⟨known, coherent.used named, rfl, Node.id_of_str? named ▸ named⟩
  rw [pointSlots_eq]
  apply coherent.addSecondaries _ (graph.heap addr).str
  intro pkey2 among
  have listed := (mem_filter.1 among).1
  refine ⟨node, listed, rfl, ?_⟩
  rcases indexed with none | there
  · exact absurd (none ▸ listed) not_mem_nil
  · exact there

theorem saveNode_graph (ctx : Context) (state : State) (addr : Addr) :
    (saveNode ctx state addr).2.graph = state.graph ∨
      (saveNode ctx state addr).2.graph = pointSlots ctx.schema state.graph addr := by
  rcases saveNode_cases ctx state addr with ⟨-, same⟩ | ⟨saved, done⟩
  · exact Or.inl same.graph
  · rw [done]
    exact Or.inr saved.after_graph

theorem saveNode_keeps (ctx : Context) (state : State) (addr : Addr) :
    (saveNode ctx state addr).2.graph.heap = state.graph.heap ∧
      (saveNode ctx state addr).2.graph.next = state.graph.next ∧
      (saveNode ctx state addr).2.graph.primary = state.graph.primary := by
  rcases saveNode_graph ctx state addr with same | pointed
  · rw [same]
    exact ⟨rfl, rfl, rfl⟩
  · rw [pointed]
    exact pointSlots_keeps ctx.schema state.graph addr

theorem Saved.named (plainIds : ctx.schema.PlainIds) {state : State} {addr : Addr}
    (saved : Saved ctx state addr) :
    (ctx.schema.topic? (state.node addr).topic).isSome ∧
      ∃ id, (state.node addr).str? "id" = some id ∧
        (saved.record.get? "id").bind Json.stringValue = some id := by
  have ⟨key, keyed, _, _, _⟩ := saved.written.key
  have known := known_of_record saved.converted keyed
  exact ⟨known, key, str?_of_record saved.converted (plainIds.plain known) keyed, keyed⟩

theorem saveNode_coherent (plainKeys : ctx.schema.PlainKeys) {state : State}
    (coherent : state.graph.Coherent ctx.schema) {addr : Addr}
    (indexed : state.graph.Indexed ctx.schema addr) :
    (saveNode ctx state addr).2.graph.Coherent ctx.schema := by
  rcases saveNode_cases ctx state addr with ⟨-, same⟩ | ⟨saved, done⟩
  · rw [same.graph]
    exact coherent
  · rw [done, saved.after_graph]
    have ⟨known, id, named, _⟩ := saved.named plainKeys.ids
    exact pointSlots_coherent coherent known named indexed

theorem Graph.Indexed.saveNode {state : State} {other : Addr}
    (indexed : state.graph.Indexed schema other) (addr : Addr) :
    (saveNode ctx state addr).2.graph.Indexed schema other := by
  have keeps := saveNode_keeps ctx state addr
  unfold Graph.Indexed Graph.getNode at indexed ⊢
  rw [keeps.1, keeps.2.2]
  exact indexed

end Save

section Link

variable {state : State} {hook : String} {parent child : Addr}

section

variable (plainKeys : ctx.schema.PlainKeys) (coherent : state.graph.Coherent ctx.schema)
  (indexed : state.graph.Indexed ctx.schema child)
include plainKeys coherent indexed

theorem linkAndSave_coherent :
    (linkAndSave ctx state hook parent child).2.graph.Coherent ctx.schema := by
  unfold linkAndSave
  split
  · exact coherent
  · rename_i graph linked
    have same := (linkNodes_same linked).sameKeys plainKeys
    exact saveNode_coherent plainKeys (coherent.of_sameKeys same) (indexed.of_sameKeys same)

theorem unlinkAndSave_coherent :
    (unlinkAndSave ctx state hook parent child).2.graph.Coherent ctx.schema := by
  unfold unlinkAndSave
  split
  · exact coherent
  · rename_i graph unlinked
    have same := (unlinkNodes_same unlinked).sameKeys plainKeys
    exact saveNode_coherent plainKeys (coherent.of_sameKeys same) (indexed.of_sameKeys same)

end

theorem Graph.Indexed.unlinkAndSave (plainKeys : ctx.schema.PlainKeys) {other : Addr}
    (indexed : state.graph.Indexed ctx.schema other) :
    (unlinkAndSave ctx state hook parent child).2.graph.Indexed ctx.schema other := by
  unfold TrTreedb.unlinkAndSave
  split
  · exact indexed
  · rename_i graph unlinked
    exact Graph.Indexed.saveNode
      (indexed.of_sameKeys ((unlinkNodes_same unlinked).sameKeys plainKeys)) child

theorem hookWithout_subset (childTopic : String) (child : Addr) (link : Link) :
    ∀ item ∈ hookList (hookWithout childTopic child link), item ∈ hookList link.hookCell := by
  intro item among
  unfold hookWithout at among
  split at among
  · rename_i items stored
    rw [stored]
    exact mem_of_mem_eraseP among
  · rename_i entries stored
    rw [stored]
    split at among
    · split at among
      · exact (filter_sublist.map Prod.snd).subset among
      · exact among
    · exact (filter_sublist.map Prod.snd).subset among
  · exact among

theorem unlinkNodes_holds {graph after : Graph}
    (unlinked : unlinkNodes schema graph hook parent child = some after) {field : String}
    {cell : Cell} (stored : (after.heap parent).get? field = some cell) :
    ∃ old, (graph.heap parent).get? field = some old ∧
      ∀ item ∈ hookList cell, item ∈ hookList old := by
  unfold unlinkNodes at unlinked
  rw [map_eq_some_iff] at unlinked
  obtain ⟨link, checked, rfl⟩ := unlinked
  have found := checkLink_some checked
  rw [heap_setField, update_of_ne found.apart, heap_setField,
    update_self, Node.get?_set] at stored
  split at stored
  · rename_i same
    rw [same, ← some.inj stored]
    exact ⟨link.hookCell, found.hookFound, hookWithout_subset _ child link⟩
  · exact ⟨cell, stored, fun _ among => among⟩

theorem unlinkAndSave_holds {field : String} {cell : Cell}
    (stored : ((unlinkAndSave ctx state hook parent child).2.node parent).get? field = some cell) :
    ∃ old, (state.node parent).get? field = some old ∧
      ∀ item ∈ hookList cell, item ∈ hookList old := by
  unfold unlinkAndSave at stored
  split at stored
  · exact ⟨cell, stored, fun _ among => among⟩
  · rename_i graph unlinked
    unfold State.node at stored
    rw [(saveNode_keeps ctx { state with graph } child).1] at stored
    exact unlinkNodes_holds unlinked stored

end Link

section Delete

variable {state : State} {addr : Addr}

/-- The children that a node holds are indexed. -/
def Graph.ChildrenIndexed (schema : Schema) (graph : Graph) (addr : Addr) : Prop :=
  ∀ field cell, (graph.heap addr).get? field = some cell →
    ∀ child, Item.node child ∈ hookList cell → graph.Indexed schema child

/-- What holds of a state and of the children of a node, and stays while children are unlinked. -/
structure KeptByUnlinking (ctx : Context) (addr : Addr) (inv : State → Prop)
    (fit : State → Addr → Prop) : Prop where
  whole : ∀ state hook child, inv state → fit state child →
    inv (unlinkAndSave ctx state hook addr child).2
  others : ∀ state hook child other, inv state → fit state child → fit state other →
    fit (unlinkAndSave ctx state hook addr child).2 other

namespace KeptByUnlinking

variable {inv : State → Prop} {fit : State → Addr → Prop}

/-- The children that a node holds fit. -/
def Children (addr : Addr) (fit : State → Addr → Prop) (state : State) : Prop :=
  ∀ field cell, (state.node addr).get? field = some cell →
    ∀ child, Item.node child ∈ hookList cell → fit state child

section

variable (kept : KeptByUnlinking ctx addr inv fit) (holds : inv state)
include kept holds

theorem unlinkChildren (children : Children addr fit state) (hook : String) :
    inv (unlinkChildren ctx addr state hook) ∧
      Children addr fit (TrTreedb.unlinkChildren ctx addr state hook) := by
  unfold TrTreedb.unlinkChildren
  split
  · exact ⟨holds, children⟩
  rename_i cell stored
  have items := children hook cell stored
  clear stored
  revert items
  generalize hookList cell = listed
  intro items
  induction listed generalizing state with
  | nil => exact ⟨holds, children⟩
  | cons item rest ih =>
    rw [foldl_cons]
    have later : ∀ child, Item.node child ∈ rest → fit state child :=
      fun child among => items child (mem_cons_of_mem _ among)
    cases item with
    | node child =>
      have here := items child mem_cons_self
      apply ih (kept.whole state hook child holds here)
      · intro field cell stored other among
        have ⟨old, before, within⟩ := unlinkAndSave_holds stored
        exact kept.others state hook child other holds here
          (children field old before other (within _ among))
      · exact fun other among => kept.others state hook child other holds here (later other among)
    | json value => exact ih holds children later
    | data child field => exact ih holds children later

theorem dropChildren (children : Children addr fit state) : inv (dropChildren ctx state addr) := by
  apply (foldlRecOn (motive := fun after : State => inv after ∧ Children addr fit after)
    _ _ _ _).1
  · exact ⟨holds, children⟩
  · intro other sofar col _
    exact kept.unlinkChildren sofar.1 sofar.2 col.id

theorem releaseChildren (force : Bool) (children : force = true → Children addr fit state) :
    inv (releaseChildren ctx state addr force).2 := by
  unfold TrTreedb.releaseChildren
  dsimp only
  split
  · exact holds
  split
  · rename_i forced
    exact kept.dropChildren holds (children forced)
  · exact holds

end

end KeptByUnlinking

theorem coherent_keptByUnlinking (plainKeys : ctx.schema.PlainKeys) (addr : Addr) :
    KeptByUnlinking ctx addr (fun state => state.graph.Coherent ctx.schema)
      (fun state child => state.graph.Indexed ctx.schema child) where
  whole _ _ _ coherent indexed := unlinkAndSave_coherent plainKeys coherent indexed
  others _ _ _ _ _ _ indexed := indexed.unlinkAndSave plainKeys

theorem releaseParents_coherent (plainKeys : ctx.schema.PlainKeys)
    (coherent : state.graph.Coherent ctx.schema) (force : Bool) :
    (releaseParents ctx state addr force).2.graph.Coherent ctx.schema := by
  unfold releaseParents
  split
  · exact coherent
  split
  · exact coherent.of_sameKeys ((cleanNode_same state.graph addr).sameKeys plainKeys)
  · exact coherent

@[simp] theorem deleteKey_graph (state : State) (topic key : String) :
    (deleteKey ctx state topic key).2.graph = state.graph := by
  unfold deleteKey
  dsimp only
  split <;> rfl

theorem deleteNode_coherent (plainKeys : ctx.schema.PlainKeys)
    (coherent : state.graph.Coherent ctx.schema) (force : Bool)
    (children : force = true → state.graph.ChildrenIndexed ctx.schema addr) :
    (deleteNode ctx state addr force).2.graph.Coherent ctx.schema := by
  have released := @releaseParents_coherent _ _ addr plainKeys
    ((coherent_keptByUnlinking plainKeys addr).releaseChildren coherent force children) force
  unfold deleteNode
  dsimp only
  split
  · exact coherent
  split
  · exact released
  split
  · apply dropId_coherent
    rw [deleteKey_graph]
    exact released
  · rw [deleteKey_graph]
    exact released

theorem foldl_rewriteMd_graph (topic key : String) (change : Row → Row) (hits : List Row)
    (state : State) :
    (hits.foldl (fun state row => (rewriteMd ctx state topic key row.t row.rowid change).2)
      state).graph = state.graph := by
  induction hits generalizing state with
  | nil => rfl
  | cons row rest ih => rw [foldl_cons, ih, rewriteMd_graph]

theorem deleteInstance_coherent (coherent : state.graph.Coherent ctx.schema) (pkey2 : String)
    (force : Bool) :
    (deleteInstance ctx state addr pkey2 force).2.graph.Coherent ctx.schema := by
  unfold deleteInstance
  dsimp only
  split
  · exact coherent
  · rw [foldl_rewriteMd_graph]
    exact coherent.deleteSecondary ..

end Delete

end Yunetas.TrTreedb
