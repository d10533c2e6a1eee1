import Yunetas.TrTreedb.Loaded
import Yunetas.TrTreedb.StoredNodes

/-!
# Creations, deletions and openings

Nodes that are created and deleted, with their instances, and loaded again stay nodes of the store,
and the keys of the topics with row ids fit the number of their rows as long as no id that is given
and no deletion leaves a number beyond them.
-/

namespace Yunetas.TrTreedb

open List Function

variable {ctx : Context} {state : State}

/-- The topic makes the ids of its nodes of the number of its rows. -/
def Schema.countsRows (schema : Schema) (name : String) : Bool :=
  (schema.topic? name).any fun topic => topic.idFlag = .rowid

/-- The nodes are those of the store, the rows are of their keys, and the keys of the topics with
row ids fit. -/
structure Numbered (ctx : Context) (state : State) : Prop where
  nodes : state.graph.Stored ctx.schema state.store
  keyed : state.store.Keyed ctx.schema
  fits : ∀ name, ctx.schema.countsRows name = true → state.store.Fits name

section Save

/-- The field is neither a link nor the id. -/
def plainField (schema : Schema) (topic field : String) : Prop :=
  "id" ≠ field ∧ ∀ col ∈ schema.cols topic, (col.hook.isSome || col.fkey) = true → col.id ≠ field

theorem Graph.Stores.setField {schema : Schema} {store : Store} {graph : Graph} {topic id : String}
    {there : Addr} (stores : graph.Stores schema store topic id there) {addr : Addr}
    {field : String} (plain : plainField schema (graph.heap addr).topic field) (cell : Cell) :
    (graph.setField addr field cell).Stores schema store topic id there := by
  by_cases here : there = addr
  · subst here
    have node : (graph.setField there field cell).heap there =
        (graph.heap there).set field cell := by
      rw [Graph.heap_setField, update_self]
    constructor
    · exact stores.used
    · rw [node, Node.set_topic]
      exact stores.ofTopic
    · intro text named
      rw [node, Node.str?_set_ne _ _ plain.1] at named
      exact stores.named text named
    · intro col among link
      rw [node, Node.get?_set_ne _ _ (plain.2 col (stores.ofTopic.symm ▸ among) link)]
      exact stores.unlinked col among link
    · exact stores.key
  · have same : (graph.setField addr field cell).heap there = graph.heap there := by
      rw [Graph.heap_setField, update_of_ne here]
    exact stores.mono (Nat.le_refl _) same fun there => there

theorem Graph.Stored.setField {schema : Schema} {store : Store} {graph : Graph}
    (stored : graph.Stored schema store) {addr : Addr} {field : String}
    (plain : plainField schema (graph.heap addr).topic field) (cell : Cell) :
    (graph.setField addr field cell).Stored schema store where
  primary topic id there found := (stored.primary topic id there found).setField plain cell
  secondary topic pkey2 id key2 there found := by
    have held := stored.secondary topic pkey2 id key2 there found
    exact ⟨held.1, held.2.setField plain cell⟩

theorem saveNode_kept {addr : Addr} {topic id : String}
    (stores : state.graph.Stores ctx.schema state.store topic id addr) :
    StoreKept ctx.schema state.store (saveNode ctx state addr).2.store := by
  rcases saveNode_cases ctx state addr with ⟨-, same⟩ | ⟨saved, done⟩
  · rw [same.store]
    exact StoreKept.refl ctx.schema state.store
  · have ⟨key, keyed, valid, appended, _⟩ := saved.written.key
    have isTopic : (state.node addr).topic = topic := stores.ofTopic
    have unlinked : (state.node addr).Unlinked (ctx.schema.cols (state.node addr).topic) :=
      isTopic.symm ▸ stores.unlinked
    have notEmpty : key ≠ "" := by
      rintro rfl
      revert valid
      decide
    have ⟨_, _, _, _, named⟩ := unlinked.str?_id saved.converted keyed notEmpty
    have isId : key = id := stores.named key named
    subst isId
    have grown : StoreKept ctx.schema state.store saved.placed.store := by
      unfold Saved.placed
      rw [State.setMd_store, appended, isTopic]
      apply StoreKept.setRows stores.key
      · rw [length_addRow]
        exact Nat.le_succ _
      · intro others
        apply isOf_addRow _ _ _ keyed _ (others topic key)
        exact isTopic ▸ unlinked.recorded saved.converted
    rw [done]
    unfold Saved.after Saved.marked
    split
    · exact grown.trans (rewriteMd_kept _ _ _ _ fun _ => rfl)
    · exact grown

theorem saveActive_kept {snap : Addr} {id : String}
    (stored : state.graph.Stored ctx.schema state.store)
    (stores : state.graph.Stores ctx.schema state.store snapsTopic.name id snap) (active : Bool) :
    let after := (saveActive ctx state snap active).2
    StoreKept ctx.schema state.store after.store ∧ after.graph.Stored ctx.schema after.store ∧
      after.graph.primary = state.graph.primary := by
  have plain : plainField ctx.schema (state.graph.heap snap).topic "active" := by
    unfold plainField
    rw [stores.ofTopic, Schema.cols_of_mem mem_cons_self]
    decide
  let marked : State := { state with
    graph := state.graph.setField snap "active" (.json (.boolean active)) }
  have graph := saveActive_graph ctx stores.ofTopic active
  have kept : StoreKept ctx.schema state.store (saveActive ctx state snap active).2.store :=
    @saveNode_kept ctx marked snap _ _ (stores.setField plain (.json (.boolean active)))
  refine ⟨kept, ?_, ?_⟩
  · rw [graph]
    exact (stored.setField plain (.json (.boolean active))).mono (Nat.le_refl _) (fun _ _ => rfl)
      kept.keys (fun _ _ _ found => found) fun _ _ _ _ _ found => found
  · rw [graph]
    rfl

end Save

section Open

theorem activatedSnap_kept (stored : state.graph.Stored ctx.schema state.store) :
    let after := (activatedSnap ctx state).2
    StoreKept ctx.schema state.store after.store ∧ after.graph.Stored ctx.schema after.store ∧
      after.graph.primary = state.graph.primary := by
  apply List.foldlRecOn (motive := fun after : State =>
    StoreKept ctx.schema state.store after.store ∧ after.graph.Stored ctx.schema after.store ∧
      after.graph.primary = state.graph.primary)
  · exact ⟨StoreKept.refl _ _, stored, rfl⟩
  · intro sofar kept snap among
    have listed := dropLast_subset _ among
    unfold snapsWith at listed
    rw [mem_filter, mem_map] at listed
    have ⟨⟨entry, isEntry, isSnap⟩, _⟩ := listed
    have found : sofar.graph.getNode snapsTopic.name entry.1 = some snap := by
      unfold Graph.getNode
      rw [kept.2.2, ← isSnap]
      exact (state.graph.primary snapsTopic.name).get?_of_mem isEntry
    have saved := saveActive_kept kept.2.1 (kept.2.1.primary _ _ _ found) false
    exact ⟨kept.1.trans saved.1, saved.2.1, saved.2.2.trans kept.2.2⟩

theorem openDb_numbered {store : Store} (keyed : store.Keyed ctx.schema)
    (fits : ∀ name, ctx.schema.countsRows name = true → store.Fits name) (tick : Nat) :
    Numbered ctx (openDb ctx store tick) := by
  have system : (openSystem ctx store tick).graph.Stored ctx.schema store :=
    openTopics_stored keyed 0 (fun _ => system_mem) Graph.stored_empty
  have found := @activatedSnap_kept ctx (openSystem ctx store tick) system
  have user : (openUser ctx (activatedSnap ctx (openSystem ctx store tick))).graph.Stored ctx.schema
      (activatedSnap ctx (openSystem ctx store tick)).2.store :=
    openTopics_stored (found.1.keyed keyed) _ (fun topic among =>
      mem_cons_of_mem _ (mem_cons_of_mem _ among)) found.2.1
  unfold openDb
  constructor
  · show (loadAllLinks _ _).Stored _ _
    rw [user.loadAllLinks]
    exact user
  · exact found.1.keyed keyed
  · exact fun name counts => found.1.fits name (fits name counts)

end Open

section Delete

theorem Store.Keyed.erase {schema : Schema} {store : Store} (keyed : store.Keyed schema)
    (topic key : String) :
    Store.Keyed schema (Function.update store topic ((store topic).erase key)) := by
  intro other name row among
  apply keyed other name row
  unfold Store.rows at among ⊢
  by_cases same : other = topic
  · subst same
    rw [update_self, Dict.get?_erase] at among
    split at among
    · exact absurd among not_mem_nil
    · exact among
  · rw [update_of_ne same] at among
    exact among

theorem Graph.Stored.dropId {schema : Schema} {store : Store} {graph : Graph}
    (stored : graph.Stored schema store) (topic id : String) :
    (dropId schema graph topic id).Stored schema
      (Function.update store topic ((store topic).erase id)) := by
  have keeps := foldl_dropInstances_keeps (graph.deletePrimary topic id) topic id
    (schema.pkey2s topic)
  have left : ∀ {other name addr}, ¬(other = topic ∧ name = id) →
      graph.Stores schema store other name addr →
      (TrTreedb.dropId schema graph topic id).Stores schema
        (Function.update store topic ((store topic).erase id)) other name addr := by
    intro other name addr apart held
    apply held.mono (Nat.le_of_eq keeps.2.1.symm) (congrFun keeps.1 addr)
    intro there
    by_cases same : other = topic
    · subst same
      have ne : name ≠ id := fun sameId => apart ⟨rfl, sameId⟩
      rw [update_self, Dict.get?_erase, if_neg ne]
      exact there
    · rw [update_of_ne same]
      exact there
  constructor
  · intro other name addr found
    rw [getNode_dropId] at found
    split at found
    · cases found
    · rename_i apart
      exact left apart (stored.primary other name addr found)
  · intro other pkey2 name key2 addr found
    unfold TrTreedb.dropId at found
    rw [slot?_foldl_dropInstances] at found
    split at found
    · cases found
    · rename_i apart
      have held := stored.secondary other pkey2 name key2 addr found
      refine ⟨held.1, left ?_ held.2⟩
      rintro ⟨rfl, rfl⟩
      exact apart ⟨rfl, held.1, rfl⟩

/-- The keys that are numbers fit the rows that are left without those of a node. -/
def Store.Spares (store : Store) (topic key : String) : Prop :=
  ∀ number : Nat, toString number ≠ key → ((store topic).get? (toString number)).isSome →
    number + (store.rows topic key).length ≤ store.size topic

theorem Numbered.deleteNode (numbered : Numbered ctx state) {addr : Addr} {topic id : String}
    (stores : state.graph.Stores ctx.schema state.store topic id addr) (force : Bool)
    (spares : ctx.schema.countsRows topic = true → state.store.Spares topic (state.node addr).id) :
    Numbered ctx (deleteNode ctx state addr force).2 := by
  have isTopic : (state.node addr).topic = topic := stores.ofTopic
  subst isTopic
  rw [deleteNode_unlinked stores.unlinked force]
  split
  · exact numbered
  unfold deleteKey
  dsimp only
  split
  · constructor
    · exact numbered.nodes.dropId _ _
    · exact numbered.keyed.erase _ _
    · intro name counts
      apply (numbered.fits name counts).erase
      rintro rfl
      exact spares counts
  · exact ⟨numbered.nodes, numbered.keyed, numbered.fits⟩

theorem Numbered.deleteInstance (numbered : Numbered ctx state) (addr : Addr) (pkey2 : String)
    (force : Bool) : Numbered ctx (deleteInstance ctx state addr pkey2 force).2 := by
  unfold TrTreedb.deleteInstance
  dsimp only
  split
  · exact numbered
  rw [foldl_rewriteMd_graph]
  have kept : ∀ rows : List Row, StoreKept ctx.schema state.store
      (rows.foldl (fun state' row => (rewriteMd ctx state' (state.node addr).topic
        (state.node addr).id row.t row.rowid Row.bury).2) state).store := by
    intro rows
    apply List.foldlRecOn (motive := fun after : State =>
      StoreKept ctx.schema state.store after.store)
    · exact StoreKept.refl _ _
    · intro sofar kept row _
      apply kept.trans
      apply rewriteMd_kept
      intro row
      unfold Row.bury
      split <;> rfl
  have buried := kept ((state.store.rows (state.node addr).topic (state.node addr).id).reverse.filter
    fun row => row.loads 0 && row.isInstance pkey2 ((state.node addr).str pkey2))
  have same := state.graph.deleteSecondary_keeps (state.node addr).topic pkey2
    (state.node addr).id ((state.node addr).str pkey2)
  constructor
  · apply numbered.nodes.mono (Nat.le_of_eq same.2.1.symm) (fun there _ => congrFun same.1 there)
      buried.keys
    · intro other name there found
      rw [← same.2.2]
      exact found
    · intro other otherKey name value there found
      exact Graph.slot?_deleteSecondary _ _ _ _ _ _ _ _ _ _ found
  · exact buried.keyed numbered.keyed
  · exact fun name counts => buried.fits name (numbered.fits name counts)

end Delete

section Create

namespace Created

variable {topicName : String} {kw : Json.Fields} {uuid : String} {now : Int}
  (created : Created ctx state topicName kw uuid now)

section

variable (stored : state.graph.Stored ctx.schema state.store)
include stored

theorem unlinked :
    created.node.Unlinked (ctx.schema.cols topicName) ∧ created.inherited.2 = false := by
  rw [created.topic_cols]
  apply inheritFrom_unlinked created.topic topicName
  · intro previousNode inherits
    have ⟨addr, found, isOld⟩ := created.previous_of_inherits inherits
    have held := stored.primary topicName created.id addr found
    rw [← isOld, ← created.topic_cols]
    exact held.unlinked
  · exact pureRecord_unlinked created.topic.distinct created.pure topicName

theorem keyed :
    created.node.str? "id" = some created.id ∧
      (created.record.get? "id").bind Json.stringValue = some created.id := by
  have ⟨key, keyed, valid, _, _⟩ := created.written.key
  have notEmpty : key ≠ "" := by
    rintro rfl
    revert valid
    decide
  have unlinked : created.node.Unlinked (ctx.schema.cols created.node.topic) := by
    rw [created.node_topic]
    exact (created.unlinked stored).1
  have named := unlinked.str?_id created.converted keyed notEmpty
  rw [created.node_topic, created.topic_cols] at named
  have ⟨col, among, isCol, plain, named⟩ := named
  have isId : key = created.id := by
    apply created.id_of_named named
    · rintro other otherAmong link isId
      have same : other = col := by
        have one := colOf_mem created.topic.distinct among
        have two := colOf_mem created.topic.distinct otherAmong
        rw [isId, ← isCol, one] at two
        exact (Option.some.inj two).symm
      rw [same, plain] at link
      cases link
    · intro _ addr found text old
      exact (stored.primary topicName created.id addr found).named text old
  rw [← isId]
  exact ⟨named, keyed⟩

theorem after_store :
    created.after.store = state.store.setRows topicName created.id
      (addRow ctx.fileOf created.t 0 created.record (state.store.rows topicName created.id)) := by
  have ⟨key, keyed, _, appended, _⟩ := created.written.key
  rw [(created.keyed stored).2] at keyed
  rw [Option.some.inj keyed]
  exact appended

end

theorem after_keyed (numbered : Numbered ctx state) : created.after.store.Keyed ctx.schema := by
  rw [created.after_store numbered.nodes]
  apply StoreKept.keyed_setRows numbered.keyed
  apply isOf_addRow _ _ _ (created.keyed numbered.nodes).2 _ (numbered.keyed topicName created.id)
  have unlinked : created.node.Unlinked (ctx.schema.cols created.node.topic) := by
    rw [created.node_topic]
    exact (created.unlinked numbered.nodes).1
  have recorded := unlinked.recorded created.converted
  rw [created.node_topic] at recorded
  exact recorded

theorem after_stored (stored : state.graph.Stored ctx.schema state.store) :
    created.after.graph.Stored ctx.schema created.after.store := by
  have linked : created.linked = state.graph.alloc created.node := by
    unfold Created.linked
    rw [(created.unlinked stored).2, if_neg Bool.false_ne_true]
  have keys : ∀ topic key, ((state.store topic).get? key).isSome →
      ((created.after.store topic).get? key).isSome := by
    rw [created.after_store stored]
    exact StoreKept.keys_setRows _ _ _ _
  have here : (state.graph.alloc created.node).heap state.graph.next = created.node := by
    rw [Graph.heap_alloc, update_self]
  have allocated : (state.graph.alloc created.node).Stored ctx.schema created.after.store :=
    (stored.alloc created.node).mono (Nat.le_refl _) (fun _ _ => rfl) keys
      (fun _ _ _ found => found) fun _ _ _ _ _ found => found
  have stores : (state.graph.alloc created.node).Stores ctx.schema created.after.store topicName
      created.id state.graph.next := by
    constructor
    · exact Nat.lt_succ_self _
    · rw [here]
      exact created.node_topic
    · intro text named
      rw [here, (created.keyed stored).1] at named
      exact (Option.some.inj named).symm
    · rw [here]
      exact (created.unlinked stored).1
    · rw [created.after_store stored, Store.get?_setRows, if_pos ⟨rfl, rfl⟩]
      rfl
  have topic := created.topic_name
  show (indexNode created.linked created.topic created.id created.given created.previous.isNone
    created.pkey2s state.graph.next).Stored ctx.schema created.after.store
  unfold indexNode
  rw [linked, topic]
  split
  · exact (allocated.addPrimary stores).addSecondaries (fun _ => created.pkey2s_subset)
      (stores.mono (Nat.le_refl _) rfl fun there => there) _
  · exact allocated.addSecondaries (fun _ => created.pkey2s_subset) stores _

theorem id_cases (counts : ctx.schema.countsRows topicName = true) :
    created.id = kwStr kw "id" ∨ created.id = toString (state.store.size topicName + 1) := by
  have isId := created.isId
  have flag : created.topic.idFlag = .rowid := by
    unfold Schema.countsRows at counts
    rw [created.isTopic, Option.any_some] at counts
    exact of_decide_eq_true counts
  unfold newId at isId
  rw [flag] at isId
  split at isId
  · exact Or.inl (Option.some.inj isId).symm
  · rw [created.topic_name] at isId
    exact Or.inr (Option.some.inj isId).symm

end Created

theorem Numbered.createNode (numbered : Numbered ctx state) {topicName : String}
    {kw : Json.Fields} {uuid : String} {now : Int}
    (room : ctx.schema.countsRows topicName = true → ∀ number : Nat,
      toString number = kwStr kw "id" → number ≤ state.store.size topicName + 1) :
    Numbered ctx (createNode ctx state topicName kw uuid now).2 := by
  rcases createNode_cases ctx state topicName kw uuid now with ⟨-, same⟩ | ⟨created, done⟩
  · constructor
    · rw [same.graph, same.store]
      exact numbered.nodes
    · rw [same.store]
      exact numbered.keyed
    · rw [same.store]
      exact numbered.fits
  rw [done]
  constructor
  · exact created.after_stored numbered.nodes
  · exact created.after_keyed numbered
  · intro name counts
    rw [created.after_store numbered.nodes]
    apply (numbered.fits name counts).setRows
    · rw [length_addRow]
      exact Nat.le_succ _
    · rintro rfl number isKey
      have grown := state.store.size_setRows name created.id
        (addRow ctx.fileOf created.t 0 created.record (state.store.rows name created.id))
      rw [length_addRow] at grown
      have bound : number ≤ state.store.size name + 1 := by
        rcases created.id_cases counts with given | made
        · exact room counts number (isKey.trans given)
        · exact Nat.le_of_eq (toString_nat_inj (isKey.trans made))
      omega

end Create

end Yunetas.TrTreedb
