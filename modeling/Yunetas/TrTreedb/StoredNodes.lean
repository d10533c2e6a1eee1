import Yunetas.TrTreedb.Numbered

/-!
# Nodes of the store

While nodes are created, deleted and loaded but not linked, each node of an index is of the topic
and the id it is found under, has no links, and its id is a key of the store. A save appends to that
key, and loading the links of such nodes does nothing.
-/

namespace Yunetas.TrTreedb

open List

/-- A node found under an id: it has no other id and no links, and its id is a key of the store. -/
structure Graph.Stores (schema : Schema) (store : Store) (graph : Graph) (topic id : String)
    (addr : Addr) : Prop where
  used : addr < graph.next
  ofTopic : (graph.heap addr).topic = topic
  named : ∀ text, (graph.heap addr).str? "id" = some text → text = id
  unlinked : (graph.heap addr).Unlinked (schema.cols topic)
  key : ((store topic).get? id).isSome

/-- The nodes of the indexes are those of the store. -/
structure Graph.Stored (schema : Schema) (store : Store) (graph : Graph) : Prop where
  primary : ∀ topic id addr, graph.getNode topic id = some addr →
    graph.Stores schema store topic id addr
  secondary : ∀ topic pkey2 id key2 addr, graph.slot? topic pkey2 id key2 = some addr →
    pkey2 ∈ schema.pkey2s topic ∧ graph.Stores schema store topic id addr

namespace Graph

variable {schema : Schema} {store other : Store} {graph after : Graph} {topic id : String}
  {addr : Addr}

open Nat

theorem Stores.mono (stores : graph.Stores schema store topic id addr)
    (next : graph.next ≤ after.next) (heap : after.heap addr = graph.heap addr)
    (keys : ((store topic).get? id).isSome → ((other topic).get? id).isSome) :
    after.Stores schema other topic id addr where
  used := lt_of_lt_of_le stores.used next
  ofTopic := heap ▸ stores.ofTopic
  named := heap ▸ stores.named
  unlinked := heap ▸ stores.unlinked
  key := keys stores.key

theorem Stored.mono (stored : graph.Stored schema store) (next : graph.next ≤ after.next)
    (heap : ∀ addr, addr < graph.next → after.heap addr = graph.heap addr)
    (keys : ∀ topic key, ((store topic).get? key).isSome → ((other topic).get? key).isSome)
    (primary : ∀ topic id addr, after.getNode topic id = some addr →
      graph.getNode topic id = some addr)
    (secondary : ∀ topic pkey2 id key2 addr, after.slot? topic pkey2 id key2 = some addr →
      graph.slot? topic pkey2 id key2 = some addr) : after.Stored schema other where
  primary topic id addr found := by
    have held := stored.primary topic id addr (primary topic id addr found)
    exact held.mono next (heap addr held.used) (keys topic id)
  secondary topic pkey2 id key2 addr found := by
    have held := stored.secondary topic pkey2 id key2 addr (secondary topic pkey2 id key2 addr found)
    exact ⟨held.1, held.2.mono next (heap addr held.2.used) (keys topic id)⟩

theorem stored_empty : Graph.empty.Stored schema store where
  primary _ _ _ found := by cases found
  secondary _ _ _ _ _ found := by cases found

section

variable (stored : graph.Stored schema store)
include stored

theorem Stored.alloc (node : Node) : (graph.alloc node).Stored schema store :=
  stored.mono (le_succ _) (fun _ used => Coherent.heap_alloc_of_lt node used)
    (fun _ _ there => there) (fun _ _ _ found => found) (fun _ _ _ _ _ found => found)

theorem Stored.addPrimary (stores : graph.Stores schema store topic id addr) :
    (graph.addPrimary topic id addr).Stored schema store where
  primary name key there found := by
    rw [getNode_addPrimary] at found
    split at found
    · rename_i here
      cases found
      rw [here.1, here.2]
      exact stores.mono (le_refl _) rfl fun there => there
    · exact (stored.primary name key there found).mono (le_refl _) rfl fun there => there
  secondary name pkey2 key key2 there found := by
    have held := stored.secondary name pkey2 key key2 there found
    exact ⟨held.1, held.2.mono (le_refl _) rfl fun there => there⟩

theorem Stored.addSecondary {pkey2 : String}
    (among : pkey2 ∈ schema.pkey2s topic) (stores : graph.Stores schema store topic id addr)
    (key2 : String) : (graph.addSecondary topic pkey2 id key2 addr).Stored schema store where
  primary name key there found :=
    (stored.primary name key there found).mono (le_refl _) rfl fun there => there
  secondary name otherKey key value there found := by
    rw [slot?_addSecondary] at found
    split at found
    · rename_i here
      cases found
      rw [here.1, here.2.1, here.2.2.1]
      exact ⟨among, stores.mono (le_refl _) rfl fun there => there⟩
    · have held := stored.secondary name otherKey key value there found
      exact ⟨held.1, held.2.mono (le_refl _) rfl fun there => there⟩

theorem Stored.addSecondaries {pkey2s : List String}
    (among : ∀ pkey2 ∈ pkey2s, pkey2 ∈ schema.pkey2s topic)
    (stores : graph.Stores schema store topic id addr) (value : String → String) :
    (pkey2s.foldl (fun graph pkey2 => graph.addSecondary topic pkey2 id (value pkey2) addr)
      graph).Stored schema store := by
  have both : (pkey2s.foldl (fun graph pkey2 =>
      graph.addSecondary topic pkey2 id (value pkey2) addr) graph).Stored schema store ∧
      (pkey2s.foldl (fun graph pkey2 =>
        graph.addSecondary topic pkey2 id (value pkey2) addr) graph).Stores schema store topic id
          addr := by
    apply foldlRecOn (motive := fun after : Graph =>
      after.Stored schema store ∧ after.Stores schema store topic id addr)
    · exact ⟨stored, stores⟩
    · intro sofar kept pkey2 listed
      exact ⟨kept.1.addSecondary (among pkey2 listed) kept.2 (value pkey2),
        kept.2.mono (le_refl _) rfl fun there => there⟩
  exact both.1

theorem Stored.loadAllLinks : loadAllLinks schema graph = graph := by
  apply foldlRecOn (motive := fun loaded : Graph => loaded = graph)
  · rfl
  · intro loaded same topic _
    apply foldlRecOn (motive := fun other : Graph => other = graph)
    · exact same
    · intro other still entry among
      rw [same] at among
      have found : graph.getNode topic.name entry.1 = some entry.2 :=
        (graph.primary topic.name).get?_of_mem among
      have held := stored.primary topic.name entry.1 entry.2 found
      rw [still]
      apply loadLinks_unlinked
      rw [held.ofTopic]
      exact held.unlinked

end

end Graph

section Load

variable {ctx : Context} {store : Store} {loading : Loading} {topic : Topic} {key : String}
  {row : Row}

section

variable (listed : topic ∈ ctx.schema.topics)
include listed

theorem loadNode_stores (isOf : row.IsOf (ctx.schema.cols topic.name) key)
    (there : ((store topic.name).get? key).isSome) :
    (loadNode ctx topic loading row).graph.Stores ctx.schema store topic.name key
      loading.graph.next := by
  have read := (loadNode_reads ctx topic loading row).node
  have cols := Schema.cols_of_mem listed
  constructor
  · exact (loadNode_reads ctx topic loading row).used
  · rw [read]
    rfl
  · intro text named
    rw [read] at named
    exact str?_id_of_read ctx.conv topic.distinct isOf.key named
  · rw [read, cols]
    exact (cols ▸ isOf.unlinked).read ctx.conv topic.distinct topic.name
  · exact there

theorem loadIdCallback_stored (stored : loading.graph.Stored ctx.schema store)
    (isOf : row.IsOf (ctx.schema.cols topic.name) key)
    (there : ((store topic.name).get? key).isSome) :
    (loadIdCallback ctx topic key loading row).graph.Stored ctx.schema store := by
  unfold loadIdCallback
  split
  · exact stored
  · apply (stored.alloc (readNode ctx topic row)).addPrimary
    exact loadNode_stores listed isOf there

theorem loadPkey2Callback_stored {pkey2 : String}
    (among : pkey2 ∈ ctx.schema.pkey2s topic.name)
    (stored : loading.graph.Stored ctx.schema store)
    (isOf : row.IsOf (ctx.schema.cols topic.name) key)
    (there : ((store topic.name).get? key).isSome) :
    (loadPkey2Callback ctx topic pkey2 key loading row).graph.Stored ctx.schema store := by
  unfold loadPkey2Callback
  dsimp only
  split
  · exact stored
  · apply (stored.alloc (readNode ctx topic row)).addSecondary among
    exact loadNode_stores listed isOf there

end

theorem openList_stored (name : String) (keyed : store.Keyed ctx.schema) (snapTag : Nat)
    {callback : String → Loading → Row → Loading}
    (keeps : ∀ key loading row, loading.graph.Stored ctx.schema store →
      row.IsOf (ctx.schema.cols name) key → ((store name).get? key).isSome →
      (callback key loading row).graph.Stored ctx.schema store)
    (stored : loading.graph.Stored ctx.schema store) :
    (openList store name snapTag callback loading).graph.Stored ctx.schema store := by
  apply foldlRecOn (motive := fun after : Loading => after.graph.Stored ctx.schema store)
  · exact stored
  · intro sofar kept entry among
    have there : (store name).get? entry.1 = some entry.2 := (store name).get?_of_mem among
    have rows : store.rows name entry.1 = entry.2 := by
      unfold Store.rows
      rw [there, Option.getD_some]
    apply foldlRecOn (motive := fun after : Loading => after.graph.Stored ctx.schema store)
    · exact kept
    · intro other still row isRow
      have isEntry : row ∈ entry.2 := mem_reverse.1 (mem_filter.1 isRow).1
      apply keeps entry.1 other row still (keyed name entry.1 row (rows ▸ isEntry))
      rw [there]
      rfl

theorem openTopics_stored (keyed : store.Keyed ctx.schema) (snapTag : Nat) {topics : List Topic}
    (listed : ∀ topic ∈ topics, topic ∈ ctx.schema.topics)
    (stored : loading.graph.Stored ctx.schema store) :
    (openTopics ctx store snapTag topics loading).graph.Stored ctx.schema store := by
  apply foldlRecOn (motive := fun after : Loading => after.graph.Stored ctx.schema store)
  · exact stored
  · intro sofar kept topic among
    have known := listed topic among
    apply foldlRecOn (motive := fun after : Loading => after.graph.Stored ctx.schema store)
    · exact openList_stored topic.name keyed snapTag (fun key loading row held isOf there =>
        loadIdCallback_stored known held isOf there) kept
    · intro other still pkey2 isKey
      have isPkey2 : pkey2 ∈ ctx.schema.pkey2s topic.name := by
        rw [Schema.pkey2s_of_topic? (Schema.topic?_of_mem known)]
        exact isKey
      exact openList_stored topic.name keyed 0 (fun key loading row held isOf there =>
        loadPkey2Callback_stored known isPkey2 held isOf there) still

end Load

end Yunetas.TrTreedb
