import Yunetas.TrTreedb.InUse

/-!
# Opening files the nodes it reads

The rows of a topic are loaded key by key, first into the primary index and then, for each secondary
key, into its slots. When the rows are read back under the keys they are filed under, and every key
with an instance has its node, the indexes of the opened treedb are coherent.
-/

namespace Yunetas.TrTreedb

open List Bool TrTreedb.Graph

variable {ctx : Context}

theorem Row.loads_live {snapTag : Nat} {row : Row} (loads : row.loads snapTag = true) :
    row.deleted = false := by
  unfold Row.loads at loads
  rw [and_eq_true, not_eq_true'] at loads
  exact loads.1

section Topic

variable {topic : Topic} {key : String} {loading : Loading} {row : Row}

theorem loadNode_isNode (among : topic ∈ ctx.schema.topics)
    (filed : row.filed ctx topic key = true) (live : row.deleted = false) :
    (loadNode ctx topic loading row).graph.IsNode ctx.schema topic.name key loading.graph.next := by
  have here : (loadNode ctx topic loading row).graph.heap loading.graph.next =
      readNode ctx topic row := by
    unfold loadNode
    rw [Graph.heap_alloc, Function.update_self]
  unfold Row.filed at filed
  rw [live, Bool.false_or, Bool.and_eq_true, decide_eq_true_eq] at filed
  refine ⟨?_, Nat.lt_succ_self _, ?_, ?_⟩
  · rw [Schema.topic?_of_mem among]
    rfl
  · rw [here]
    rfl
  · rw [here]
    exact filed.1

theorem loadIdCallback_coherent (among : topic ∈ ctx.schema.topics)
    (coherent : loading.graph.Coherent ctx.schema) (filed : row.filed ctx topic key = true)
    (live : row.deleted = false) :
    let after := loadIdCallback ctx topic key loading row
    after.graph.Coherent ctx.schema ∧ (after.graph.getNode topic.name key).isSome := by
  unfold loadIdCallback
  split
  · rename_i there
    exact ⟨coherent, there⟩
  · refine ⟨(coherent.alloc _).addPrimary (loadNode_isNode among filed live), ?_⟩
    rw [getNode_addPrimary, if_pos ⟨rfl, rfl⟩]
    rfl

theorem loadIdRows_coherent (among : topic ∈ ctx.schema.topics) (rows : List Row)
    (coherent : loading.graph.Coherent ctx.schema)
    (filed : ∀ row ∈ rows, row.filed ctx topic key = true ∧ row.deleted = false) :
    let after := rows.foldl (loadIdCallback ctx topic key) loading
    after.graph.Coherent ctx.schema ∧
      (rows ≠ [] → (after.graph.getNode topic.name key).isSome) := by
  induction rows generalizing loading with
  | nil => exact ⟨coherent, fun ne => absurd rfl ne⟩
  | cons row rest ih =>
    have here := filed row mem_cons_self
    have one := loadIdCallback_coherent among coherent here.1 here.2
    have later := ih one.1 fun other further => filed other (mem_cons_of_mem _ further)
    have grows := Grows.foldl rest (loadIdCallback ctx topic key) (loadIdCallback_grows topic key)
      (loadIdCallback ctx topic key loading row)
    exact ⟨later.1, fun _ => grows.isSome one.2⟩

section

variable (among : topic ∈ ctx.schema.topics)
include among

/-- The primary index of a topic is loaded: every key with a row that loads has its node. -/
theorem openList_id_coherent (snapTag : Nat)
    (entries : List (String × List Row)) (coherent : loading.graph.Coherent ctx.schema)
    (filed : ∀ entry ∈ entries, ∀ row ∈ entry.2, row.filed ctx topic entry.1 = true) :
    let after := entries.foldl (fun loading entry =>
      (entry.2.reverse.filter (Row.loads snapTag)).foldl (loadIdCallback ctx topic entry.1) loading)
        loading
    after.graph.Coherent ctx.schema ∧ ∀ entry ∈ entries, entry.2.any (Row.loads snapTag) = true →
        (after.graph.getNode topic.name entry.1).isSome := by
  induction entries generalizing loading with
  | nil => exact ⟨coherent, fun entry absent => absurd absent not_mem_nil⟩
  | cons entry rest ih =>
    have rows := @loadIdRows_coherent _ _ entry.1 _ among
      (entry.2.reverse.filter (Row.loads snapTag)) coherent (by
        intro row kept
        rw [mem_filter, mem_reverse] at kept
        exact ⟨filed entry mem_cons_self row kept.1, Row.loads_live kept.2⟩)
    have later := ih rows.1 fun other further => filed other (mem_cons_of_mem _ further)
    refine ⟨later.1, ?_⟩
    intro other listed loads
    rcases mem_cons.1 listed with rfl | further
    · have grows := Grows.foldl rest (fun loading entry =>
          (entry.2.reverse.filter (Row.loads snapTag)).foldl (loadIdCallback ctx topic entry.1) loading)
        (fun sofar entry => Grows.foldl _ _ (loadIdCallback_grows topic entry.1) sofar)
        ((other.2.reverse.filter (Row.loads snapTag)).foldl (loadIdCallback ctx topic other.1)
          loading)
      apply grows.isSome
      apply rows.2
      rw [any_eq_true] at loads
      have ⟨row, within, loaded⟩ := loads
      exact ne_nil_of_mem (mem_filter.2 ⟨mem_reverse.2 within, loaded⟩)
    · exact later.2 other further loads

section

variable {pkey2 : String} (listed : pkey2 ∈ ctx.schema.pkey2s topic.name)
include listed

theorem loadPkey2Callback_coherent (coherent : loading.graph.Coherent ctx.schema)
    (filed : row.filed ctx topic key = true) (live : row.deleted = false)
    (there : (loading.graph.getNode topic.name key).isSome) :
    let after := loadPkey2Callback ctx topic pkey2 key loading row
    after.graph.Coherent ctx.schema ∧ after.graph.primary = loading.graph.primary := by
  unfold loadPkey2Callback
  dsimp only
  split
  · exact ⟨coherent, rfl⟩
  · have node := @loadNode_isNode _ _ _ loading _ among filed live
    refine ⟨(coherent.alloc _).addSecondary ⟨node, listed, ?_, there⟩, rfl⟩
    unfold Row.filed at filed
    rw [live, Bool.false_or, and_eq_true, all_eq_true] at filed
    rw [heap_alloc, Function.update_self]
    exact of_decide_eq_true (filed.2 pkey2 listed)

theorem openList_pkey2_coherent (entries : List (String × List Row))
    (coherent : loading.graph.Coherent ctx.schema)
    (filed : ∀ entry ∈ entries, ∀ row ∈ entry.2, row.filed ctx topic entry.1 = true)
    (there : ∀ entry ∈ entries, entry.2.any (Row.loads 0) = true →
      (loading.graph.getNode topic.name entry.1).isSome) :
    let after := entries.foldl (fun loading entry =>
      (entry.2.reverse.filter (Row.loads 0)).foldl (loadPkey2Callback ctx topic pkey2 entry.1)
        loading) loading
    after.graph.Coherent ctx.schema ∧ after.graph.primary = loading.graph.primary := by
  apply foldlRecOn (motive := fun after : Loading => after.graph.Coherent ctx.schema ∧
    after.graph.primary = loading.graph.primary)
  · exact ⟨coherent, rfl⟩
  · intro sofar kept entry isEntry
    apply foldlRecOn (motive := fun after : Loading => after.graph.Coherent ctx.schema ∧
      after.graph.primary = loading.graph.primary)
    · exact kept
    · intro other still row loaded
      rw [mem_filter, mem_reverse] at loaded
      have has : (other.graph.getNode topic.name entry.1).isSome := by
        unfold Graph.getNode
        rw [still.2]
        exact there entry isEntry (any_eq_true.2 ⟨row, loaded⟩)
      have one := loadPkey2Callback_coherent among listed still.1
        (filed entry isEntry row loaded.1) (Row.loads_live loaded.2) has
      exact ⟨one.1, one.2.trans still.2⟩

end

theorem openTopic_coherent {store : Store} {snapTag : Nat}
    (coherent : loading.graph.Coherent ctx.schema)
    (filed : loadsFiled ctx store snapTag topic = true) :
    (openTopic ctx store snapTag loading topic).graph.Coherent ctx.schema := by
  unfold loadsFiled at filed
  simp only [all_eq_true, and_eq_true] at filed
  have rows : ∀ entry ∈ (store topic.name).entries, ∀ row ∈ entry.2,
      row.filed ctx topic entry.1 = true := fun entry isEntry => (filed entry isEntry).1
  have ids := openList_id_coherent among snapTag (store topic.name).entries coherent rows
  have pkey2s := Schema.pkey2s_of_topic? (Schema.topic?_of_mem among)
  unfold openTopic
  rw [← pkey2s]
  apply (foldlRecOn (motive := fun after : Loading => after.graph.Coherent ctx.schema ∧
    after.graph.primary =
      (openList store topic.name snapTag (loadIdCallback ctx topic) loading).graph.primary)
    _ _ _ _).1
  · exact ⟨ids.1, rfl⟩
  · intro sofar kept pkey2 listed
    have there : ∀ entry ∈ (store topic.name).entries, entry.2.any (Row.loads 0) = true →
        (sofar.graph.getNode topic.name entry.1).isSome := by
      intro entry isEntry live
      have loads := (filed entry isEntry).2
      have some : (ctx.schema.pkey2s topic.name).isEmpty = false :=
        isEmpty_eq_false_iff.2 (ne_nil_of_mem listed)
      rw [live, some] at loads
      unfold Graph.getNode
      rw [kept.2]
      exact ids.2 entry isEntry (by simpa using loads)
    have one := openList_pkey2_coherent among listed (store topic.name).entries kept.1 rows there
    exact ⟨one.1, one.2.trans kept.2⟩

end

end Topic

theorem openTopics_coherent {store : Store} {snapTag : Nat} (topics : List Topic)
    {loading : Loading} (coherent : loading.graph.Coherent ctx.schema)
    (filed : ∀ topic ∈ topics, topic ∈ ctx.schema.topics ∧
      loadsFiled ctx store snapTag topic = true) :
    (openTopics ctx store snapTag topics loading).graph.Coherent ctx.schema := by
  apply foldlRecOn (motive := fun after : Loading => after.graph.Coherent ctx.schema)
  · exact coherent
  · intro sofar kept topic listed
    exact openTopic_coherent (filed topic listed).1 kept (filed topic listed).2

section Snaps

variable {state : State}

/-- The snapshots that some addresses are of. -/
def SnapsAt (ctx : Context) (graph : Graph) (snaps : List Addr) : Prop :=
  ∀ snap ∈ snaps, ∃ id, graph.IsNode ctx.schema snapsTopic.name id snap

theorem snapsWith_at (coherent : state.graph.Coherent ctx.schema) (test : Node → Bool) :
    SnapsAt ctx state.graph (snapsWith state test) := by
  intro snap among
  unfold snapsWith at among
  rw [mem_filter, mem_map] at among
  have ⟨⟨entry, isEntry, isSnap⟩, _⟩ := among
  have found : state.graph.getNode snapsTopic.name entry.1 = some snap := by
    rw [← isSnap]
    exact Dict.get?_of_mem _ isEntry
  exact ⟨entry.1, coherent.primary _ _ _ found⟩

theorem Graph.IsNode.of_sameKeys {graph after : Graph} {topic id : String} {addr : Addr}
    (node : graph.IsNode ctx.schema topic id addr) (same : SameKeys ctx.schema graph after) :
    after.IsNode ctx.schema topic id addr := by
  refine ⟨node.known, same.next ▸ node.used, (same.topic addr).trans node.topic, ?_⟩
  rw [same.id addr (node.topic ▸ node.known)]
  exact node.id

/-- What marking snapshots keeps. -/
structure Marking (ctx : Context) (snaps : List Addr) (state : State) : Prop where
  coherent : state.graph.Coherent ctx.schema
  snaps : SnapsAt ctx state.graph snaps

section

variable (plainKeys : ctx.schema.PlainKeys) {snaps : List Addr} (marking : Marking ctx snaps state)
include plainKeys marking

theorem Marking.saveActive {snap : Addr} (among : snap ∈ snaps)
    (active : Bool) : Marking ctx snaps (saveActive ctx state snap active).2 := by
  have ⟨id, isSnap⟩ := marking.snaps snap among
  have same : SameKeys ctx.schema state.graph
      (state.graph.setField snap "active" (.json (.boolean active))) := by
    apply sameKeys_update ((state.graph.heap snap).set "active" (.json (.boolean active))) rfl
      isSnap.id
    · exact Node.str?_set_ne _ _ (by decide)
    · intro pkey2 among
      rw [isSnap.topic, Schema.pkey2s_snaps] at among
      exact absurd among not_mem_nil
  have indexed : state.graph.Indexed ctx.schema snap := by
    left
    rw [isSnap.topic, Schema.pkey2s_snaps]
  have coherent := marking.coherent.of_sameKeys same
  refine ⟨saveNode_coherent plainKeys coherent (indexed.of_sameKeys same), ?_⟩
  intro other among
  have ⟨name, node⟩ := marking.snaps other among
  have keeps := saveNode_keeps ctx { state with
    graph := state.graph.setField snap "active" (.json (.boolean active)) } snap
  exact ⟨name, (node.of_sameKeys same).of_heap keeps.1 keeps.2.1⟩

theorem Marking.activatedSnap
    (active : ∀ snap ∈ snapsWith state fun node => node.isTrue "active", snap ∈ snaps) :
    Marking ctx snaps (activatedSnap ctx state).2 := by
  apply foldlRecOn
  · exact marking
  · intro other sofar snap among
    exact sofar.saveActive plainKeys (active snap (dropLast_subset _ among)) false

end

theorem system_mem {topic : Topic} (system : topic ∈ [snapsTopic, graphsTopic]) :
    topic ∈ ctx.schema.topics := by
  unfold Schema.topics
  rw [mem_cons, mem_singleton] at system
  rcases system with rfl | rfl <;> simp

theorem openDb_coherent (plainKeys : ctx.schema.PlainKeys) {store : Store} {tick : Nat}
    (files : opensFiled ctx store tick = true) :
    (openDb ctx store tick).graph.Coherent ctx.schema := by
  unfold opensFiled at files
  rw [all_eq_true] at files
  have system : (openSystem ctx store tick).graph.Coherent ctx.schema := by
    apply openTopics_coherent _ coherent_empty
    intro topic listed
    refine ⟨system_mem listed, ?_⟩
    have filed := files topic (system_mem listed)
    have noKeys : ctx.schema.pkey2s topic.name = [] := by
      rw [Schema.pkey2s_of_topic? (Schema.topic?_of_mem (system_mem listed))]
      rw [mem_cons, mem_singleton] at listed
      rcases listed with rfl | rfl <;> rfl
    unfold loadsFiled at filed ⊢
    rw [noKeys] at filed ⊢
    simpa using filed
  have start : Marking ctx (snapsWith (openSystem ctx store tick) fun node => node.isTrue "active")
      (openSystem ctx store tick) := ⟨system, snapsWith_at system _⟩
  have saved := activatedSnap_saved ctx (openSystem_inUse ctx store tick)
  have marking := start.activatedSnap plainKeys fun _ among => among
  have user : (openUser ctx (activatedSnap ctx (openSystem ctx store tick))).graph.Coherent
      ctx.schema := by
    apply openTopics_coherent _ marking.coherent
    intro topic listed
    have among : topic ∈ ctx.schema.topics := mem_cons_of_mem _ (mem_cons_of_mem _ listed)
    refine ⟨among, ?_⟩
    have filed := files topic among
    unfold loadsFiled at filed ⊢
    rw [saved.store topic.name (userTopic_apart listed mem_cons_self)]
    exact filed
  exact user.of_sameKeys ((openDb_same ctx store tick).links.sameKeys plainKeys)

end Snaps

end Yunetas.TrTreedb
