import Yunetas.TrTreedb.Effects

/-!
# Coherent indexes

The indexes hold copies of what a node had in its key fields when it was put there. They are
coherent when every node is under its own id and its own value of the secondary key, and every id of
a secondary index is in the primary one. Changes of link columns and new nodes keep them coherent;
so does taking nodes out, as long as no secondary slot outlives the id.
-/

namespace Yunetas.TrTreedb

open List Option Function TrTreedb.Graph

/-- The id and the secondary keys of every topic are no link columns. -/
def Schema.PlainKeys (schema : Schema) : Prop :=
  ∀ topic ∈ schema.topics, ∀ field ∈ "id" :: topic.pkey2s,
    schema.isLinkField topic.name field = false

instance (schema : Schema) : Decidable schema.PlainKeys :=
  inferInstanceAs (Decidable (∀ topic ∈ schema.topics, ∀ field ∈ "id" :: topic.pkey2s,
    schema.isLinkField topic.name field = false))

/-- The id of every topic is no link column. -/
def Schema.PlainIds (schema : Schema) : Prop :=
  ∀ topic ∈ schema.topics, schema.isLinkField topic.name "id" = false

instance (schema : Schema) : Decidable schema.PlainIds :=
  inferInstanceAs (Decidable (∀ topic ∈ schema.topics, schema.isLinkField topic.name "id" = false))

namespace Schema

variable {schema : Schema}

theorem PlainKeys.ids (plainKeys : schema.PlainKeys) : schema.PlainIds :=
  fun topic among => plainKeys topic among "id" mem_cons_self

theorem PlainIds.plain (plainIds : schema.PlainIds) {name : String}
    (known : (schema.topic? name).isSome) : schema.isLinkField name "id" = false := by
  have ⟨topic, found⟩ := isSome_iff_exists.1 known
  have among := topic?_mem found
  rw [← among.2]
  exact plainIds topic among.1

theorem pkey2s_of_topic? {name : String} {topic : Topic} (found : schema.topic? name = some topic) :
    schema.pkey2s name = topic.pkey2s.filter fun pkey2 => pkey2 ≠ "" := by
  unfold pkey2s
  rw [found]

theorem topic?_snaps (schema : Schema) : schema.topic? snapsTopic.name = some snapsTopic :=
  Schema.topic?_of_mem mem_cons_self

theorem pkey2s_snaps (schema : Schema) : schema.pkey2s snapsTopic.name = [] := by
  rw [Schema.pkey2s_of_topic? (topic?_snaps schema)]
  rfl

theorem known_of_pkey2 {name pkey2 : String} (among : pkey2 ∈ schema.pkey2s name) :
    (schema.topic? name).isSome := by
  unfold pkey2s at among
  split at among
  · rename_i topic found
    rw [found]
    rfl
  · exact absurd among not_mem_nil

theorem PlainKeys.plain (plainKeys : schema.PlainKeys) {name field : String}
    (known : (schema.topic? name).isSome) (key : field ∈ "id" :: schema.pkey2s name) :
    schema.isLinkField name field = false := by
  have ⟨topic, found⟩ := isSome_iff_exists.1 known
  have among := topic?_mem found
  rw [pkey2s_of_topic? found, mem_cons] at key
  rw [← among.2]
  apply plainKeys topic among.1
  rw [mem_cons]
  exact key.imp id fun listed => (mem_filter.1 listed).1

end Schema

namespace Graph

/-- A node of a topic with an id. -/
structure IsNode (schema : Schema) (graph : Graph) (topic id : String) (addr : Addr) : Prop where
  known : (schema.topic? topic).isSome
  used : addr < graph.next
  topic : (graph.heap addr).topic = topic
  id : (graph.heap addr).str? "id" = some id

/-- A node with an id and a value of a secondary key, and the id is in the primary index. -/
structure IsInstance (schema : Schema) (graph : Graph) (topic pkey2 id key2 : String)
    (addr : Addr) : Prop where
  node : graph.IsNode schema topic id addr
  among : pkey2 ∈ schema.pkey2s topic
  key2 : (graph.heap addr).str pkey2 = key2
  primary : (graph.getNode topic id).isSome

/-- Every index holds nodes under their own keys, and no node is at an address not in use. -/
structure Coherent (schema : Schema) (graph : Graph) : Prop where
  primary : ∀ topic id addr, graph.getNode topic id = some addr →
    graph.IsNode schema topic id addr
  secondary : ∀ topic pkey2 id key2 addr, graph.slot? topic pkey2 id key2 = some addr →
    graph.IsInstance schema topic pkey2 id key2 addr
  blank : ∀ addr, graph.next ≤ addr → (graph.heap addr).fields = []

theorem IsNode.of_heap {schema : Schema} {graph after : Graph} {topic id : String} {addr : Addr}
    (own : graph.IsNode schema topic id addr) (heap : after.heap = graph.heap)
    (next : after.next = graph.next) : after.IsNode schema topic id addr :=
  ⟨own.known, next ▸ own.used, heap ▸ own.topic, heap ▸ own.id⟩

theorem IsInstance.addSecondary {schema : Schema} {graph : Graph}
    {topic pkey2 id key2 : String} {addr : Addr}
    (own : graph.IsInstance schema topic pkey2 id key2 addr) (other otherKey name value : String)
    (there : Addr) :
    (graph.addSecondary other otherKey name value there).IsInstance schema topic pkey2 id key2
      addr :=
  ⟨own.node.of_heap rfl rfl, own.among, own.key2, own.primary⟩

end Graph

variable {schema : Schema}

theorem coherent_empty : Graph.empty.Coherent schema where
  primary _ _ _ found := by cases found
  secondary _ _ _ _ _ found := by cases found
  blank _ _ := rfl

namespace Graph.Coherent

variable {graph : Graph}

theorem typed (coherent : graph.Coherent schema) : graph.Typed := fun topic id addr found =>
  (coherent.primary topic id addr found).topic

theorem used (coherent : graph.Coherent schema) {addr : Addr} {id : String}
    (named : (graph.heap addr).str? "id" = some id) : addr < graph.next := by
  by_contra beyond
  have blank := coherent.blank addr (Nat.le_of_not_lt beyond)
  unfold Node.str? Node.get? at named
  rw [blank] at named
  cases named

end Graph.Coherent

/-- Two graphs whose nodes differ in other fields than their keys. -/
structure SameKeys (schema : Schema) (before after : Graph) : Prop where
  next : after.next = before.next
  primary : after.primary = before.primary
  secondary : after.secondary = before.secondary
  topic : ∀ addr, (after.heap addr).topic = (before.heap addr).topic
  id : ∀ addr, (schema.topic? (before.heap addr).topic).isSome →
    (after.heap addr).str? "id" = (before.heap addr).str? "id"
  key2 : ∀ addr, ∀ pkey2 ∈ schema.pkey2s (before.heap addr).topic,
    (after.heap addr).str pkey2 = (before.heap addr).str pkey2
  blank : ∀ addr, (before.heap addr).fields = [] → (after.heap addr).fields = []

theorem SameButLinks.sameKeys {before after : Graph} (plainKeys : schema.PlainKeys)
    (same : SameButLinks schema before after) : SameKeys schema before after where
  next := same.next
  primary := same.primary
  secondary := same.secondary
  topic := same.topic
  id addr known := same.str? addr (plainKeys.plain known mem_cons_self)
  key2 addr pkey2 among := by
    unfold Node.str
    rw [same.str? addr (plainKeys.plain (Schema.known_of_pkey2 among) (mem_cons_of_mem _ among))]
  blank := same.blank

namespace Graph.Coherent

variable {graph : Graph}

theorem of_sameKeys {after : Graph} (coherent : graph.Coherent schema)
    (same : SameKeys schema graph after) : after.Coherent schema where
  primary topic id addr found := by
    unfold Graph.getNode at found
    rw [same.primary] at found
    have node := coherent.primary topic id addr found
    refine ⟨node.known, same.next ▸ node.used, (same.topic addr).trans node.topic, ?_⟩
    rw [same.id addr (node.topic ▸ node.known)]
    exact node.id
  secondary topic pkey2 id key2 addr found := by
    unfold Graph.slot? at found
    rw [same.secondary] at found
    have held := coherent.secondary topic pkey2 id key2 addr found
    refine ⟨⟨held.node.known, same.next ▸ held.node.used,
      (same.topic addr).trans held.node.topic, ?_⟩, held.among, ?_, ?_⟩
    · rw [same.id addr (held.node.topic ▸ held.node.known)]
      exact held.node.id
    · rw [same.key2 addr pkey2 (held.node.topic ▸ held.among)]
      exact held.key2
    · unfold Graph.getNode
      rw [same.primary]
      exact held.primary
  blank addr beyond := same.blank addr (coherent.blank addr (same.next ▸ beyond))

variable {addr : Addr}

section

variable (coherent : graph.Coherent schema)
include coherent

theorem addSecondary {topic pkey2 id key2 : String}
    (own : graph.IsInstance schema topic pkey2 id key2 addr) :
    (graph.addSecondary topic pkey2 id key2 addr).Coherent schema where
  primary other name there found := (coherent.primary other name there found).of_heap rfl rfl
  secondary other otherKey name value there found := by
    rw [slot?_addSecondary] at found
    split at found
    · rename_i same
      obtain ⟨rfl, rfl, rfl, rfl⟩ := same
      rw [← some.inj found]
      exact own.addSecondary ..
    · exact (coherent.secondary other otherKey name value there found).addSecondary ..
  blank := coherent.blank

theorem addSecondaries {topic id : String}
    (pkey2s : List String) (value : String → String)
    (own : ∀ pkey2 ∈ pkey2s, graph.IsInstance schema topic pkey2 id (value pkey2) addr) :
    (pkey2s.foldl (fun graph pkey2 => graph.addSecondary topic pkey2 id (value pkey2) addr)
      graph).Coherent schema := by
  induction pkey2s generalizing graph with
  | nil => exact coherent
  | cons pkey2 rest ih =>
    rw [foldl_cons]
    apply ih (coherent.addSecondary (own pkey2 mem_cons_self))
    intro other among
    exact (own other (mem_cons_of_mem _ among)).addSecondary ..

theorem addPrimary {topic id : String}
    (own : graph.IsNode schema topic id addr) :
    (graph.addPrimary topic id addr).Coherent schema where
  primary other name there found := by
    rw [getNode_addPrimary] at found
    split at found
    · rename_i same
      obtain ⟨rfl, rfl⟩ := same
      rw [← some.inj found]
      exact own.of_heap rfl rfl
    · exact (coherent.primary other name there found).of_heap rfl rfl
  secondary other pkey2 name key2 there found := by
    have held := coherent.secondary other pkey2 name key2 there found
    refine ⟨held.node.of_heap rfl rfl, held.among, held.key2, ?_⟩
    rw [getNode_addPrimary]
    split
    · rfl
    · exact held.primary
  blank := coherent.blank

end

theorem heap_alloc_of_lt (node : Node) (used : addr < graph.next) :
    (graph.alloc node).heap addr = graph.heap addr := by
  rw [heap_alloc, update_of_ne (Nat.ne_of_lt used)]

theorem isNode_alloc {topic id : String} (node : Node) (own : graph.IsNode schema topic id addr) :
    (graph.alloc node).IsNode schema topic id addr := by
  have still := heap_alloc_of_lt node own.used
  exact ⟨own.known, Nat.lt_succ_of_lt own.used, still ▸ own.topic, still ▸ own.id⟩

theorem alloc (coherent : graph.Coherent schema) (node : Node) :
    (graph.alloc node).Coherent schema where
  primary topic id addr found := isNode_alloc node (coherent.primary topic id addr found)
  secondary topic pkey2 id key2 addr found := by
    have held := coherent.secondary topic pkey2 id key2 addr found
    refine ⟨isNode_alloc node held.node, held.among, ?_, held.primary⟩
    rw [heap_alloc_of_lt node held.node.used]
    exact held.key2
  blank addr beyond := by
    rw [next_alloc] at beyond
    rw [heap_alloc, update_of_ne (Nat.ne_of_gt beyond)]
    exact coherent.blank addr (Nat.le_of_succ_le beyond)

theorem shrink {after : Graph} (coherent : graph.Coherent schema) (heap : after.heap = graph.heap)
    (next : after.next = graph.next)
    (primary : ∀ topic id addr, after.getNode topic id = some addr →
      graph.getNode topic id = some addr)
    (secondary : ∀ topic pkey2 id key2 addr, after.slot? topic pkey2 id key2 = some addr →
      graph.slot? topic pkey2 id key2 = some addr ∧
        (pkey2 ∈ schema.pkey2s topic → after.getNode topic id = graph.getNode topic id)) :
    after.Coherent schema := by
  constructor
  · intro topic id addr found
    exact (coherent.primary topic id addr (primary topic id addr found)).of_heap heap next
  · intro topic pkey2 id key2 addr found
    have before := secondary topic pkey2 id key2 addr found
    have held := coherent.secondary topic pkey2 id key2 addr before.1
    exact ⟨held.node.of_heap heap next, held.among, heap ▸ held.key2,
      before.2 held.among ▸ held.primary⟩
  · intro addr beyond
    rw [heap]
    exact coherent.blank addr (next ▸ beyond)

theorem deleteSecondary (coherent : graph.Coherent schema) (topic pkey2 id key2 : String) :
    (graph.deleteSecondary topic pkey2 id key2).Coherent schema := by
  have same := deleteSecondary_keeps graph topic pkey2 id key2
  apply coherent.shrink same.1 same.2.1
  · intro other name addr found
    rw [← same.2.2]
    exact found
  · intro other otherKey name value addr found
    exact ⟨slot?_deleteSecondary graph topic pkey2 id key2 other otherKey name value addr
      found, fun _ => same.2.2 other name⟩

end Graph.Coherent

theorem slot?_foldl_dropInstances (graph : Graph) (topic id other pkey2 name key2 : String)
    (pkey2s : List String) :
    (pkey2s.foldl (fun graph pkey2 => graph.dropInstances topic pkey2 id) graph).slot? other pkey2
      name key2 = if other = topic ∧ pkey2 ∈ pkey2s ∧ name = id then none
        else graph.slot? other pkey2 name key2 := by
  induction pkey2s generalizing graph with
  | nil => simp
  | cons first rest ih =>
    rw [foldl_cons, ih, slot?_dropInstances]
    by_cases here : other = topic ∧ name = id
    · simp only [here, mem_cons, true_and, and_true]
      by_cases later : pkey2 ∈ rest <;> simp [later]
    · have one : ¬ (other = topic ∧ pkey2 = first ∧ name = id) := fun all => here ⟨all.1, all.2.2⟩
      have later : ¬ (other = topic ∧ pkey2 ∈ rest ∧ name = id) := fun all => here ⟨all.1, all.2.2⟩
      have never : ¬ (other = topic ∧ pkey2 ∈ first :: rest ∧ name = id) :=
        fun all => here ⟨all.1, all.2.2⟩
      rw [if_neg later, if_neg one, if_neg never]

theorem foldl_dropInstances_keeps (graph : Graph) (topic id : String) (pkey2s : List String) :
    let after := pkey2s.foldl (fun graph pkey2 => graph.dropInstances topic pkey2 id) graph
    after.heap = graph.heap ∧ after.next = graph.next ∧ after.primary = graph.primary := by
  induction pkey2s generalizing graph with
  | nil => exact ⟨rfl, rfl, rfl⟩
  | cons first rest ih => exact ih (graph.dropInstances topic first id)

theorem getNode_dropId (graph : Graph) (topic id other name : String) :
    (dropId schema graph topic id).getNode other name =
      if other = topic ∧ name = id then none else graph.getNode other name := by
  have keeps := foldl_dropInstances_keeps (graph.deletePrimary topic id) topic id
    (schema.pkey2s topic)
  rw [← getNode_deletePrimary]
  unfold Graph.getNode dropId
  rw [keeps.2.2]

theorem dropId_coherent {graph : Graph} (coherent : graph.Coherent schema) (topic id : String) :
    (dropId schema graph topic id).Coherent schema := by
  have keeps := foldl_dropInstances_keeps (graph.deletePrimary topic id) topic id
    (schema.pkey2s topic)
  apply @Graph.Coherent.shrink _ _ (dropId schema graph topic id) coherent keeps.1 keeps.2.1
  · intro other name addr found
    rw [getNode_dropId] at found
    split at found
    · cases found
    · exact found
  · intro other pkey2 name key2 addr found
    unfold dropId at found
    rw [slot?_foldl_dropInstances] at found
    split at found
    · cases found
    · rename_i outside
      refine ⟨found, fun among => ?_⟩
      rw [getNode_dropId]
      split
      · rename_i gone
        exact absurd ⟨gone.1, gone.1 ▸ among, gone.2⟩ outside
      · rfl

end Yunetas.TrTreedb
