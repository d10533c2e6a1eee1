import Yunetas.TrTreedb.Elected
import Yunetas.TrTreedb.Filing
import Yunetas.TrTreedb.Session

/-!
# Nodes in use

Whatever the operations, the nodes of the primary indexes are at addresses in use and are of the
topic of their index. Opening a treedb therefore leaves the indexes as the rows say: saving the
snapshots that stay inactive and rebuilding the hooks change nothing of what was loaded but links.
-/

namespace Yunetas.TrTreedb

open List Function TrTreedb.Graph

variable {ctx : Context} {state : State}

/-- The nodes of the primary indexes are in use and of their topic. -/
def Graph.InUse (graph : Graph) : Prop :=
  ∀ topic id addr, graph.getNode topic id = some addr →
    addr < graph.next ∧ (graph.heap addr).topic = topic

namespace Graph.InUse

variable {graph after : Graph}

theorem typed (inUse : graph.InUse) : graph.Typed := fun topic id addr found =>
  (inUse topic id addr found).2

theorem mono (inUse : graph.InUse) (next : graph.next ≤ after.next)
    (topic : ∀ addr, addr < graph.next → (after.heap addr).topic = (graph.heap addr).topic)
    (found : ∀ topic id addr, after.getNode topic id = some addr →
      graph.getNode topic id = some addr) : after.InUse := by
  intro name id addr there
  have before := inUse name id addr (found name id addr there)
  exact ⟨Nat.lt_of_lt_of_le before.1 next, (topic addr before.1).trans before.2⟩

theorem of_primary (inUse : graph.InUse) (next : after.next = graph.next)
    (topic : ∀ addr, (after.heap addr).topic = (graph.heap addr).topic)
    (primary : after.primary = graph.primary) : after.InUse := by
  apply inUse.mono (Nat.le_of_eq next.symm) fun addr _ => topic addr
  intro name id addr found
  unfold getNode at found ⊢
  rw [← primary]
  exact found

theorem sameButLinks {schema : Schema} (inUse : graph.InUse)
    (same : SameButLinks schema graph after) : after.InUse :=
  inUse.of_primary same.next same.topic same.primary

theorem addPrimary (inUse : graph.InUse) {topic : String} (id : String) {addr : Addr}
    (used : addr < graph.next) (own : (graph.heap addr).topic = topic) :
    (graph.addPrimary topic id addr).InUse := by
  intro other name there found
  rw [getNode_addPrimary] at found
  split at found
  · rename_i same
    rw [← Option.some.inj found, same.1]
    exact ⟨used, own⟩
  · exact inUse other name there found

theorem alloc (inUse : graph.InUse) (node : Node) : (graph.alloc node).InUse := by
  apply inUse.mono (Nat.le_succ _ : graph.next ≤ (graph.alloc node).next)
  · intro addr used
    rw [heap_alloc, update_of_ne (Nat.ne_of_lt used)]
  · exact fun _ _ _ found => found

end Graph.InUse

section Load

variable {loading : Loading}

section

variable (inUse : loading.graph.InUse)
include inUse

theorem loadIdCallback_inUse (topic : Topic) (key : String)
    (row : Row) : (loadIdCallback ctx topic key loading row).graph.InUse := by
  unfold loadIdCallback
  split
  · exact inUse
  · have reads := loadNode_reads ctx topic loading row
    apply Graph.InUse.addPrimary (inUse.alloc _) key reads.used
    exact congrArg Node.topic reads.node

theorem loadPkey2Callback_inUse (topic : Topic) (pkey2 key : String) (row : Row) :
    (loadPkey2Callback ctx topic pkey2 key loading row).graph.InUse := by
  unfold loadPkey2Callback
  dsimp only
  split
  · exact inUse
  · exact (inUse.alloc (readNode ctx topic row)).of_primary rfl (fun _ => rfl) rfl

theorem openList_inUse (store : Store) (topic : String)
    (snapTag : Nat) (callback : String → Loading → Row → Loading)
    (keeps : ∀ key loading row, loading.graph.InUse → (callback key loading row).graph.InUse) :
    (openList store topic snapTag callback loading).graph.InUse := by
  apply foldlRecOn (motive := fun after : Loading => after.graph.InUse)
  · exact inUse
  · intro sofar kept entry _
    apply foldlRecOn (motive := fun after : Loading => after.graph.InUse)
    · exact kept
    · intro other still row _
      exact keeps entry.1 other row still

theorem openTopics_inUse (store : Store) (snapTag : Nat)
    (topics : List Topic) : (openTopics ctx store snapTag topics loading).graph.InUse := by
  apply foldlRecOn (motive := fun after : Loading => after.graph.InUse)
  · exact inUse
  · intro sofar kept topic _
    apply foldlRecOn (motive := fun after : Loading => after.graph.InUse)
    · exact openList_inUse kept store topic.name snapTag _ fun key other row used =>
        loadIdCallback_inUse used topic key row
    · intro other still pkey2 _
      exact openList_inUse still store topic.name 0 _ fun key other row used =>
        loadPkey2Callback_inUse used topic pkey2 key row

end

theorem openSystem_inUse (ctx : Context) (store : Store) (tick : Nat) :
    (openSystem ctx store tick).graph.InUse := by
  apply openTopics_inUse
  intro topic id addr found
  cases found

end Load

section Snaps

/-- What saving snapshots keeps: all but fields of the snapshots, their metadata and the rows of
their topic. -/
structure SnapsSaved (before after : State) : Prop where
  next : after.graph.next = before.graph.next
  primary : after.graph.primary = before.graph.primary
  secondary : after.graph.secondary = before.graph.secondary
  topic : ∀ addr, (after.node addr).topic = (before.node addr).topic
  others : ∀ addr, (before.node addr).topic ≠ snapsTopic.name →
    after.node addr = before.node addr ∧ after.md addr = before.md addr
  store : ∀ topic, topic ≠ snapsTopic.name → after.store topic = before.store topic

theorem SnapsSaved.refl (state : State) : SnapsSaved state state :=
  ⟨rfl, rfl, rfl, fun _ => rfl, fun _ _ => ⟨rfl, rfl⟩, fun _ _ => rfl⟩

theorem SnapsSaved.trans {first second third : State} (left : SnapsSaved first second)
    (right : SnapsSaved second third) : SnapsSaved first third where
  next := right.next.trans left.next
  primary := right.primary.trans left.primary
  secondary := right.secondary.trans left.secondary
  topic addr := (right.topic addr).trans (left.topic addr)
  others addr other := by
    have before := left.others addr other
    have after := right.others addr (by rw [left.topic]; exact other)
    exact ⟨after.1.trans before.1, after.2.trans before.2⟩
  store topic other := (right.store topic other).trans (left.store topic other)

theorem SnapsSaved.inUse {before after : State} (saved : SnapsSaved before after)
    (inUse : before.graph.InUse) : after.graph.InUse :=
  inUse.of_primary saved.next saved.topic saved.primary

theorem saveNode_md_of_ne (addr : Addr) {other : Addr} (ne : other ≠ addr) :
    (saveNode ctx state addr).2.md other = state.md other := by
  rcases saveNode_cases ctx state addr with ⟨-, same⟩ | ⟨saved, done⟩
  · rw [same.md]
  · rw [done]
    have placed : saved.placed.md other = state.md other := by
      unfold Saved.placed
      rw [State.setMd_md, update_of_ne ne, saved.written.md]
    unfold Saved.after Saved.marked
    split
    · rw [rewriteMd_md]
      exact placed
    · exact placed

theorem saveNode_immutable (addr other : Addr) :
    ((saveNode ctx state addr).2.md other).immutable = (state.md other).immutable := by
  by_cases here : other = addr
  · subst here
    rcases saveNode_cases ctx state other with ⟨-, same⟩ | ⟨saved, done⟩
    · rw [same.md]
    · rw [done]
      have placed : (saved.placed.md other).immutable = (state.md other).immutable := by
        unfold Saved.placed
        rw [State.setMd_md, update_self]
      unfold Saved.after Saved.marked
      split
      · rw [rewriteMd_md]
        exact placed
      · exact placed
  · rw [saveNode_md_of_ne addr here]

theorem pointSlots_none {schema : Schema} {graph : Graph} {addr : Addr}
    (none : schema.pkey2s (graph.heap addr).topic = []) : pointSlots schema graph addr = graph := by
  unfold pointSlots
  dsimp only
  rw [none]
  rfl

theorem saveActive_graph (ctx : Context) {snap : Addr}
    (isSnap : (state.node snap).topic = snapsTopic.name) (active : Bool) :
    (saveActive ctx state snap active).2.graph =
      state.graph.setField snap "active" (.json (.boolean active)) := by
  unfold saveActive
  rcases saveNode_graph ctx { state with
    graph := state.graph.setField snap "active" (.json (.boolean active)) } snap
    with same | pointed
  · exact same
  · rw [pointed, pointSlots_none]
    show ctx.schema.pkey2s (Function.update state.graph.heap snap _ snap).topic = []
    rw [update_self, Node.set_topic, show (state.graph.heap snap).topic = _ from isSnap,
      Schema.pkey2s_snaps]

theorem saveActive_saved (ctx : Context) (snap : Addr) (isSnap : (state.node snap).topic = snapsTopic.name)
    (active : Bool) : SnapsSaved state (saveActive ctx state snap active).2 := by
  let marked : State := { state with
    graph := state.graph.setField snap "active" (.json (.boolean active)) }
  have topic : ∀ addr, (marked.node addr).topic = (state.node addr).topic := by
    intro addr
    show (Function.update state.graph.heap snap _ addr).topic = _
    by_cases here : addr = snap
    · rw [here, update_self, Node.set_topic]
      rfl
    · rw [update_of_ne here]
      rfl
  have graph := saveActive_graph ctx isSnap active
  have elsewhere : ∀ addr, (state.node addr).topic ≠ snapsTopic.name → addr ≠ snap :=
    fun addr other same => other (same ▸ isSnap)
  constructor
  · rw [graph]
    rfl
  · rw [graph]
    rfl
  · rw [graph]
    rfl
  · intro addr
    rw [← topic]
    unfold State.node
    rw [graph]
  · intro addr other
    have ne := elsewhere addr other
    constructor
    · unfold State.node
      rw [graph]
      exact update_of_ne ne ..
    · exact @saveNode_md_of_ne ctx marked snap _ ne
  · intro name other
    apply saveNode_store_of_ne
    rw [show (marked.node snap).topic = _ from topic snap, isSnap]
    exact other

theorem snapsWith_topic (inUse : state.graph.InUse) {test : Node → Bool} {snap : Addr}
    (among : snap ∈ snapsWith state test) : (state.node snap).topic = snapsTopic.name := by
  unfold snapsWith at among
  rw [mem_filter, mem_map] at among
  have ⟨⟨entry, isEntry, isSnap⟩, _⟩ := among
  have found : state.graph.getNode snapsTopic.name entry.1 = some snap := by
    rw [← isSnap]
    exact Dict.get?_of_mem _ isEntry
  exact (inUse _ _ _ found).2

theorem activatedSnap_saved (ctx : Context) (inUse : state.graph.InUse) :
    SnapsSaved state (activatedSnap ctx state).2 := by
  apply foldlRecOn (motive := fun after : State => SnapsSaved state after)
  · exact SnapsSaved.refl state
  · intro sofar kept snap among
    have isSnap := snapsWith_topic inUse (dropLast_subset _ among)
    exact kept.trans (saveActive_saved ctx snap ((kept.topic snap).trans isSnap) false)

theorem activatedSnap_topic (inUse : state.graph.InUse) {snap : Addr} {found : State}
    (active : activatedSnap ctx state = (some snap, found)) :
    (state.node snap).topic = snapsTopic.name := by
  exact snapsWith_topic inUse (mem_of_getLast? (congrArg Prod.fst active))

end Snaps

section Open

variable (ctx)

variable (store : Store)

theorem openUser_inUse (tick : Nat) :
    (openUser ctx (activatedSnap ctx (openSystem ctx store tick))).graph.InUse := by
  apply openTopics_inUse
  exact (activatedSnap_saved ctx (openSystem_inUse ctx store tick)).inUse (openSystem_inUse ctx store tick)

theorem openDb_same (tick : Nat) :
    SameButHooks ctx.schema (openUser ctx (activatedSnap ctx (openSystem ctx store tick))).graph
      (openDb ctx store tick).graph :=
  loadAllLinks_same (openUser_inUse ctx store tick).typed

theorem openDb_inUse (tick : Nat) : (openDb ctx store tick).graph.InUse :=
  (openUser_inUse ctx store tick).sameButLinks (openDb_same ctx store tick).links

variable {ctx}

theorem userTopic_apart {topic system : Topic} (among : topic ∈ ctx.schema.userTopics)
    (isSystem : system ∈ [snapsTopic, graphsTopic]) : topic.name ≠ system.name := by
  have distinct := ctx.schema.distinct
  rw [map_cons, map_cons, nodup_cons, nodup_cons] at distinct
  intro same
  rw [mem_cons, mem_singleton] at isSystem
  rcases isSystem with rfl | rfl
  · exact distinct.1 (same ▸ mem_cons_of_mem _ (mem_map_of_mem among))
  · exact distinct.2.1 (same ▸ mem_map_of_mem among)

variable {topic : Topic}

theorem openSystem_hasTopic (ctx : Context) (store : Store) (tick : Nat)
    (system : topic ∈ [snapsTopic, graphsTopic]) :
    Loading.HasTopic ctx store 0 topic
      ⟨(openSystem ctx store tick).graph, (openSystem ctx store tick).md⟩ := by
  have lacks : ∀ other ∈ [snapsTopic, graphsTopic], Loading.empty.Lacks other.name := by
    intro other _
    constructor
    · exact fun _ => rfl
    · intro pkey2 key key2
      unfold Graph.getInstance
      split <;> rfl
  exact openTopics_hasTopic ctx store 0 [snapsTopic, graphsTopic] (by decide) lacks system

/-- A topic of the user has the newest rows of its keys, those with the tag of the active
snapshot. -/
theorem openUser_hasTopic (tick : Nat) (among : topic ∈ ctx.schema.userTopics) :
    (openUser ctx (activatedSnap ctx (openSystem ctx store tick))).HasTopic ctx store
      (openedTag (activatedSnap ctx (openSystem ctx store tick))) topic := by
  have inUse := openSystem_inUse ctx store tick
  have saved := activatedSnap_saved ctx inUse
  have distinct := ctx.schema.distinct
  rw [map_cons, map_cons, nodup_cons, nodup_cons] at distinct
  have lacks : ∀ other ∈ ctx.schema.userTopics, Loading.Lacks
      ⟨(activatedSnap ctx (openSystem ctx store tick)).2.graph,
        (activatedSnap ctx (openSystem ctx store tick)).2.md⟩ other.name := by
    intro other listed
    have others := openTopics_others ctx store 0 [snapsTopic, graphsTopic] Loading.empty
      fun system isSystem => userTopic_apart listed isSystem
    constructor
    · intro key
      unfold Graph.getNode
      rw [saved.primary]
      exact others.1 key
    · intro pkey2 key key2
      have absent := others.2 pkey2 key key2
      unfold Graph.getInstance Graph.slot? at absent ⊢
      rw [saved.secondary]
      refine Eq.trans absent ?_
      split <;> rfl
  have has := openTopics_hasTopic ctx (activatedSnap ctx (openSystem ctx store tick)).2.store
    (openedTag (activatedSnap ctx (openSystem ctx store tick))) ctx.schema.userTopics distinct.2.2
    lacks among
  have rows : ∀ key, (activatedSnap ctx (openSystem ctx store tick)).2.store.rows topic.name key =
      store.rows topic.name key := by
    intro key
    unfold Store.rows
    rw [saved.store topic.name (userTopic_apart among mem_cons_self)]
    rfl
  constructor
  · intro key
    rw [← rows]
    exact has.node key
  · intro pkey2 listed key key2 real
    rw [← rows]
    exact has.version pkey2 listed key key2 real

/-- A node reads as a row: its fields but the hooks, and its mark. -/
structure State.ReadsAs (ctx : Context) (state : State) (topic : Topic) (row : Row)
    (addr : Addr) : Prop where
  isTopic : (state.node addr).topic = topic.name
  field : ∀ field, ctx.schema.isHook topic.name field = false →
    (state.node addr).get? field = (readNode ctx topic row).get? field
  immutable : (state.md addr).immutable = row.immutable

/-- What an index found reads as a row, or it found nothing and there is no row. -/
def State.Holds (ctx : Context) (state : State) (topic : Topic) (found : Option Addr) :
    Option Row → Prop
  | some row => ∃ addr, found = some addr ∧ state.ReadsAs ctx topic row addr
  | none => found = none

/-- The indexes of a topic hold the newest rows: the primary one of those that have the tag, the
others of all. -/
structure State.HasTopic (ctx : Context) (store : Store) (snapTag : Nat) (topic : Topic)
    (state : State) : Prop where
  node : ∀ key, state.Holds ctx topic (state.graph.getNode topic.name key)
    (newest (Row.loads snapTag) (store.rows topic.name key))
  version : ∀ pkey2 ∈ topic.pkey2s.filter (· ≠ ""), ∀ key key2, key2 ≠ "" →
    state.Holds ctx topic (state.graph.getInstance topic.name pkey2 key key2)
      (newest (fun row => row.loads 0 && kwStr row.record pkey2 = key2)
        (store.rows topic.name key))

theorem Loading.Holds.opened {loading : Loading} {found : Option Addr}
    {row : Option Row} (holds : loading.Holds ctx topic found row)
    (same : SameButHooks ctx.schema loading.graph state.graph) (md : state.md = loading.md) :
    state.Holds ctx topic found row := by
  cases row with
  | none => exact holds
  | some row =>
    have ⟨addr, isFound, reads⟩ := holds
    have isTopic : (loading.graph.heap addr).topic = topic.name := congrArg Node.topic reads.node
    refine ⟨addr, isFound, ?_, ?_, ?_⟩
    · exact (same.topic addr).trans isTopic
    · intro field plain
      rw [← reads.node]
      exact same.field addr field (isTopic.symm ▸ plain)
    · rw [md, reads.md]
      rfl

theorem Loading.HasTopic.opened {loading : Loading} {store : Store} {snapTag : Nat}
    (has : loading.HasTopic ctx store snapTag topic)
    (same : SameButHooks ctx.schema loading.graph state.graph) (md : state.md = loading.md) :
    state.HasTopic ctx store snapTag topic := by
  constructor
  · intro key
    unfold Graph.getNode
    rw [same.primary]
    exact (has.node key).opened same md
  · intro pkey2 listed key key2 real
    unfold Graph.getInstance Graph.slot?
    rw [same.secondary]
    exact (has.version pkey2 listed key key2 real).opened same md

theorem openDb_hasUser (ctx : Context) (store : Store) (tick : Nat)
    (among : topic ∈ ctx.schema.userTopics) :
    (openDb ctx store tick).HasTopic ctx store
      (openedTag (activatedSnap ctx (openSystem ctx store tick))) topic :=
  (openUser_hasTopic store tick among).opened (openDb_same ctx store tick) rfl

/-- What was loaded of a topic stays while the snapshots are saved and other topics loaded. -/
theorem openDb_hasSystem (tick : Nat) (system : topic ∈ [snapsTopic, graphsTopic])
    (unsaved : ∀ addr, (((openSystem ctx store tick).node addr).topic = topic.name) →
      (activatedSnap ctx (openSystem ctx store tick)).2.node addr =
          (openSystem ctx store tick).node addr ∧
        (activatedSnap ctx (openSystem ctx store tick)).2.md addr =
          (openSystem ctx store tick).md addr) :
    (openDb ctx store tick).HasTopic ctx store 0 topic := by
  have has := openSystem_hasTopic ctx store tick system
  have saved := activatedSnap_saved ctx (openSystem_inUse ctx store tick)
  let found : Loading := ⟨(activatedSnap ctx (openSystem ctx store tick)).2.graph,
    (activatedSnap ctx (openSystem ctx store tick)).2.md⟩
  have grows : Grows found (openUser ctx (activatedSnap ctx (openSystem ctx store tick))) :=
    openTopics_grows _ _ _ _
  have others : (∀ name, (openUser ctx (activatedSnap ctx (openSystem ctx store tick))).graph.getNode
      topic.name name = found.graph.getNode topic.name name) ∧ ∀ pkey2 name key2,
      (openUser ctx (activatedSnap ctx (openSystem ctx store tick))).graph.getInstance topic.name
        pkey2 name key2 = found.graph.getInstance topic.name pkey2 name key2 :=
    openTopics_others ctx _ _ _ _ fun user listed same => userTopic_apart listed system same.symm
  have reads : ∀ {row addr}, Loading.Reads ctx
      ⟨(openSystem ctx store tick).graph, (openSystem ctx store tick).md⟩ topic row addr →
      found.Reads ctx topic row addr := by
    intro row addr read
    have same := unsaved addr (congrArg Node.topic read.node)
    exact ⟨saved.next ▸ read.used, same.1.trans read.node, same.2.trans read.md⟩
  have holds : ∀ {at_ row}, Loading.Holds ctx
      ⟨(openSystem ctx store tick).graph, (openSystem ctx store tick).md⟩ topic at_ row →
      found.Holds ctx topic at_ row := by
    intro at_ row held
    cases row with
    | none => exact held
    | some row =>
      have ⟨addr, isFound, read⟩ := held
      exact ⟨addr, isFound, reads read⟩
  apply Loading.HasTopic.opened _ (openDb_same ctx store tick) rfl
  constructor
  · intro key
    rw [others.1 key]
    have same : found.graph.getNode topic.name key =
        (openSystem ctx store tick).graph.getNode topic.name key := by
      unfold Graph.getNode
      rw [saved.primary]
    rw [same]
    exact (holds (has.node key)).grows grows
  · intro pkey2 listed key key2 real
    rw [others.2 pkey2 key key2]
    have same : found.graph.getInstance topic.name pkey2 key key2 =
        (openSystem ctx store tick).graph.getInstance topic.name pkey2 key key2 := by
      unfold Graph.getInstance Graph.slot?
      rw [saved.secondary]
    rw [same]
    exact (holds (has.version pkey2 listed key key2 real)).grows grows

theorem activatedSnap_one (one : (snapsWith state fun node => node.isTrue "active").length ≤ 1) :
    (activatedSnap ctx state).2 = state := by
  unfold activatedSnap
  dsimp only
  have none : (snapsWith state fun node => node.isTrue "active").dropLast = [] := by
    rw [← length_eq_zero_iff, length_dropLast]
    exact Nat.sub_eq_zero_of_le one
  rw [none]
  rfl

theorem openDb_hasGraphs (ctx : Context) (store : Store) (tick : Nat) :
    (openDb ctx store tick).HasTopic ctx store 0 graphsTopic := by
  have saved := activatedSnap_saved ctx (openSystem_inUse ctx store tick)
  apply openDb_hasSystem store tick (mem_cons_of_mem _ mem_cons_self)
  intro addr isTopic
  apply saved.others addr
  rw [isTopic]
  decide

theorem openDb_hasSnaps (ctx : Context) (store : Store) (tick : Nat)
    (one : (snapsWith (openSystem ctx store tick) fun node => node.isTrue "active").length ≤ 1) :
    (openDb ctx store tick).HasTopic ctx store 0 snapsTopic := by
  apply openDb_hasSystem store tick mem_cons_self
  intro addr _
  rw [activatedSnap_one one]
  exact ⟨rfl, rfl⟩

end Open

section Step

theorem saveNode_inUse (inUse : state.graph.InUse) (addr : Addr) :
    (saveNode ctx state addr).2.graph.InUse := by
  have keeps := saveNode_keeps ctx state addr
  exact inUse.of_primary keeps.2.1 (fun other => by rw [keeps.1]) keeps.2.2

theorem createNode_inUse (ctx : Context) (inUse : state.graph.InUse) (topicName : String) (kw : Json.Fields)
    (uuid : String) (now : Int) :
    (createNode ctx state topicName kw uuid now).2.graph.InUse := by
  rcases createNode_cases ctx state topicName kw uuid now with ⟨-, same⟩ | ⟨created, done⟩
  · rw [same.graph]
    exact inUse
  rw [done]
  have allocated := inUse.alloc created.node
  have linked := created.linked_same allocated.typed
  have inIndex := allocated.sameButLinks linked
  have named : (if created.previous.isNone then
      created.linked.addPrimary created.topic.name created.id state.graph.next
      else created.linked).InUse := by
    split
    · apply inIndex.addPrimary
      · rw [linked.next, next_alloc]
        exact Nat.lt_succ_self _
      · rw [linked.topic, heap_alloc, update_self, created.node_topic, created.topic_name]
    · exact inIndex
  unfold Created.after
  have keeps := indexNode_keeps created.linked created.topic created.id created.given
    created.previous.isNone created.pkey2s state.graph.next
  exact named.of_primary keeps.2.1 (fun addr => by rw [keeps.1]) keeps.2.2

theorem updateNode_inUse (ctx : Context) (inUse : state.graph.InUse) (addr : Addr) (kw : Json.Fields) (now : Int)
    (save : Bool) : (updateNode ctx state addr kw now save).2.graph.InUse := by
  unfold updateNode
  dsimp only
  split
  · exact inUse
  rename_i updates _
  split
  · exact inUse
  let updated := (state.node addr).update updates
  have stored : Graph.InUse { state.graph with
      heap := Function.update state.graph.heap addr updated } := by
    refine @Graph.InUse.of_primary _ _ inUse rfl ?_ rfl
    intro other
    dsimp only
    by_cases here : other = addr
    · rw [here, update_self, Node.update_topic]
      rfl
    · rw [update_of_ne here]
  split
  · exact saveNode_inUse stored addr
  · exact stored

section

variable (inUse : state.graph.InUse)
include inUse

theorem linkAndSave_inUse (hook : String) (parent child : Addr) :
    (linkAndSave ctx state hook parent child).2.graph.InUse := by
  unfold linkAndSave
  split
  · exact inUse
  · rename_i graph linked
    exact saveNode_inUse (inUse.sameButLinks (linkNodes_same linked)) child

theorem unlinkAndSave_inUse (hook : String) (parent child : Addr) :
    (unlinkAndSave ctx state hook parent child).2.graph.InUse := by
  unfold unlinkAndSave
  split
  · exact inUse
  · rename_i graph unlinked
    exact saveNode_inUse (inUse.sameButLinks (unlinkNodes_same unlinked)) child

theorem dropChildren_inUse (addr : Addr) :
    (dropChildren ctx state addr).graph.InUse := by
  apply foldlRecOn (motive := fun after : State => after.graph.InUse)
  · exact inUse
  · intro sofar kept col _
    unfold unlinkChildren
    split
    · exact kept
    · apply foldlRecOn (motive := fun after : State => after.graph.InUse)
      · exact kept
      · intro other still item _
        split
        · exact unlinkAndSave_inUse still col.id addr _
        · exact still

end

theorem deleteNode_inUse (ctx : Context) (inUse : state.graph.InUse) (addr : Addr) (force : Bool) :
    (deleteNode ctx state addr force).2.graph.InUse := by
  have childless : (releaseChildren ctx state addr force).2.graph.InUse := by
    unfold releaseChildren
    dsimp only
    split
    · exact inUse
    split
    · exact dropChildren_inUse inUse addr
    · exact inUse
  have released : (releaseParents ctx (releaseChildren ctx state addr force).2 addr
      force).2.graph.InUse := by
    unfold releaseParents
    split
    · exact childless
    split
    · exact childless.sameButLinks (cleanNode_same _ addr)
    · exact childless
  unfold deleteNode
  dsimp only
  split
  · exact inUse
  split
  · exact released
  split
  · rw [deleteKey_graph]
    generalize (releaseParents ctx (releaseChildren ctx state addr force).2 addr force).2.graph =
      graph at released
    have keeps := foldl_dropInstances_keeps
      (graph.deletePrimary (state.node addr).topic (state.node addr).id) (state.node addr).topic
      (state.node addr).id (ctx.schema.pkey2s (state.node addr).topic)
    refine @Graph.InUse.mono _ _ released (Nat.le_of_eq keeps.2.1.symm) ?_ ?_
    · intro other _
      exact congrArg Node.topic (congrFun keeps.1 other)
    · intro topic id other found
      rw [getNode_dropId] at found
      split at found
      · cases found
      · exact found
  · rw [deleteKey_graph]
    exact released

theorem deleteInstance_inUse (ctx : Context) (inUse : state.graph.InUse) (addr : Addr) (pkey2 : String)
    (force : Bool) : (deleteInstance ctx state addr pkey2 force).2.graph.InUse := by
  unfold deleteInstance
  dsimp only
  split
  · exact inUse
  · rw [foldl_rewriteMd_graph]
    unfold Graph.deleteSecondary
    dsimp only
    split
    · split
      · exact inUse
      · exact inUse.of_primary rfl (fun _ => rfl) rfl
    · exact inUse

theorem setNodeImmutable_graph (addr : Addr) (set : Bool) :
    (setNodeImmutable ctx state addr set).2.graph = state.graph := by
  unfold setNodeImmutable
  dsimp only
  split
  · rw [State.setMd_graph, rewriteMd_graph]
  · rw [rewriteMd_graph]

theorem shootTopics_graph (tag : Nat) (state : State) :
    (shootTopics ctx tag state).graph = state.graph := by
  apply foldlRecOn (motive := fun after : State => after.graph = state.graph)
  · rfl
  · intro sofar kept topic _
    apply foldlRecOn (motive := fun after : State => after.graph = state.graph)
    · exact kept
    · intro other still entry _
      unfold shootNode
      dsimp only
      split
      · split
        · exact still
        · rename_i record _
          rcases appendRecord_cases ctx other topic.name tag record
            with ⟨-, same⟩ | ⟨t, rowid, after, done, written⟩
          · rw [same.graph, still]
          · rw [done, written.graph, still]
      · split
        · rw [State.setMd_graph, rewriteMd_graph, still]
        · rw [rewriteMd_graph, still]

theorem shootSnap_inUse (inUse : state.graph.InUse) (name date description : String) (now : Int) :
    (shootSnap ctx state name date description now).2.graph.InUse := by
  have created := createNode_inUse ctx inUse snapsTopic.name
    (snapFields name date description) "" now
  unfold shootSnap
  split
  · exact inUse
  split
  · rename_i asked failed
    rw [failed] at created
    exact created
  · rename_i snap after done
    rw [done] at created
    dsimp only
    split
    · exact created
    · rw [shootTopics_graph]
      exact created

theorem activateSnap_inUse (inUse : state.graph.InUse) (name : String) :
    (activateSnap ctx state name).2.graph.InUse := by
  have saved := activatedSnap_saved ctx inUse
  have kept := saved.inUse inUse
  have topic : ∀ {old found}, activatedSnap ctx state = (some old, found) →
      (found.node old).topic = snapsTopic.name := by
    intro old found done
    rw [done] at saved
    exact (saved.topic old).trans (activatedSnap_topic inUse done)
  unfold activateSnap
  split
  · split
    · rename_i old found done
      rw [done] at kept
      exact (saveActive_saved ctx old (topic done) false).inUse kept
    · rename_i found done
      rw [done] at kept
      exact kept
  split
  · exact inUse
  rename_i snap first
  have isSnap := snapsWith_topic inUse (mem_of_head? first)
  split
  · rename_i old found done
    rw [done] at kept saved
    split
    · exact kept
    · have cleared := saveActive_saved ctx old (topic done) false
      apply (saveActive_saved ctx snap _ true).inUse (cleared.inUse kept)
      rw [cleared.topic, saved.topic]
      exact isSnap
  · rename_i found done
    rw [done] at kept saved
    exact (saveActive_saved ctx snap ((saved.topic snap).trans isSnap) true).inUse kept

theorem withNode_inUse {ref : Graph.Ref} {action : Addr → Bool × State}
    (inUse : state.graph.InUse) (keeps : ∀ addr, (action addr).2.graph.InUse) :
    (withNode state ref action).2.graph.InUse := by
  unfold withNode
  split
  · exact keeps _
  · exact inUse

theorem step_inUse (state : State) (op : Op) (inUse : state.graph.InUse) :
    (step ctx state op).graph.InUse := by
  cases op with
  | create topic kw uuid now => exact createNode_inUse ctx inUse topic kw uuid now
  | update node kw now save =>
    exact withNode_inUse inUse fun addr => updateNode_inUse ctx inUse addr kw now save
  | save node => exact withNode_inUse inUse fun addr => saveNode_inUse inUse addr
  | setImmutable node set =>
    apply withNode_inUse inUse
    intro addr
    rw [setNodeImmutable_graph]
    exact inUse
  | link hook parent child =>
    exact withNode_inUse inUse fun parent => withNode_inUse inUse fun child =>
      linkAndSave_inUse inUse hook parent child
  | unlink hook parent child =>
    exact withNode_inUse inUse fun parent => withNode_inUse inUse fun child =>
      unlinkAndSave_inUse inUse hook parent child
  | delete node force => exact withNode_inUse inUse fun addr => deleteNode_inUse ctx inUse addr force
  | deleteInstance node pkey2 force =>
    exact withNode_inUse inUse fun addr => deleteInstance_inUse ctx inUse addr pkey2 force
  | shoot name date description now => exact shootSnap_inUse inUse name date description now
  | activate name => exact activateSnap_inUse inUse name
  | reopen => exact openDb_inUse ctx state.store state.tick

end Step

end Yunetas.TrTreedb
