import Yunetas.TrTreedb.InUse

/-!
# Marks that stay

The mark of an immutable node is on the row it stands for and on its metadata. It outlives a restart
when the newest row of the key carries it, because that is the row the node is read from. Saving a
marked node marks its new row; what is written of another node of the key does not.
-/

namespace Yunetas.TrTreedb

open List Function Option

variable {ctx : Context}

/-- The id of every topic is no link column and is not inherited. -/
def Schema.OwnIds (schema : Schema) : Prop :=
  schema.PlainIds ∧ ∀ topic ∈ schema.topics, ∀ col ∈ topic.cols, col.id = "id" → col.inherit = false

instance (schema : Schema) : Decidable schema.OwnIds := inferInstanceAs (Decidable (_ ∧ _))

/-- Rows of which the newest is marked, and the one at a time and place is. -/
structure RowsMarked (t rowid : Nat) (rows : List Row) : Prop where
  newest : ∃ row, newest (Row.loads 0) rows = some row ∧ row.immutable = true
  record : ∃ row ∈ rows, row.isAt t rowid = true ∧ row.immutable = true ∧ row.deleted = false

namespace RowsMarked

variable {t rowid : Nat} {rows : List Row}

theorem mark (marked : RowsMarked t rowid rows) (t' rowid' : Nat) :
    RowsMarked t rowid (rewriteRow t' rowid' (Row.setImmutable true) rows) := by
  constructor
  · have ⟨row, found, isMarked⟩ := marked.newest
    rw [newest_rewriteRow_map t' rows (Row.loads 0) rowid' (Row.setImmutable true) fun _ => rfl,
      found]
    refine ⟨_, rfl, ?_⟩
    dsimp only
    split
    · rfl
    · exact isMarked
  · have ⟨row, among, place, isMarked, live⟩ := marked.record
    refine ⟨_, mem_rewriteRow t' rows among, ?_⟩
    split
    · exact ⟨place, rfl, live⟩
    · exact ⟨place, isMarked, live⟩

theorem append (marked : RowsMarked t rowid rows) (fileOf : Nat → Nat) (t' tag : Nat)
    (record : Json.Fields) :
    RowsMarked t rowid (rewriteRow t' (nextRowid fileOf t' rows) (Row.setImmutable true)
      (addRow fileOf t' tag record rows)) := by
  constructor
  · rw [newest_rewriteRow_map t' _ (Row.loads 0) (nextRowid fileOf t' rows) (Row.setImmutable true)
      fun _ => rfl]
    have ⟨row, found, isMarked⟩ := marked.newest
    rcases newest_addRow fileOf t' tag record rows (Row.loads 0) with old | new
    · rw [old, found]
      refine ⟨_, rfl, ?_⟩
      dsimp only
      split
      · rfl
      · exact isMarked
    · rw [new]
      refine ⟨_, rfl, ?_⟩
      have here : (newRow fileOf t' tag record rows).isAt t' (nextRowid fileOf t' rows) = true := by
        simp [newRow, Row.isAt]
      dsimp only
      rw [if_pos here]
      rfl
  · have ⟨row, among, place, isMarked, live⟩ := marked.record
    have still := (mem_addRow fileOf t' tag record rows).2 (Or.inr among)
    refine ⟨_, mem_rewriteRow t' _ still, ?_⟩
    split
    · exact ⟨place, rfl, live⟩
    · exact ⟨place, isMarked, live⟩

theorem bury (marked : RowsMarked t rowid rows) (t' rowid' : Nat) :
    RowsMarked t rowid (rewriteRow t' rowid' Row.bury rows) := by
  have spared : ∀ row : Row, row.immutable = true → row.bury = row := fun row isMarked => by
    unfold Row.bury
    rw [if_pos isMarked]
  constructor
  · have ⟨row, found, isMarked⟩ := marked.newest
    refine ⟨row, newest_rewriteRow t' rows found (spared row isMarked) ?_, isMarked⟩
    intro other fails
    unfold Row.bury
    split
    · exact fails
    · rfl
  · have ⟨row, among, place, isMarked, live⟩ := marked.record
    refine ⟨_, mem_rewriteRow t' rows among, ?_⟩
    rw [spared row isMarked, ite_self]
    exact ⟨place, isMarked, live⟩

end RowsMarked

section Rewrite

variable (ctx : Context) (state : State) (topic key : String) (t rowid : Nat)
  (change : Row → Row)

theorem rewriteMd_rows (other name : String) :
    (rewriteMd ctx state topic key t rowid change).2.store.rows other name =
        state.store.rows other name ∨
      (other = topic ∧ name = key) ∧
        (rewriteMd ctx state topic key t rowid change).2.store.rows other name =
          rewriteRow t rowid change (state.store.rows other name) := by
  unfold rewriteMd
  dsimp only
  split
  · rw [Store.rows_setRows]
    split
    · rename_i same
      rw [same.1, same.2]
      exact Or.inr ⟨⟨rfl, rfl⟩, rfl⟩
    · exact Or.inl rfl
  · exact Or.inl rfl

theorem rewriteMd_rows_self (works : (ctx.disk state.tick).rewriteFails = false) :
    (rewriteMd ctx state topic key t rowid change).2.store.rows topic key =
      rewriteRow t rowid change (state.store.rows topic key) := by
  unfold rewriteMd
  dsimp only
  rw [works]
  split
  · exact Store.rows_setRows_self ..
  · rename_i absent
    -- No row is there, so rewriting it changes nothing.
    have none : ∀ row ∈ state.store.rows topic key, row.isAt t rowid = false := by
      simpa using absent
    symm
    calc rewriteRow t rowid change (state.store.rows topic key)
        = (state.store.rows topic key).map id := by
          apply map_congr_left
          intro row among
          rw [none row among, if_neg Bool.false_ne_true]
          rfl
      _ = state.store.rows topic key := map_id _

end Rewrite

namespace Saved

variable {state : State} {addr : Addr} (saved : Saved ctx state addr)

theorem rows_of_ne (plainIds : ctx.schema.PlainIds) {topic name : String}
    (apart : ¬ (topic = (state.node addr).topic ∧ name = (state.node addr).id)) :
    saved.after.store.rows topic name = state.store.rows topic name := by
  have ⟨_, id, named, keyed⟩ := saved.named plainIds
  have ⟨key, isKey, _, rows, _⟩ := saved.written.key
  have same : key = (state.node addr).id := by
    rw [isKey] at keyed
    rw [some.inj keyed, Node.id_of_str? named]
  have appended : saved.placed.store.rows topic name = state.store.rows topic name := by
    unfold placed
    rw [State.setMd_store, rows, Store.rows_setRows, if_neg (same ▸ apart)]
  unfold after marked
  split
  · rcases rewriteMd_rows ctx saved.placed (state.node addr).topic (state.node addr).id
      saved.t saved.rowid (Row.setImmutable true) topic name with kept | ⟨here, -⟩
    · exact kept.trans appended
    · exact absurd here apart
  · exact appended

theorem placed_rows (plainIds : ctx.schema.PlainIds) :
    saved.placed.store.rows (state.node addr).topic (state.node addr).id =
        addRow ctx.fileOf saved.t (state.md addr).tag saved.record
          (state.store.rows (state.node addr).topic (state.node addr).id) ∧
      saved.rowid =
        nextRowid ctx.fileOf saved.t (state.store.rows (state.node addr).topic (state.node addr).id)
      := by
  have ⟨_, id, named, keyed⟩ := saved.named plainIds
  have ⟨key, isKey, _, rows, rowid⟩ := saved.written.key
  have same : key = (state.node addr).id := by
    rw [isKey] at keyed
    rw [some.inj keyed, Node.id_of_str? named]
  rw [same] at rows rowid
  refine ⟨?_, rowid⟩
  unfold placed
  rw [State.setMd_store, rows, Store.rows_setRows_self]

end Saved

/-- What is written of a node, or a deletion of it, spares the marked one: the node is marked too,
or it has another id. -/
def Spares (topic id : String) (state : State) (addr : Addr) : Prop :=
  (state.md addr).immutable = true ∨
    ¬ ((state.node addr).topic = topic ∧ (state.node addr).id = id)

instance (topic id : String) (state : State) (addr : Addr) : Decidable (Spares topic id state addr) :=
  inferInstanceAs (Decidable (_ ∨ _))

/-- The treedb is opened with the tag of a snapshot only when the newest row of the key with that
tag is marked; of a snapshot that is marked, no other active one is saved as not active. -/
def reopensMarked (ctx : Context) (topic id : String) (state : State) : Bool :=
  let system := openSystem ctx state.store state.tick
  if topic = snapsTopic.name then
    (snapsWith system fun node => node.isTrue "active").length ≤ 1
  else
    topic = graphsTopic.name ||
      (newest (Row.loads (openedTag (activatedSnap ctx system)))
        (state.store.rows topic id)).any Row.immutable

section

variable {state : State} {addr : Addr} (isMarked : (state.md addr).immutable = true)
include isMarked

theorem deleteNode_immutable (force : Bool) :
    deleteNode ctx state addr force = (false, state) := by
  unfold deleteNode
  dsimp only
  rw [isMarked, Bool.true_or, if_pos rfl]

theorem deleteInstance_immutable (pkey2 : String) (force : Bool) :
    deleteInstance ctx state addr pkey2 force = (false, state) := by
  unfold deleteInstance
  dsimp only
  rw [isMarked, Bool.true_or, if_pos rfl]

end

/-- A node that is marked, in memory and on its rows. -/
structure MarkKept (topic id : String) (t rowid : Nat) (state : State) : Prop where
  inUse : state.graph.InUse
  node : ∃ addr, state.graph.getNode topic id = some addr ∧ (state.md addr).immutable = true
  rows : RowsMarked t rowid (state.store.rows topic id)

namespace MarkKept

variable {topic id : String} {t rowid : Nat} {state : State}

theorem of_graph (kept : MarkKept topic id t rowid state) {graph : Graph} (inUse : graph.InUse)
    (primary : graph.primary = state.graph.primary) :
    MarkKept topic id t rowid { state with graph } where
  inUse := inUse
  node := by
    unfold Graph.getNode
    rw [primary]
    exact kept.node
  rows := kept.rows

theorem saveNode (plainIds : ctx.schema.PlainIds)
    (works : ∀ tick, (ctx.disk tick).rewriteFails = false)
    (kept : MarkKept topic id t rowid state) {addr : Addr} (spares : Spares topic id state addr) :
    MarkKept topic id t rowid (saveNode ctx state addr).2 where
  inUse := saveNode_inUse kept.inUse addr
  node := by
    have ⟨marked, found, isMarked⟩ := kept.node
    refine ⟨marked, ?_, ?_⟩
    · unfold Graph.getNode
      rw [(saveNode_keeps ctx state addr).2.2]
      exact found
    · rw [saveNode_immutable]
      exact isMarked
  rows := by
    rcases saveNode_cases ctx state addr with ⟨-, same⟩ | ⟨saved, done⟩
    · rw [same.store]
      exact kept.rows
    rw [done]
    by_cases here : topic = (state.node addr).topic ∧ id = (state.node addr).id
    · have isMarked : (state.md addr).immutable = true := by
        rcases spares with isMarked | apart
        · exact isMarked
        · exact absurd ⟨here.1.symm, here.2.symm⟩ apart
      obtain ⟨rfl, rfl⟩ := here
      have placed := saved.placed_rows plainIds
      unfold Saved.after Saved.marked
      rw [if_pos isMarked]
      rw [rewriteMd_rows_self _ _ _ _ _ _ _ (works _), placed.1, placed.2]
      exact kept.rows.append ctx.fileOf saved.t (state.md addr).tag saved.record
    · rw [saved.rows_of_ne plainIds here]
      exact kept.rows

theorem spares_of_links (plainIds : ctx.schema.PlainIds)
    (known : (ctx.schema.topic? topic).isSome) {after : State} {addr : Addr}
    (spares : Spares topic id state addr)
    (same : SameButLinks ctx.schema state.graph after.graph)
    (mark : (after.md addr).immutable = (state.md addr).immutable) :
    Spares topic id after addr := by
  unfold Spares at spares ⊢
  rw [mark]
  refine spares.imp_right fun apart both => apart ?_
  have sameTopic : (after.node addr).topic = (state.node addr).topic := same.topic addr
  have isTopic : (state.node addr).topic = topic := sameTopic.symm.trans both.1
  have plain : ctx.schema.isLinkField (state.graph.heap addr).topic "id" = false := by
    rw [show (state.graph.heap addr).topic = topic from isTopic]
    exact plainIds.plain known
  have sameId : (after.node addr).id = (state.node addr).id := by
    unfold Node.id Node.str
    rw [show (after.node addr).str? "id" = (state.node addr).str? "id" from same.str? addr plain]
  exact ⟨isTopic, sameId.symm.trans both.2⟩

section

variable (plainIds : ctx.schema.PlainIds) (known : (ctx.schema.topic? topic).isSome)
  (works : ∀ tick, (ctx.disk tick).rewriteFails = false)
include plainIds known works

theorem links (kept : MarkKept topic id t rowid state) {graph : Graph}
    (same : SameButLinks ctx.schema state.graph graph) {child : Addr}
    (spares : Spares topic id state child) :
    MarkKept topic id t rowid (TrTreedb.saveNode ctx { state with graph } child).2 := by
  apply saveNode plainIds works (kept.of_graph (kept.inUse.sameButLinks same) same.primary)
  exact spares_of_links plainIds known spares same rfl

section

variable (kept : MarkKept topic id t rowid state) (hook : String) (parent : Addr) {child : Addr}
  (spares : Spares topic id state child)
include kept hook parent spares

theorem linkAndSave :
    MarkKept topic id t rowid (linkAndSave ctx state hook parent child).2 := by
  unfold TrTreedb.linkAndSave
  split
  · exact kept
  · rename_i graph linked
    exact kept.links plainIds known works (linkNodes_same linked) spares

theorem unlinkAndSave :
    MarkKept topic id t rowid (unlinkAndSave ctx state hook parent child).2 := by
  unfold TrTreedb.unlinkAndSave
  split
  · exact kept
  · rename_i graph unlinked
    exact kept.links plainIds known works (unlinkNodes_same unlinked) spares

end

theorem keptByUnlinking (addr : Addr) :
    KeptByUnlinking ctx addr (MarkKept topic id t rowid) (Spares topic id) where
  whole _ hook _ kept spares := kept.unlinkAndSave plainIds known works hook addr spares
  others state hook child other _ _ spares := by
    unfold TrTreedb.unlinkAndSave
    split
    · exact spares
    · rename_i graph unlinked
      have linked : Spares topic id { state with graph } other :=
        spares_of_links plainIds known spares (unlinkNodes_same unlinked) rfl
      have keeps := saveNode_keeps ctx { state with graph } child
      unfold Spares State.node at linked ⊢
      rw [saveNode_immutable, keeps.1]
      exact linked

end

theorem createNode (ownIds : ctx.schema.OwnIds) (kept : MarkKept topic id t rowid state)
    {topicName : String} {kw : Json.Fields} {uuid : String} {now : Int}
    (apart : ∀ created : Created ctx state topicName kw uuid now,
      ¬ (topic = topicName ∧ id = created.id)) :
    MarkKept topic id t rowid (createNode ctx state topicName kw uuid now).2 := by
  refine ⟨createNode_inUse ctx kept.inUse topicName kw uuid now, ?_, ?_⟩
  · rcases createNode_cases ctx state topicName kw uuid now
      with ⟨-, same⟩ | ⟨created, done⟩
    · rw [same.graph, same.md]
      exact kept.node
    · rw [done]
      have ⟨marked, found, isMarked⟩ := kept.node
      have used := (kept.inUse topic id marked found).1
      refine ⟨marked, ?_, ?_⟩
      · rw [created.after_getNode (kept.inUse.alloc created.node).typed,
          if_neg fun all => apart created ⟨all.2.1, all.2.2⟩]
        exact found
      · unfold Created.after
        rw [State.setMd_md, update_of_ne (Nat.ne_of_lt used), created.written.md]
        exact isMarked
  · rcases createNode_cases ctx state topicName kw uuid now
      with ⟨-, same⟩ | ⟨created, done⟩
    · rw [same.store]
      exact kept.rows
    · rw [done]
      have ⟨key, keyed, _, rows, _⟩ := created.written.key
      have own := created.node_id ownIds.1 (by
        rintro ⟨col, among, inherits, isId⟩
        have among' := (Schema.topic?_mem created.isTopic).1
        rw [ownIds.2 created.topic among' col among isId] at inherits
        cases inherits)
      have same : key = created.id := by
        rw [own.2] at keyed
        exact (some.inj keyed).symm
      unfold Created.after
      rw [State.setMd_store, rows, Store.rows_setRows, if_neg (same ▸ apart created)]
      exact kept.rows

theorem updateNode (plainIds : ctx.schema.PlainIds)
    (works : ∀ tick, (ctx.disk tick).rewriteFails = false)
    (kept : MarkKept topic id t rowid state) {addr : Addr} {kw : Json.Fields} {now : Int}
    {save : Bool} (spares : (state.md addr).immutable = true ∨ save = false ∨
      ∀ updates, normalizeUpdates ctx.conv now kw (ctx.schema.cols (state.node addr).topic) =
        some updates → ¬ ((state.node addr).topic = topic ∧
          ((state.node addr).update updates).id = id)) :
    MarkKept topic id t rowid (updateNode ctx state addr kw now save).2 := by
  have inUse := updateNode_inUse ctx kept.inUse addr kw now false
  unfold TrTreedb.updateNode at inUse ⊢
  dsimp only at inUse ⊢
  split
  · exact kept
  rename_i updates normal
  rw [normal] at inUse
  dsimp only at inUse
  split
  · exact kept
  rename_i accepted
  rw [if_neg accepted, if_neg Bool.false_ne_true] at inUse
  have stored := kept.of_graph inUse rfl
  split
  · rename_i saves
    apply saveNode plainIds works stored
    show (state.md addr).immutable = true ∨
      ¬ ((Function.update state.graph.heap addr ((state.node addr).update updates) addr).topic =
        topic ∧
        (Function.update state.graph.heap addr ((state.node addr).update updates) addr).id = id)
    rw [update_self, Node.update_topic]
    rcases spares with isMarked | unsaved | apart
    · exact Or.inl isMarked
    · rw [unsaved] at saves
      cases saves
    · exact Or.inr (apart updates normal)
  · exact stored

theorem setImmutable (kept : MarkKept topic id t rowid state) (addr : Addr) :
    MarkKept topic id t rowid (setNodeImmutable ctx state addr true).2 := by
  have rows : ∀ {other name : String},
      RowsMarked t rowid ((rewriteMd ctx state other name (state.md addr).t (state.md addr).rowid
        (Row.setImmutable true)).2.store.rows topic id) := by
    intro other name
    rcases rewriteMd_rows ctx state other name (state.md addr).t (state.md addr).rowid
      (Row.setImmutable true) topic id with same | ⟨-, marked⟩
    · rw [same]
      exact kept.rows
    · rw [marked]
      exact kept.rows.mark _ _
  have ⟨marked, found, isMarked⟩ := kept.node
  unfold setNodeImmutable
  dsimp only
  split
  · refine ⟨?_, ⟨marked, ?_, ?_⟩, rows⟩
    · rw [State.setMd_graph, rewriteMd_graph]
      exact kept.inUse
    · rw [State.setMd_graph, rewriteMd_graph]
      exact found
    · rw [State.setMd_md, rewriteMd_md]
      by_cases here : marked = addr
      · rw [here, update_self]
      · rw [update_of_ne here]
        exact isMarked
  · refine ⟨?_, ⟨marked, ?_, ?_⟩, rows⟩
    · rw [rewriteMd_graph]
      exact kept.inUse
    · rw [rewriteMd_graph]
      exact found
    · rw [rewriteMd_md]
      exact isMarked

theorem deleteKey (ctx : Context) (kept : MarkKept topic id t rowid state) {other name : String}
    (apart : ¬ (topic = other ∧ id = name)) :
    MarkKept topic id t rowid (deleteKey ctx state other name).2 := by
  unfold TrTreedb.deleteKey
  dsimp only
  split
  · refine ⟨kept.inUse, kept.node, ?_⟩
    have same : Store.rows (Function.update state.store other ((state.store other).erase name))
        topic id = state.store.rows topic id := by
      unfold Store.rows
      by_cases here : topic = other
      · rw [here, update_self, Dict.get?_erase, if_neg fun isName => apart ⟨here, isName⟩]
      · rw [update_of_ne here]
    rw [same]
    exact kept.rows
  · exact ⟨kept.inUse, kept.node, kept.rows⟩

theorem deleteNode (plainIds : ctx.schema.PlainIds) (known : (ctx.schema.topic? topic).isSome)
    (works : ∀ tick, (ctx.disk tick).rewriteFails = false)
    (kept : MarkKept topic id t rowid state) {addr : Addr} {force : Bool}
    (spares : Spares topic id state addr)
    (children : force = true → KeptByUnlinking.Children addr (Spares topic id) state) :
    MarkKept topic id t rowid (deleteNode ctx state addr force).2 := by
  have childless := (keptByUnlinking plainIds known works addr).releaseChildren kept force children
  have released : MarkKept topic id t rowid
      (releaseParents ctx (releaseChildren ctx state addr force).2 addr force).2 := by
    unfold releaseParents
    split
    · exact childless
    split
    · have same := @cleanNode_same ctx.schema (releaseChildren ctx state addr force).2.graph addr
      exact childless.of_graph (childless.inUse.sameButLinks same) same.primary
    · exact childless
  have inUse := deleteNode_inUse ctx kept.inUse addr force
  unfold TrTreedb.deleteNode at inUse ⊢
  dsimp only at inUse ⊢
  split
  · exact kept
  rename_i allowed
  rw [if_neg allowed] at inUse
  have apart : ¬ (topic = (state.node addr).topic ∧ id = (state.node addr).id) := by
    rintro ⟨isTopic, isId⟩
    rcases spares with isMarked | other
    · simp [isMarked] at allowed
    · exact other ⟨isTopic.symm, isId.symm⟩
  split
  · exact released
  rename_i free
  rw [if_neg free] at inUse
  have deleted := released.deleteKey ctx apart
  split
  · rename_i done
    rw [if_pos done] at inUse
    refine ⟨inUse, ?_, deleted.rows⟩
    rw [getNode_dropId, if_neg apart]
    exact deleted.node
  · exact deleted

theorem deleteInstance (kept : MarkKept topic id t rowid state) (addr : Addr) (pkey2 : String)
    (force : Bool) :
    MarkKept topic id t rowid (deleteInstance ctx state addr pkey2 force).2 := by
  have inUse := deleteInstance_inUse ctx kept.inUse addr pkey2 force
  unfold TrTreedb.deleteInstance at inUse ⊢
  dsimp only at inUse ⊢
  split
  · exact kept
  rename_i allowed
  rw [if_neg allowed] at inUse
  have buried : ∀ (hits : List Row) (name other : String),
      let after := hits.foldl (fun state row =>
        (rewriteMd ctx state other name row.t row.rowid Row.bury).2) state
      after.graph = state.graph ∧ after.md = state.md ∧
        RowsMarked t rowid (after.store.rows topic id) := by
    intro hits name other
    apply foldlRecOn (motive := fun after : State => after.graph = state.graph ∧
      after.md = state.md ∧ RowsMarked t rowid (after.store.rows topic id))
    · exact ⟨rfl, rfl, kept.rows⟩
    · intro sofar still row _
      refine ⟨?_, ?_, ?_⟩
      · rw [rewriteMd_graph, still.1]
      · rw [rewriteMd_md, still.2.1]
      · rcases rewriteMd_rows ctx sofar other name row.t row.rowid Row.bury topic id
          with same | ⟨-, rewritten⟩
        · rw [same]
          exact still.2.2
        · rw [rewritten]
          exact still.2.2.bury row.t row.rowid
  have after := buried ((state.store.rows (state.node addr).topic (state.node addr).id).reverse.filter
    fun row => row.loads 0 && row.isInstance pkey2 ((state.node addr).str pkey2))
    (state.node addr).id (state.node addr).topic
  refine ⟨inUse, ?_, after.2.2⟩
  rw [after.1, after.2.1]
  have ⟨marked, found, isMarked⟩ := kept.node
  refine ⟨marked, ?_, isMarked⟩
  unfold Graph.deleteSecondary
  dsimp only
  split
  · split
    · exact found
    · exact found
  · exact found

theorem reopen (known : (ctx.schema.topic? topic).isSome) (kept : MarkKept topic id t rowid state)
    (reopens : reopensMarked ctx topic id state = true) :
    MarkKept topic id t rowid (reopen ctx state) := by
  have ⟨topicOf, isTopic⟩ := isSome_iff_exists.1 known
  have ⟨among, isName⟩ := Schema.topic?_mem isTopic
  have ⟨row, newest, isMarked⟩ := kept.rows.newest
  have saved := activatedSnap_saved ctx (openSystem_inUse ctx state.store state.tick)
  unfold reopensMarked at reopens
  refine ⟨openDb_inUse ctx state.store state.tick, ?_, ?_⟩
  · have marked : ∀ {row : Row} {snapTag : Nat},
        (openDb ctx state.store state.tick).HasTopic ctx state.store snapTag topicOf →
        TrTreedb.newest (Row.loads snapTag) (state.store.rows topicOf.name id) = some row →
        row.immutable = true →
        ∃ addr, (openDb ctx state.store state.tick).graph.getNode topicOf.name id = some addr ∧
          ((openDb ctx state.store state.tick).md addr).immutable = true := by
      intro row snapTag has isNewest mark
      have held := has.node id
      rw [isNewest] at held
      have ⟨addr, found, reads⟩ := held
      exact ⟨addr, found, reads.immutable.trans mark⟩
    rw [← isName] at newest reopens ⊢
    rcases mem_cons.1 among with isSnaps | later
    · rw [isSnaps, if_pos rfl, decide_eq_true_eq] at reopens
      have has := openDb_hasSnaps ctx state.store state.tick reopens
      rw [← isSnaps] at has
      exact marked has newest isMarked
    rcases mem_cons.1 later with isGraphs | user
    · have has := openDb_hasGraphs ctx state.store state.tick
      rw [← isGraphs] at has
      exact marked has newest isMarked
    · have notSnaps := userTopic_apart user (mem_cons_self : snapsTopic ∈ _)
      have notGraphs := userTopic_apart user (mem_cons_of_mem _ mem_cons_self : graphsTopic ∈ _)
      rw [if_neg notSnaps, decide_eq_false notGraphs, Bool.false_or, Option.any_eq_true] at reopens
      have ⟨tagged, found, tagMarked⟩ := reopens
      exact marked (openDb_hasUser ctx state.store state.tick user) found tagMarked
  · show RowsMarked t rowid ((activatedSnap ctx (openSystem ctx state.store state.tick)).2.store.rows
      topic id)
    by_cases isSnaps : topic = snapsTopic.name
    · rw [if_pos isSnaps, decide_eq_true_eq] at reopens
      rw [activatedSnap_one reopens]
      exact kept.rows
    · unfold Store.rows
      rw [saved.store topic isSnaps]
      exact kept.rows

end MarkKept

end Yunetas.TrTreedb
