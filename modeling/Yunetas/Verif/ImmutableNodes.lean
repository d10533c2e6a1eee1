import Yunetas.TrTreedb.MarkKept

/-!
# Immutable nodes

A node that is marked immutable stays, with its record and its mark, as long as nothing is written
or deleted of another node of its key that is not marked. Another instance of the key is such a
node: creating one appends a row without the mark, and deleting it deletes the whole key.
-/

namespace Yunetas.TrTreedb

open Option

variable {ctx : Context} {topic id : String} {t rowid : Nat} {state : State}

/-- A node is there, its deletions are refused and its marked record is in the store. -/
structure Permanent (ctx : Context) (topic id : String) (t rowid : Nat) (state : State) : Prop where
  node : (state.graph.getNode topic id).isSome
  deletion : ∀ force, exec ctx state (.delete (.node topic id) force) = (false, state)
  instanceDeletion : ∀ pkey2 force,
    exec ctx state (.deleteInstance (.node topic id) pkey2 force) = (false, state)
  record : ∃ row ∈ state.store.rows topic id, row.isAt t rowid = true ∧ row.immutable = true ∧
    row.deleted = false

theorem MarkKept.permanent (kept : MarkKept topic id t rowid state) :
    Permanent ctx topic id t rowid state := by
  have ⟨addr, found, isMarked⟩ := kept.node
  have resolved : state.graph.resolve (.node topic id) = some addr := found
  refine ⟨?_, ?_, ?_, kept.rows.record⟩
  · rw [found]
    rfl
  · intro force
    unfold exec withNode
    dsimp only
    rw [resolved]
    exact deleteNode_immutable isMarked force
  · intro pkey2 force
    unfold exec withNode
    dsimp only
    rw [resolved]
    exact deleteInstance_immutable isMarked pkey2 force

/-- An operation spares a marked node: it creates no other instance of its key, what it saves or
deletes is marked or has another id, and a reopening reads the node back with its mark. -/
def sparesMarked (ctx : Context) (topic id : String) (state : State) : Op → Bool
  | .create name kw uuid _ =>
    match ctx.schema.topic? name with
    | none => true
    | some topicOf => (newId state topicOf kw uuid).all fun new =>
      !(name = topic && new = id) ||
        (newPkey2s state.graph topicOf new (kw.set "id" (.string new))).isEmpty
  | .update node kw now save => (state.graph.resolve node).all fun addr =>
    (state.md addr).immutable || !save ||
      (normalizeUpdates ctx.conv now kw (ctx.schema.cols (state.node addr).topic)).all fun updates =>
        !((state.node addr).topic = topic && ((state.node addr).update updates).id = id)
  | .save node => (state.graph.resolve node).all fun addr => Spares topic id state addr
  | .setImmutable _ set => set
  | .link _ _ child => (state.graph.resolve child).all fun addr => Spares topic id state addr
  | .unlink _ _ child => (state.graph.resolve child).all fun addr => Spares topic id state addr
  | .delete node force => (state.graph.resolve node).all fun addr =>
    (state.md addr).immutable || (Spares topic id state addr && (!force ||
      (state.node addr).fields.all fun entry => (hookList entry.2).all fun item => match item with
        | .node child => Spares topic id state child
        | _ => true))
  | .deleteInstance .. => true
  | .shoot .. => false
  | .activate .. => false
  | .reopen => reopensMarked ctx topic id state

theorem withNode_kept {ref : Graph.Ref} {action : Addr → Bool × State}
    (kept : MarkKept topic id t rowid state)
    (keeps : ∀ addr, state.graph.resolve ref = some addr →
      MarkKept topic id t rowid (action addr).2) :
    MarkKept topic id t rowid (withNode state ref action).2 := by
  unfold withNode
  split
  · rename_i addr found
    exact keeps addr found
  · exact kept

theorem step_kept (ownIds : ctx.schema.OwnIds) (known : (ctx.schema.topic? topic).isSome)
    (works : ∀ tick, (ctx.disk tick).rewriteFails = false) (state : State) (op : Op)
    (kept : MarkKept topic id t rowid state) (spares : sparesMarked ctx topic id state op = true) :
    MarkKept topic id t rowid (step ctx state op) := by
  have spared : ∀ {ref addr}, state.graph.resolve ref = some addr →
      ((state.graph.resolve ref).all fun addr => Spares topic id state addr) = true →
      Spares topic id state addr := by
    intro ref addr found all
    rw [found, all_some] at all
    exact of_decide_eq_true all
  cases op with
  | create name kw uuid now =>
    apply kept.createNode ownIds
    rintro created ⟨isTopic, isId⟩
    unfold sparesMarked at spares
    dsimp only at spares
    rw [created.isTopic] at spares
    dsimp only at spares
    rw [created.isId, all_some, Bool.or_eq_true, List.isEmpty_iff] at spares
    rcases spares with other | refused
    · simp [isTopic, isId] at other
    · have ⟨addr, found, _⟩ := kept.node
      rw [isTopic, isId] at found
      exact created.fresh (isSome_of_eq_some found) refused
  | update node kw now save =>
    apply withNode_kept kept
    intro addr found
    apply kept.updateNode ownIds.1 works
    unfold sparesMarked at spares
    dsimp only at spares
    rw [found, all_some, Bool.or_eq_true, Bool.or_eq_true, Bool.not_eq_true'] at spares
    rcases spares with (isMarked | unsaved) | apart
    · exact Or.inl isMarked
    · exact Or.inr (Or.inl unsaved)
    · refine Or.inr (Or.inr fun updates normal => ?_)
      rw [normal, all_some] at apart
      rintro ⟨isTopic, isId⟩
      simp [isTopic, isId] at apart
  | save node =>
    exact withNode_kept kept fun addr found =>
      kept.saveNode ownIds.1 works (spared found spares)
  | setImmutable node set =>
    unfold sparesMarked at spares
    dsimp only at spares
    rw [spares]
    exact withNode_kept kept fun addr _ => kept.setImmutable addr
  | link hook parent child =>
    exact withNode_kept kept fun parent _ => withNode_kept kept fun child found =>
      kept.linkAndSave ownIds.1 known works hook parent (spared found spares)
  | unlink hook parent child =>
    exact withNode_kept kept fun parent _ => withNode_kept kept fun child found =>
      kept.unlinkAndSave ownIds.1 known works hook parent (spared found spares)
  | delete node force =>
    apply withNode_kept kept
    intro addr found
    unfold sparesMarked at spares
    dsimp only at spares
    rw [found, all_some, Bool.or_eq_true, Bool.and_eq_true, Bool.or_eq_true] at spares
    rcases spares with isMarked | ⟨own, children⟩
    · rw [deleteNode_immutable isMarked]
      exact kept
    · apply kept.deleteNode ownIds.1 known works (of_decide_eq_true own)
      intro forced field cell stored child among
      rw [forced, Bool.not_true, or_iff_right Bool.false_ne_true] at children
      simp only [List.all_eq_true] at children
      have entry : (field, cell) ∈ (state.node addr).fields := Dict.mem_of_lookupEntries stored
      exact of_decide_eq_true (children (field, cell) entry (.node child) among)
  | deleteInstance node pkey2 force =>
    exact withNode_kept kept fun addr _ => kept.deleteInstance addr pkey2 force
  | shoot name date description now => cases spares
  | activate name => cases spares
  | reopen => exact kept.reopen known spares

theorem setImmutable_kept (works : ∀ tick, (ctx.disk tick).rewriteFails = false)
    (inUse : state.graph.InUse) {addr : Addr} (found : state.graph.getNode topic id = some addr)
    (own : (state.node addr).id = id)
    (newest : (newest (Row.loads 0) (state.store.rows topic id)).any
      (Row.isAt (state.md addr).t (state.md addr).rowid) = true) :
    MarkKept topic id (state.md addr).t (state.md addr).rowid
      (step ctx state (.setImmutable (.node topic id) true)) := by
  have isTopic : (state.node addr).topic = topic := (inUse topic id addr found).2
  rw [any_eq_true] at newest
  have ⟨row, isNewest, place⟩ := newest
  have among : row ∈ state.store.rows topic id := by
    exact List.mem_reverse.1 (List.mem_of_find?_eq_some isNewest)
  have live : row.deleted = false := by
    have loads := List.find?_some isNewest
    simpa [Row.loads] using loads
  have resolved : state.graph.resolve (.node topic id) = some addr := found
  unfold step exec withNode
  dsimp only
  rw [resolved]
  unfold setNodeImmutable
  dsimp only
  rw [isTopic, own]
  have rows := rewriteMd_rows_self ctx state topic id (state.md addr).t
    (state.md addr).rowid (Row.setImmutable true) (works state.tick)
  have written : (rewriteMd ctx state topic id (state.md addr).t (state.md addr).rowid
      (Row.setImmutable true)).1 = true := by
    unfold rewriteMd
    dsimp only
    rw [works, Bool.not_false, Bool.true_and, List.any_eq_true.2 ⟨row, among, place⟩, if_pos rfl]
  rw [if_pos written]
  refine ⟨?_, ⟨addr, ?_, ?_⟩, ?_⟩
  · rw [State.setMd_graph, rewriteMd_graph]
    exact inUse
  · rw [State.setMd_graph, rewriteMd_graph]
    exact found
  · rw [State.setMd_md, Function.update_self]
  · rw [State.setMd_store, rows]
    constructor
    · rw [newest_rewriteRow_map _ _ (Row.loads 0) _ (Row.setImmutable true) fun _ => rfl, isNewest]
      refine ⟨_, rfl, ?_⟩
      dsimp only
      rw [if_pos place]
      rfl
    · refine ⟨_, mem_rewriteRow _ _ among, ?_⟩
      rw [if_pos place]
      exact ⟨place, rfl, live⟩

/-- A treedb with a yuno. -/
def oneYuno : State :=
  run (step yunosCtx) (openDb yunosCtx (fun _ => Dict.empty) 0)
    [.create "yunos" (yunoFields "a" "v1") "" 0]

end Yunetas.TrTreedb
