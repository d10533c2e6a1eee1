import Yunetas.TrTreedb.Changes
import Yunetas.TrTreedb.InUse
import Yunetas.TrTreedb.MarkKept

/-!
# Buried rows

`treedb_delete_instance` asks for a tombstone at the place of every live row of an instance, one
after another. A row gets it when the disk rewrites it and it is not immutable; the rows at other
places stay as they are.
-/

namespace Yunetas.TrTreedb

open List Function

/-! ## Nodes that are read alike -/

section

variable {ctx : Context}

/-- Two rows are read as nodes with the same fields, but for the hooks, and have the same mark. -/
structure SameRead (ctx : Context) (topic : Topic) (left right : Row) : Prop where
  immutable : left.immutable = right.immutable
  field : ∀ field, ctx.schema.isHook topic.name field = false →
    (readNode ctx topic left).get? field = (readNode ctx topic right).get? field

section Rel

variable {topic : Topic}

theorem SameRead.refl (row : Row) : SameRead ctx topic row row := ⟨rfl, fun _ _ => rfl⟩

theorem sameRead_refl (row : Option Row) : Option.Rel (SameRead ctx topic) row row := by
  cases row with
  | none => exact .none
  | some row => exact .some (SameRead.refl row)

end Rel

/-- Two nodes with the same fields, but for the hooks, and the same mark. -/
structure SameNode (ctx : Context) (left right : State) (first second : Addr) : Prop where
  topic : (left.node first).topic = (right.node second).topic
  field : ∀ field, ctx.schema.isHook (left.node first).topic field = false →
    (left.node first).get? field = (right.node second).get? field
  immutable : (left.md first).immutable = (right.md second).immutable

theorem sameNode_of_holds {topic : Topic} {left right : State} {first second : Option Addr}
    {row other : Option Row} (same : Option.Rel (SameRead ctx topic) row other)
    (holds : left.Holds ctx topic first row) (held : right.Holds ctx topic second other) :
    Option.Rel (SameNode ctx left right) first second := by
  cases same with
  | none =>
    rw [show first = none from holds, show second = none from held]
    exact .none
  | some same =>
    obtain ⟨addr, rfl, reads⟩ := holds
    obtain ⟨there, rfl, others⟩ := held
    refine .some ⟨reads.isTopic.trans others.isTopic.symm, ?_, ?_⟩
    · intro field plain
      rw [reads.isTopic] at plain
      rw [reads.field field plain, others.field field plain]
      exact same.field field plain
    · rw [reads.immutable, others.immutable]
      exact same.immutable

end

/-! ## Tombstones -/

variable (ctx : Context)

/-- A row after tombstones were asked for at the places of some rows, the disk answering in turn. -/
def buriedBy : Nat → List Row → Row → Row
  | _, [], row => row
  | tick, hit :: rest, row =>
    buriedBy (tick + 1) rest
      (if (ctx.disk tick).rewriteFails = false ∧ row.isAt hit.t hit.rowid = true then row.bury
        else row)

/-- The disk rewrites each of some rows in turn, and none is immutable. -/
def canBury : Nat → List Row → Bool
  | _, [] => true
  | tick, hit :: rest =>
    !(ctx.disk tick).rewriteFails && !hit.immutable && canBury (tick + 1) rest

variable {ctx}

theorem rewriteMd_rows_eq (ctx : Context) (state : State) (topic key : String) (t rowid : Nat)
    (change : Row → Row) (other name : String) :
    (rewriteMd ctx state topic key t rowid change).2.store.rows other name =
      if other = topic ∧ name = key then (state.store.rows topic key).map fun row =>
          if (ctx.disk state.tick).rewriteFails = false ∧ row.isAt t rowid = true then change row
          else row
      else state.store.rows other name := by
  by_cases works : (ctx.disk state.tick).rewriteFails = false
  · simp only [works, true_and]
    split
    · rename_i here
      rw [here.1, here.2]
      exact rewriteMd_rows_self ctx state topic key t rowid change works
    · rename_i apart
      rcases rewriteMd_rows ctx state topic key t rowid change other name with same | ⟨here, -⟩
      · exact same
      · exact absurd here apart
  · have unchanged : (rewriteMd ctx state topic key t rowid change).2.store = state.store := by
      unfold rewriteMd
      dsimp only
      rw [Bool.not_eq_false] at works
      rw [works]
      rfl
    rw [unchanged]
    split
    · rename_i here
      rw [here.1, here.2]
      simp [works]
    · rfl

theorem foldl_bury_rows (topic id : String) (hits : List Row) (state : State)
    (other name : String) :
    (hits.foldl (fun state row => (rewriteMd ctx state topic id row.t row.rowid Row.bury).2)
        state).store.rows other name =
      if other = topic ∧ name = id then
        (state.store.rows topic id).map (buriedBy ctx state.tick hits)
      else state.store.rows other name := by
  induction hits generalizing state with
  | nil =>
    rw [foldl_nil]
    split
    · rename_i here
      rw [here.1, here.2, show buriedBy ctx state.tick [] = fun row => row from rfl, map_id']
    · rfl
  | cons hit rest ih =>
    rw [foldl_cons, ih, rewriteMd_tick]
    split
    · rw [rewriteMd_rows_eq, if_pos ⟨rfl, rfl⟩, map_map]
      rfl
    · rename_i apart
      rw [rewriteMd_rows_eq, if_neg apart]

theorem bury_keeps (row : Row) : row.bury.t = row.t ∧ row.bury.rowid = row.rowid ∧
    row.bury.record = row.record ∧ row.bury.tag = row.tag ∧ row.bury.immutable = row.immutable := by
  unfold Row.bury
  split <;> exact ⟨rfl, rfl, rfl, rfl, rfl⟩

/-- Only the tombstone of a row changes. -/
structure SameButDeleted (row after : Row) : Prop where
  t : after.t = row.t
  rowid : after.rowid = row.rowid
  record : after.record = row.record
  tag : after.tag = row.tag

theorem buriedBy_same (tick : Nat) (hits : List Row) (row : Row) :
    SameButDeleted row (buriedBy ctx tick hits row) := by
  induction hits generalizing tick row with
  | nil => exact ⟨rfl, rfl, rfl, rfl⟩
  | cons hit rest ih =>
    unfold buriedBy
    split
    · have later := ih (tick + 1) row.bury
      have keeps := bury_keeps row
      exact ⟨later.t.trans keeps.1, later.rowid.trans keeps.2.1, later.record.trans keeps.2.2.1,
        later.tag.trans keeps.2.2.2.1⟩
    · exact ih (tick + 1) row

theorem buriedBy_apart (tick : Nat) {hits : List Row} {row : Row}
    (apart : ∀ hit ∈ hits, row.isAt hit.t hit.rowid = false) : buriedBy ctx tick hits row = row := by
  induction hits generalizing tick with
  | nil => rfl
  | cons hit rest ih =>
    unfold buriedBy
    rw [if_neg fun both => Bool.false_ne_true ((apart hit mem_cons_self).symm.trans both.2)]
    exact ih (tick + 1) fun other among => apart other (mem_cons_of_mem _ among)

/-- All the rows that are asked for get a tombstone exactly when the disk rewrites each and none is
immutable. -/
theorem canBury_iff (tick : Nat) {hits : List Row}
    (distinct : (hits.map fun row => (row.t, row.rowid)).Nodup)
    (live : ∀ hit ∈ hits, hit.deleted = false) :
    canBury ctx tick hits = true ↔ ∀ hit ∈ hits, (buriedBy ctx tick hits hit).deleted = true := by
  induction hits generalizing tick with
  | nil => simp [canBury]
  | cons hit rest ih =>
    rw [map_cons, nodup_cons] at distinct
    have apart : ∀ other ∈ rest, hit.isAt other.t other.rowid = false ∧
        other.isAt hit.t hit.rowid = false := by
      intro other among
      unfold Row.isAt
      constructor
      all_goals
        rw [← Bool.not_eq_true, Bool.and_eq_true, decide_eq_true_eq, decide_eq_true_eq]
        intro same
        apply distinct.1
        rw [mem_map]
        exact ⟨other, among, by rw [same.1, same.2]⟩
    have first : (buriedBy ctx tick (hit :: rest) hit).deleted =
        (!(ctx.disk tick).rewriteFails && !hit.immutable) := by
      have here : hit.isAt hit.t hit.rowid = true := by simp [Row.isAt]
      have alive := live hit mem_cons_self
      unfold buriedBy
      rw [buriedBy_apart]
      · by_cases works : (ctx.disk tick).rewriteFails = false
        · rw [if_pos ⟨works, here⟩, works]
          unfold Row.bury
          cases immutable : hit.immutable with
          | true => rw [if_pos rfl, alive]; rfl
          | false => rw [if_neg Bool.false_ne_true]; rfl
        · rw [if_neg fun both => works both.1, alive]
          rw [Bool.not_eq_false] at works
          rw [works]
          rfl
      · intro other among
        have keeps := bury_keeps hit
        have place := (apart other among).1
        split
        · unfold Row.isAt at place ⊢
          rw [keeps.1, keeps.2.1]
          exact place
        · exact place
    have later : ∀ other ∈ rest, buriedBy ctx tick (hit :: rest) other =
        buriedBy ctx (tick + 1) rest other := by
      intro other among
      conv_lhs => unfold buriedBy
      rw [if_neg fun both => Bool.false_ne_true ((apart other among).2.symm.trans both.2)]
    have others := ih (tick + 1) distinct.2 fun other among =>
      live other (mem_cons_of_mem _ among)
    unfold canBury
    rw [Bool.and_eq_true, others, forall_mem_cons, first]
    constructor
    · intro both
      exact ⟨both.1, fun other among => by rw [later other among]; exact both.2 other among⟩
    · intro both
      exact ⟨both.1, fun other among => by rw [← later other among]; exact both.2 other among⟩

theorem newest_map {test : Row → Bool} {change : Row → Row} {rows : List Row}
    (same : ∀ row ∈ rows, change row = row ∨ test row = false ∧ test (change row) = false) :
    newest test (rows.map change) = newest test rows := by
  unfold newest
  rw [← map_reverse]
  have listed : ∀ row ∈ rows.reverse,
      change row = row ∨ test row = false ∧ test (change row) = false :=
    fun row among => same row (mem_reverse.1 among)
  revert listed
  generalize rows.reverse = reversed
  intro listed
  induction reversed with
  | nil => rfl
  | cons first rest ih =>
    have later := ih fun row among => listed row (mem_cons_of_mem _ among)
    rw [map_cons, find?_cons, find?_cons, later]
    rcases listed first mem_cons_self with kept | fails
    · rw [kept]
    · rw [fails.1, fails.2]

section Tag

variable {state : State}

theorem activatedSnap_id (ctx : Context) (inUse : state.graph.InUse) (addr : Addr) :
    ((activatedSnap ctx state).2.node addr).id = (state.node addr).id := by
  have kept : SnapsSaved state (activatedSnap ctx state).2 ∧
      ∀ addr, ((activatedSnap ctx state).2.node addr).id = (state.node addr).id := by
    apply foldlRecOn (motive := fun after : State =>
      SnapsSaved state after ∧ ∀ addr, (after.node addr).id = (state.node addr).id)
    · exact ⟨SnapsSaved.refl state, fun _ => rfl⟩
    · intro sofar kept snap among
      have isSnap : (sofar.node snap).topic = snapsTopic.name := by
        rw [kept.1.topic]
        exact snapsWith_topic inUse (dropLast_subset _ among)
      refine ⟨kept.1.trans (saveActive_saved ctx snap isSnap false), fun addr => ?_⟩
      rw [← kept.2 addr]
      unfold State.node
      rw [saveActive_graph ctx isSnap, Graph.heap_setField]
      by_cases here : addr = snap
      · subst here
        rw [update_self]
        unfold Node.id Node.str
        rw [Node.str?_set_ne _ _ (by decide)]
      · rw [update_of_ne here]
  exact kept.2 addr

theorem openTopics_congr (ctx : Context) {store other : Store} (snapTag : Nat)
    {topics : List Topic} (same : ∀ topic ∈ topics, store topic.name = other topic.name)
    (loading : Loading) :
    openTopics ctx store snapTag topics loading = openTopics ctx other snapTag topics loading := by
  unfold openTopics
  induction topics generalizing loading with
  | nil => rfl
  | cons topic rest ih =>
    have here : openTopic ctx store snapTag loading topic =
        openTopic ctx other snapTag loading topic := by
      unfold openTopic openList
      rw [same topic mem_cons_self]
    rw [foldl_cons, foldl_cons, here]
    exact ih (fun other among => same other (mem_cons_of_mem _ among)) _

theorem openedTag_congr (ctx : Context) {store other : Store}
    (same : ∀ topic ∈ [snapsTopic, graphsTopic], store topic.name = other topic.name)
    (tick later : Nat) :
    openedTag (activatedSnap ctx (openSystem ctx store tick)) =
      openedTag (activatedSnap ctx (openSystem ctx other later)) := by
  have system : openTopics ctx store 0 [snapsTopic, graphsTopic] Loading.empty =
      openTopics ctx other 0 [snapsTopic, graphsTopic] Loading.empty :=
    openTopics_congr ctx 0 same Loading.empty
  have graph : (openSystem ctx store tick).graph = (openSystem ctx other later).graph := by
    unfold openSystem
    rw [system]
  have snaps : (activatedSnap ctx (openSystem ctx store tick)).1 =
      (activatedSnap ctx (openSystem ctx other later)).1 := by
    unfold activatedSnap snapsWith State.node
    rw [graph]
  unfold openedTag
  rw [snaps]
  split
  · unfold snapTagOf
    rw [activatedSnap_id ctx (openSystem_inUse ctx store tick),
      activatedSnap_id ctx (openSystem_inUse ctx other later)]
    unfold State.node
    rw [graph]
  · rfl

theorem openDb_store (ctx : Context) (store : Store) (tick : Nat) {topic : Topic}
    (among : topic ∈ ctx.schema.userTopics) :
    (openDb ctx store tick).store topic.name = store topic.name := by
  have saved := activatedSnap_saved ctx (openSystem_inUse ctx store tick)
  exact saved.store topic.name (userTopic_apart among mem_cons_self)

end Tag

end Yunetas.TrTreedb
