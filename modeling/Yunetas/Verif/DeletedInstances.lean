import Yunetas.TrTreedb.Buried
import Yunetas.TrTreedb.Loaded

/-!
# Deleted instances stay deleted

Deleting an instance makes tombstones of its rows and drops its slot, whatever the disk answers, and
leaves the primary index alone. An immutable row stays, and a row the disk does not rewrite; then
the instance is back when the treedb is opened again. The primary index still shows a deleted
instance that was the first of its id, and with a snapshot active it is loaded without the id when
the deleted rows were the only ones with the tag. In all other cases only the instance is gone.
-/

namespace Yunetas.TrTreedb

open List Option Bool

section Statement

variable (ctx : Context)

/-- The rows of an instance that get a tombstone: the live ones, the last one first. -/
def instanceRows (store : Store) (topic id pkey2 key2 : String) : List Row :=
  (store.rows topic id).reverse.filter fun row => row.loads 0 && row.isInstance pkey2 key2

/-- A row that is loaded with a tag and is not of an instance. -/
def Row.remains (snapTag : Nat) (pkey2 key2 : String) (row : Row) : Bool :=
  row.loads snapTag && !row.isInstance pkey2 key2

/-- The tag that the topics of the user are loaded with when the treedb is opened again. -/
def reopeningTag (state : State) : Nat :=
  openedTag (activatedSnap ctx (openSystem ctx state.store state.tick))

/-- An instance that can be deleted. -/
structure CanDelete (state : State) (topic id pkey2 key2 : String) : Prop where
  buried : canBury ctx state.tick (instanceRows state.store topic id pkey2 key2) = true
  tagged : (state.store.rows topic id).any (Row.remains 0 pkey2 key2) = true →
    (state.store.rows topic id).any (Row.remains (reopeningTag ctx state) pkey2 key2) = true
  other : (state.store.rows topic id).any (Row.remains 0 pkey2 key2) = true →
    ∀ addr, state.graph.getNode topic id = some addr → (state.node addr).str pkey2 ≠ key2

/-- Two treedbs with the same nodes but for those of an id, and with the same instances of the id
but one. -/
structure SameOthers (left right : State) (topic id pkey2 key2 : String) : Prop where
  node : ∀ other ∈ ctx.schema.userTopics, ∀ key, ¬(other.name = topic ∧ key = id) →
    Option.Rel (SameNode ctx left right) (left.graph.getNode other.name key)
      (right.graph.getNode other.name key)
  version : ∀ other ∈ ctx.schema.userTopics, ∀ otherKey ∈ other.pkey2s.filter (· ≠ ""),
    ∀ key value, ¬(other.name = topic ∧ key = id) ∨ otherKey = pkey2 ∧ value ≠ key2 →
      Option.Rel (SameNode ctx left right) (left.graph.getInstance other.name otherKey key value)
        (right.graph.getInstance other.name otherKey key value)

/-- An instance is deleted, for good, and nothing else. -/
structure DeletedExactly (before after : State) (topic id pkey2 key2 : String) : Prop where
  gone : after.graph.getInstance topic pkey2 id key2 = none
  nodes : after.graph.heap = before.graph.heap ∧
    ∀ name key, after.graph.getNode name key = before.graph.getNode name key
  versions : ∀ name otherKey key value,
    ¬(name = topic ∧ otherKey = pkey2 ∧ key = id ∧ value = key2) →
      after.graph.getInstance name otherKey key value =
        before.graph.getInstance name otherKey key value
  live : (after.store.rows topic id).any (Row.loads 0) = true →
    ∀ addr, after.graph.getNode topic id = some addr → (after.node addr).str pkey2 ≠ key2
  goneAgain : ∀ count, (run (step ctx) after
    (List.replicate (count + 1) .reopen)).graph.getInstance topic pkey2 id key2 = none
  others : SameOthers ctx (reopen ctx before) (reopen ctx after) topic id pkey2 key2
  elected : (after.store.rows topic id).any (Row.loads 0) = true →
    ((reopen ctx after).graph.getNode topic id).isSome = true

end Statement

section Rows

variable {ctx : Context} {state : State} {topic id pkey2 key2 : String}

theorem loads_zero (row : Row) : row.loads 0 = !row.deleted := by
  simp [Row.loads]

theorem loads_zero_of_loads {snapTag : Nat} {row : Row} (loads : row.loads snapTag = true) :
    row.loads 0 = true := by
  rw [loads_zero, Row.loads_live loads]
  rfl

theorem isInstance_iff (real : key2 ≠ "") (row : Row) :
    row.isInstance pkey2 key2 = true ↔ kwStr row.record pkey2 = key2 := by
  unfold Row.isInstance
  rw [and_eq_true, decide_eq_true_eq, decide_eq_true_eq]
  constructor
  · exact fun both => both.2
  · intro same
    exact ⟨same.symm ▸ real, same⟩

theorem mem_instanceRows {store : Store} {row : Row} :
    row ∈ instanceRows store topic id pkey2 key2 ↔
      row ∈ store.rows topic id ∧ row.loads 0 = true ∧ row.isInstance pkey2 key2 = true := by
  unfold instanceRows
  rw [mem_filter, mem_reverse, and_eq_true]

variable (placed : Placed ctx.fileOf (state.store.rows topic id))

include placed in
theorem instanceRows_distinct :
    ((instanceRows state.store topic id pkey2 key2).map fun row => (row.t, row.rowid)).Nodup := by
  have places : ((state.store.rows topic id).map fun row => (row.t, row.rowid)).Nodup := by
    have distinct := placed.distinct
    have mapped : (state.store.rows topic id).map (fun row => (ctx.fileOf row.t, row.rowid)) =
        ((state.store.rows topic id).map fun row => (row.t, row.rowid)).map
          fun place => (ctx.fileOf place.1, place.2) := by
      rw [List.map_map]
      rfl
    rw [mapped] at distinct
    exact List.Nodup.of_map _ distinct
  have turned : ((state.store.rows topic id).reverse.map fun row => (row.t, row.rowid)).Nodup := by
    rw [map_reverse, nodup_reverse]
    exact places
  exact turned.sublist (filter_sublist.map _)

include placed in
theorem buriedBy_other {row : Row} (among : row ∈ state.store.rows topic id)
    (other : row ∉ instanceRows state.store topic id pkey2 key2) :
    buriedBy ctx state.tick (instanceRows state.store topic id pkey2 key2) row = row := by
  apply buriedBy_apart
  intro hit isHit
  rw [← not_eq_true]
  intro here
  have same := placed.eq_of_isAt among (mem_instanceRows.1 isHit).1 here
  exact other (same ▸ isHit)

include placed in
theorem buried_iff :
    canBury ctx state.tick (instanceRows state.store topic id pkey2 key2) = true ↔
      ∀ row ∈ instanceRows state.store topic id pkey2 key2,
        (buriedBy ctx state.tick (instanceRows state.store topic id pkey2 key2) row).deleted =
          true := by
  apply canBury_iff state.tick (instanceRows_distinct placed)
  intro hit isHit
  have loads := (mem_instanceRows.1 isHit).2.1
  rw [loads_zero, not_eq_true'] at loads
  exact loads

include placed in
theorem newest_gone_iff (real : key2 ≠ "") :
    newest (fun row => row.loads 0 && kwStr row.record pkey2 = key2)
        ((state.store.rows topic id).map
          (buriedBy ctx state.tick (instanceRows state.store topic id pkey2 key2))) = none ↔
      canBury ctx state.tick (instanceRows state.store topic id pkey2 key2) = true := by
  rw [buried_iff placed]
  unfold newest
  rw [find?_eq_none]
  constructor
  · intro none row isHit
    have hit := mem_instanceRows.1 isHit
    have fails := none _ (mem_reverse.2 (mem_map_of_mem hit.1))
    have same := @buriedBy_same ctx state.tick (instanceRows state.store topic id pkey2 key2) row
    rw [same.record, (isInstance_iff real row).1 hit.2.2, loads_zero] at fails
    simpa using fails
  · intro buried row among
    rw [mem_reverse, List.mem_map] at among
    obtain ⟨old, isOld, rfl⟩ := among
    by_cases isHit : old ∈ instanceRows state.store topic id pkey2 key2
    · rw [loads_zero, buried old isHit]
      simp
    · rw [buriedBy_other placed isOld isHit]
      intro passes
      rw [and_eq_true, decide_eq_true_eq] at passes
      exact isHit (mem_instanceRows.2 ⟨isOld, passes.1, (isInstance_iff real old).2 passes.2⟩)

include placed in
theorem any_loads_iff
    (buried : canBury ctx state.tick (instanceRows state.store topic id pkey2 key2) = true)
    (snapTag : Nat) :
    ((state.store.rows topic id).map
        (buriedBy ctx state.tick (instanceRows state.store topic id pkey2 key2))).any
          (Row.loads snapTag) = true ↔
      (state.store.rows topic id).any (Row.remains snapTag pkey2 key2) = true := by
  rw [buried_iff placed] at buried
  rw [List.any_map, List.any_eq_true, List.any_eq_true]
  apply exists_congr
  intro row
  apply and_congr_right
  intro among
  rw [Function.comp_apply]
  unfold Row.remains
  rw [and_eq_true, not_eq_true']
  by_cases isHit : row ∈ instanceRows state.store topic id pkey2 key2
  · have hit := (mem_instanceRows.1 isHit).2.2
    constructor
    · intro loads
      have live := Row.loads_live loads
      rw [buried row isHit] at live
      cases live
    · intro both
      rw [hit] at both
      cases both.2
  · rw [buriedBy_other placed among isHit]
    constructor
    · intro loads
      refine ⟨loads, ?_⟩
      rw [← not_eq_true]
      exact fun isInstance =>
        isHit (mem_instanceRows.2 ⟨among, loads_zero_of_loads loads, isInstance⟩)
    · exact fun both => both.1

include placed in
theorem newest_other {value : String} (ne : value ≠ key2) (real : key2 ≠ "") :
    newest (fun row => row.loads 0 && kwStr row.record pkey2 = value)
        ((state.store.rows topic id).map
          (buriedBy ctx state.tick (instanceRows state.store topic id pkey2 key2))) =
      newest (fun row => row.loads 0 && kwStr row.record pkey2 = value)
        (state.store.rows topic id) := by
  apply newest_map
  intro row among
  by_cases isHit : row ∈ instanceRows state.store topic id pkey2 key2
  · right
    have isKey := (isInstance_iff real row).1 (mem_instanceRows.1 isHit).2.2
    have same := @buriedBy_same ctx state.tick (instanceRows state.store topic id pkey2 key2) row
    have apart : ¬ key2 = value := fun same => ne same.symm
    constructor
    · rw [isKey]
      simp [apart]
    · rw [same.record, isKey]
      simp [apart]
  · exact Or.inl (buriedBy_other placed among isHit)

end Rows

section Reopen

variable {ctx : Context} {state : State}

theorem State.Holds.isSome {topic : Topic} {found : Option Addr} {row : Option Row}
    (holds : state.Holds ctx topic found row) : found.isSome = row.isSome := by
  cases row with
  | none =>
    rw [show found = none from holds]
    rfl
  | some row =>
    obtain ⟨addr, rfl, -⟩ := holds
    rfl

theorem newest_isSome (test : Row → Bool) (rows : List Row) :
    (newest test rows).isSome = rows.any test := by
  unfold newest
  rw [Bool.eq_iff_iff, List.find?_isSome, List.any_eq_true]
  simp

theorem userTopic_of_pkey2 {name pkey2 : String} (among : pkey2 ∈ ctx.schema.pkey2s name) :
    ∃ topic ∈ ctx.schema.userTopics, topic.name = name ∧ pkey2 ∈ topic.pkey2s.filter (· ≠ "") := by
  have ⟨topic, isTopic⟩ := isSome_iff_exists.1 (Schema.known_of_pkey2 among)
  rw [Schema.pkey2s_of_topic? isTopic] at among
  have listed := Schema.topic?_mem isTopic
  refine ⟨topic, ?_, listed.2, among⟩
  have cases := listed.1
  unfold Schema.topics at cases
  rw [mem_cons, mem_cons] at cases
  rcases cases with rfl | rfl | user
  · exact absurd among not_mem_nil
  · exact absurd among not_mem_nil
  · exact user

theorem run_reopen_store {topic : Topic} (among : topic ∈ ctx.schema.userTopics) (count : Nat) :
    (run (step ctx) state (List.replicate count .reopen)).store topic.name =
      state.store topic.name := by
  induction count generalizing state with
  | zero => rfl
  | succ count ih =>
    rw [replicate_succ, run_cons, ih]
    exact openDb_store ctx state.store state.tick among

end Reopen

section Delete

variable {ctx : Context} {state : State} {addr : Addr} {pkey2 : String} {force : Bool}

theorem deleteInstance_done (done : (deleteInstance ctx state addr pkey2 force).1 = true) :
    (deleteInstance ctx state addr pkey2 force).2.graph =
        state.graph.deleteSecondary (state.node addr).topic pkey2 (state.node addr).id
          ((state.node addr).str pkey2) ∧
      (∀ other name, (deleteInstance ctx state addr pkey2 force).2.store.rows other name =
        if other = (state.node addr).topic ∧ name = (state.node addr).id then
          (state.store.rows (state.node addr).topic (state.node addr).id).map
            (buriedBy ctx state.tick (instanceRows state.store (state.node addr).topic
              (state.node addr).id pkey2 ((state.node addr).str pkey2)))
        else state.store.rows other name) ∧
      ∀ other, other ≠ (state.node addr).topic →
        (deleteInstance ctx state addr pkey2 force).2.store other = state.store other := by
  unfold deleteInstance at done ⊢
  dsimp only at done ⊢
  split at done
  · cases done
  · rename_i accepted
    rw [if_neg accepted]
    refine ⟨?_, foldl_bury_rows _ _ _ _, ?_⟩
    · rw [foldl_rewriteMd_graph]
    · intro other ne
      apply foldlRecOn (motive := fun after : State => after.store other = state.store other)
      · rfl
      · intro sofar same row _
        rw [rewriteMd_store_of_ne ctx _ _ _ _ _ ne, same]

theorem getInstance_deleteSecondary (graph : Graph) (topic pkey2 id : String) {key2 : String}
    (real : key2 ≠ "") (name otherKey key value : String) :
    (graph.deleteSecondary topic pkey2 id key2).getInstance name otherKey key value =
      if name = topic ∧ otherKey = pkey2 ∧ key = id ∧ value = key2 then none
      else graph.getInstance name otherKey key value := by
  unfold Graph.getInstance
  rw [Graph.slot?_deleteSecondary_eq graph topic pkey2 id real]
  split
  · split <;> rfl
  · rfl

theorem reopen_getInstance {topic : Topic} (user : topic ∈ ctx.schema.userTopics)
    (listed : pkey2 ∈ topic.pkey2s.filter (· ≠ "")) (state : State) (key : String)
    {value : String} (real : value ≠ "") :
    ((reopen ctx state).graph.getInstance topic.name pkey2 key value).isSome =
      (newest (fun row => row.loads 0 && kwStr row.record pkey2 = value)
        (state.store.rows topic.name key)).isSome :=
  ((openDb_hasUser ctx state.store state.tick user).version pkey2 listed key value real).isSome

theorem deletedExactly_iff (placed : state.store.Placed ctx.fileOf)
    (among : pkey2 ∈ ctx.schema.pkey2s (state.node addr).topic)
    (real : (state.node addr).str pkey2 ≠ "")
    (done : (deleteInstance ctx state addr pkey2 force).1 = true) :
    DeletedExactly ctx state (deleteInstance ctx state addr pkey2 force).2
        (state.node addr).topic (state.node addr).id pkey2 ((state.node addr).str pkey2) ↔
      CanDelete ctx state (state.node addr).topic (state.node addr).id pkey2
        ((state.node addr).str pkey2) := by
  have ⟨graph, rows, elsewhere⟩ := deleteInstance_done done
  have ⟨topic, user, named, listed⟩ := userTopic_of_pkey2 among
  have places := placed (state.node addr).topic (state.node addr).id
  revert graph rows elsewhere
  generalize (deleteInstance ctx state addr pkey2 force).2 = after
  generalize (state.node addr).str pkey2 = key2 at real
  generalize (state.node addr).id = id at places
  rw [← named] at places ⊢
  intro graph rows elsewhere
  have own := rows topic.name id
  rw [if_pos ⟨rfl, rfl⟩] at own
  have keeps := state.graph.deleteSecondary_keeps topic.name pkey2 id key2
  rw [← graph] at keeps
  -- The rows of the system topics stay, and with them the tag.
  have tag : openedTag (activatedSnap ctx (openSystem ctx after.store after.tick)) =
      reopeningTag ctx state := by
    apply openedTag_congr
    exact fun system isSystem => elsewhere system.name (userTopic_apart user isSystem).symm
  have again : ∀ count, ((run (step ctx) after
      (List.replicate (count + 1) .reopen)).graph.getInstance topic.name pkey2 id key2).isSome =
      (newest (fun row => row.loads 0 && kwStr row.record pkey2 = key2)
        (after.store.rows topic.name id)).isSome := by
    intro count
    have last : run (step ctx) after (List.replicate (count + 1) .reopen) =
        reopen ctx (run (step ctx) after (List.replicate count .reopen)) := by
      rw [replicate_succ', run_append]
      rfl
    rw [last, reopen_getInstance user listed _ id real]
    unfold Store.rows
    rw [run_reopen_store user count]
  have node : ((reopen ctx after).graph.getNode topic.name id).isSome =
      (after.store.rows topic.name id).any (Row.loads (reopeningTag ctx state)) := by
    rw [← newest_isSome, ← tag]
    exact ((openDb_hasUser ctx after.store after.tick user).node id).isSome
  constructor
  · intro exactly
    have buried : canBury ctx state.tick
        (instanceRows state.store topic.name id pkey2 key2) = true := by
      rw [← newest_gone_iff places real, ← own, ← not_isSome_iff_eq_none, ← again 0,
        exactly.goneAgain 0]
      exact false_ne_true
    have left := any_loads_iff places buried
    rw [← own] at left
    constructor
    · exact buried
    · intro remains
      rw [← left, ← node]
      exact exactly.elected ((left 0).2 remains)
    · intro remains other found
      rw [← keeps.2.2] at found
      have apart := exactly.live ((left 0).2 remains) other found
      unfold State.node at apart ⊢
      rw [← exactly.nodes.1]
      exact apart
  · intro can
    have left := any_loads_iff places can.buried
    rw [← own] at left
    constructor
    · rw [graph, getInstance_deleteSecondary _ _ _ _ real, if_pos ⟨rfl, rfl, rfl, rfl⟩]
    · exact ⟨keeps.1, keeps.2.2⟩
    · intro name otherKey key value apart
      rw [graph, getInstance_deleteSecondary _ _ _ _ real, if_neg apart]
    · intro remains other found
      rw [keeps.2.2] at found
      have apart := can.other ((left 0).1 remains) other found
      unfold State.node at apart ⊢
      rw [keeps.1]
      exact apart
    · intro count
      rw [← not_isSome_iff_eq_none, again count, own, (newest_gone_iff places real).2 can.buried]
      exact false_ne_true
    · have same : ∀ other key, ¬(other = topic.name ∧ key = id) →
          after.store.rows other key = state.store.rows other key :=
        fun other key apart => (rows other key).trans (if_neg apart)
      constructor
      · intro other isUser key apart
        have holds := (openDb_hasUser ctx state.store state.tick isUser).node key
        have held := (openDb_hasUser ctx after.store after.tick isUser).node key
        rw [tag, same _ _ apart] at held
        exact sameNode_of_holds (sameRead_refl _) holds held
      · intro other isUser otherKey isKey key value apart
        by_cases empty : value = ""
        · unfold Graph.getInstance
          rw [if_pos empty, if_pos empty]
          exact .none
        have holds := (openDb_hasUser ctx state.store state.tick isUser).version otherKey isKey key
          value empty
        have held := (openDb_hasUser ctx after.store after.tick isUser).version otherKey isKey key
          value empty
        have newestSame : newest (fun row => row.loads 0 && kwStr row.record otherKey = value)
            (after.store.rows other.name key) =
              newest (fun row => row.loads 0 && kwStr row.record otherKey = value)
                (state.store.rows other.name key) := by
          by_cases here : other.name = topic.name ∧ key = id
          · rcases apart with elsewhere | ⟨isPkey2, ne⟩
            · exact absurd here elsewhere
            · rw [here.1, here.2, own, isPkey2]
              exact newest_other places ne real
          · rw [same _ _ here]
        rw [newestSame] at held
        exact sameNode_of_holds (sameRead_refl _) holds held
    · intro remains
      rw [node, left]
      exact can.tagged ((left 0).1 remains)

end Delete

theorem run_placed (ctx : Context) (ops : List Op) :
    (run (step ctx) (start ctx) ops).store.Placed ctx.fileOf := by
  have nothing : Store.Placed ctx.fileOf (fun _ => Dict.empty) :=
    fun _ _ => Placed.nil ctx.fileOf
  have opened : (start ctx).store.Placed ctx.fileOf :=
    nothing.writes (activatedSnap_writes ctx (openSystem ctx (fun _ => Dict.empty) 0))
  exact run_invariant (step ctx) (fun state => state.store.Placed ctx.fileOf)
    (fun state op placed => placed.writes (step_writes ctx state op)) opened ops

/-- Two releases of a yuno. -/
def twoReleases : List Op :=
  [.create "yunos" (yunoFields "a" "1") "" 0, .create "yunos" (yunoFields "a" "2") "" 0]

end Yunetas.TrTreedb
