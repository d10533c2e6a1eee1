import Mathlib.Logic.Relation
import Yunetas.TrTreedb.InUse

/-!
# What operations write

Whatever an operation does to the rows of the store, it does by appending a row to a key, rewriting
rows in place or deleting a key. So what these three keep, every operation and every run keeps; the
places of the rows of a key stay distinct.
-/

namespace Yunetas.TrTreedb

open List Function

/-- A row is changed in place: its time and its place stay, and its record. -/
structure KeepsPlace (change : Row → Row) : Prop where
  t : ∀ row, (change row).t = row.t
  rowid : ∀ row, (change row).rowid = row.rowid
  record : ∀ row, (change row).record = row.record

/-- One write to the store. -/
inductive Write (fileOf : Nat → Nat) : Store → Store → Prop where
  | append (store : Store) (topic key : String) (t tag : Nat) (record : Json.Fields)
      (keyed : (record.get? "id").bind Json.stringValue = some key) :
      Write fileOf store (store.setRows topic key (addRow fileOf t tag record (store.rows topic key)))
  | rewrite (store : Store) (topic key : String) (t rowid : Nat) (change : Row → Row)
      (keeps : KeepsPlace change) :
      Write fileOf store (store.setRows topic key (rewriteRow t rowid change (store.rows topic key)))
  | erase (store : Store) (topic key : String) :
      Write fileOf store (Function.update store topic ((store topic).erase key))

/-- Any writes, one after another. -/
def Writes (fileOf : Nat → Nat) : Store → Store → Prop := Relation.ReflTransGen (Write fileOf)

namespace Writes

variable {fileOf : Nat → Nat}

theorem refl (fileOf : Nat → Nat) (store : Store) : Writes fileOf store store :=
  Relation.ReflTransGen.refl

theorem trans {first second third : Store} (left : Writes fileOf first second)
    (right : Writes fileOf second third) : Writes fileOf first third :=
  Relation.ReflTransGen.trans left right

theorem invariant {inv : Store → Prop}
    (keeps : ∀ {store after}, Write fileOf store after → inv store → inv after)
    {store after : Store} (writes : Writes fileOf store after) (start : inv store) : inv after := by
  induction writes with
  | refl => exact start
  | tail _ write ih => exact keeps write ih

theorem foldl {α : Type} {before : State} (items : List α) (step : State → α → State)
    (writes : ∀ state, ∀ item ∈ items, Writes fileOf before.store state.store →
      Writes fileOf state.store (step state item).store) :
    Writes fileOf before.store (items.foldl step before).store := by
  apply List.foldlRecOn (motive := fun after : State => Writes fileOf before.store after.store)
  · exact refl fileOf before.store
  · intro sofar kept item among
    exact kept.trans (writes sofar item among kept)

end Writes

section Operations

variable {ctx : Context} {state : State}

theorem appendRecord_writes (ctx : Context) (state : State) (topic : String) (tag : Nat)
    (record : Json.Fields) :
    Writes ctx.fileOf state.store (appendRecord ctx state topic tag record).2.store := by
  rcases appendRecord_cases ctx state topic tag record
    with ⟨-, same⟩ | ⟨t, rowid, after, done, written⟩
  · rw [same.store]
    exact Writes.refl _ _
  · have ⟨key, keyed, _, stored, _⟩ := written.key
    rw [done, stored]
    exact Relation.ReflTransGen.single (.append state.store topic key t tag record keyed)

theorem rewriteMd_writes (ctx : Context) (state : State) (topic key : String) (t rowid : Nat)
    {change : Row → Row} (keeps : KeepsPlace change) :
    Writes ctx.fileOf state.store (rewriteMd ctx state topic key t rowid change).2.store := by
  unfold rewriteMd
  dsimp only
  split
  · exact Relation.ReflTransGen.single (.rewrite state.store topic key t rowid change keeps)
  · exact Writes.refl _ _

theorem keepsPlace_setImmutable (set : Bool) : KeepsPlace (Row.setImmutable set) :=
  ⟨fun _ => rfl, fun _ => rfl, fun _ => rfl⟩

theorem keepsPlace_setTag (tag : Nat) : KeepsPlace (Row.setTag tag) :=
  ⟨fun _ => rfl, fun _ => rfl, fun _ => rfl⟩

theorem keepsPlace_bury : KeepsPlace Row.bury := by
  have same : ∀ row : Row, row.bury.t = row.t ∧ row.bury.rowid = row.rowid ∧
      row.bury.record = row.record := by
    intro row
    unfold Row.bury
    split <;> exact ⟨rfl, rfl, rfl⟩
  exact ⟨fun row => (same row).1, fun row => (same row).2.1, fun row => (same row).2.2⟩

theorem saveNode_writes (ctx : Context) (state : State) (addr : Addr) :
    Writes ctx.fileOf state.store (saveNode ctx state addr).2.store := by
  rcases saveNode_cases ctx state addr with ⟨-, same⟩ | ⟨saved, done⟩
  · rw [same.store]
    exact Writes.refl _ _
  · have ⟨key, keyed, _, stored, _⟩ := saved.written.key
    have placed : Writes ctx.fileOf state.store saved.placed.store := by
      unfold Saved.placed
      rw [State.setMd_store, stored]
      exact Relation.ReflTransGen.single (.append state.store _ key _ _ _ keyed)
    rw [done]
    unfold Saved.after Saved.marked
    split
    · exact placed.trans (rewriteMd_writes ctx _ _ _ _ _ (keepsPlace_setImmutable true))
    · exact placed

theorem createNode_writes (ctx : Context) (state : State) (topicName : String) (kw : Json.Fields)
    (uuid : String) (now : Int) :
    Writes ctx.fileOf state.store (createNode ctx state topicName kw uuid now).2.store := by
  rcases createNode_cases ctx state topicName kw uuid now with ⟨-, same⟩ | ⟨created, done⟩
  · rw [same.store]
    exact Writes.refl _ _
  · have ⟨key, keyed, _, stored, _⟩ := created.written.key
    rw [done]
    unfold Created.after
    rw [State.setMd_store, stored]
    exact Relation.ReflTransGen.single (.append state.store _ key _ _ _ keyed)

theorem updateNode_writes (ctx : Context) (state : State) (addr : Addr) (kw : Json.Fields)
    (now : Int) (save : Bool) :
    Writes ctx.fileOf state.store (updateNode ctx state addr kw now save).2.store := by
  unfold updateNode
  dsimp only
  split
  · exact Writes.refl _ _
  split
  · exact Writes.refl _ _
  rename_i updates _ _
  let stored : State := { state with
    graph := { state.graph with
      heap := Function.update state.graph.heap addr ((state.node addr).update updates) } }
  split
  · exact saveNode_writes ctx stored addr
  · exact Writes.refl _ _

theorem linkAndSave_writes (ctx : Context) (state : State) (hook : String) (parent child : Addr) :
    Writes ctx.fileOf state.store (linkAndSave ctx state hook parent child).2.store := by
  unfold linkAndSave
  split
  · exact Writes.refl _ _
  · rename_i graph _
    exact saveNode_writes ctx { state with graph } child

theorem unlinkAndSave_writes (ctx : Context) (state : State) (hook : String) (parent child : Addr) :
    Writes ctx.fileOf state.store (unlinkAndSave ctx state hook parent child).2.store := by
  unfold unlinkAndSave
  split
  · exact Writes.refl _ _
  · rename_i graph _
    exact saveNode_writes ctx { state with graph } child

theorem dropChildren_writes (ctx : Context) (state : State) (addr : Addr) :
    Writes ctx.fileOf state.store (dropChildren ctx state addr).store := by
  apply Writes.foldl
  intro sofar col _ _
  unfold unlinkChildren
  split
  · exact Writes.refl _ _
  · apply Writes.foldl
    intro other item _ _
    split
    · exact unlinkAndSave_writes ctx other col.id addr _
    · exact Writes.refl _ _

theorem deleteKey_writes (ctx : Context) (state : State) (topic key : String) :
    Writes ctx.fileOf state.store (deleteKey ctx state topic key).2.store := by
  unfold deleteKey
  dsimp only
  split
  · exact Relation.ReflTransGen.single (.erase state.store topic key)
  · exact Writes.refl _ _

theorem deleteNode_writes (ctx : Context) (state : State) (addr : Addr) (force : Bool) :
    Writes ctx.fileOf state.store (deleteNode ctx state addr force).2.store := by
  have childless : Writes ctx.fileOf state.store
      (releaseChildren ctx state addr force).2.store := by
    unfold releaseChildren
    dsimp only
    split
    · exact Writes.refl _ _
    split
    · exact dropChildren_writes ctx state addr
    · exact Writes.refl _ _
  have released : (releaseParents ctx (releaseChildren ctx state addr force).2 addr
      force).2.store = (releaseChildren ctx state addr force).2.store := by
    unfold releaseParents
    split
    · rfl
    · split <;> rfl
  unfold deleteNode
  dsimp only
  split
  · exact Writes.refl _ _
  split
  · rw [released]
    exact childless
  have deleted := deleteKey_writes ctx (releaseParents ctx
    (releaseChildren ctx state addr force).2 addr force).2 (state.node addr).topic
    (state.node addr).id
  rw [released] at deleted
  split <;> exact childless.trans deleted

theorem deleteInstance_writes (ctx : Context) (state : State) (addr : Addr) (pkey2 : String)
    (force : Bool) :
    Writes ctx.fileOf state.store (deleteInstance ctx state addr pkey2 force).2.store := by
  unfold deleteInstance
  dsimp only
  split
  · exact Writes.refl _ _
  · apply Writes.foldl
    exact fun other row _ _ => rewriteMd_writes ctx other _ _ _ _ keepsPlace_bury

theorem setNodeImmutable_writes (ctx : Context) (state : State) (addr : Addr) (set : Bool) :
    Writes ctx.fileOf state.store (setNodeImmutable ctx state addr set).2.store := by
  have written := rewriteMd_writes ctx state (state.node addr).topic (state.node addr).id
    (state.md addr).t (state.md addr).rowid (keepsPlace_setImmutable set)
  unfold setNodeImmutable
  dsimp only
  split <;> exact written

theorem saveActive_writes (ctx : Context) (state : State) (snap : Addr) (active : Bool) :
    Writes ctx.fileOf state.store (saveActive ctx state snap active).2.store :=
  saveNode_writes ctx { state with
    graph := state.graph.setField snap "active" (.json (.boolean active)) } snap

theorem activatedSnap_writes (ctx : Context) (state : State) :
    Writes ctx.fileOf state.store (activatedSnap ctx state).2.store := by
  apply Writes.foldl
  exact fun other snap _ _ => saveActive_writes ctx other snap false

theorem shootTopics_writes (ctx : Context) (tag : Nat) (state : State) :
    Writes ctx.fileOf state.store (shootTopics ctx tag state).store := by
  apply Writes.foldl
  intro sofar topic _ _
  apply Writes.foldl
  intro other entry _ _
  unfold shootNode
  dsimp only
  split
  · split
    · exact Writes.refl _ _
    · exact appendRecord_writes ctx other topic.name tag _
  · have written := rewriteMd_writes ctx other topic.name entry.1 (other.md entry.2).t
      (other.md entry.2).rowid (keepsPlace_setTag tag)
    split <;> exact written

theorem shootSnap_writes (ctx : Context) (state : State) (name date description : String)
    (now : Int) : Writes ctx.fileOf state.store
      (shootSnap ctx state name date description now).2.store := by
  have created := createNode_writes ctx state snapsTopic.name (snapFields name date description)
    "" now
  unfold shootSnap
  split
  · exact Writes.refl _ _
  split
  · rename_i asked failed
    rw [failed] at created
    exact created
  · rename_i snap after done
    rw [done] at created
    dsimp only
    split
    · exact created
    · exact created.trans (shootTopics_writes ctx _ after)

theorem activateSnap_writes (ctx : Context) (state : State) (name : String) :
    Writes ctx.fileOf state.store (activateSnap ctx state name).2.store := by
  have found := activatedSnap_writes ctx state
  unfold activateSnap
  split
  · split
    · rename_i old after done
      rw [done] at found
      exact found.trans (saveActive_writes ctx after old false)
    · rename_i after done
      rw [done] at found
      exact found
  split
  · exact Writes.refl _ _
  rename_i snap _
  split
  · rename_i old after done
    rw [done] at found
    split
    · exact found
    · exact (found.trans (saveActive_writes ctx after old false)).trans
        (saveActive_writes ctx _ snap true)
  · rename_i after done
    rw [done] at found
    exact found.trans (saveActive_writes ctx after snap true)

theorem withNode_writes {ref : Graph.Ref} {action : Addr → Bool × State}
    (writes : ∀ addr, Writes ctx.fileOf state.store (action addr).2.store) :
    Writes ctx.fileOf state.store (withNode state ref action).2.store := by
  unfold withNode
  split
  · exact writes _
  · exact Writes.refl _ _

theorem step_writes (ctx : Context) (state : State) (op : Op) :
    Writes ctx.fileOf state.store (step ctx state op).store := by
  cases op with
  | create topic kw uuid now => exact createNode_writes ctx state topic kw uuid now
  | update node kw now save =>
    exact withNode_writes fun addr => updateNode_writes ctx state addr kw now save
  | save node => exact withNode_writes fun addr => saveNode_writes ctx state addr
  | setImmutable node set =>
    exact withNode_writes fun addr => setNodeImmutable_writes ctx state addr set
  | link hook parent child =>
    exact withNode_writes fun parent => withNode_writes fun child =>
      linkAndSave_writes ctx state hook parent child
  | unlink hook parent child =>
    exact withNode_writes fun parent => withNode_writes fun child =>
      unlinkAndSave_writes ctx state hook parent child
  | delete node force => exact withNode_writes fun addr => deleteNode_writes ctx state addr force
  | deleteInstance node pkey2 force =>
    exact withNode_writes fun addr => deleteInstance_writes ctx state addr pkey2 force
  | shoot name date description now => exact shootSnap_writes ctx state name date description now
  | activate name => exact activateSnap_writes ctx state name
  | reopen => exact activatedSnap_writes ctx (openSystem ctx state.store state.tick)

end Operations

section Places

variable {fileOf : Nat → Nat} {rows : List Row}

/-- The rows of a key have distinct places, and in each file they are numbered up to their
number. -/
structure Placed (fileOf : Nat → Nat) (rows : List Row) : Prop where
  distinct : (rows.map fun row => (fileOf row.t, row.rowid)).Nodup
  counted : ∀ row ∈ rows, row.rowid ≤ rows.countP fun other => fileOf other.t = fileOf row.t

namespace Placed

theorem nil (fileOf : Nat → Nat) : Placed fileOf [] :=
  ⟨nodup_nil, fun _ among => absurd among not_mem_nil⟩

section

variable (placed : Placed fileOf rows)
include placed

theorem eq_of_isAt {row other : Row} (among : row ∈ rows)
    (also : other ∈ rows) (here : row.isAt other.t other.rowid = true) : row = other := by
  unfold Row.isAt at here
  rw [Bool.and_eq_true, decide_eq_true_eq, decide_eq_true_eq] at here
  apply inj_on_of_nodup_map placed.distinct among also
  rw [here.1, here.2]

theorem addRow (t tag : Nat) (record : Json.Fields) :
    Placed fileOf (addRow fileOf t tag record rows) := by
  have ⟨before, after, split, added, _⟩ := addRow_split fileOf t tag record rows
  let new := newRow fileOf t tag record rows
  have moved : (TrTreedb.addRow fileOf t tag record rows).Perm (new :: rows) := by
    rw [added]
    conv_rhs => rw [split]
    exact perm_middle
  have place : new.t = t ∧ new.rowid = rows.countP (fun row => fileOf row.t = fileOf t) + 1 :=
    ⟨rfl, rfl⟩
  constructor
  · rw [(moved.map _).nodup_iff, map_cons, nodup_cons]
    refine ⟨?_, placed.distinct⟩
    rw [mem_map]
    rintro ⟨row, among, same⟩
    rw [Prod.mk.injEq, place.1, place.2] at same
    have bound := placed.counted row among
    rw [same.1] at bound
    omega
  · intro row among
    rw [moved.countP_eq, countP_cons]
    rcases mem_cons.1 (moved.mem_iff.1 among) with rfl | old
    · rw [place.2, place.1]
      simp
    · have bound := placed.counted row old
      omega

theorem rewriteRow (t rowid : Nat) {change : Row → Row}
    (keeps : KeepsPlace change) : Placed fileOf (rewriteRow t rowid change rows) := by
  have same : ∀ row : Row, (if row.isAt t rowid then change row else row).t = row.t ∧
      (if row.isAt t rowid then change row else row).rowid = row.rowid := by
    intro row
    split
    · exact ⟨keeps.t row, keeps.rowid row⟩
    · exact ⟨rfl, rfl⟩
  unfold TrTreedb.rewriteRow
  constructor
  · rw [map_map]
    have places : rows.map ((fun row => (fileOf row.t, row.rowid)) ∘
        fun row => if row.isAt t rowid then change row else row) =
        rows.map fun row => (fileOf row.t, row.rowid) := by
      apply map_congr_left
      intro row _
      rw [comp_apply, (same row).1, (same row).2]
    rw [places]
    exact placed.distinct
  · intro row among
    rw [mem_map] at among
    obtain ⟨old, isOld, rfl⟩ := among
    rw [(same old).2, countP_map, (same old).1]
    have counts : rows.countP ((fun other : Row => decide (fileOf other.t = fileOf old.t)) ∘
        fun row => if row.isAt t rowid then change row else row) =
        rows.countP fun other => fileOf other.t = fileOf old.t := by
      apply countP_congr
      intro other _
      rw [comp_apply, (same other).1]
    rw [counts]
    exact placed.counted old isOld

end

end Placed

/-- The rows of every key have distinct places. -/
def Store.Placed (fileOf : Nat → Nat) (store : Store) : Prop :=
  ∀ topic key, TrTreedb.Placed fileOf (store.rows topic key)

theorem Store.Placed.writes {store after : Store} (placed : store.Placed fileOf)
    (writes : Writes fileOf store after) : after.Placed fileOf := by
  apply Writes.invariant _ writes placed
  intro before after write kept other name
  cases write with
  | append topic key t tag record keyed =>
    rw [rows_setRows]
    split
    · exact (kept topic key).addRow t tag record
    · exact kept other name
  | rewrite topic key t rowid change keeps =>
    rw [rows_setRows]
    split
    · exact (kept topic key).rewriteRow t rowid keeps
    · exact kept other name
  | erase topic key =>
    unfold Store.rows
    by_cases same : other = topic
    · subst same
      rw [update_self, Dict.get?_erase]
      split
      · exact TrTreedb.Placed.nil fileOf
      · exact kept other name
    · rw [update_of_ne same]
      exact kept other name

end Places

end Yunetas.TrTreedb
