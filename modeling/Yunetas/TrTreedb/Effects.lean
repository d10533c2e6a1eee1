import Yunetas.TrTreedb.Frame

/-!
# What writes do

A write that fails changes nothing but the answers the disk has given. One that succeeds appends a
row to the key that the record names, and the node stands for that row from then on.
-/

namespace Yunetas.TrTreedb

/-- Two states with the same nodes, metadata and rows. -/
structure SameData (before after : State) : Prop where
  graph : after.graph = before.graph
  md : after.md = before.md
  store : after.store = before.store

theorem SameData.refl (state : State) : SameData state state := ⟨rfl, rfl, rfl⟩

section

variable (state : State) (addr : Addr) (md : Md)
include state addr md

@[simp] theorem State.setMd_graph :
    (state.setMd addr md).graph = state.graph := rfl

@[simp] theorem State.setMd_store :
    (state.setMd addr md).store = state.store := rfl

@[simp] theorem State.setMd_md :
    (state.setMd addr md).md = Function.update state.md addr md := rfl

end

namespace Store

theorem rows_setRows (store : Store) (topic key other name : String) (rows : List Row) :
    (store.setRows topic key rows).rows other name =
      if other = topic ∧ name = key then rows else store.rows other name := by
  unfold Store.rows setRows
  by_cases same : other = topic
  · rw [same, Function.update_self, Dict.get?_set]
    simp only [true_and]
    split <;> rfl
  · rw [Function.update_of_ne same]
    simp [same, ↓reduceIte]

@[simp] theorem rows_setRows_self (store : Store) (topic key : String) (rows : List Row) :
    (store.setRows topic key rows).rows topic key = rows := by
  rw [rows_setRows, if_pos ⟨rfl, rfl⟩]

theorem setRows_of_ne (store : Store) {topic other : String} (key : String) (rows : List Row)
    (ne : other ≠ topic) : store.setRows topic key rows other = store other := by
  unfold setRows
  rw [Function.update_of_ne ne]

end Store

variable {ctx : Context}

/-- A row appended for a record. -/
structure Appended (ctx : Context) (state : State) (topic : String) (tag : Nat)
    (record : Json.Fields) (t rowid : Nat) (after : State) : Prop where
  key : ∃ key, (record.get? "id").bind Json.stringValue = some key ∧
    Timeranger2.validStringKey key = true ∧
    after.store = state.store.setRows topic key
      (addRow ctx.fileOf t tag record (state.store.rows topic key)) ∧
    rowid = nextRowid ctx.fileOf t (state.store.rows topic key)
  works : (ctx.disk state.tick).fails = false
  t : t = (ctx.disk state.tick).t
  graph : after.graph = state.graph
  md : after.md = state.md
  tick : after.tick = state.tick + 1

theorem appendRecord_cases (ctx : Context) (state : State) (topic : String) (tag : Nat) (record : Json.Fields) :
    ((appendRecord ctx state topic tag record).1 = none ∧
      SameData state (appendRecord ctx state topic tag record).2) ∨
    ∃ t rowid after, appendRecord ctx state topic tag record = (some (t, rowid), after) ∧
      Appended ctx state topic tag record t rowid after := by
  unfold appendRecord
  dsimp only
  split
  · exact Or.inl ⟨rfl, rfl, rfl, rfl⟩
  rename_i key keyed
  split
  · rename_i works
    rw [Bool.and_eq_true, Bool.not_eq_true'] at works
    exact Or.inr ⟨_, _, _, rfl, ⟨key, keyed, works.1, rfl, rfl⟩, works.2, rfl, rfl, rfl, rfl⟩
  · exact Or.inl ⟨rfl, rfl, rfl, rfl⟩

section Rewrite

variable (ctx)

section

variable (state : State) (topic key : String) (t rowid : Nat) (change : Row → Row)
include state topic key t rowid change

@[simp] theorem rewriteMd_graph :
    (rewriteMd ctx state topic key t rowid change).2.graph = state.graph := by
  unfold rewriteMd
  dsimp only
  split <;> rfl

@[simp] theorem rewriteMd_md : (rewriteMd ctx state topic key t rowid change).2.md = state.md := by
  unfold rewriteMd
  dsimp only
  split <;> rfl

@[simp] theorem rewriteMd_tick :
    (rewriteMd ctx state topic key t rowid change).2.tick = state.tick + 1 := by
  unfold rewriteMd
  dsimp only
  split <;> rfl

end

theorem rewriteMd_store_of_ne (state : State) {topic other : String} (key : String)
    (t rowid : Nat) (change : Row → Row) (ne : other ≠ topic) :
    (rewriteMd ctx state topic key t rowid change).2.store other = state.store other := by
  unfold rewriteMd
  dsimp only
  split
  · exact Store.setRows_of_ne state.store key _ ne
  · rfl

end Rewrite

/-- What a save that succeeds found and wrote. -/
structure Saved (ctx : Context) (state : State) (addr : Addr) where
  record : Json.Fields
  t : Nat
  rowid : Nat
  appended : State
  converted : convertNode2tranger ctx.schema (state.node addr) = some record
  written : Appended ctx state (state.node addr).topic (state.md addr).tag record t rowid appended

namespace Saved

variable {state : State} {addr : Addr} (saved : Saved ctx state addr)

/-- The node stands for its new row. -/
def placed : State := saved.appended.setMd addr { state.md addr with t := saved.t, rowid := saved.rowid }

/-- The new row is marked as the node is. -/
def marked : State :=
  if (state.md addr).immutable then
    (rewriteMd ctx saved.placed (state.node addr).topic (state.node addr).id saved.t saved.rowid
      (Row.setImmutable true)).2
  else saved.placed

/-- The state a save leaves. -/
def after : State :=
  { saved.marked with graph := pointSlots ctx.schema saved.marked.graph addr }

theorem marked_graph : saved.marked.graph = state.graph := by
  unfold marked placed
  split
  · rw [rewriteMd_graph, State.setMd_graph, saved.written.graph]
  · rw [State.setMd_graph, saved.written.graph]

theorem after_graph : saved.after.graph = pointSlots ctx.schema state.graph addr := by
  unfold after
  rw [saved.marked_graph]

theorem after_store_of_ne {other : String} (ne : other ≠ (state.node addr).topic) :
    saved.after.store other = state.store other := by
  have ⟨key, _, _, rows, _⟩ := saved.written.key
  have appended : saved.placed.store other = state.store other := by
    unfold placed
    rw [State.setMd_store, rows, Store.setRows_of_ne _ _ _ ne]
  unfold after marked
  split
  · rw [rewriteMd_store_of_ne ctx _ _ _ _ _ ne, appended]
  · exact appended

end Saved

theorem saveNode_cases (ctx : Context) (state : State) (addr : Addr) :
    ((saveNode ctx state addr).1 = false ∧ SameData state (saveNode ctx state addr).2) ∨
    ∃ saved : Saved ctx state addr, saveNode ctx state addr = (true, saved.after) := by
  unfold saveNode
  dsimp only
  split
  · exact Or.inl ⟨rfl, SameData.refl state⟩
  rename_i record converted
  rcases appendRecord_cases ctx state (state.node addr).topic (state.md addr).tag record
    with ⟨failed, same⟩ | ⟨t, rowid, appended, done, written⟩
  · cases result : appendRecord ctx state (state.node addr).topic (state.md addr).tag record with
    | mk place asked =>
      rw [result] at failed same
      dsimp only at failed
      rw [failed]
      exact Or.inl ⟨rfl, same⟩
  · rw [done]
    exact Or.inr ⟨⟨record, t, rowid, appended, converted, written⟩, rfl⟩

theorem saveNode_store_of_ne (state : State) (addr : Addr) {other : String}
    (ne : other ≠ (state.node addr).topic) :
    (saveNode ctx state addr).2.store other = state.store other := by
  rcases saveNode_cases ctx state addr with ⟨-, same⟩ | ⟨saved, done⟩
  · rw [same.store]
  · rw [done]
    exact saved.after_store_of_ne ne

/-- What a creation that succeeds found and wrote. -/
structure Created (ctx : Context) (state : State) (topicName : String) (kw : Json.Fields)
    (uuid : String) (now : Int) where
  topic : Topic
  id : String
  fields : List (String × Cell)
  record : Json.Fields
  t : Nat
  rowid : Nat
  appended : State
  isTopic : ctx.schema.topic? topicName = some topic
  isId : newId state topic kw uuid = some id
  valid : isValidKeyName id = true
  fresh : (state.graph.getNode topicName id).isSome = true →
    newPkey2s state.graph topic id (kw.set "id" (.string id)) ≠ []
  pure : createPureRecord ctx.conv now (kw.set "id" (.string id)) topic.cols = some fields
  converted : convertNode2tranger ctx.schema (inheritFrom topic
    ((if (newPkey2s state.graph topic id (kw.set "id" (.string id))).isEmpty then none
      else state.graph.getNode topicName id).map state.node) ⟨topicName, fields⟩).1 = some record
  written : Appended ctx state topicName 0 record t rowid appended

namespace Created

variable {state : State} {topicName : String} {kw : Json.Fields} {uuid : String} {now : Int}
  (created : Created ctx state topicName kw uuid now)

/-- The fields given, with the id. -/
def given : Json.Fields := kw.set "id" (.string created.id)

/-- The secondary keys that are new. -/
def pkey2s : List String := newPkey2s state.graph created.topic created.id created.given

/-- The node of the id before. -/
def previous : Option Addr := state.graph.getNode topicName created.id

/-- The new node, and whether it inherits links. -/
def inherited : Node × Bool :=
  inheritFrom created.topic ((if created.pkey2s.isEmpty then none else created.previous).map
    state.node) ⟨topicName, created.fields⟩

/-- The new node. -/
def node : Node := created.inherited.1

/-- The graph with the new node in the hooks it inherits. -/
def linked : Graph :=
  if created.inherited.2 then
    loadLinks ctx.schema (state.graph.alloc created.node) state.graph.next
  else state.graph.alloc created.node

/-- The state a creation leaves. -/
def after : State :=
  { created.appended.setMd state.graph.next ⟨created.t, created.rowid, 0, false⟩ with
    graph := indexNode created.linked created.topic created.id created.given
      created.previous.isNone created.pkey2s state.graph.next }

end Created

theorem createNode_cases (ctx : Context) (state : State) (topicName : String) (kw : Json.Fields) (uuid : String)
    (now : Int) :
    ((createNode ctx state topicName kw uuid now).1 = none ∧
      SameData state (createNode ctx state topicName kw uuid now).2) ∨
    ∃ created : Created ctx state topicName kw uuid now,
      createNode ctx state topicName kw uuid now = (some state.graph.next, created.after) := by
  unfold createNode
  dsimp only
  split
  · exact Or.inl ⟨rfl, SameData.refl state⟩
  rename_i topic isTopic
  split
  · exact Or.inl ⟨rfl, SameData.refl state⟩
  rename_i id isId
  split
  · exact Or.inl ⟨rfl, SameData.refl state⟩
  rename_i accepted
  split
  · exact Or.inl ⟨rfl, SameData.refl state⟩
  rename_i fields pure
  split
  · exact Or.inl ⟨rfl, SameData.refl state⟩
  split
  · exact Or.inl ⟨rfl, SameData.refl state⟩
  rename_i record converted
  have valid : isValidKeyName id = true := by
    simp only [Bool.or_eq_true, Bool.not_eq_true', not_or, Bool.not_eq_false] at accepted
    exact accepted.1
  have fresh : (state.graph.getNode topicName id).isSome = true →
      newPkey2s state.graph topic id (kw.set "id" (.string id)) ≠ [] := by
    intro there empty
    apply accepted
    rw [empty, there]
    simp
  rcases appendRecord_cases ctx state topicName 0 record
    with ⟨failed, same⟩ | ⟨t, rowid, appended, done, written⟩
  · cases result : appendRecord ctx state topicName 0 record with
    | mk place asked =>
      rw [result] at failed same
      dsimp only at failed
      rw [failed]
      exact Or.inl ⟨rfl, same⟩
  · rw [done]
    exact Or.inr ⟨⟨topic, id, fields, record, t, rowid, appended, isTopic, isId, valid, fresh, pure,
      converted, written⟩, rfl⟩

end Yunetas.TrTreedb
