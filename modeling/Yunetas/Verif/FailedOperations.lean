import Yunetas.TrTreedb.InStore

/-!
# Failed operations change nothing and successful ones are stored

An operation on nodes that reports failure should leave the nodes, their indexes and the rows of the
store as they were, and one that reports success should have what it did in the store. Creations do.
An update reports success whether or not its save worked; a link and an unlinking are made in memory
before the save whose result they report; a forced deletion unlinks the children of its node and
cleans the node before it is refused, and does not look at the saves of the children.
-/

namespace Yunetas.TrTreedb

open Option Function Bool List Dict TrTreedb.Graph

variable {ctx : Context}

namespace Op

/-- The operations on nodes that create, update, link, unlink and delete. -/
def isNodeWrite : Op → Bool
  | create .. | update .. | link .. | unlink .. | delete .. => true
  | _ => false

/-- The node that an operation writes. -/
def writes (state : State) : Op → Addr → Prop
  | create _ _ _ _, addr => addr = state.graph.next
  | update node _ _ _, addr => state.graph.resolve node = some addr
  | link _ _ child, addr => state.graph.resolve child = some addr
  | unlink _ _ child, addr => state.graph.resolve child = some addr
  | _, _ => False

/-- The node that an operation deletes. -/
def deletes (state : State) : Op → Addr → Prop
  | delete node _, addr => state.graph.resolve node = some addr
  | _, _ => False

end Op

/-- A node is gone: the rows of its key, and its id from every index. -/
structure Gone (ctx : Context) (after : State) (topic id : String) : Prop where
  rows : (after.store topic).get? id = none
  node : after.graph.getNode topic id = none
  instances : ∀ pkey2 ∈ ctx.schema.pkey2s topic, ∀ key2,
    after.graph.slot? topic pkey2 id key2 = none

/-- A node that went with a deleted one: it is that one, or it was filed under the same key. -/
def WentWith (ctx : Context) (before after : State) (deleted addr : Addr) : Prop :=
  addr = deleted ∨ (before.node addr).topic = (before.node deleted).topic ∧
    keyOf ctx after addr = some (before.node deleted).id

/-- What an operation did is in the store: the node it wrote and every other whose record changed,
and what it deleted is gone. -/
structure Recorded (ctx : Context) (op : Op) (before after : State) : Prop where
  written : ∀ addr, op.writes before addr → InStore ctx after addr
  deleted : ∀ addr, op.deletes before addr →
    Gone ctx after (before.node addr).topic (before.node addr).id
  changed : ∀ addr, convertNode2tranger ctx.schema (after.node addr) ≠
      convertNode2tranger ctx.schema (before.node addr) →
    InStore ctx after addr ∨ ∃ other, op.deletes before other ∧ WentWith ctx before after other addr

/-- What an operation reports holds: failed, it changed nothing, and otherwise what it did is in the
store. -/
structure Told (ctx : Context) (op : Op) (state : State) (result : Bool × State) : Prop where
  failed : result.1 = false → SameData state result.2
  done : result.1 = true → Recorded ctx op state result.2

/-- An operation that fails changes nothing, and what one that succeeds did is in the store. -/
def Faithful (ctx : Context) (state : State) (op : Op) : Prop :=
  Told ctx op state (exec ctx state op)

/-- The state with a node updated in memory, `none` when the update is refused. -/
def updateInMemory (ctx : Context) (state : State) (addr : Addr) (kw : Json.Fields) (now : Int) :
    Option State :=
  match normalizeUpdates ctx.conv now kw (ctx.schema.cols (state.node addr).topic) with
  | none => none
  | some updates =>
    if ctx.refuses ((state.node addr).update updates) (some (state.node addr)) then none
    else some { state with
      graph := { state.graph with
        heap := Function.update state.graph.heap addr ((state.node addr).update updates) } }

/-- The hook of the parent holds the child and the child refers to the parent: linking them again
writes what is there. -/
def AlreadyLinked (schema : Schema) (graph : Graph) (hook : String) (parent child : Addr) : Prop :=
  ∀ link, checkLink schema graph hook parent child = some link →
    hookWith graph.heap (graph.heap child).topic child link = link.hookCell ∧
      referring (parentRef (graph.heap parent).topic link.parentId hook) link.childCell =
        link.childCell

/-- The hook of the parent does not hold the child nor does the child refer to the parent. -/
def AlreadyUnlinked (schema : Schema) (graph : Graph) (hook : String) (parent child : Addr) :
    Prop :=
  ∀ link, checkLink schema graph hook parent child = some link →
    hookWithout (graph.heap child).topic child link = link.hookCell ∧
      notReferring (parentRef (graph.heap parent).topic link.parentId hook) link.childCell =
        link.childCell

/-- Unlinking an item of a hook is refused, or the child can be saved. -/
def UnlinkSaves (ctx : Context) (hook : String) (parent : Addr) (state : State) (item : Item) :
    Prop :=
  ∀ child, item = .node child → ∀ graph,
    unlinkNodes ctx.schema state.graph hook parent child = some graph →
      canSave ctx { state with graph } child = true

/-- Unlink an item of a hook: a step of `unlinkChildren`. -/
def unlinkItem (ctx : Context) (hook : String) (parent : Addr) (state : State) (item : Item) :
    State :=
  match item with
  | .node child => (unlinkAndSave ctx state hook parent child).2
  | _ => state

/-- Every child that is unlinked from a hook can be saved. -/
def HookSaves (ctx : Context) (parent : Addr) (state : State) (col : Col) : Prop :=
  ∀ cell, (state.node parent).get? col.id = some cell →
    AllSteps (unlinkItem ctx col.id parent) (UnlinkSaves ctx col.id parent) state (hookList cell)

/-- The columns of the hooks of a node. -/
def hooksOf (ctx : Context) (state : State) (addr : Addr) : List Col :=
  (ctx.schema.cols (state.node addr).topic).filter fun col => col.hook.isSome

/-- Every child that a forced deletion unlinks can be saved, all are unlinked, the node is cleaned
of its parents, and its key can be deleted then. -/
structure GoesThrough (ctx : Context) (state : State) (addr : Addr) : Prop where
  saves : AllSteps (fun state col => unlinkChildren ctx addr state col.id) (HookSaves ctx addr)
    state (hooksOf ctx state addr)
  children : (releaseChildren ctx state addr true).1 = true
  parents : (releaseParents ctx (releaseChildren ctx state addr true).2 addr true).1 = true
  key : isValidKeyName (state.node addr).id = true
  disk : (ctx.disk (releaseParents ctx (releaseChildren ctx state addr true).2 addr
    true).2.tick).fails = false

/-- A forced deletion has nothing to take back: it is refused outright, there is nothing to unlink,
or it goes through. -/
def ForceCommits (ctx : Context) (state : State) (addr : Addr) : Prop :=
  (state.md addr).immutable = true ∨
    (getNodeUpRefs ctx.schema (state.node addr) = [] ∧
      (getNodeDownRefs ctx.schema state.graph.heap (state.node addr) = [] ∨
        ∀ col ∈ hooksOf ctx state addr, ∀ cell, (state.node addr).get? col.id = some cell →
          ∀ child, .node child ∈ hookList cell →
            unlinkNodes ctx.schema state.graph col.id addr child = none)) ∨
    GoesThrough ctx state addr

/-- When an operation is faithful. -/
def Commits (ctx : Context) (state : State) : Op → Prop
  | .update node kw now save => ∀ addr, state.graph.resolve node = some addr →
    ∀ updated, updateInMemory ctx state addr kw now = some updated →
      (save = true ∧ canSave ctx updated addr = true) ∨ InStore ctx updated addr
  | .link hook parent child => ∀ p c, state.graph.resolve parent = some p →
    state.graph.resolve child = some c → ∀ graph,
      linkNodes ctx.schema state.graph hook p c = some graph →
        canSave ctx { state with graph } c = true ∨ AlreadyLinked ctx.schema state.graph hook p c
  | .unlink hook parent child => ∀ p c, state.graph.resolve parent = some p →
    state.graph.resolve child = some c → ∀ graph,
      unlinkNodes ctx.schema state.graph hook p c = some graph →
        canSave ctx { state with graph } c = true ∨ AlreadyUnlinked ctx.schema state.graph hook p c
  | .delete node true => ∀ addr, state.graph.resolve node = some addr → ForceCommits ctx state addr
  | _ => True

section Link

variable {graph : Graph} {hook : String} {parent child : Addr} {link : Link}

theorem setField_same {addr : Addr} {field : String} {cell : Cell}
    (held : (graph.heap addr).get? field = some cell) : graph.setField addr field cell = graph := by
  have node : (graph.heap addr).set field cell = graph.heap addr := by
    unfold Node.set
    rw [setEntries_same field cell _ held]
  unfold Graph.setField
  rw [node, update_eq_self]

variable {schema : Schema}

theorem setLink_eq_iff (found : link.Checked schema graph hook parent child)
    (hookCell childCell : Cell) :
    (graph.setField parent hook hookCell).setField child link.field childCell = graph ↔
      hookCell = link.hookCell ∧ childCell = link.childCell := by
  constructor
  · intro same
    have atParent := congrFun (congrArg Graph.heap same) parent
    have atChild := congrFun (congrArg Graph.heap same) child
    rw [heap_setField, update_of_ne found.apart, heap_setField, update_self] at atParent
    rw [heap_setField, update_self, heap_setField,
      update_of_ne (Ne.symm found.apart)] at atChild
    have hookHeld := found.hookFound
    have childHeld := found.childFound
    rw [← atParent, Node.get?_set_self] at hookHeld
    rw [← atChild, Node.get?_set_self] at childHeld
    exact ⟨some.inj hookHeld, some.inj childHeld⟩
  · intro same
    rw [same.1, same.2, setField_same found.hookFound, setField_same found.childFound]

theorem linkNodes_eq_iff {linked : Graph}
    (done : linkNodes schema graph hook parent child = some linked) :
    linked = graph ↔ AlreadyLinked schema graph hook parent child := by
  unfold linkNodes at done
  rw [map_eq_some_iff] at done
  obtain ⟨link, checked, rfl⟩ := done
  rw [setLink_eq_iff (checkLink_some checked)]
  constructor
  · intro same other isOther
    rw [checked] at isOther
    rw [← some.inj isOther]
    exact same
  · intro already
    exact already link checked

theorem unlinkNodes_eq_iff {unlinked : Graph}
    (done : unlinkNodes schema graph hook parent child = some unlinked) :
    unlinked = graph ↔ AlreadyUnlinked schema graph hook parent child := by
  unfold unlinkNodes at done
  rw [map_eq_some_iff] at done
  obtain ⟨link, checked, rfl⟩ := done
  rw [setLink_eq_iff (checkLink_some checked)]
  constructor
  · intro same other isOther
    rw [checked] at isOther
    rw [← some.inj isOther]
    exact same
  · intro already
    exact already link checked

theorem linkNodes_records {linked : Graph}
    (done : linkNodes schema graph hook parent child = some linked) :
    SameRecords schema (· = child) graph linked := by
  unfold linkNodes at done
  rw [map_eq_some_iff] at done
  obtain ⟨link, checked, rfl⟩ := done
  apply sameRecords_setLink (checkLink_some checked)
  rfl

theorem unlinkNodes_records {unlinked : Graph}
    (done : unlinkNodes schema graph hook parent child = some unlinked) :
    SameRecords schema (· = child) graph unlinked := by
  unfold unlinkNodes at done
  rw [map_eq_some_iff] at done
  obtain ⟨link, checked, rfl⟩ := done
  apply sameRecords_setLink (checkLink_some checked)
  rfl

end Link

section Save

variable {state : State} {child : Addr}

/-- What a save of a node changed in memory reports and leaves, when only its record was changed. -/
structure SavesChild (ctx : Context) (state : State) (child : Addr) (result : Bool × State) :
    Prop where
  failed : result.1 = false → SameData state result.2
  written : result.1 = true → InStore ctx result.2 child
  others : ∀ addr, addr ≠ child → convertNode2tranger ctx.schema (result.2.node addr) =
    convertNode2tranger ctx.schema (state.node addr)

/-- A change in memory whose save is reported: what is reported holds exactly when the save works or
nothing was changed. -/
theorem savesChild_iff {graph : Graph} (records : SameRecords ctx.schema (· = child) state.graph graph) :
    SavesChild ctx state child (saveNode ctx { state with graph } child) ↔
      canSave ctx { state with graph } child = true ∨ graph = state.graph := by
  have others : ∀ addr, addr ≠ child → convertNode2tranger ctx.schema
      ((saveNode ctx { state with graph } child).2.node addr) =
      convertNode2tranger ctx.schema (state.node addr) := by
    intro addr ne
    rw [saveNode_node]
    exact records addr ne
  have reports := saveNode_fst ctx { state with graph } child
  constructor
  · intro told
    by_cases can : canSave ctx { state with graph } child = true
    · exact Or.inl can
    · right
      rw [not_eq_true] at can
      have same := (told.failed (reports.trans can)).graph
      rcases saveNode_cases ctx { state with graph } child with ⟨-, kept⟩ | ⟨saved, done⟩
      · rw [kept.graph] at same
        exact same
      · rw [done, can] at reports
        cases reports
  · intro fine
    refine ⟨fun failed => ?_, fun worked => ?_, others⟩
    · rcases fine with can | same
      · rw [reports, can] at failed
        cases failed
      · rcases saveNode_cases ctx { state with graph } child with ⟨-, kept⟩ | ⟨saved, done⟩
        · exact ⟨kept.graph.trans same, kept.md, kept.store⟩
        · rw [done] at failed
          cases failed
    · exact saveNode_inStore (reports.symm.trans worked)

end Save

section Create

variable {state : State} {topicName : String} {kw : Json.Fields} {uuid : String} {now : Int}

theorem Created.inStore (inUse : state.graph.InUse)
    (created : Created ctx state topicName kw uuid now) :
    InStore ctx created.after state.graph.next ∧ ∀ addr, addr ≠ state.graph.next →
      convertNode2tranger ctx.schema (created.after.node addr) =
        convertNode2tranger ctx.schema (state.node addr) := by
  have typed := (inUse.alloc created.node).typed
  have heap : created.after.graph.heap = created.linked.heap := by
    unfold Created.after
    have keeps := indexNode_keeps created.linked created.topic created.id created.given
      created.previous.isNone created.pkey2s state.graph.next
    rw [keeps.1]
    split <;> rfl
  have records : SameRecords ctx.schema (fun _ => False) (state.graph.alloc created.node)
      created.linked := by
    unfold Created.linked
    split
    · exact sameRecords_loadLinks typed state.graph.next
    · exact SameRecords.refl _
  have recordIs : ∀ addr, convertNode2tranger ctx.schema (created.after.node addr) =
      convertNode2tranger ctx.schema ((state.graph.alloc created.node).heap addr) := by
    intro addr
    unfold State.node
    rw [heap]
    exact records addr fun no => no
  constructor
  · have ⟨key, keyed, _, stored, place⟩ := created.written.key
    have converted : convertNode2tranger ctx.schema (created.after.node state.graph.next) =
        some created.record := by
      rw [recordIs, heap_alloc, update_self]
      exact created.converted
    have topic : (created.after.node state.graph.next).topic = topicName := by
      unfold State.node
      rw [heap, (created.linked_same typed).topic, heap_alloc, update_self]
      exact created.node_topic
    have keyIs : keyOf ctx created.after state.graph.next = some key := by
      unfold keyOf
      rw [converted]
      exact keyed
    have md : created.after.md state.graph.next = ⟨created.t, created.rowid, 0, false⟩ := by
      unfold Created.after
      rw [State.setMd_md, update_self]
    refine ⟨created.record, key, converted, keyIs, newRow ctx.fileOf created.t 0 created.record
      (state.store.rows topicName key), ?_, ?_, rfl⟩
    · rw [topic]
      show _ ∈ created.appended.store.rows topicName key
      rw [stored, Store.rows_setRows_self, mem_addRow]
      exact Or.inl rfl
    · unfold Row.isAt
      rw [md]
      simp [newRow, place]
  · intro addr ne
    rw [recordIs, heap_alloc, update_of_ne ne]
    rfl

end Create

section Update

variable {state : State} {addr : Addr} {kw : Json.Fields} {now : Int}

theorem updateNode_eq (ctx : Context) (state : State) (addr : Addr) (kw : Json.Fields) (now : Int)
    (save : Bool) : updateNode ctx state addr kw now save =
      match updateInMemory ctx state addr kw now with
      | none => (false, state)
      | some updated => (true, if save then (saveNode ctx updated addr).2 else updated) := by
  unfold updateNode updateInMemory
  dsimp only
  cases normalizeUpdates ctx.conv now kw (ctx.schema.cols (state.node addr).topic) with
  | none => rfl
  | some updates =>
    dsimp only
    split <;> rfl

theorem updateInMemory_node {updated : State}
    (accepted : updateInMemory ctx state addr kw now = some updated) {other : Addr}
    (ne : other ≠ addr) : updated.node other = state.node other := by
  unfold updateInMemory at accepted
  split at accepted
  · cases accepted
  split at accepted
  · cases accepted
  · rw [← some.inj accepted]
    exact update_of_ne ne _ _

/-- An update that was accepted is in the store exactly when its save works, or the store has it
already. -/
theorem updated_inStore_iff (updated : State) (addr : Addr) (save : Bool) :
    InStore ctx (if save then (saveNode ctx updated addr).2 else updated) addr ↔
      (save = true ∧ canSave ctx updated addr = true) ∨ InStore ctx updated addr := by
  cases save with
  | false => simp
  | true =>
    rw [if_pos rfl]
    by_cases can : canSave ctx updated addr = true
    · exact ⟨fun _ => Or.inl ⟨rfl, can⟩, fun _ => saveNode_inStore can⟩
    · have same : SameData updated (saveNode ctx updated addr).2 := by
        rw [← saveNode_fst] at can
        rcases saveNode_cases ctx updated addr with ⟨-, kept⟩ | ⟨saved, done⟩
        · exact kept
        · rw [done] at can
          exact absurd rfl can
      have iff : InStore ctx (saveNode ctx updated addr).2 addr ↔ InStore ctx updated addr := by
        unfold InStore keyOf State.node
        rw [same.graph, same.md, same.store]
      rw [iff]
      constructor
      · exact Or.inr
      · rintro (both | there)
        · exact absurd both.2 can
        · exact there

end Update

section Delete

variable {state : State} {addr : Addr}

/-- Between two states of a deletion each node but the deleted one is written as it was, from the
same row, or is in the store; and the rows that were there stay. -/
structure Safe (ctx : Context) (addr : Addr) (before after : State) : Prop where
  topic : ∀ other, (after.node other).topic = (before.node other).topic
  others : ∀ other, other ≠ addr →
    (convertNode2tranger ctx.schema (after.node other) =
        convertNode2tranger ctx.schema (before.node other) ∧
      after.md other = before.md other) ∨ InStore ctx after other
  keeps : ∀ topic key, KeepsRows before.store after.store topic key

theorem Safe.refl (state : State) : Safe ctx addr state state :=
  ⟨fun _ => rfl, fun _ _ => Or.inl ⟨rfl, rfl⟩, KeepsRows.refl _⟩

theorem Safe.trans {first second third : State} (left : Safe ctx addr first second)
    (right : Safe ctx addr second third) : Safe ctx addr first third where
  topic other := (right.topic other).trans (left.topic other)
  others other ne := by
    rcases right.others other ne with same | there
    · rcases left.others other ne with before | stored
      · exact Or.inl ⟨same.1.trans before.1, same.2.trans before.2⟩
      · exact Or.inr (stored.kept same.1 (right.topic other) same.2 fun key _ =>
          right.keeps _ key)
    · exact Or.inr there
  keeps topic key := (left.keeps topic key).trans (right.keeps topic key)

theorem unlinkItem_safe {hook : String} {item : Item} (saves : UnlinkSaves ctx hook addr state item) :
    Safe ctx addr state (unlinkItem ctx hook addr state item) := by
  unfold unlinkItem
  split
  · rename_i child
    unfold unlinkAndSave
    split
    · exact Safe.refl state
    · rename_i graph done
      have can := saves child rfl graph done
      have records := unlinkNodes_records done
      constructor
      · intro other
        rw [saveNode_node]
        exact (unlinkNodes_same done).topic other
      · intro other _
        by_cases isChild : other = child
        · rw [isChild]
          exact Or.inr (saveNode_inStore can)
        · left
          rw [saveNode_node, saveNode_md_of_ne child isChild]
          exact ⟨records other isChild, rfl⟩
      · exact saveNode_keepsRows ctx { state with graph } child
  · exact Safe.refl state

theorem safe_run {α : Type} {step : State → α → State} {ok : State → α → Prop}
    (safe : ∀ state item, ok state item → Safe ctx addr state (step state item))
    {items : List α} (all : AllSteps step ok state items) :
    Safe ctx addr state (run step state items) := by
  have everywhere : AllStates step (Safe ctx addr state) state items :=
    all.invariant step (fun sofar item kept fine => kept.trans (safe sofar item fine))
      (Safe.refl state)
  exact everywhere.last step

theorem unlinkChildren_eq (ctx : Context) (addr : Addr) (state : State) (hook : String) :
    unlinkChildren ctx addr state hook = match (state.node addr).get? hook with
      | none => state
      | some cell => run (unlinkItem ctx hook addr) state (hookList cell) := rfl

theorem dropChildren_safe
    (saves : AllSteps (fun state col => unlinkChildren ctx addr state col.id) (HookSaves ctx addr)
      state (hooksOf ctx state addr)) : Safe ctx addr state (dropChildren ctx state addr) := by
  apply safe_run _ saves
  intro sofar col fine
  rw [unlinkChildren_eq]
  cases held : (sofar.node addr).get? col.id with
  | none => exact Safe.refl sofar
  | some cell => exact safe_run (fun _ _ => unlinkItem_safe) (fine cell held)

theorem dropChildren_none
    (refused : ∀ col ∈ hooksOf ctx state addr, ∀ cell, (state.node addr).get? col.id = some cell →
      ∀ child, .node child ∈ hookList cell →
        unlinkNodes ctx.schema state.graph col.id addr child = none) :
    dropChildren ctx state addr = state := by
  apply foldlRecOn (motive := fun after : State => after = state)
  · rfl
  · intro sofar same col listed
    rw [same]
    unfold unlinkChildren
    split
    · rfl
    · rename_i cell held
      apply foldlRecOn (motive := fun after : State => after = state)
      · rfl
      · intro other still item among
        rw [still]
        split
        · rename_i child
          unfold unlinkAndSave
          rw [refused col listed cell held child among]
        · rfl

theorem releaseParents_safe (ctx : Context) (state : State) (addr : Addr) (force : Bool) :
    Safe ctx addr state (releaseParents ctx state addr force).2 := by
  unfold releaseParents
  split
  · exact Safe.refl state
  split
  · refine ⟨fun other => (cleanNode_same state.graph addr).topic other, fun other ne => Or.inl ⟨?_, rfl⟩,
      KeepsRows.refl _⟩
    have records : SameRecords ctx.schema (fun other => other = addr) state.graph
        (cleanNode ctx.schema state.graph addr).1 := sameRecords_cleanNode state.graph addr rfl
    exact records other ne
  · exact Safe.refl state

theorem deleteKey_cases (ctx : Context) (state : State) (topic key : String) :
    ((isValidKeyName key && !(ctx.disk state.tick).fails) = true ∧
      deleteKey ctx state topic key = (true, { state with
        store := Function.update state.store topic ((state.store topic).erase key)
        tick := state.tick + 1 })) ∨
    ((isValidKeyName key && !(ctx.disk state.tick).fails) = false ∧
      (deleteKey ctx state topic key).1 = false ∧
      SameData state (deleteKey ctx state topic key).2) := by
  unfold deleteKey
  dsimp only
  split
  · rename_i works
    exact Or.inl ⟨works, rfl⟩
  · rename_i fails
    exact Or.inr ⟨by simpa using fails, rfl, rfl, rfl, rfl⟩

/-- What is left of a deletion once the node is released: its key deleted and its id dropped. -/
structure KeyDeleted (ctx : Context) (topic id : String) (released after : State) : Prop where
  graph : after.graph = dropId ctx.schema released.graph topic id
  md : after.md = released.md
  store : after.store = Function.update released.store topic ((released.store topic).erase id)

/-- A deletion is refused by a guard, or it releases the node and is refused then, or it deletes the
key. -/
theorem deleteNode_cases (ctx : Context) (state : State) (addr : Addr) (force : Bool) :
    let childless := releaseChildren ctx state addr force
    let released := releaseParents ctx childless.2 addr force
    deleteNode ctx state addr force = (false, state) ∨ ((state.md addr).immutable = false ∧
        ¬ (childless.1 = true ∧ released.1 = true ∧ isValidKeyName (state.node addr).id = true ∧
          (ctx.disk released.2.tick).fails = false) ∧
        (deleteNode ctx state addr force).1 = false ∧
        SameData released.2 (deleteNode ctx state addr force).2) ∨
      ((deleteNode ctx state addr force).1 = true ∧
        KeyDeleted ctx (state.node addr).topic (state.node addr).id released.2
          (deleteNode ctx state addr force).2) := by
  intro childless released
  unfold deleteNode
  dsimp only
  split
  · exact Or.inl rfl
  rename_i guards
  have mutable : (state.md addr).immutable = false := by
    rw [not_eq_true, or_eq_false_iff] at guards
    exact guards.1
  right
  split
  · rename_i refused
    refine Or.inl ⟨mutable, fun all => ?_, rfl, SameData.refl _⟩
    rw [show childless.1 = true from all.1, show released.1 = true from all.2.1] at refused
    exact false_ne_true refused
  · rcases deleteKey_cases ctx released.2 (state.node addr).topic (state.node addr).id
      with ⟨works, done⟩ | ⟨failed, notDone, same⟩
    · rw [show deleteKey ctx (releaseParents ctx (releaseChildren ctx state addr force).2 addr
        force).2 (state.node addr).topic (state.node addr).id = _ from done]
      exact Or.inr ⟨rfl, rfl, rfl, rfl⟩
    · left
      rw [if_neg (by rw [notDone]; exact false_ne_true)]
      refine ⟨mutable, fun all => ?_, rfl, same⟩
      rw [all.2.2.1, all.2.2.2] at failed
      cases failed

/-- What a deletion reports holds. -/
structure DeleteTold (ctx : Context) (state : State) (addr : Addr) (result : Bool × State) : Prop where
  failed : result.1 = false → SameData state result.2
  gone : result.1 = true → Gone ctx result.2 (state.node addr).topic (state.node addr).id
  changed : result.1 = true → ∀ other, convertNode2tranger ctx.schema (result.2.node other) ≠
      convertNode2tranger ctx.schema (state.node other) →
    InStore ctx result.2 other ∨ WentWith ctx state result.2 addr other

theorem KeyDeleted.told {released after : State} (safe : Safe ctx addr state released)
    (deleted : KeyDeleted ctx (state.node addr).topic (state.node addr).id released after) :
    DeleteTold ctx state addr (true, after) := by
  have node : ∀ other, after.node other = released.node other := by
    intro other
    have keeps := foldl_dropInstances_keeps (released.graph.deletePrimary (state.node addr).topic
      (state.node addr).id) (state.node addr).topic (state.node addr).id
      (ctx.schema.pkey2s (state.node addr).topic)
    unfold State.node
    rw [deleted.graph]
    exact congrFun keeps.1 other
  refine ⟨nofun, fun _ => ⟨?_, ?_, ?_⟩, ?_⟩
  · rw [deleted.store, update_self, get?_erase, if_pos rfl]
  · rw [deleted.graph, getNode_dropId, if_pos ⟨rfl, rfl⟩]
  · intro pkey2 among key2
    rw [deleted.graph]
    unfold dropId
    rw [slot?_foldl_dropInstances, if_pos ⟨rfl, among, rfl⟩]
  · intro _ other differs
    by_cases isAddr : other = addr
    · exact Or.inr (Or.inl isAddr)
    · rcases safe.others other isAddr with same | stored
      · rw [node, same.1] at differs
        exact absurd rfl differs
      · by_cases went : (state.node other).topic = (state.node addr).topic ∧
            keyOf ctx after other = some (state.node addr).id
        · exact Or.inr (Or.inr went)
        · left
          have record : convertNode2tranger ctx.schema (after.node other) =
              convertNode2tranger ctx.schema (released.node other) := by rw [node]
          apply stored.kept record (by rw [node]) (by rw [deleted.md])
          intro key keyed
          rw [deleted.store]
          apply keepsRows_erase
          rintro ⟨sameTopic, sameKey⟩
          apply went
          rw [← safe.topic, keyOf_of_record record, keyed, sameKey]
          exact ⟨sameTopic, rfl⟩

theorem deleteNode_told_of_same (force : Bool)
    (same : SameData state (releaseParents ctx (releaseChildren ctx state addr force).2 addr
      force).2) :
    DeleteTold ctx state addr (deleteNode ctx state addr force) := by
  have safe : Safe ctx addr state (releaseParents ctx (releaseChildren ctx state addr force).2 addr
      force).2 := by
    have node : ∀ other, (releaseParents ctx (releaseChildren ctx state addr force).2 addr
        force).2.node other = state.node other := by
      intro other
      unfold State.node
      rw [same.graph]
    refine ⟨fun other => by rw [node], fun other _ => Or.inl ⟨by rw [node], by rw [same.md]⟩, ?_⟩
    rw [same.store]
    exact KeepsRows.refl _
  rcases deleteNode_cases ctx state addr force with guarded | ⟨-, -, failed, kept⟩ | ⟨done, deleted⟩
  · rw [guarded]
    exact ⟨fun _ => SameData.refl state, nofun, nofun⟩
  · refine ⟨fun _ => ⟨kept.graph.trans same.graph, kept.md.trans same.md,
      kept.store.trans same.store⟩, fun worked => ?_, fun worked => ?_⟩
    · rw [failed] at worked
      cases worked
    · rw [failed] at worked
      cases worked
  · have whole : deleteNode ctx state addr force = (true, (deleteNode ctx state addr force).2) :=
      Prod.ext done rfl
    rw [whole]
    exact deleted.told safe

theorem deleteNode_told_unforced (ctx : Context) (state : State) (addr : Addr) :
    DeleteTold ctx state addr (deleteNode ctx state addr false) := by
  have childless : (releaseChildren ctx state addr false).2 = state := by
    unfold releaseChildren
    dsimp only
    split <;> rfl
  apply deleteNode_told_of_same
  rw [childless]
  unfold releaseParents
  split <;> exact SameData.refl state

theorem deleteNode_told_forced (commits : ForceCommits ctx state addr) :
    DeleteTold ctx state addr (deleteNode ctx state addr true) := by
  rcases commits with immutable | ⟨noParents, nothing⟩ | through
  · have guarded : deleteNode ctx state addr true = (false, state) := by
      unfold deleteNode
      dsimp only
      rw [immutable, Bool.true_or, if_pos rfl]
    rw [guarded]
    exact ⟨fun _ => SameData.refl state, nofun, nofun⟩
  · have childless : (releaseChildren ctx state addr true).2 = state := by
      unfold releaseChildren
      dsimp only
      rw [if_pos rfl]
      split
      · rfl
      · rename_i children
        rcases nothing with noChildren | refused
        · rw [noChildren] at children
          exact absurd rfl children
        · exact dropChildren_none refused
    apply deleteNode_told_of_same
    rw [childless]
    unfold releaseParents
    rw [noParents]
    exact SameData.refl state
  · rcases deleteNode_cases ctx state addr true with guarded | ⟨-, notAll, -⟩ | ⟨done, deleted⟩
    · rw [guarded]
      exact ⟨fun _ => SameData.refl state, nofun, nofun⟩
    · exact absurd ⟨through.children, through.parents, through.key, through.disk⟩ notAll
    · have dropped : Safe ctx addr state (releaseChildren ctx state addr true).2 := by
        unfold releaseChildren
        dsimp only
        split
        · exact Safe.refl state
        · exact dropChildren_safe through.saves
      have whole : deleteNode ctx state addr true = (true, (deleteNode ctx state addr true).2) :=
        Prod.ext done rfl
      rw [whole]
      exact deleted.told (dropped.trans (releaseParents_safe ctx _ addr true))

end Delete

section Exec

variable {state : State}

theorem told_refused (op : Op) : Told ctx op state (false, state) :=
  ⟨fun _ => SameData.refl state, nofun⟩

theorem create_faithful (inUse : state.graph.InUse) (topic : String) (kw : Json.Fields)
    (uuid : String) (now : Int) : Faithful ctx state (.create topic kw uuid now) := by
  show Told ctx _ state ((createNode ctx state topic kw uuid now).1.isSome,
    (createNode ctx state topic kw uuid now).2)
  rcases createNode_cases ctx state topic kw uuid now with ⟨failed, same⟩ | ⟨created, done⟩
  · rw [failed]
    exact ⟨fun _ => same, nofun⟩
  · rw [done]
    have stored := created.inStore inUse
    refine ⟨nofun, fun _ => ⟨fun addr isNew => ?_, fun _ no => absurd no id, fun addr differs =>
      Or.inl ?_⟩⟩
    · rw [show addr = state.graph.next from isNew]
      exact stored.1
    · by_cases isNew : addr = state.graph.next
      · rw [isNew]
        exact stored.1
      · exact absurd (stored.2 addr isNew) differs

theorem update_faithful_iff (node : Graph.Ref) (kw : Json.Fields) (now : Int) (save : Bool) :
    Faithful ctx state (.update node kw now save) ↔ Commits ctx state (.update node kw now save) := by
  show Told ctx _ state (withNode state node fun addr => updateNode ctx state addr kw now save) ↔ _
  unfold withNode
  cases resolved : state.graph.resolve node with
  | none =>
    refine ⟨fun _ addr isAddr => ?_, fun _ => told_refused _⟩
    rw [resolved] at isAddr
    cases isAddr
  | some addr =>
    dsimp only
    rw [updateNode_eq]
    cases accepted : updateInMemory ctx state addr kw now with
    | none =>
      refine ⟨fun _ other isOther updated isUpdated => ?_, fun _ => told_refused _⟩
      rw [← some.inj (resolved.symm.trans isOther), accepted] at isUpdated
      cases isUpdated
    | some updated =>
      have inStore := @updated_inStore_iff ctx updated addr save
      constructor
      · intro told other isOther again isAgain
        have same := some.inj (resolved.symm.trans isOther)
        rw [← same, accepted] at isAgain
        rw [← same, ← some.inj isAgain]
        exact inStore.1 ((told.done rfl).written addr resolved)
      · intro commits
        have stored := inStore.2 (commits addr resolved updated accepted)
        refine ⟨nofun, fun _ => ⟨fun other isOther => ?_, fun _ no => absurd no id,
          fun other differs => Or.inl ?_⟩⟩
        · rw [← some.inj (resolved.symm.trans isOther)]
          exact stored
        · by_cases here : other = addr
          · rw [here]
            exact stored
          · have same : (if save then (saveNode ctx updated addr).2 else updated).node other =
                state.node other := by
              rw [← updateInMemory_node accepted here]
              split
              · exact saveNode_node ctx updated addr other
              · rfl
            rw [same] at differs
            exact absurd rfl differs

theorem told_iff_savesChild {op : Op} {child : Addr} {result : Bool × State}
    (writes : ∀ addr, op.writes state addr ↔ addr = child) (deletes : ∀ addr, ¬ op.deletes state addr)
    (others : ∀ addr, addr ≠ child → convertNode2tranger ctx.schema (result.2.node addr) =
      convertNode2tranger ctx.schema (state.node addr)) :
    Told ctx op state result ↔ SavesChild ctx state child result := by
  constructor
  · intro told
    exact ⟨told.failed, fun worked => (told.done worked).written child ((writes child).2 rfl), others⟩
  · intro saves
    refine ⟨saves.failed, fun worked => ⟨fun addr written => ?_, fun addr no => absurd no
      (deletes addr), fun addr differs => Or.inl ?_⟩⟩
    · rw [(writes addr).1 written]
      exact saves.written worked
    · by_cases isChild : addr = child
      · rw [isChild]
        exact saves.written worked
      · exact absurd (saves.others addr isChild) differs

/-- A change of the links of two nodes in memory, after which the child is saved, is told right
exactly when the save works or nothing was to be changed. -/
theorem linked_faithful_iff {op : Op} {parent child : Graph.Ref}
    {change : Addr → Addr → Option Graph} {idle : Addr → Addr → Prop}
    (writes : ∀ addr, op.writes state addr ↔ state.graph.resolve child = some addr)
    (deletes : ∀ addr, ¬ op.deletes state addr)
    (records : ∀ p c graph, change p c = some graph →
      SameRecords ctx.schema (· = c) state.graph graph)
    (same : ∀ p c graph, change p c = some graph → (graph = state.graph ↔ idle p c)) :
    Told ctx op state (withNode state parent fun p => withNode state child fun c =>
      match change p c with
      | none => (false, state)
      | some graph => saveNode ctx { state with graph } c) ↔
    ∀ p c, state.graph.resolve parent = some p → state.graph.resolve child = some c → ∀ graph,
      change p c = some graph → canSave ctx { state with graph } c = true ∨ idle p c := by
  unfold withNode
  cases isParent : state.graph.resolve parent with
  | none => exact ⟨fun _ _ _ => nofun, fun _ => told_refused op⟩
  | some p =>
    cases isChild : state.graph.resolve child with
    | none => exact ⟨fun _ _ _ _ => nofun, fun _ => told_refused op⟩
    | some c =>
      have only : ∀ addr, op.writes state addr ↔ addr = c := by
        intro addr
        rw [writes, isChild, some_inj, eq_comm]
      dsimp only
      cases done : change p c with
      | none =>
        refine ⟨fun _ p' c' isP isC graph again => ?_, fun _ => told_refused op⟩
        rw [← some.inj isP, ← some.inj isC, done] at again
        cases again
      | some graph =>
        have changes := records p c graph done
        rw [told_iff_savesChild only deletes (fun addr ne => by
          rw [saveNode_node]
          exact changes addr ne), savesChild_iff changes, same p c graph done]
        constructor
        · intro fine p' c' isP isC other again
          rw [← some.inj isP, ← some.inj isC] at again ⊢
          rw [← some.inj (done.symm.trans again)]
          exact fine
        · intro all
          exact all p c rfl rfl graph done

theorem link_faithful_iff (hook : String) (parent child : Graph.Ref) :
    Faithful ctx state (.link hook parent child) ↔ Commits ctx state (.link hook parent child) :=
  linked_faithful_iff (fun _ => Iff.rfl) (fun _ no => no) (fun _ _ _ => linkNodes_records)
    (fun _ _ _ => linkNodes_eq_iff)

theorem unlink_faithful_iff (hook : String) (parent child : Graph.Ref) :
    Faithful ctx state (.unlink hook parent child) ↔
      Commits ctx state (.unlink hook parent child) :=
  linked_faithful_iff (fun _ => Iff.rfl) (fun _ no => no) (fun _ _ _ => unlinkNodes_records)
    (fun _ _ _ => unlinkNodes_eq_iff)

theorem delete_faithful (node : Graph.Ref) (force : Bool)
    (told : ∀ addr, state.graph.resolve node = some addr →
      DeleteTold ctx state addr (deleteNode ctx state addr force)) :
    Faithful ctx state (.delete node force) := by
  show Told ctx _ state (withNode state node fun addr => deleteNode ctx state addr force)
  unfold withNode
  cases resolved : state.graph.resolve node with
  | none => exact told_refused _
  | some addr =>
    have right := told addr resolved
    refine ⟨right.failed, fun worked => ⟨fun _ no => absurd no id, fun other isOther => ?_,
      fun other differs => ?_⟩⟩
    · rw [← some.inj (resolved.symm.trans isOther)]
      exact right.gone worked
    · exact (right.changed worked other differs).imp_right fun went => ⟨addr, resolved, went⟩

end Exec

/-- An operation that deletes a node by force. -/
def Op.isForced : Op → Bool
  | .delete _ force => force
  | _ => false

/-- A treedb whose disk refuses one append or deletion. -/
def failingAt (ctx : Context) (refused : Nat) : Context where
  schema := ctx.schema
  conv := ctx.conv
  fileOf := ctx.fileOf
  disk tick := { t := tick, fails := tick = refused }

/-- Two departments. -/
def twoDepartments : List Op := [newDepartment "sales", newDepartment "europe"]

end Yunetas.TrTreedb
