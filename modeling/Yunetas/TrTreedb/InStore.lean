import Yunetas.TrTreedb.Changes

/-!
# Nodes that the store has

A node is in the store when the row it stands for has the record that it would be written as. A save
that works puts its node there and takes no other away. Hooks are written empty, so writing and
rebuilding them changes no record, and neither does an unlinking but that of the child.
-/

namespace Yunetas.TrTreedb

open Option Function List TrTreedb.Graph

variable {ctx : Context}

/-- The key that a node is filed under: the id in its record. -/
def keyOf (ctx : Context) (state : State) (addr : Addr) : Option String :=
  (convertNode2tranger ctx.schema (state.node addr)).bind fun record =>
    (record.get? "id").bind Json.stringValue

/-- A save of a node works: it has a record with a valid key, and the disk takes it. -/
def canSave (ctx : Context) (state : State) (addr : Addr) : Bool :=
  match keyOf ctx state addr with
  | some key => Timeranger2.validStringKey key && !(ctx.disk state.tick).fails
  | none => false

/-- The row that a node stands for has its record. -/
def InStore (ctx : Context) (state : State) (addr : Addr) : Prop :=
  ∃ record key, convertNode2tranger ctx.schema (state.node addr) = some record ∧
    keyOf ctx state addr = some key ∧
      ∃ row ∈ state.store.rows (state.node addr).topic key,
        row.isAt (state.md addr).t (state.md addr).rowid = true ∧ row.record = record

/-- The rows of a key keep their place and their record. -/
def KeepsRows (before after : Store) (topic key : String) : Prop :=
  ∀ row ∈ before.rows topic key, ∃ kept ∈ after.rows topic key,
    kept.t = row.t ∧ kept.rowid = row.rowid ∧ kept.record = row.record

section Rows

variable {first second third store : Store} {topic key : String}

theorem KeepsRows.refl (store : Store) (topic key : String) : KeepsRows store store topic key :=
  fun row among => ⟨row, among, rfl, rfl, rfl⟩

theorem KeepsRows.trans (left : KeepsRows first second topic key)
    (right : KeepsRows second third topic key) : KeepsRows first third topic key := by
  intro row among
  have ⟨kept, isKept, t, rowid, record⟩ := left row among
  have ⟨last, isLast, t', rowid', record'⟩ := right kept isKept
  exact ⟨last, isLast, t'.trans t, rowid'.trans rowid, record'.trans record⟩

theorem keepsRows_setRows {rows : List Row} (kept : ∀ row ∈ store.rows topic key, ∃ other ∈ rows,
      other.t = row.t ∧ other.rowid = row.rowid ∧ other.record = row.record)
    (other name : String) : KeepsRows store (store.setRows topic key rows) other name := by
  intro row among
  rw [Store.rows_setRows]
  split
  · rename_i same
    rw [same.1, same.2] at among
    exact kept row among
  · exact ⟨row, among, rfl, rfl, rfl⟩

theorem Appended.keepsRows {state after : State} {tag t rowid : Nat} {record : Json.Fields}
    (written : Appended ctx state topic tag record t rowid after) (other name : String) :
    KeepsRows state.store after.store other name := by
  have ⟨key, _, _, stored, _⟩ := written.key
  rw [stored]
  apply keepsRows_setRows
  intro row among
  exact ⟨row, (mem_addRow _ _ _ _ _).2 (Or.inr among), rfl, rfl, rfl⟩

theorem rewriteMd_keepsRows (ctx : Context) (state : State) (topic key : String) (t rowid : Nat)
    {change : Row → Row} (keeps : KeepsPlace change) (other name : String) :
    KeepsRows state.store (rewriteMd ctx state topic key t rowid change).2.store other name := by
  unfold rewriteMd
  dsimp only
  split
  · apply keepsRows_setRows
    intro row among
    refine ⟨_, mem_rewriteRow t _ among, ?_⟩
    split
    · exact ⟨keeps.t row, keeps.rowid row, keeps.record row⟩
    · exact ⟨rfl, rfl, rfl⟩
  · exact KeepsRows.refl _ _ _

theorem keepsRows_erase (store : Store) {other name : String}
    (ne : ¬ (other = topic ∧ name = key)) :
    KeepsRows store (Function.update store topic ((store topic).erase key)) other name := by
  intro row among
  refine ⟨row, ?_, rfl, rfl, rfl⟩
  unfold Store.rows at among ⊢
  by_cases same : other = topic
  · have apart : name ≠ key := fun isKey => ne ⟨same, isKey⟩
    rw [same] at among
    rw [same, update_self, Dict.get?_erase, if_neg apart]
    exact among
  · rw [update_of_ne same]
    exact among

end Rows

section Nodes

variable {state after : State} {addr : Addr}

theorem keyOf_of_record {other : State} (record : convertNode2tranger ctx.schema (other.node addr) =
      convertNode2tranger ctx.schema (state.node addr)) :
    keyOf ctx other addr = keyOf ctx state addr := by
  unfold keyOf
  rw [record]

theorem InStore.kept (inStore : InStore ctx state addr)
    (record : convertNode2tranger ctx.schema (after.node addr) =
      convertNode2tranger ctx.schema (state.node addr))
    (topic : (after.node addr).topic = (state.node addr).topic) (md : after.md addr = state.md addr)
    (keeps : ∀ key, keyOf ctx state addr = some key →
      KeepsRows state.store after.store (state.node addr).topic key) :
    InStore ctx after addr := by
  have ⟨written, key, converted, keyed, row, among, place, same⟩ := inStore
  have ⟨kept, isKept, t, rowid, keptRecord⟩ := keeps key keyed row among
  refine ⟨written, key, record.trans converted, (keyOf_of_record record).trans keyed, kept, ?_, ?_,
    keptRecord.trans same⟩
  · rw [topic]
    exact isKept
  · unfold Row.isAt at place ⊢
    rw [md, t, rowid]
    exact place

theorem saveNode_fst (ctx : Context) (state : State) (addr : Addr) :
    (saveNode ctx state addr).1 = canSave ctx state addr := by
  unfold saveNode canSave keyOf appendRecord
  dsimp only
  cases convertNode2tranger ctx.schema (state.node addr) with
  | none => rfl
  | some record =>
    rw [bind_some]
    dsimp only
    cases (record.get? "id").bind Json.stringValue with
    | none => rfl
    | some key =>
      dsimp only
      cases Timeranger2.validStringKey key && !(ctx.disk state.tick).fails <;> rfl

theorem saveNode_keepsRows (ctx : Context) (state : State) (addr : Addr) (topic key : String) :
    KeepsRows state.store (saveNode ctx state addr).2.store topic key := by
  rcases saveNode_cases ctx state addr with ⟨-, same⟩ | ⟨saved, done⟩
  · rw [same.store]
    exact KeepsRows.refl _ _ _
  · rw [done]
    have appended := saved.written.keepsRows topic key
    unfold Saved.after Saved.marked
    split
    · exact appended.trans
        (rewriteMd_keepsRows ctx saved.placed _ _ _ _ (keepsPlace_setImmutable true) topic key)
    · exact appended

theorem saveNode_node (ctx : Context) (state : State) (addr other : Addr) :
    (saveNode ctx state addr).2.node other = state.node other :=
  congrFun (saveNode_keeps ctx state addr).1 other

theorem saveNode_inStore (can : canSave ctx state addr = true) :
    InStore ctx (saveNode ctx state addr).2 addr := by
  rw [← saveNode_fst] at can
  have node := saveNode_node ctx state addr addr
  rcases saveNode_cases ctx state addr with ⟨failed, -⟩ | ⟨saved, done⟩
  · rw [failed] at can
    cases can
  · have ⟨key, keyed, _, stored, place⟩ := saved.written.key
    rw [done] at node ⊢
    have atMd : saved.after.md addr =
        { state.md addr with t := saved.t, rowid := saved.rowid } := by
      have placed : saved.placed.md addr =
          { state.md addr with t := saved.t, rowid := saved.rowid } := by
        unfold Saved.placed
        rw [State.setMd_md, update_self]
      unfold Saved.after Saved.marked
      split
      · rw [rewriteMd_md]
        exact placed
      · exact placed
    have isNew : newRow ctx.fileOf saved.t (state.md addr).tag saved.record
        (state.store.rows (state.node addr).topic key) ∈
          saved.placed.store.rows (state.node addr).topic key := by
      unfold Saved.placed
      rw [State.setMd_store, stored, Store.rows_setRows_self, mem_addRow]
      exact Or.inl rfl
    have keeps : KeepsRows saved.placed.store saved.after.store (state.node addr).topic key := by
      unfold Saved.after Saved.marked
      split
      · exact rewriteMd_keepsRows ctx saved.placed _ _ _ _ (keepsPlace_setImmutable true) _ _
      · exact KeepsRows.refl _ _ _
    have ⟨kept, isKept, t, rowid, record⟩ := keeps _ isNew
    have keyIs : keyOf ctx saved.after addr = some key := by
      unfold keyOf
      rw [node, saved.converted]
      exact keyed
    refine ⟨saved.record, key, ?_, keyIs, kept, ?_, ?_, record⟩
    · rw [node]
      exact saved.converted
    · rw [node]
      exact isKept
    · unfold Row.isAt
      rw [atMd, t, rowid]
      simp [newRow, place]

end Nodes

section Records

variable {schema : Schema} {graph : Graph}

theorem hook_of_isHook {topic : String} {col : Col} (among : col ∈ schema.cols topic)
    (isHook : schema.isHook topic col.id = true) : col.hook.isSome = true := by
  unfold Schema.isHook Schema.hookLinks at isHook
  unfold Schema.cols at among
  cases known : schema.topic? topic with
  | none =>
    rw [known] at among
    exact absurd among not_mem_nil
  | some found =>
    rw [known] at among isHook
    have isCol : found.col? col.id = some col := colOf_mem found.distinct among
    rw [bind_some, isCol] at isHook
    exact isHook

theorem convert_set_hook {node : Node} {hook : String}
    (isHook : schema.isHook node.topic hook = true) (has : (node.get? hook).isSome = true)
    (cell : Cell) :
    convertNode2tranger schema (node.set hook cell) = convertNode2tranger schema node := by
  have same : ∀ col ∈ (schema.cols node.topic).filter Col.stored,
      recordValue col ((node.set hook cell).get? col.id) = recordValue col (node.get? col.id) ∧
        ((node.set hook cell).get? col.id).isNone = (node.get? col.id).isNone := by
    intro col listed
    have among := (mem_filter.1 listed).1
    by_cases here : col.id = hook
    · rw [here, Node.get?_set_self]
      constructor
      · unfold recordValue
        rw [if_pos (hook_of_isHook among (here ▸ isHook)),
          if_pos (hook_of_isHook among (here ▸ isHook))]
      · rw [isNone_some, isNone_eq_false_iff.2 has]
    · rw [Node.get?_set_ne _ _ here]
      exact ⟨rfl, rfl⟩
  unfold convertNode2tranger
  rw [Node.set_topic]
  dsimp only
  have missing : (((schema.cols node.topic).filter Col.stored).any fun col =>
      col.required && ((node.set hook cell).get? col.id).isNone) =
      ((schema.cols node.topic).filter Col.stored).any fun col =>
        col.required && (node.get? col.id).isNone := by
    rw [Bool.eq_iff_iff, List.any_eq_true, List.any_eq_true]
    refine exists_congr fun col => and_congr_right fun listed => ?_
    rw [(same col listed).2]
  rw [missing]
  split
  · rfl
  · congr 1
    apply filterMap_congr
    intro col listed
    rw [(same col listed).1]

/-- Two graphs whose nodes are written as the same records, but for some. -/
def SameRecords (schema : Schema) (apart : Addr → Prop) (before after : Graph) : Prop :=
  ∀ addr, ¬ apart addr →
    convertNode2tranger schema (after.heap addr) = convertNode2tranger schema (before.heap addr)

variable {apart : Addr → Prop}

theorem SameRecords.refl (graph : Graph) : SameRecords schema apart graph graph := fun _ _ => rfl

theorem SameRecords.trans {first second third : Graph} (left : SameRecords schema apart first second)
    (right : SameRecords schema apart second third) : SameRecords schema apart first third :=
  fun addr notApart => (right addr notApart).trans (left addr notApart)

theorem sameRecords_setHook {addr : Addr} {hook : String}
    (isHook : schema.isHook (graph.heap addr).topic hook = true)
    (has : ((graph.heap addr).get? hook).isSome = true) (cell : Cell) :
    SameRecords schema apart graph (graph.setField addr hook cell) := by
  intro other _
  rw [heap_setField]
  by_cases here : other = addr
  · rw [here, update_self]
    exact convert_set_hook isHook has cell
  · rw [update_of_ne here]

theorem sameRecords_setField {addr : Addr} (within : apart addr) (field : String) (cell : Cell) :
    SameRecords schema apart graph (graph.setField addr field cell) := by
  intro other notApart
  have ne : other ≠ addr := fun same => notApart (same ▸ within)
  rw [heap_setField, update_of_ne ne]

theorem sameRecords_setLink {hook : String} {parent child : Addr} {link : Link}
    (found : link.Checked schema graph hook parent child) (within : apart child)
    (hookCell childCell : Cell) :
    SameRecords schema apart graph
      ((graph.setField parent hook hookCell).setField child link.field childCell) := by
  have isHook : schema.isHook (graph.heap parent).topic hook = true :=
    Schema.isHook_of_linksTo (Schema.childField_linksTo found.linked)
  have first : SameRecords schema apart graph (graph.setField parent hook hookCell) :=
    sameRecords_setHook isHook (by rw [found.hookFound]; rfl) hookCell
  exact first.trans (sameRecords_setField within link.field childCell)

theorem sameRecords_loadLinks (typed : graph.Typed) (child : Addr) :
    SameRecords schema apart graph (loadLinks schema graph child) := by
  have inner : ∀ (refs : List String) (field : String) (first : Graph), first.Typed →
      SameRecords schema apart first (refs.foldl (fun graph ref =>
        linkChildToParent schema graph child field ref) first) ∧
      (refs.foldl (fun graph ref =>
        linkChildToParent schema graph child field ref) first).Typed := by
    intro refs field first firstTyped
    apply foldlRecOn (motive := fun loaded : Graph =>
      SameRecords schema apart first loaded ∧ loaded.Typed)
    · exact ⟨SameRecords.refl first, firstTyped⟩
    · intro loaded sofar ref _
      refine ⟨sofar.1.trans ?_, (linkChildToParent_same sofar.2 child field ref).typed sofar.2⟩
      rcases @linkChildToParent_cases schema loaded sofar.2 child field ref
        with same | ⟨parent, hook, cell, isHook, has, done⟩
      · rw [same]
        exact SameRecords.refl loaded
      · rw [done]
        exact sameRecords_setHook isHook has cell
  have whole : SameRecords schema apart graph (loadLinks schema graph child) ∧
      (loadLinks schema graph child).Typed := by
    apply foldlRecOn (motive := fun loaded : Graph =>
      SameRecords schema apart graph loaded ∧ loaded.Typed)
    · exact ⟨SameRecords.refl graph, typed⟩
    · intro loaded sofar col _
      split
      · rename_i cell _
        have next := inner (refTexts cell) col.id loaded sofar.2
        exact ⟨sofar.1.trans next.1, next.2⟩
      · exact sofar
  exact whole.1

theorem sameRecords_cleanRef (child : Addr) (within : apart child) (cleaned : Graph × Bool)
    (ref : String) :
    SameRecords schema apart cleaned.1 (cleanRef schema child cleaned ref).1 := by
  unfold cleanRef
  dsimp only
  split
  · exact SameRecords.refl cleaned.1
  split
  · split
    · rename_i unlinked done
      unfold unlinkNodes at done
      rw [map_eq_some_iff] at done
      obtain ⟨link, checked, rfl⟩ := done
      exact sameRecords_setLink (checkLink_some checked) within _ _
    · exact SameRecords.refl cleaned.1
  · apply foldlRecOn (motive := fun graph : Graph => SameRecords schema apart cleaned.1 graph)
    · exact SameRecords.refl cleaned.1
    · intro graph sofar col _
      split
      · exact sofar.trans (sameRecords_setField within col.id _)
      · exact sofar

theorem sameRecords_cleanNode (graph : Graph) (child : Addr) (within : apart child) :
    SameRecords schema apart graph (cleanNode schema graph child).1 := by
  unfold cleanNode
  apply foldlRecOn (motive := fun cleaned : Graph × Bool =>
    SameRecords schema apart graph cleaned.1)
  · exact SameRecords.refl graph
  · intro cleaned sofar ref _
    exact sofar.trans (sameRecords_cleanRef child within cleaned ref)

end Records

end Yunetas.TrTreedb
