import Yunetas.TrTreedb.Fields

/-!
# Nodes without links

A node that was never linked has in each hook and each fkey what `normalize_node_field_value` puts
there: an empty list, dictionary or text. Its record has the same, and it is filed under its id. It
has no children and no parents, so deleting it, forced or not, unlinks nothing, and a further
instance of its id inherits no links.
-/

namespace Yunetas.TrTreedb

open List Option

/-- A node with nothing in its links. -/
def Node.Unlinked (cols : List Col) (node : Node) : Prop :=
  ∀ col ∈ cols, (col.hook.isSome || col.fkey) = true →
    ∃ value, emptyLink col.type = some value ∧ node.get? col.id = some (Cell.ofJson value)

/-- A record with nothing in its links. -/
def RecordUnlinked (cols : List Col) (record : Json.Fields) : Prop :=
  ∀ col ∈ cols, (col.hook.isSome || col.fkey) = true →
    ∃ value, emptyLink col.type = some value ∧ record.get? col.id = some value

theorem emptyLink_cases {type : ColType} {value : Json} (empty : emptyLink type = some value) :
    type = .dict ∧ value = .object [] ∨ type = .string ∧ value = .string "" ∨
      type = .list ∧ value = .array [] := by
  cases type with
  | dict => exact Or.inl ⟨rfl, (some.inj empty).symm⟩
  | string => exact Or.inr (Or.inl ⟨rfl, (some.inj empty).symm⟩)
  | list => exact Or.inr (Or.inr ⟨rfl, (some.inj empty).symm⟩)
  | _ => cases empty

/-- An empty link holds no references and no children, and is written as it is. -/
structure EmptyLink (type : ColType) (value : Json) : Prop where
  refs : getFkeyRefs (Cell.ofJson value) = []
  texts : ∀ ref ∈ refTexts (Cell.ofJson value), ref = ""
  children : ∀ heap, getHookRefs heap (Cell.ofJson value) = []
  held : hookList (Cell.ofJson value) = []
  written : filtraFkeys type (Cell.ofJson value) = some value
  text : ∀ text, value.stringValue = some text → text = ""

theorem emptyLink_spec {type : ColType} {value : Json}
    (empty : emptyLink type = some value) : EmptyLink type value := by
  rcases emptyLink_cases empty with ⟨rfl, rfl⟩ | ⟨rfl, rfl⟩ | ⟨rfl, rfl⟩
  · exact ⟨rfl, fun ref among => absurd among not_mem_nil, fun _ => rfl, rfl, rfl, nofun⟩
  · exact ⟨by decide, fun ref among => mem_singleton.1 among, fun _ => rfl, rfl, rfl,
      fun text isText => (some.inj isText).symm⟩
  · exact ⟨rfl, fun ref among => absurd among not_mem_nil, fun _ => rfl, rfl, rfl, nofun⟩

theorem emptyLink_read (conv : Conversions) {col : Col} {value : Json}
    (empty : emptyLink col.type = some value) :
    setMemFieldValue conv col (some value) = some value := by
  unfold setMemFieldValue
  rcases emptyLink_cases empty with ⟨type, rfl⟩ | ⟨type, rfl⟩ | ⟨type, rfl⟩
  · rw [type]
  · rw [type]
  · rw [type]

section Records

variable {schema : Schema} {node : Node} {record : Json.Fields}

theorem record_get?_col (converted : convertNode2tranger schema node = some record) {col : Col}
    (among : col ∈ schema.cols node.topic) (stored : col.stored = true) :
    record.get? col.id = recordValue col (node.get? col.id) := by
  have distinct := schema.cols_distinct node.topic
  rw [record_get? distinct converted, colOf_mem
    (distinct.sublist (filter_sublist.map Col.id)) (mem_filter.2 ⟨among, stored⟩)]
  rfl

section

variable (unlinked : node.Unlinked (schema.cols node.topic))
  (converted : convertNode2tranger schema node = some record)
include unlinked converted

theorem Node.Unlinked.recorded : RecordUnlinked (schema.cols node.topic) record := by
  intro col among link
  have ⟨value, empty, stored⟩ := unlinked col among link
  refine ⟨value, empty, ?_⟩
  have isStored : col.stored = true := by
    unfold Col.stored
    rw [Bool.or_assoc, link, Bool.or_true]
  rw [record_get?_col converted among isStored, stored]
  unfold recordValue
  cases isHook : col.hook.isSome with
  | true => exact empty
  | false =>
    rw [isHook, Bool.false_or] at link
    rw [link]
    exact (emptyLink_spec empty).written

theorem Node.Unlinked.str?_id {key : String}
    (keyed : (record.get? "id").bind Json.stringValue = some key) (notEmpty : key ≠ "") :
    ∃ col ∈ schema.cols node.topic, col.id = "id" ∧ (col.hook.isSome || col.fkey) = false ∧
      node.str? "id" = some key := by
  rw [record_get? (schema.cols_distinct node.topic) converted, bind_assoc,
    bind_eq_some_iff] at keyed
  have ⟨col, isCol, value⟩ := keyed
  have col_eq := colOf_some isCol
  rw [mem_filter] at col_eq
  have among := col_eq.1.1
  have notLink : (col.hook.isSome || col.fkey) = false := by
    rw [← Bool.not_eq_true]
    intro link
    have ⟨empty, isEmpty, written⟩ := unlinked.recorded converted col among link
    rw [record_get?_col converted among col_eq.1.2] at written
    rw [written, bind_some] at value
    exact notEmpty ((emptyLink_spec isEmpty).text key value)
  refine ⟨col, among, col_eq.2, notLink, ?_⟩
  rw [Bool.or_eq_false_iff] at notLink
  unfold recordValue at value
  rw [notLink.1, notLink.2, if_neg Bool.false_ne_true, if_neg Bool.false_ne_true, bind_map,
    bind_eq_some_iff] at value
  have ⟨cell, stored, text_eq⟩ := value
  have isText : cell.toJson = .string key := Json.stringValue_eq_some text_eq
  unfold Node.str?
  rw [← col_eq.2, stored, Cell.toJson_eq_string isText]

end

section

variable (conv : Conversions) {cols : List Col} (distinct : (cols.map Col.id).Nodup)
include conv distinct

theorem read_get? (topic field : String) :
    (⟨topic, convertTranger2record conv cols record⟩ : Node).get? field =
      (colOf cols field).bind fun col =>
        (setMemFieldValue conv col ((record.get? col.id).or col.default)).map Cell.ofJson := by
  unfold Node.get? convertTranger2record
  rw [← lookup_columns cols distinct]
  congr 1
  apply filterMap_congr
  intro col _
  rw [Option.map_map]
  rfl

theorem RecordUnlinked.read (unlinked : RecordUnlinked cols record) (topic : String) :
    (⟨topic, convertTranger2record conv cols record⟩ : Node).Unlinked cols := by
  intro col among link
  have ⟨value, empty, stored⟩ := unlinked col among link
  refine ⟨value, empty, ?_⟩
  rw [read_get? conv distinct, colOf_mem distinct among, bind_some, stored, some_or,
    emptyLink_read conv empty, map_some]

theorem str?_id_of_read
    {topic key text : String} (keyed : (record.get? "id").bind Json.stringValue = some key)
    (read : (⟨topic, convertTranger2record conv cols record⟩ : Node).str? "id" = some text) :
    text = key := by
  rw [bind_eq_some_iff] at keyed
  have ⟨value, stored, isKey⟩ := keyed
  have isText := Json.stringValue_eq_some isKey
  unfold Node.str? at read
  rw [read_get? conv distinct] at read
  cases isCol : colOf cols "id" with
  | none =>
    rw [isCol] at read
    cases read
  | some col =>
    rw [isCol, bind_some, (colOf_some isCol).2, stored, isText, some_or] at read
    unfold setMemFieldValue at read
    cases type : col.type <;> rw [type] at read <;>
      simp_all [Cell.ofJson, jn2bool]

end

end Records

section Create

variable {cols : List Col} {node previous : Node}

theorem pureRecord_unlinked {conv : Conversions} {now : Int} {kw : Json.Fields}
    (distinct : (cols.map Col.id).Nodup) {fields : List (String × Cell)}
    (pure : createPureRecord conv now kw cols = some fields) (topic : String) :
    (⟨topic, fields⟩ : Node).Unlinked cols := by
  intro col among link
  have ⟨value, taken⟩ := pureRecord_taken pure among
  refine ⟨value, ?_, ?_⟩
  · unfold normalizeNodeFieldValue at taken
    rw [link] at taken
    simp only [Bool.true_or, Bool.not_true, Bool.and_false, Bool.false_eq_true, ↓reduceIte] at taken
    split at taken
    · cases taken
    · exact taken
  · unfold Node.get?
    rw [pureRecord_get? distinct pure, colOf_mem distinct among, bind_some, taken,
      map_some]

theorem inheritLinks_unlinked (unlinked : previous.Unlinked cols) :
    (∀ field, (inheritLinks cols previous node).1.get? field = node.get? field) ∧
      (inheritLinks cols previous node).2 = false := by
  apply List.foldlRecOn (motive := fun inherited : Node × Bool =>
    (∀ field, inherited.1.get? field = node.get? field) ∧ inherited.2 = false)
  · exact ⟨fun _ => rfl, rfl⟩
  · intro inherited sofar col among
    rw [mem_filter] at among
    have link : (col.hook.isSome || col.fkey) = true := by rw [among.2, Bool.or_true]
    have ⟨value, empty, stored⟩ := unlinked col among.1 link
    have noRefs := (emptyLink_spec empty).refs
    have same : ∀ cell, inherited.1.get? col.id = some cell →
        ∀ field, (inherited.1.set col.id cell).get? field = node.get? field := by
      intro cell found field
      rw [← sofar.1 field, Node.get?_set]
      split
      · rename_i here
        rw [here, found]
      · rfl
    rw [stored]
    dsimp only
    rw [noRefs]
    simp only [filter_nil, map_nil, append_nil, getLast?_nil,
      getD_none, isEmpty_nil, Bool.not_true, Bool.or_false]
    split
    · rename_i items found
      exact ⟨same _ found, sofar.2⟩
    · rename_i text found
      exact ⟨same _ found, sofar.2⟩
    · exact sofar

theorem copyInheritFields_unlinked (old : previous.Unlinked cols) (new : node.Unlinked cols) :
    (copyInheritFields cols previous node).Unlinked cols := by
  apply foldlRecOn (motive := fun copied : Node => copied.Unlinked cols)
  · exact new
  · intro copied sofar col _
    split
    · rename_i cell stored
      intro other among link
      rw [Node.get?_set]
      split
      · rename_i here
        have ⟨value, empty, held⟩ := old other among link
        rw [here, stored] at held
        exact ⟨value, empty, held⟩
      · exact sofar other among link
    · exact sofar

theorem inheritFrom_unlinked (topic : Topic) {previous : Option Node} (name : String)
    (old : ∀ previousNode, previous = some previousNode → previousNode.Unlinked topic.cols)
    {fields : List (String × Cell)} (new : (⟨name, fields⟩ : Node).Unlinked topic.cols) :
    (inheritFrom topic previous ⟨name, fields⟩).1.Unlinked topic.cols ∧
      (inheritFrom topic previous ⟨name, fields⟩).2 = false := by
  cases found : previous with
  | none => exact ⟨new, rfl⟩
  | some previousNode =>
    have unlinked := old previousNode found
    have inherited := @inheritLinks_unlinked topic.cols ⟨name, fields⟩ previousNode unlinked
    refine ⟨copyInheritFields_unlinked unlinked fun col among link => ?_, inherited.2⟩
    rw [inherited.1]
    exact new col among link

end Create

section Delete

variable {schema : Schema} {node : Node}

theorem Node.Unlinked.downRefs (unlinked : node.Unlinked (schema.cols node.topic))
    (heap : Addr → Node) : getNodeDownRefs schema heap node = [] := by
  unfold getNodeDownRefs
  rw [flatMap_eq_nil_iff]
  intro col among
  rw [mem_filter] at among
  have ⟨value, empty, stored⟩ := unlinked col among.1 (by rw [among.2, Bool.true_or])
  rw [stored]
  exact (emptyLink_spec empty).children heap

theorem Node.Unlinked.upRefs (unlinked : node.Unlinked (schema.cols node.topic)) :
    getNodeUpRefs schema node = [] := by
  unfold getNodeUpRefs
  rw [flatMap_eq_nil_iff]
  intro col among
  rw [mem_filter] at among
  have ⟨value, empty, stored⟩ := unlinked col among.1 (by rw [among.2, Bool.or_true])
  rw [stored]
  exact (emptyLink_spec empty).refs

variable {ctx : Context} {state : State} {addr : Addr}

theorem deleteNode_unlinked
    (unlinked : (state.node addr).Unlinked (ctx.schema.cols (state.node addr).topic))
    (force : Bool) :
    deleteNode ctx state addr force =
      if (state.md addr).immutable || ((state.md addr).tag ≠ 0 && !force) then (false, state)
      else
        let deleted := deleteKey ctx state (state.node addr).topic (state.node addr).id
        if deleted.1 then
          (true, { deleted.2 with
            graph := dropId ctx.schema deleted.2.graph (state.node addr).topic
              (state.node addr).id })
        else (false, deleted.2) := by
  have childless : releaseChildren ctx state addr force = (true, state) := by
    unfold releaseChildren
    simp [unlinked.downRefs]
  have parentless : releaseParents ctx state addr force = (true, state) := by
    unfold releaseParents
    simp [unlinked.upRefs]
  unfold deleteNode
  rw [childless]
  dsimp only
  rw [parentless]
  rfl

theorem loadLinks_unlinked {graph : Graph}
    (unlinked : (graph.heap addr).Unlinked (schema.cols (graph.heap addr).topic)) :
    loadLinks schema graph addr = graph := by
  apply List.foldlRecOn (motive := fun loaded : Graph => loaded = graph)
  · rfl
  · intro loaded same col among
    rw [mem_filter] at among
    have ⟨value, empty, stored⟩ := unlinked col among.1 (by rw [among.2, Bool.or_true])
    rw [same, stored]
    apply List.foldlRecOn (motive := fun loaded : Graph => loaded = graph)
    · rfl
    · intro other still ref isRef
      have noRef := (emptyLink_spec empty).texts ref isRef
      rw [still, noRef]
      rfl

end Delete

end Yunetas.TrTreedb
