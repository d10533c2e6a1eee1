import Yunetas.TrTreedb.Effects

/-!
# Fields and columns

A record has one field for each column that is written, a node read back or newly made one for each
column; a field is found by the column of its name, and what a column takes from the previous node
of an id is found there.
-/

namespace Yunetas.TrTreedb

open List Option

theorem lookup_columns {β : Type} (cols : List Col) (distinct : (cols.map Col.id).Nodup)
    (value : Col → Option β) (field : String) :
    Dict.lookupEntries field (cols.filterMap fun col => (value col).map fun item => (col.id, item))
      = (colOf cols field).bind value := by
  induction cols with
  | nil => rfl
  | cons col rest ih =>
    rw [map_cons, nodup_cons] at distinct
    have later := ih distinct.2
    unfold colOf at later ⊢
    rw [filterMap_cons, find?_cons]
    by_cases here : col.id = field
    · have absent : colOf rest field = none := by
        rw [← here]
        unfold colOf
        rw [find?_eq_none]
        intro other among
        simp only [decide_eq_true_eq]
        exact fun same => distinct.1 (same ▸ mem_map_of_mem among)
      unfold colOf at absent
      rw [absent] at later
      simp only [here, decide_true, bind_some]
      cases value col with
      | none => exact later
      | some item =>
        simp [Dict.lookupEntries]
    · simp only [here, decide_false]
      cases value col with
      | none => exact later
      | some item =>
        show Dict.lookupEntries field ((col.id, item) :: _) = _
        simp only [Dict.lookupEntries, here, ↓reduceIte]
        exact later

theorem record_get? {schema : Schema} {node : Node} {record : Json.Fields}
    (distinct : ((schema.cols node.topic).map Col.id).Nodup)
    (converted : convertNode2tranger schema node = some record) (field : String) :
    record.get? field = (colOf ((schema.cols node.topic).filter Col.stored) field).bind fun col =>
      recordValue col (node.get? col.id) := by
  unfold convertNode2tranger at converted
  dsimp only at converted
  split at converted
  · cases converted
  rw [← some.inj converted]
  exact lookup_columns _ (distinct.sublist (filter_sublist.map Col.id)) _ field

theorem Schema.cols_distinct (schema : Schema) (name : String) :
    ((schema.cols name).map Col.id).Nodup := by
  unfold cols
  split
  · exact Topic.distinct _
  · exact nodup_nil

theorem Cell.toJson_eq_string {cell : Cell} {text : String}
    (written : cell.toJson = .string text) : cell = .json (.string text) := by
  cases cell with
  | json value => exact congrArg Cell.json written
  | list items => cases written
  | dict entries => cases written

theorem str?_of_record {schema : Schema} {node : Node} {record : Json.Fields}
    (converted : convertNode2tranger schema node = some record) {field text : String}
    (plain : schema.isLinkField node.topic field = false)
    (found : (record.get? field).bind Json.stringValue = some text) :
    node.str? field = some text := by
  rw [record_get? (schema.cols_distinct node.topic) converted, bind_assoc,
    bind_eq_some_iff] at found
  have ⟨col, isCol, value⟩ := found
  have col_eq := colOf_some isCol
  rw [mem_filter] at col_eq
  have notLink : col.hook.isSome = false ∧ col.fkey = false := by
    have flagged : (col.hook.isSome || col.fkey) ≠ true := by
      intro link
      rw [← col_eq.2, Schema.isLinkField_of_col col_eq.1.1 link] at plain
      cases plain
    simpa using flagged
  unfold recordValue at value
  rw [notLink.1, notLink.2, if_neg Bool.false_ne_true, if_neg Bool.false_ne_true, bind_map,
    bind_eq_some_iff] at value
  have ⟨cell, stored, text_eq⟩ := value
  have isText : cell.toJson = .string text := Json.stringValue_eq_some text_eq
  unfold Node.str?
  rw [← col_eq.2, stored, Cell.toJson_eq_string isText]

theorem known_of_record {schema : Schema} {node : Node} {record : Json.Fields}
    (converted : convertNode2tranger schema node = some record) {field text : String}
    (found : (record.get? field).bind Json.stringValue = some text) :
    (schema.topic? node.topic).isSome := by
  cases known : schema.topic? node.topic with
  | some topic => rfl
  | none =>
    have noCols : schema.cols node.topic = [] := by
      unfold Schema.cols
      rw [known]
    rw [record_get? (schema.cols_distinct node.topic) converted, noCols] at found
    cases found

theorem pureRecord_get? {conv : Conversions} {now : Int} {kw : Json.Fields} {cols : List Col}
    (distinct : (cols.map Col.id).Nodup) {fields : List (String × Cell)}
    (pure : createPureRecord conv now kw cols = some fields) (field : String) :
    Dict.lookupEntries field fields = (colOf cols field).bind fun col =>
      (normalizeNodeFieldValue conv now col ((kw.get? col.id).or col.default)).map Cell.ofJson := by
  rw [← lookup_columns cols distinct]
  congr 1
  revert fields pure
  induction cols with
  | nil =>
    intro fields pure
    exact (some.inj pure).symm
  | cons col rest ih =>
    intro fields pure
    rw [map_cons, nodup_cons] at distinct
    unfold createPureRecord at pure
    rw [filterMap_cons]
    cases taken : normalizeNodeFieldValue conv now col ((kw.get? col.id).or col.default) with
    | none =>
      rw [taken] at pure
      cases pure
    | some value =>
      rw [taken] at pure
      rw [map_eq_some_iff] at pure
      obtain ⟨others, later, rfl⟩ := pure
      rw [ih distinct.2 later]
      rfl

theorem pureRecord_taken {conv : Conversions} {now : Int} {kw : Json.Fields} {cols : List Col}
    {fields : List (String × Cell)} (pure : createPureRecord conv now kw cols = some fields)
    {col : Col} (among : col ∈ cols) :
    ∃ value, normalizeNodeFieldValue conv now col ((kw.get? col.id).or col.default) =
      some value := by
  induction cols generalizing fields with
  | nil => exact absurd among not_mem_nil
  | cons first rest ih =>
    unfold createPureRecord at pure
    split at pure
    · cases pure
    rename_i value taken
    rw [map_eq_some_iff] at pure
    have ⟨others, later, _⟩ := pure
    rcases mem_cons.1 among with rfl | further
    · exact ⟨value, taken⟩
    · exact ih later further

theorem str?_ofJson {node : Node} {field : String} {value : Json}
    (stored : node.get? field = some (.ofJson value)) : node.str? field = value.stringValue := by
  unfold Node.str?
  rw [stored]
  cases value <;> rfl

section Inherit

variable (cols : List Col) (previous node : Node)

theorem inheritLinks_get? {field : String} (plain : ∀ col ∈ cols, col.fkey = true → col.id ≠ field) :
    (inheritLinks cols previous node).1.get? field = node.get? field := by
  apply foldlRecOn (motive := fun inherited : Node × Bool =>
    inherited.1.get? field = node.get? field)
  · rfl
  · intro inherited sofar col among
    rw [mem_filter] at among
    have ne : field ≠ col.id := Ne.symm (plain col among.1 among.2)
    dsimp only
    split
    · rw [Node.get?_set_ne _ _ ne]
      exact sofar
    · rw [Node.get?_set_ne _ _ ne]
      exact sofar
    · exact sofar

@[simp] theorem inheritLinks_topic : (inheritLinks cols previous node).1.topic = node.topic := by
  apply foldlRecOn (motive := fun inherited : Node × Bool => inherited.1.topic = node.topic)
  · rfl
  · intro inherited sofar col _
    dsimp only
    split <;> exact sofar

theorem copyInheritFields_get? (field : String) :
    (copyInheritFields cols previous node).get? field = node.get? field ∨
      (∃ col ∈ cols, col.inherit = true ∧ col.id = field) ∧
        (copyInheritFields cols previous node).get? field = previous.get? field := by
  apply foldlRecOn (motive := fun copied : Node =>
    copied.get? field = node.get? field ∨ (∃ col ∈ cols, col.inherit = true ∧ col.id = field) ∧
        copied.get? field = previous.get? field)
  · exact Or.inl rfl
  · intro copied sofar col among
    rw [mem_filter] at among
    split
    · rename_i cell stored
      by_cases here : field = col.id
      · rw [here, Node.get?_set_self]
        exact Or.inr ⟨⟨col, among.1, among.2, rfl⟩, stored.symm⟩
      · rw [Node.get?_set_ne _ _ here]
        exact sofar
    · exact sofar

@[simp] theorem copyInheritFields_topic :
    (copyInheritFields cols previous node).topic = node.topic := by
  apply foldlRecOn (motive := fun copied : Node => copied.topic = node.topic)
  · rfl
  · intro copied sofar col _
    split <;> exact sofar

end Inherit

/-- What a new node takes from the previous one of its id: in a column that is no link, nothing or
the field of a column flagged so. -/
theorem inheritFrom_get? (topic : Topic) (previous : Option Node) (node : Node) (field : String)
    (plain : ∀ col ∈ topic.cols, col.fkey = true → col.id ≠ field) :
    (inheritFrom topic previous node).1.get? field = node.get? field ∨
      (∃ col ∈ topic.cols, col.inherit = true ∧ col.id = field) ∧ ∃ old, previous = some old ∧
          (inheritFrom topic previous node).1.get? field = old.get? field := by
  cases previous with
  | none => exact Or.inl rfl
  | some old =>
    have links := inheritLinks_get? topic.cols old node plain
    rcases copyInheritFields_get? topic.cols old (inheritLinks topic.cols old node).1 field with
      same | ⟨flagged, taken⟩
    · exact Or.inl (same.trans links)
    · exact Or.inr ⟨flagged, old, rfl, taken⟩

@[simp] theorem inheritFrom_topic (topic : Topic) (previous : Option Node) (node : Node) :
    (inheritFrom topic previous node).1.topic = node.topic := by
  unfold inheritFrom
  cases previous with
  | none => rfl
  | some old => rw [copyInheritFields_topic, inheritLinks_topic]

theorem listValue_ne_string (conv : Conversions) (value : Option Json) (text : String) :
    listValue conv value ≠ .string text := by
  unfold listValue
  split
  · exact Json.noConfusion
  · split <;> exact Json.noConfusion
  · exact Json.noConfusion

theorem dictValue_ne_string (conv : Conversions) (value : Option Json) (text : String) :
    dictValue conv value ≠ .string text := by
  unfold dictValue
  split
  · exact Json.noConfusion
  · split <;> exact Json.noConfusion
  · exact Json.noConfusion

theorem normalize_text {conv : Conversions} {now : Int} {col : Col} {text : String} {value : Json}
    (link : (col.hook.isSome || col.fkey) = false)
    (taken : normalizeNodeFieldValue conv now col (some (.string text)) = some value)
    {other : String} (isText : value = .string other) : other = text := by
  unfold normalizeNodeFieldValue at taken
  rw [link, isText] at taken
  have notNull : isNull (some (Json.string text)) = false := rfl
  simp only [isNone_some, Bool.and_false, Bool.false_eq_true, ↓reduceIte, notNull,
    Bool.false_and] at taken
  split at taken
  · unfold enumValue at taken
    rw [bind_eq_some_iff] at taken
    have ⟨stored, isStored, kept⟩ := taken
    split at kept
    · cases kept
    rw [some.inj kept] at isStored
    split at isStored
    · exact (Json.string.inj (some.inj isStored)).symm
    · exact absurd (some.inj isStored) (listValue_ne_string conv _ other)
    · cases isStored
  split at taken
  · exact absurd (some.inj taken) (dictValue_ne_string conv _ other)
  unfold typedValue at taken
  split at taken
  · exact absurd (some.inj taken) (listValue_ne_string conv _ other)
  · exact absurd (some.inj taken) (dictValue_ne_string conv _ other)
  · exact (Json.string.inj (some.inj taken)).symm
  · exact (Json.string.inj (some.inj taken)).symm
  · split at taken
    · cases taken
    · cases taken
  · cases taken
  · cases taken
  · cases taken

end Yunetas.TrTreedb
