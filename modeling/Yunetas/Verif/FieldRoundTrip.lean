import Yunetas.TrTreedb.Unlinked

/-!
# A field written and read back

A value that a column accepts is kept in the node, written in its record when the column is
persistent or a link, and fitted to the column again when the record is read. The two fittings are
not the same: writing follows the flags of the column and keeps a null as it is, reading follows
only its type. So the field that is read back is the one that was in memory whenever that is a value
of the type of the column, and it is unless it is a null or the object of a `template` column of
another type. A column that is not written comes back as its default.
-/

namespace Yunetas.TrTreedb

open Option

/-- The values of the type of a column. -/
def ColType.holds : ColType → Json → Bool
  | .list, .array _ => true
  | .dict, .object _ => true
  | .string, .string _ => true
  | .integer, .integer _ => true
  | .real, .real _ => true
  | .boolean, .boolean _ => true
  | .blob, _ => true
  | _, _ => false

section Values

variable {conv : Conversions} {now : Int} {col : Col} {given : Option Json} {value : Json}

theorem setMemFieldValue_same :
    setMemFieldValue conv col (some value) = some value ↔ col.type.holds value = true := by
  unfold setMemFieldValue
  cases col.type <;> cases value <;> simp [ColType.holds, jn2bool]

theorem holds_listValue : ColType.list.holds (listValue conv given) = true := by
  unfold listValue
  split
  · rfl
  · split <;> rfl
  · rfl

theorem holds_dictValue : ColType.dict.holds (dictValue conv given) = true := by
  unfold dictValue
  split
  · rfl
  · split <;> rfl
  · rfl

theorem holds_stringValue (taken : stringValue conv col given = some value) :
    ColType.string.holds value = true := by
  unfold stringValue at taken
  split at taken
  · rw [← some.inj taken]
    rfl
  · rw [← some.inj taken]
    rfl
  · split at taken
    · rw [← some.inj taken]
      rfl
    · cases taken

theorem holds_typedValue (taken : typedValue conv now col given = some value) :
    col.type.holds value = true := by
  unfold typedValue at taken
  cases isType : col.type with
  | list =>
    rw [isType] at taken
    rw [← some.inj taken]
    exact holds_listValue
  | dict =>
    rw [isType] at taken
    rw [← some.inj taken]
    exact holds_dictValue
  | string =>
    rw [isType] at taken
    exact holds_stringValue taken
  | integer =>
    rw [isType] at taken
    dsimp only at taken
    split at taken
    · rw [← some.inj taken]
      rfl
    · split at taken <;> (rw [← some.inj taken]; rfl)
  | real =>
    rw [isType] at taken
    dsimp only at taken
    split at taken <;> (rw [← some.inj taken]; rfl)
  | boolean =>
    rw [isType] at taken
    rw [← some.inj taken]
    rfl
  | blob => cases value <;> rfl
  | unknown =>
    rw [isType] at taken
    cases taken

theorem holds_enumValue (taken : enumValue conv col given = some value) :
    col.type.holds value = true := by
  unfold enumValue at taken
  rw [bind_eq_some_iff] at taken
  have ⟨stored, isStored, kept⟩ := taken
  have same : stored = value := by
    split at kept
    · cases kept
    · exact some.inj kept
  rw [same] at isStored
  cases isType : col.type with
  | string =>
    rw [isType] at isStored
    exact holds_stringValue isStored
  | list =>
    rw [isType] at isStored
    rw [← some.inj isStored]
    exact holds_listValue
  | _ =>
    rw [isType] at isStored
    cases isStored

theorem holds_emptyLink (empty : emptyLink col.type = some value) :
    col.type.holds value = true := by
  rcases emptyLink_cases empty with ⟨type, rfl⟩ | ⟨type, rfl⟩ | ⟨type, rfl⟩
  · rw [type]
    rfl
  · rw [type]
    rfl
  · rw [type]
    rfl

section

variable (accepted : normalizeNodeFieldValue conv now col given = some value)
include accepted

theorem normalized_holds (notNull : value = .null → col.type = .blob)
    (template : col.template = true → col.type = .dict ∨ col.type = .blob) :
    col.type.holds value = true := by
  unfold normalizeNodeFieldValue at accepted
  dsimp only at accepted
  split at accepted
  · cases accepted
  split at accepted
  · split at accepted
    · cases accepted
    · have isNull := (some.inj accepted).symm
      rw [notNull isNull, isNull]
      rfl
  split at accepted
  · exact holds_emptyLink accepted
  split at accepted
  · exact holds_enumValue accepted
  split at accepted
  · rename_i isTemplate
    rw [← some.inj accepted]
    rcases template isTemplate with isDict | isBlob
    · rw [isDict]
      exact holds_dictValue
    · rw [isBlob]
      cases dictValue conv given <;> rfl
  · exact holds_typedValue accepted

theorem recordValue_accepted :
    recordValue col (some (.ofJson value)) = some value := by
  have empty : (col.hook.isSome || col.fkey) = true → emptyLink col.type = some value := by
    intro link
    unfold normalizeNodeFieldValue at accepted
    dsimp only at accepted
    rw [link, Bool.true_or, Bool.not_true, Bool.and_false, if_neg Bool.false_ne_true,
      if_pos rfl] at accepted
    split at accepted
    · cases accepted
    · exact accepted
  unfold recordValue
  split
  · rename_i isHook
    exact empty (by rw [isHook, Bool.true_or])
  split
  · rename_i isFkey
    exact (emptyLink_spec (empty (by rw [isFkey, Bool.or_true]))).written
  · rw [map_some, Cell.toJson_ofJson]

end

end Values

/-- A topic of notes: a title that may be null, a draft that is not persistent, and a layout that is
the object of a template in a column of texts. -/
def notesTopic : Topic where
  name := "notes"
  cols := [
    { id := "id", type := .string, persistent := true, required := true },
    { id := "title", type := .string, persistent := true },
    { id := "draft", type := .string },
    { id := "layout", type := .string, persistent := true, template := true }]

/-- A treedb of notes. -/
def notesSchema : Schema where
  userTopics := [notesTopic]

/-- The conversions, where a null and an object are the empty text. -/
def notesConv : Conversions := ⟨fun _ => "", fun _ => 0, fun _ => 0, fun _ => none⟩

/-- A note with a title. -/
def titledNote : Node where
  topic := "notes"
  fields := [("id", .json (.string "1")), ("title", .json (.string "shopping")),
    ("draft", .json (.string "milk"))]

end Yunetas.TrTreedb
