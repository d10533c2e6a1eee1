import Yunetas.Lib.Json

/-!
# Topics, columns and the values they accept

A treedb has topics and a topic has columns. A column flagged `hook` holds the children linked to
a node, one flagged `fkey` the references to its parents, and the others hold json values that
`normalize_node_field_value` fits to the column when a node is written and `set_mem_field_value`
when it is read back. The flags and the descriptor of a column are those of its parsed schema; the
descriptor of an fkey column is the one `parse_hooks` writes into it.
-/

namespace Yunetas.TrTreedb

open List

/-- The `type` of a column. -/
inductive ColType where
  | string
  | integer
  | real
  | boolean
  /-- `list` or `array`. -/
  | list
  /-- `dict` or `object`. -/
  | dict
  | blob
  | unknown
  deriving DecidableEq, Repr

/-- A column of a topic. -/
structure Col where
  id : String
  type : ColType
  default : Option Json := none
  /-- For a column flagged `hook`: the column of each child topic that refers back to it. -/
  hook : Option (List (String × String)) := none
  /-- The values an `enum` column lists. -/
  enumValues : Option (List String) := none
  fkey : Bool := false
  persistent : Bool := false
  required : Bool := false
  notnull : Bool := false
  wild : Bool := false
  inherit : Bool := false
  enum : Bool := false
  template : Bool := false
  time : Bool := false
  now : Bool := false

/-- The column of a name, among some. -/
def colOf (cols : List Col) (field : String) : Option Col := cols.find? fun col => col.id = field

theorem colOf_some {cols : List Col} {field : String} {col : Col}
    (found : colOf cols field = some col) : col ∈ cols ∧ col.id = field :=
  ⟨mem_of_find?_eq_some found, by simpa using find?_some found⟩

theorem colOf_mem {cols : List Col} (distinct : (cols.map Col.id).Nodup) {col : Col}
    (among : col ∈ cols) : colOf cols col.id = some col := by
  induction cols with
  | nil => exact absurd among not_mem_nil
  | cons first rest ih =>
    rw [map_cons, nodup_cons] at distinct
    unfold colOf
    rw [find?_cons]
    rcases mem_cons.1 among with rfl | later
    · simp
    · have ne : first.id ≠ col.id := fun same =>
        distinct.1 (same ▸ mem_map_of_mem later)
      simp only [ne, decide_false]
      exact ih distinct.2 later

/-- Where the id of a node created without one comes from: a flag of the column `id`. -/
inductive IdFlag where
  | uuid
  | rowid
  | qualified
  | none
  deriving DecidableEq, Repr

/-- A topic of a treedb; its primary key is `id`. -/
structure Topic where
  name : String
  cols : List Col
  /-- Secondary keys, `pkey2s`. -/
  pkey2s : List String := []
  idFlag : IdFlag := .none
  distinct : (cols.map Col.id).Nodup := by decide

/-- The topic of the snapshots. -/
def snapsTopic : Topic where
  name := "__snaps__"
  idFlag := .rowid
  cols := [
    { id := "id", type := .string, persistent := true, required := true },
    { id := "name", type := .string, persistent := true, required := true },
    { id := "date", type := .string, persistent := true, required := true },
    { id := "active", type := .boolean, persistent := true, required := true },
    { id := "description", type := .string, persistent := true }]

/-- The topic of the graphs. -/
def graphsTopic : Topic where
  name := "__graphs__"
  idFlag := .rowid
  cols := [
    { id := "id", type := .string, persistent := true, required := true },
    { id := "topic", type := .string, persistent := true, required := true },
    { id := "active", type := .boolean, persistent := true },
    { id := "time", type := .integer, persistent := true, time := true, now := true },
    { id := "properties", type := .blob, persistent := true }]

/-- The topics of a treedb: those of its user after the two system topics. -/
structure Schema where
  userTopics : List Topic
  distinct : ((snapsTopic :: graphsTopic :: userTopics).map Topic.name).Nodup := by decide

namespace Topic

/-- The column of a name. -/
def col? (topic : Topic) (field : String) : Option Col := colOf topic.cols field

/-- Columns flagged `hook`. -/
def hookCols (topic : Topic) : List Col := topic.cols.filter fun col => col.hook.isSome

/-- Columns flagged `fkey`. -/
def fkeyCols (topic : Topic) : List Col := topic.cols.filter fun col => col.fkey

end Topic

namespace Schema

/-- Every topic, in the order they are created. -/
def topics (schema : Schema) : List Topic := snapsTopic :: graphsTopic :: schema.userTopics

/-- The topic of a name. -/
def topic? (schema : Schema) (name : String) : Option Topic :=
  schema.topics.find? fun topic => topic.name = name

/-- The secondary keys of a topic: `treedb_topic_pkey2s`, without the empty ones. -/
def pkey2s (schema : Schema) (name : String) : List String :=
  match schema.topic? name with
  | some topic => topic.pkey2s.filter fun pkey2 => pkey2 ≠ ""
  | none => []

/-- The columns of a topic: `tranger2_dict_topic_desc_cols`. -/
def cols (schema : Schema) (name : String) : List Col :=
  match schema.topic? name with
  | some topic => topic.cols
  | none => []

/-- The links of a hook: the column of each child topic that refers back to it. -/
def hookLinks (schema : Schema) (topic hook : String) : Option (List (String × String)) :=
  ((schema.topic? topic).bind fun topic => topic.col? hook).bind Col.hook

/-- The column of a child topic that refers back to a hook. -/
def childField (schema : Schema) (topic hook childTopic : String) : Option String :=
  (schema.hookLinks topic hook).bind (Dict.lookupEntries childTopic)

/-- A hook that links a column: the parent topic and the hook, in the order of `parse_hooks`. -/
def linksTo (schema : Schema) (childTopic field : String) : List (String × String) :=
  schema.topics.flatMap fun parent => parent.hookCols.filterMap fun col =>
    if (childTopic, field) ∈ col.hook.getD [] then some (parent.name, col.id) else none

/-- The descriptor `parse_hooks` leaves in an fkey column: each hook that links the column replaces
it, so it is that of the last one. -/
def fkeyDesc (schema : Schema) (childTopic field : String) : Option (String × String) :=
  (schema.linksTo childTopic field).getLast?

end Schema

/-- The conversions between json values that a column asks for, of `helpers.c`. -/
structure Conversions where
  jn2string : Json → String
  jn2integer : Json → Int
  jn2real : Json → UInt64
  legalstring2json : String → Option Json

/-- `jn2bool`: a real is false when its bits but the sign are zero. -/
def jn2bool : Option Json → Bool
  | some (.real bits) => bits &&& 0x7fffffffffffffff ≠ 0
  | some (.integer value) => value ≠ 0
  | some (.string value) => value ≠ ""
  | some (.boolean value) => value
  | _ => false

/-- `json_str_in_list` ignoring the case. -/
def strInList (values : List String) (value : String) : Bool :=
  values.any fun other => other.toList.map Char.toLower = value.toList.map Char.toLower

/-- `check_enum_value`: the value, or each value of a list, that is a string is in the enum. -/
def checkEnumValue (col : Col) (value : Json) : Bool :=
  match col.enumValues with
  | none => true
  | some values =>
    let listed : Json → Bool := fun item => match item.stringValue with
      | some text => strInList values text
      | none => true
    match value with
    | .array items => items.all listed
    | item => listed item

/-- What a link column holds before any link is made, by its type. -/
def emptyLink : ColType → Option Json
  | .dict => some (.object [])
  | .string => some (.string "")
  | .list => some (.array [])
  | _ => none

/-- A json list from a value: itself, or the text of one, or an empty one. -/
def listValue (conv : Conversions) : Option Json → Json
  | some (.array items) => .array items
  | some (.string text) =>
    match conv.legalstring2json text with
    | some (.array items) => .array items
    | _ => .array []
  | _ => .array []

/-- A json object from a value: itself, or the text of one, or an empty one. -/
def dictValue (conv : Conversions) : Option Json → Json
  | some (.object entries) => .object entries
  | some (.string text) =>
    match conv.legalstring2json text with
    | some (.object entries) => .object entries
    | _ => .object []
  | _ => .object []

/-- A string column: another type is refused unless the column is `wild`. -/
def stringValue (conv : Conversions) (col : Col) : Option Json → Option Json
  | none => some (.string "")
  | some (.string text) => some (.string text)
  | some value => if col.wild then some (.string (conv.jn2string value)) else none

/-- The value of a column that is neither a link, an enum nor a template. -/
def typedValue (conv : Conversions) (now : Int) (col : Col) (value : Option Json) : Option Json :=
  match col.type with
  | .list => some (listValue conv value)
  | .dict => some (dictValue conv value)
  | .blob => some (value.getD (.object []))
  | .string => stringValue conv col value
  | .integer =>
    if col.now then some (.integer now)
    else match value with
      | none => some (.integer (if col.time then now else 0))
      | some (.integer number) => some (.integer number)
      | some other => some (.integer (conv.jn2integer other))
  | .real =>
    match value with
    | none => some (.real 0)
    | some (.real bits) => some (.real bits)
    | some other => some (.real (conv.jn2real other))
  | .boolean => some (.boolean (jn2bool value))
  | .unknown => none

/-- The value of an enum column; one that was given must be of the enum. -/
def enumValue (conv : Conversions) (col : Col) (value : Option Json) : Option Json :=
  let stored := match col.type with
    | .string => stringValue conv col value
    | .list => some (listValue conv value)
    | _ => none
  stored.bind fun json =>
    if value.isSome && !checkEnumValue col json then none else some json

/-- A json null was given. -/
def isNull : Option Json → Bool
  | some .null => true
  | _ => false

/-- `normalize_node_field_value`: what a node stores for a given value, `none` when it is refused.
Nothing given to a link column gets into it. -/
def normalizeNodeFieldValue (conv : Conversions) (now : Int) (col : Col) (value : Option Json) :
    Option Json :=
  let link := col.hook.isSome || col.fkey
  if col.required && value.isNone then none
  else if isNull value && !(link || col.enum) then
    if col.notnull then none else some .null
  else if link then emptyLink col.type
  else if col.enum then enumValue conv col value
  else if col.template then some (dictValue conv value)
  else typedValue conv now col value

/-- `set_mem_field_value`: what a node read from a record gets for the record's value, `none` when
the type of the column is unknown. -/
def setMemFieldValue (conv : Conversions) (col : Col) (value : Option Json) : Option Json :=
  match col.type with
  | .list =>
    match value with
    | some (.array items) => some (.array items)
    | _ => some (.array [])
  | .dict =>
    match value with
    | some (.object entries) => some (.object entries)
    | _ => some (.object [])
  | .string =>
    match value with
    | none => some (.string "")
    | some (.string text) => some (.string text)
    | some other => some (.string (conv.jn2string other))
  | .integer =>
    match value with
    | none => some (.integer 0)
    | some (.integer number) => some (.integer number)
    | some other => some (.integer (conv.jn2integer other))
  | .real =>
    match value with
    | none => some (.real 0)
    | some (.real bits) => some (.real bits)
    | some other => some (.real (conv.jn2real other))
  | .boolean => some (.boolean (jn2bool value))
  | .blob => some (value.getD (.object []))
  | .unknown => none

end Yunetas.TrTreedb
