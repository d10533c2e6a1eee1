import Yunetas.Timeranger2.Topic
import Yunetas.TrTreedb.Graph

/-!
# Nodes as records of the store

A node is written as the record of its persistent columns and of its links: a hook is written
empty, an fkey as its references. A record is read back column by column. A reference to a parent
is the text `topic^id^hook`, formatted in a buffer of `NAME_MAX` bytes.
-/

namespace Yunetas.TrTreedb

open Timeranger2 (nameMax)

/-- The bytes that a buffer has room for, `none` when they end inside a character: `json_string`
takes no such text. -/
def fit : Nat → List Char → Option (List Char)
  | _, [] => some []
  | room, char :: rest =>
    if char.utf8Size ≤ room then (fit (room - char.utf8Size) rest).map (char :: ·)
    else if room = 0 then some [] else none

/-- `snprintf` into a buffer of `NAME_MAX` bytes, and the text of it. -/
def nameText (text : String) : Option String :=
  (fit (nameMax - 1) text.toList).map String.ofList

/-- A reference to a parent. -/
def parentRef (topic id hook : String) : Option String :=
  nameText (topic ++ "^" ++ id ++ "^" ++ hook)

/-- The key of the column of a child in a dictionary of a parent that holds columns. -/
def dataKey (childTopic childId field : String) : Option String :=
  nameText (childTopic ++ "~" ++ childId ++ "~" ++ field)

/-- `count_char`. -/
def countChar (text : String) (char : Char) : Nat := text.toList.count char

/-- The pieces of a text between delimiters, after one already begun; an empty piece is none. -/
def pieces (delim : Char) : List Char → List Char → List (List Char)
  | begun, [] => if begun = [] then [] else [begun]
  | begun, char :: rest =>
    if char = delim then
      if begun = [] then pieces delim [] rest else begun :: pieces delim [] rest
    else pieces delim (begun ++ [char]) rest

/-- `split2`: the pieces between delimiters that are not empty. -/
def split2 (text : String) (delim : Char) : List String :=
  (pieces delim [] text.toList).map String.ofList

/-- `decode_parent_ref`: the topic, the id and the hook of a reference. -/
def decodeParentRef (ref : String) : Option (String × String × String) :=
  match split2 ref '^' with
  | [topic, id, hook] => some (topic, id, hook)
  | _ => none

/-- A text with exactly two carets. -/
def isRef (text : String) : Bool := countChar text '^' = 2

/-- `get_fkey_refs`: the references that a cell holds. -/
def getFkeyRefs : Cell → List String
  | .json (.string text) => if isRef text then [text] else []
  | .json _ => []
  | .list items => items.filterMap fun item => match item with
    | .json (.string text) => if isRef text then some text else none
    | _ => none
  | .dict entries => (entries.map Prod.fst).filter fun key => isRef key

/-- `get_hook_refs`: the children that a cell refers to. -/
def getHookRefs (heap : Addr → Node) : Cell → List String
  | .json _ => []
  | .list items => items.filterMap fun item => match item with
    | .node addr =>
      ((heap addr).str? "id").bind fun id => nameText ((heap addr).topic ++ "^" ++ id)
    | .json (.string text) => if countChar text '~' = 2 then some text else none
    | _ => none
  | .dict entries => entries.filterMap fun entry =>
    if countChar entry.1 '~' = 2 then some entry.1
    else if isRef entry.1 then none
    else match entry.2 with
      | .node addr => nameText ((heap addr).topic ++ "^" ++ entry.1)
      | _ => none

/-- `get_node_down_refs`: the children in the hooks of a node. -/
def getNodeDownRefs (schema : Schema) (heap : Addr → Node) (node : Node) : List String :=
  ((schema.cols node.topic).filter fun col => col.hook.isSome).flatMap fun col =>
    match node.get? col.id with
    | some cell => getHookRefs heap cell
    | none => []

/-- `get_node_up_refs`: the references to parents in the fkeys of a node. -/
def getNodeUpRefs (schema : Schema) (node : Node) : List String :=
  ((schema.cols node.topic).filter fun col => col.fkey).flatMap fun col =>
    match node.get? col.id with
    | some cell => getFkeyRefs cell
    | none => []

/-- The reference of an item of an fkey list: a text with two carets, or an object that names the
parent; an empty text is skipped and so is what is neither. -/
def filtraItem : Item → Option (List String)
  | .json (.string text) => if text = "" then some [] else if isRef text then some [text] else none
  | .json (.object entries) =>
    let text (field : String) : Option String :=
      (Json.Fields.get? entries field).bind Json.stringValue
    match text "topic_name", text "id", text "hook_name" with
    | some topic, some id, some hook => some (parentRef topic id hook).toList
    | _, _, _ => none
  | .json _ => some []
  | .data _ _ => some []
  | .node _ => none

/-- The references that `filtra_fkeys` finds in a cell, `none` where one is wrong. -/
def filtraRefs : Cell → Option (List String)
  | .list items => (items.mapM filtraItem).map List.flatten
  | .dict entries => (entries.map Prod.fst).mapM fun key => if isRef key then some key else none
  | .json (.string text) => if text = "" then some [] else if isRef text then some [text] else none
  | .json _ => none

/-- `filtra_fkeys`: the references of a cell, as a value of the type of the column. -/
def filtraFkeys (type : ColType) (cell : Cell) : Option Json :=
  (filtraRefs cell).bind fun refs =>
    match type with
    | .list => some (.array (refs.map .string))
    | .dict => some (.object (refs.foldl (fun entries ref => Json.Fields.set entries ref
        (.boolean true)) []))
    | .string =>
      match refs with
      | [] => some (.string "")
      | [ref] => some (.string ref)
      | _ => none
    | _ => none

/-- A column that is written: a persistent one or a link. -/
def Col.stored (col : Col) : Bool := col.persistent || col.hook.isSome || col.fkey

/-- What is written of a cell: nothing of the children, the references of an fkey, the value of any
other column. -/
def recordValue (col : Col) (cell : Option Cell) : Option Json :=
  if col.hook.isSome then emptyLink col.type
  else if col.fkey then cell.bind (filtraFkeys col.type)
  else cell.map Cell.toJson

/-- `convert_node2tranger`: the record of a node, `none` when a required field is missing. -/
def convertNode2tranger (schema : Schema) (node : Node) : Option Json.Fields :=
  let cols := (schema.cols node.topic).filter Col.stored
  if cols.any fun col => col.required && (node.get? col.id).isNone then none
  else some (cols.filterMap fun col =>
    (recordValue col (node.get? col.id)).map fun value => (col.id, value))

/-- `convert_tranger2record`: the fields of a node read from a record. -/
def convertTranger2record (conv : Conversions) (cols : List Col) (record : Json.Fields) :
    List (String × Cell) :=
  cols.filterMap fun col =>
    (setMemFieldValue conv col ((record.get? col.id).or col.default)).map fun value =>
      (col.id, Cell.ofJson value)

/-- The fields of a new node, from the columns on: `create_pure_record`. -/
def createPureRecord (conv : Conversions) (now : Int) (kw : Json.Fields) :
    List Col → Option (List (String × Cell))
  | [] => some []
  | col :: rest =>
    match normalizeNodeFieldValue conv now col ((kw.get? col.id).or col.default) with
    | none => none
    | some value => (createPureRecord conv now kw rest).map ((col.id, Cell.ofJson value) :: ·)

/-- The new values of an update, from the columns on: every column that is no link and that the
update names, all of them or none. -/
def normalizeUpdates (conv : Conversions) (now : Int) (kw : Json.Fields) :
    List Col → Option (List (String × Cell))
  | [] => some []
  | col :: rest =>
    if col.hook.isSome || col.fkey then normalizeUpdates conv now kw rest
    else match kw.get? col.id with
      | none => normalizeUpdates conv now kw rest
      | some given =>
        match normalizeNodeFieldValue conv now col (some given) with
        | none => none
        | some value => (normalizeUpdates conv now kw rest).map ((col.id, Cell.ofJson value) :: ·)

/-- `json_object_update`. -/
def Node.update (node : Node) (updates : List (String × Cell)) : Node :=
  updates.foldl (fun node entry => node.set entry.1 entry.2) node

end Yunetas.TrTreedb
