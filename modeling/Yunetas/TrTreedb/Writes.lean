import Yunetas.TrTreedb.Links
import Yunetas.TrTreedb.Rows

/-!
# Writing nodes

An open treedb is its nodes in memory, the metadata of each and the rows of the store. Creating a
node appends its record; saving one appends another row, with the tag of the node, and marks it
immutable when the node is. What the clock reads and whether a write fails is up to the disk, whose
answers are numbered. The treedb is not `__system__`, whose writes are a schema: what
`check_system_schema_write` refuses there is a parameter, and what `publish_schema_change` writes
are further updates.
-/

namespace Yunetas.TrTreedb

open Timeranger2 (nameMax validStringKey)

/-- What the disk answers to a write. -/
structure Answer where
  t : Nat
  fails : Bool := false
  rewriteFails : Bool := false

/-- What is fixed while a treedb is in use. -/
structure Context where
  schema : Schema
  conv : Conversions
  fileOf : Nat → Nat
  /-- `check_system_schema_write`: the node as it would be stored and as it was. -/
  refuses : Node → Option Node → Bool := fun _ _ => false
  disk : Nat → Answer

/-- The metadata of a node, `__md_treedb__`: the row it stands for and its marks. -/
structure Md where
  t : Nat
  rowid : Nat
  tag : Nat
  immutable : Bool
  deriving DecidableEq, Repr

/-- An open treedb. -/
structure State where
  graph : Graph
  md : Addr → Md
  store : Store
  tick : Nat

namespace State

/-- The node at an address. -/
def node (state : State) (addr : Addr) : Node := state.graph.heap addr

/-- Set the metadata of a node. -/
def setMd (state : State) (addr : Addr) (md : Md) : State :=
  { state with md := Function.update state.md addr md }

end State

variable (ctx : Context)

/-- `tranger2_append_record`: the time and place of the new row, `none` when it fails. -/
def appendRecord (state : State) (topic : String) (tag : Nat) (record : Json.Fields) :
    Option (Nat × Nat) × State :=
  let answer := ctx.disk state.tick
  let asked := { state with tick := state.tick + 1 }
  match (record.get? "id").bind Json.stringValue with
  | none => (none, asked)
  | some key =>
    if validStringKey key && !answer.fails then
      let rows := state.store.rows topic key
      (some (answer.t, nextRowid ctx.fileOf answer.t rows),
        { asked with
          store := state.store.setRows topic key (addRow ctx.fileOf answer.t tag record rows) })
    else (none, asked)

/-- Rewrite the metadata of a row: `tranger2_write_user_flag`, `tranger2_set_system_flag` and
`tranger2_delete_instance`; whether it was found and written. -/
def rewriteMd (state : State) (topic key : String) (t rowid : Nat) (change : Row → Row) :
    Bool × State :=
  let answer := ctx.disk state.tick
  let asked := { state with tick := state.tick + 1 }
  let rows := state.store.rows topic key
  if !answer.rewriteFails && rows.any (Row.isAt t rowid) then
    (true, { asked with store := state.store.setRows topic key (rewriteRow t rowid change rows) })
  else (false, asked)

/-- Put a node into the slots of its secondary keys: the end of `treedb_save_node`. -/
def pointSlots (schema : Schema) (graph : Graph) (addr : Addr) : Graph :=
  let node := graph.heap addr
  (schema.pkey2s node.topic).foldl (fun graph pkey2 =>
    if node.str pkey2 = "" then graph
    else graph.addSecondary node.topic pkey2 node.id (node.str pkey2) addr) graph

/-- Mark a row immutable or not. -/
def Row.setImmutable (set : Bool) (row : Row) : Row := { row with immutable := set }

/-- `treedb_save_node`. -/
def saveNode (state : State) (addr : Addr) : Bool × State :=
  let node := state.node addr
  match convertNode2tranger ctx.schema node with
  | none => (false, state)
  | some record =>
    match appendRecord ctx state node.topic (state.md addr).tag record with
    | (none, asked) => (false, asked)
    | (some (t, rowid), appended) =>
      let saved := appended.setMd addr { state.md addr with t, rowid }
      let marked := if (state.md addr).immutable then
          (rewriteMd ctx saved node.topic node.id t rowid (Row.setImmutable true)).2
        else saved
      (true, { marked with graph := pointSlots ctx.schema marked.graph addr })

/-- `treedb_set_node_immutable`. -/
def setNodeImmutable (state : State) (addr : Addr) (set : Bool) : Bool × State :=
  let node := state.node addr
  let md := state.md addr
  let written := rewriteMd ctx state node.topic node.id md.t md.rowid (Row.setImmutable set)
  (written.1, if written.1 then written.2.setMd addr { md with immutable := set } else written.2)

/-- `treedb_update_node`: a refused update changes nothing, and a save that fails is not told. -/
def updateNode (state : State) (addr : Addr) (kw : Json.Fields) (now : Int) (save : Bool) :
    Bool × State :=
  let node := state.node addr
  match normalizeUpdates ctx.conv now kw (ctx.schema.cols node.topic) with
  | none => (false, state)
  | some updates =>
    let updated := node.update updates
    if ctx.refuses updated (some node) then (false, state)
    else
      let heap := Function.update state.graph.heap addr updated
      let stored := { state with graph := { state.graph with heap } }
      (true, if save then (saveNode ctx stored addr).2 else stored)

/-- A text of the given fields: `kw_get_str` with an empty default. -/
def kwStr (kw : Json.Fields) (field : String) : String :=
  ((kw.get? field).bind Json.stringValue).getD ""

/-- `fkey_ref_id`: the id in the first reference of a value. -/
def fkeyRefId (value : Json) : Option String :=
  let ref := match value with
    | .array (.string text :: _) => text
    | .string text => text
    | _ => ""
  let afterTopic := ref.toList.dropWhile (· ≠ '^')
  let id := String.ofList (afterTopic.tail.takeWhile (· ≠ '^'))
  if id = "" || id.utf8ByteSize > nameMax then none else some id

/-- `build_qualified_id`: the id of the parent and the name, the first secondary key. -/
def buildQualifiedId (topic : Topic) (kw : Json.Fields) : Option String :=
  let name := kwStr kw (topic.pkey2s.head?.getD "")
  let parents := topic.fkeyCols.filterMap fun col => (kw.get? col.id).bind fkeyRefId
  match parents.head? with
  | none => none
  | some parent =>
    let id := parent ++ "." ++ name
    if name = "" || id.utf8ByteSize > nameMax then none else some id

/-- The id of a new node: the one given or the one its topic makes. -/
def newId (state : State) (topic : Topic) (kw : Json.Fields) (uuid : String) : Option String :=
  if kwStr kw "id" ≠ "" then some (kwStr kw "id")
  else match topic.idFlag with
    | .uuid => some uuid
    | .rowid => some (toString (state.store.size topic.name + 1))
    | .qualified => buildQualifiedId topic kw
    | .none => none

/-- `is_valid_key_name`. -/
def isValidKeyName (id : String) : Bool :=
  id ≠ "" && !id.toList.contains '/' && id.toList.head? ≠ some '.'

/-- The secondary keys under which a new node is not yet there. -/
def newPkey2s (graph : Graph) (topic : Topic) (id : String) (kw : Json.Fields) : List String :=
  (topic.pkey2s.filter (· ≠ "")).filter fun pkey2 =>
    (graph.getInstance topic.name pkey2 id (kwStr kw pkey2)).isNone

/-- What a new node takes from the previous one of its id, and whether links are among it. -/
def inheritFrom (topic : Topic) (previous : Option Node) (node : Node) : Node × Bool :=
  match previous with
  | none => (node, false)
  | some previous =>
    let inherited := inheritLinks topic.cols previous node
    (copyInheritFields topic.cols previous inherited.1, inherited.2)

/-- Put a new node into the indexes: by its id when the id is new and by its new secondary keys. -/
def indexNode (graph : Graph) (topic : Topic) (id : String) (kw : Json.Fields) (isNew : Bool)
    (pkey2s : List String) (addr : Addr) : Graph :=
  let named := if isNew then graph.addPrimary topic.name id addr else graph
  pkey2s.foldl (fun graph pkey2 =>
    graph.addSecondary topic.name pkey2 id (kwStr kw pkey2) addr) named

/-- `treedb_create_node`: the new node, `none` when it fails. -/
def createNode (state : State) (topicName : String) (kw : Json.Fields) (uuid : String)
    (now : Int) : Option Addr × State :=
  match ctx.schema.topic? topicName with
  | none => (none, state)
  | some topic =>
    match newId state topic kw uuid with
    | none => (none, state)
    | some id =>
      let kw := kw.set "id" (.string id)
      let previous := state.graph.getNode topicName id
      let pkey2s := newPkey2s state.graph topic id kw
      if !isValidKeyName id || (previous.isSome && pkey2s.isEmpty) then (none, state)
      else match createPureRecord ctx.conv now kw topic.cols with
        | none => (none, state)
        | some fields =>
          if ctx.refuses ⟨topicName, fields⟩ none then (none, state)
          else
            let (node, linked) := inheritFrom topic
              ((if pkey2s.isEmpty then none else previous).map state.node) ⟨topicName, fields⟩
            match convertNode2tranger ctx.schema node with
            | none => (none, state)
            | some record =>
              match appendRecord ctx state topicName 0 record with
              | (none, asked) => (none, asked)
              | (some (t, rowid), appended) =>
                let addr := state.graph.next
                let allocated := state.graph.alloc node
                let graph := if linked then loadLinks ctx.schema allocated addr else allocated
                (some addr, { appended.setMd addr ⟨t, rowid, 0, false⟩ with
                  graph := indexNode graph topic id kw previous.isNone pkey2s addr })

end Yunetas.TrTreedb
