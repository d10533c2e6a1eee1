import Yunetas.TrTreedb.Writes

/-!
# Deleting nodes

`treedb_delete_node` deletes the key of a node with all its rows, and the node and its instances
with it; forced, it unlinks the node first. `treedb_delete_instance` makes tombstones of the rows
of one secondary key and drops its slot. Both refuse an immutable node, forced or not, and one with
a tag unless forced.
-/

namespace Yunetas.TrTreedb

variable (ctx : Context)

/-- The children that a cell holds: `get_hook_list`. -/
def hookList : Cell → List Item
  | .json _ => []
  | .list items => items
  | .dict entries => entries.map Prod.snd

/-- `treedb_unlink_nodes`: what the save of the child returns. -/
def unlinkAndSave (state : State) (hook : String) (parent child : Addr) : Bool × State :=
  match unlinkNodes ctx.schema state.graph hook parent child with
  | none => (false, state)
  | some graph => saveNode ctx { state with graph } child

/-- `treedb_link_nodes`: what the save of the child returns. -/
def linkAndSave (state : State) (hook : String) (parent child : Addr) : Bool × State :=
  match linkNodes ctx.schema state.graph hook parent child with
  | none => (false, state)
  | some graph => saveNode ctx { state with graph } child

/-- Unlink every child in a hook of a node. -/
def unlinkChildren (addr : Addr) (state : State) (hook : String) : State :=
  match (state.node addr).get? hook with
  | none => state
  | some cell => (hookList cell).foldl (fun state item => match item with
      | .node child => (unlinkAndSave ctx state hook addr child).2
      | _ => state) state

/-- The first part of a forced deletion: unlink the children, in every hook. -/
def dropChildren (state : State) (addr : Addr) : State :=
  ((ctx.schema.cols (state.node addr).topic).filter fun col => col.hook.isSome).foldl
    (fun state col => unlinkChildren ctx addr state col.id) state

/-- The children of a node are out of the way: it has none, or the deletion is forced and unlinks
them. -/
def releaseChildren (state : State) (addr : Addr) (force : Bool) : Bool × State :=
  let hasChildren (state : State) : Bool :=
    !(getNodeDownRefs ctx.schema state.graph.heap (state.node addr)).isEmpty
  if !hasChildren state then (true, state)
  else if force then
    let dropped := dropChildren ctx state addr
    (!hasChildren dropped, dropped)
  else (false, state)

/-- The parents of a node are out of the way: it refers to none, or the deletion is forced and
cleans it. -/
def releaseParents (state : State) (addr : Addr) (force : Bool) : Bool × State :=
  if (getNodeUpRefs ctx.schema (state.node addr)).isEmpty then (true, state)
  else if force then
    let cleaned := cleanNode ctx.schema state.graph addr
    (cleaned.2, { state with graph := cleaned.1 })
  else (false, state)

/-- `tranger2_delete_key`: whether the key was deleted. -/
def deleteKey (state : State) (topic key : String) : Bool × State :=
  let answer := ctx.disk state.tick
  let asked := { state with tick := state.tick + 1 }
  if isValidKeyName key && !answer.fails then
    let topicRows := (state.store topic).erase key
    (true, { asked with store := Function.update state.store topic topicRows })
  else (false, asked)

/-- Drop an id from the indexes of a topic. -/
def dropId (schema : Schema) (graph : Graph) (topic id : String) : Graph :=
  (schema.pkey2s topic).foldl (fun graph pkey2 => graph.dropInstances topic pkey2 id)
    (graph.deletePrimary topic id)

/-- `treedb_delete_node`. -/
def deleteNode (state : State) (addr : Addr) (force : Bool) : Bool × State :=
  let node := state.node addr
  let md := state.md addr
  if md.immutable || (md.tag ≠ 0 && !force) then (false, state)
  else
    let childless := releaseChildren ctx state addr force
    let released := releaseParents ctx childless.2 addr force
    if !(childless.1 && released.1) then (false, released.2)
    else
      let deleted := deleteKey ctx released.2 node.topic node.id
      if deleted.1 then
        (true, { deleted.2 with graph := dropId ctx.schema deleted.2.graph node.topic node.id })
      else (false, deleted.2)

/-- Make a tombstone of a row, unless it is immutable. -/
def Row.bury (row : Row) : Row := if row.immutable then row else { row with deleted := true }

/-- The row belongs to a value of a secondary key: `collect_instance_md_cb`. -/
def Row.isInstance (pkey2 key2 : String) (row : Row) : Bool :=
  kwStr row.record pkey2 ≠ "" && kwStr row.record pkey2 = key2

/-- `treedb_delete_instance`. -/
def deleteInstance (state : State) (addr : Addr) (pkey2 : String) (force : Bool) : Bool × State :=
  let node := state.node addr
  let md := state.md addr
  if md.immutable || (md.tag ≠ 0 && !force) then (false, state)
  else
    let hits := (state.store.rows node.topic node.id).reverse.filter fun row =>
      row.loads 0 && row.isInstance pkey2 (node.str pkey2)
    let buried := hits.foldl (fun state row =>
      (rewriteMd ctx state node.topic node.id row.t row.rowid Row.bury).2) state
    (true, { buried with
      graph := buried.graph.deleteSecondary node.topic pkey2 node.id (node.str pkey2) })

end Yunetas.TrTreedb
