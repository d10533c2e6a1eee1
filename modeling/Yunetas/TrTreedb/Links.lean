import Yunetas.TrTreedb.Records

/-!
# Links between nodes

A link is stored twice: the hook of the parent holds the child and the fkey of the child holds the
reference to the parent. `_link_nodes` and `_unlink_nodes` write both sides of nodes in memory;
`load_all_links` rebuilds the hooks from the references when a treedb is opened; `treedb_clean_node`
unlinks a node from every parent it refers to.
-/

namespace Yunetas.TrTreedb

/-- The item is this child. -/
def Item.isNode (child : Addr) : Item → Bool
  | .node addr => addr = child
  | _ => false

/-- The item is this column of this child. -/
def Item.isData (child : Addr) (field : String) : Item → Bool
  | .data addr other => addr = child && other = field
  | _ => false

/-- The item is this text. -/
def Item.isText (text : String) : Item → Bool
  | .json (.string other) => other = text
  | _ => false

/-- The item is an object with this id, unless it is empty. -/
def Item.hasId (heap : Addr → Node) (id : String) : Item → Bool
  | .node addr => (heap addr).id ≠ "" && (heap addr).id = id
  | .json (.object entries) =>
    id ≠ "" && (Json.Fields.get? entries "id").bind Json.stringValue = some id
  | _ => false

namespace Cell

/-- A hook that can hold children. -/
def holdsChildren : Cell → Bool
  | .json _ => false
  | _ => true

/-- A cell of a child that can refer to a parent; a hook refers to none by a text. -/
def canRefer (dataHook : Bool) : Cell → Bool
  | .json (.string _) => !dataHook
  | .json _ => false
  | _ => true

end Cell

/-- What `_link_nodes` and `_unlink_nodes` find out before they change anything. -/
structure Link where
  field : String
  dataHook : Bool
  parentId : String
  childId : String
  hookCell : Cell
  childCell : Cell

/-- The column of a topic is a hook. -/
def Schema.isHook (schema : Schema) (topic field : String) : Bool :=
  (schema.hookLinks topic field).isSome

/-- The checks of `_link_nodes` and `_unlink_nodes`. -/
def checkLink (schema : Schema) (graph : Graph) (hook : String) (parent child : Addr) :
    Option Link :=
  let parentNode := graph.heap parent
  let childNode := graph.heap child
  if parent = child then none
  else match parentNode.get? hook, schema.childField parentNode.topic hook childNode.topic with
    | some hookCell, some field =>
      let dataHook := schema.isHook childNode.topic field
      match parentNode.str? "id", childNode.str? "id", childNode.get? field with
      | some parentId, some childId, some childCell =>
        if hookCell.holdsChildren && childCell.canRefer dataHook then
          some ⟨field, dataHook, parentId, childId, hookCell, childCell⟩
        else none
      | _, _, _ => none
    | _, _ => none

/-- `child_in_hook_array`. -/
def childInHookArray (heap : Addr → Node) (items : List Item) (child : Addr)
    (childId field : String) (dataHook : Bool) : Bool :=
  items.any fun item =>
    if dataHook then item.isData child field else item.isNode child || item.hasId heap childId

/-- What the parent holds of a child. -/
def heldItem (child : Addr) (field : String) (dataHook : Bool) : Item :=
  if dataHook then .data child field else .node child

/-- A hook with a child added; a child a list already has is not added again. -/
def hookWith (heap : Addr → Node) (childTopic : String) (child : Addr) (link : Link) : Cell :=
  match link.hookCell with
  | .list items =>
    if childInHookArray heap items child link.childId link.field link.dataHook then .list items
    else .list (items ++ [heldItem child link.field link.dataHook])
  | .dict entries =>
    if link.dataHook then
      match dataKey childTopic link.childId link.field with
      | some key => .dict (Dict.setEntries key (.data child link.field) entries)
      | none => .dict entries
    else .dict (Dict.setEntries link.childId (.node child) entries)
  | cell => cell

/-- A hook without a child: the first item that is this very child leaves a list, the entry of its
id leaves a dictionary. -/
def hookWithout (childTopic : String) (child : Addr) (link : Link) : Cell :=
  match link.hookCell with
  | .list items =>
    .list (items.eraseP fun item =>
      if link.dataHook then item.isData child link.field else item.isNode child)
  | .dict entries =>
    if link.dataHook then
      match dataKey childTopic link.childId link.field with
      | some key => .dict (entries.filter fun entry => entry.1 ≠ key)
      | none => .dict entries
    else .dict (entries.filter fun entry => entry.1 ≠ link.childId)
  | cell => cell

/-- The cell of a child with a reference added: a text is replaced. -/
def referring (ref : Option String) (cell : Cell) : Cell :=
  match ref, cell with
  | none, cell => cell
  | some ref, .json _ => .json (.string ref)
  | some ref, .list items =>
    if items.any (Item.isText ref) then .list items
    else .list (items ++ [.json (.string ref)])
  | some ref, .dict entries => .dict (Dict.setEntries ref (.json (.boolean true)) entries)

/-- The cell of a child with a reference removed: a text is emptied, whatever it was. -/
def notReferring (ref : Option String) (cell : Cell) : Cell :=
  match ref, cell with
  | _, .json _ => .json (.string "")
  | none, cell => cell
  | some ref, .list items => .list (items.eraseP (Item.isText ref))
  | some ref, .dict entries => .dict (entries.filter fun entry => entry.1 ≠ ref)

/-- `_link_nodes`, in memory; `none` when it refuses. -/
def linkNodes (schema : Schema) (graph : Graph) (hook : String) (parent child : Addr) :
    Option Graph :=
  (checkLink schema graph hook parent child).map fun link =>
    let ref := parentRef (graph.heap parent).topic link.parentId hook
    (graph.setField parent hook (hookWith graph.heap (graph.heap child).topic child link)).setField
      child link.field (referring ref link.childCell)

/-- `_unlink_nodes`, in memory; `none` when it refuses. -/
def unlinkNodes (schema : Schema) (graph : Graph) (hook : String) (parent child : Addr) :
    Option Graph :=
  (checkLink schema graph hook parent child).map fun link =>
    let ref := parentRef (graph.heap parent).topic link.parentId hook
    (graph.setField parent hook (hookWithout (graph.heap child).topic child link)).setField
      child link.field (notReferring ref link.childCell)

/-- `link_child_to_parent`: put a child into the hook that one of its references names, when the
reference is one its column is described for. -/
def linkChildToParent (schema : Schema) (graph : Graph) (child : Addr) (field ref : String) :
    Graph :=
  match decodeParentRef ref with
  | none => graph
  | some (topic, id, hook) =>
    if schema.fkeyDesc (graph.heap child).topic field ≠ some (topic, hook) then graph
    else match graph.getNode topic id with
      | none => graph
      | some parent =>
        let dataHook := schema.isHook (graph.heap child).topic field
        let childId := (graph.heap child).id
        match (graph.heap parent).get? hook with
        | some (.list items) =>
          if childInHookArray graph.heap items child childId field dataHook then graph
          else graph.setField parent hook (.list (items ++ [heldItem child field dataHook]))
        | some (.dict entries) =>
          let key := if dataHook then ref else childId
          graph.setField parent hook
            (.dict (Dict.setEntries key (heldItem child field dataHook) entries))
        | _ => graph

/-- The texts of an fkey that may be references. -/
def refTexts : Cell → List String
  | .json (.string text) => [text]
  | .json _ => []
  | .list items => items.filterMap fun item => match item with
    | .json (.string text) => some text
    | _ => none
  | .dict entries => entries.map Prod.fst

/-- `load_links`: put a node into the hooks that its references name. -/
def loadLinks (schema : Schema) (graph : Graph) (child : Addr) : Graph :=
  ((schema.cols (graph.heap child).topic).filter fun col => col.fkey).foldl (fun graph col =>
    match (graph.heap child).get? col.id with
    | some cell => (refTexts cell).foldl (fun graph ref =>
        linkChildToParent schema graph child col.id ref) graph
    | none => graph) graph

/-- `load_all_links`: put every node of the primary indexes into the hooks it refers to. -/
def loadAllLinks (schema : Schema) (graph : Graph) : Graph :=
  schema.topics.foldl (fun graph topic =>
    (graph.primary topic.name).entries.foldl (fun graph entry =>
      loadLinks schema graph entry.2) graph) graph

/-- `inherit_links`: the references of the previous node of an id, added to the fkeys of a new one;
whether there were any. A dictionary takes none. -/
def inheritLinks (cols : List Col) (previous node : Node) : Node × Bool :=
  (cols.filter fun col => col.fkey).foldl (fun inherited col =>
    let refs := match previous.get? col.id with
      | some cell => (getFkeyRefs cell).filter fun ref => (decodeParentRef ref).isSome
      | none => []
    match inherited.1.get? col.id with
    | some (.list items) =>
      (inherited.1.set col.id (.list (items ++ refs.map fun ref => .json (.string ref))),
        inherited.2 || !refs.isEmpty)
    | some (.json (.string text)) =>
      (inherited.1.set col.id (.json (.string (refs.getLast?.getD text))),
        inherited.2 || !refs.isEmpty)
    | _ => inherited) (node, false)

/-- `copy_inherit_fields`: the columns flagged `inherit` of the previous node of an id. -/
def copyInheritFields (cols : List Col) (previous node : Node) : Node :=
  (cols.filter fun col => col.inherit).foldl (fun node col =>
    match previous.get? col.id with
    | some cell => node.set col.id cell
    | none => node) node

/-- `parent_hook_holds_child`. -/
def parentHookHoldsChild (heap : Addr → Node) (parent : Addr) (hook : String) (child : Addr)
    (childId : String) : Bool :=
  match (heap parent).get? hook with
  | some (.list items) => items.any fun item => item.isNode child || item.hasId heap childId
  | some (.dict entries) => entries.any fun entry => entry.2.isNode child || entry.1 = childId
  | _ => false

/-- `find_parent_version_holding_child`: the first instance of a parent that holds the child. -/
def findParentVersionHoldingChild (schema : Schema) (graph : Graph) (topic id hook : String)
    (child : Addr) (childId : String) : Option Addr :=
  ((schema.pkey2s topic).flatMap fun pkey2 =>
    match (graph.secondary topic pkey2).get? id with
    | some slots => slots.entries.map Prod.snd
    | none => []).find? fun parent => parentHookHoldsChild graph.heap parent hook child childId

/-- `remove_wrong_up_ref`: `kw_set_dict_value` writes no field that is there, so a text stays. -/
def removeWrongUpRef (ref : String) : Cell → Cell
  | .json value => .json value
  | .list items => .list (items.filter fun item => !item.isText ref)
  | .dict entries => .dict (entries.filter fun entry => entry.1 ≠ ref)

/-- `search_and_remove_wrong_up_ref`. -/
def searchAndRemoveWrongUpRef (schema : Schema) (graph : Graph) (child : Addr) (ref : String) :
    Graph :=
  ((schema.cols (graph.heap child).topic).filter fun col => col.fkey).foldl (fun graph col =>
    match (graph.heap child).get? col.id with
    | some cell => graph.setField child col.id (removeWrongUpRef ref cell)
    | none => graph) graph

/-- Unlink a node from one of the parents it refers to; whether nothing failed. -/
def cleanRef (schema : Schema) (child : Addr) (cleaned : Graph × Bool) (ref : String) :
    Graph × Bool :=
  let graph := cleaned.1
  let childId := (graph.heap child).id
  match decodeParentRef ref with
  | none => cleaned
  | some (topic, id, hook) =>
    let primary := graph.getNode topic id
    let holder := (primary.filter fun parent =>
      parentHookHoldsChild graph.heap parent hook child childId).or
        ((findParentVersionHoldingChild schema graph topic id hook child childId).or primary)
    match holder with
    | some parent =>
      match unlinkNodes schema graph hook parent child with
      | some graph => (graph, cleaned.2)
      | none => (graph, false)
    | none => (searchAndRemoveWrongUpRef schema graph child ref, cleaned.2)

/-- `treedb_clean_node` without saving: whether no reference is left. -/
def cleanNode (schema : Schema) (graph : Graph) (child : Addr) : Graph × Bool :=
  let upRefs := getNodeUpRefs schema (graph.heap child)
  let cleaned := upRefs.foldl (cleanRef schema child) (graph, true)
  (cleaned.1, cleaned.2 && (upRefs = [] || getNodeUpRefs schema (cleaned.1.heap child) = []))

end Yunetas.TrTreedb
