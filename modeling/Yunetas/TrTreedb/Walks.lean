import Yunetas.Gobj.Match
import Yunetas.Lib.Descent
import Yunetas.TrTreedb.Coherent

/-!
# Tree walks

`treedb_node_children` lists the children that a hook of a node holds and, when asked, those of each
of them by the hook of the same name; `treedb_node_jtree` makes a tree of them. Both recur without
looking at where they have been, so they take fuel here for the depth of the recursion. A filter
cuts a child off with all that is below it. How a simple condition of the filter reads a node is a
parameter, and so is what `node_collapsed_view` shows of one.
-/

namespace Yunetas.TrTreedb

open List Option

open Gobj (jsonSize kwMatchFilter)

/-- `get_hook_list`: nothing for a cell that is neither a list nor a dictionary. -/
def getHookList : Cell → Option (List Item)
  | .json _ => none
  | cell => some (hookList cell)

/-- `_list_children`: the children in a hook of a pure node. -/
def listChildren (schema : Schema) (graph : Graph) (hook : String) : Item → Option (List Item)
  | .node addr =>
    if schema.isHook (graph.heap addr).topic hook then
      ((graph.heap addr).get? hook).bind getHookList
    else none
  | _ => none

/-- What a walk is given. -/
structure Walk where
  schema : Schema
  graph : Graph
  hook : String
  test : Item → List Char → Json → Bool
  filter : Json
  /-- `node_collapsed_view`. -/
  view : Addr → Json.Fields

namespace Walk

variable (walk : Walk)

/-- `kw_match_simple` of a child. -/
def keeps (child : Item) : Bool :=
  if jsonSize walk.filter = 0 then true else kwMatchFilter (walk.test child) walk.filter []

/-- `add_tree_children`: the list with the children that pass the filter. -/
def addTreeChildren (recursive : Bool) : Nat → List Item → Item → Option (List Item)
  | 0, _, _ => none
  | fuel + 1, list, node =>
    match listChildren walk.schema walk.graph walk.hook node with
    | none => some list
    | some children => children.foldlM (fun list child =>
        if walk.keeps child then
          if recursive then addTreeChildren recursive fuel (list ++ [child]) child
          else some (list ++ [child])
        else some list) list

/-- `treedb_node_children`: no list where the node has no such field. -/
def nodeChildren (recursive : Bool) (fuel : Nat) (addr : Addr) : Option (Option (List Item)) :=
  match (walk.graph.heap addr).get? walk.hook with
  | none => some none
  | some _ => (walk.addTreeChildren recursive fuel [] (.node addr)).map some

end Walk

/-- A node of a tree: its view, its `__path__` and the trees in its hook. -/
inductive JTree where
  | node (view : Json.Fields) (path : String) (children : List JTree)

/-- The node that an item is, when it is one. -/
def Item.addr? : Item → Option Addr
  | .node addr => some addr
  | _ => none

namespace Walk

variable (walk : Walk)

/-- `add_jtree_path` of a child. -/
def childPath (path : String) (child : Addr) : String :=
  path ++ String.singleton Gobj.pathDelimiter ++ kwStr (walk.view child) "id"

/-- The children of a node that a tree is made of: a column of a child is no pure node, and has no
view. -/
def treeChildren (addr : Addr) : List Addr :=
  (((listChildren walk.schema walk.graph walk.hook (.node addr)).getD []).filter
    walk.keeps).filterMap Item.addr?

/-- `add_jtree_children`: the trees of the children that pass the filter. -/
def addJtreeChildren : Nat → String → Addr → Option (List JTree)
  | 0, _, _ => none
  | fuel + 1, path, addr =>
    (walk.treeChildren addr).mapM fun child =>
      let path := walk.childPath path child
      (addJtreeChildren fuel path child).map (JTree.node (walk.view child) path)

/-- `treedb_node_jtree`. -/
def nodeJtree (fuel : Nat) (addr : Addr) : Option (Option JTree) :=
  match (walk.graph.heap addr).get? walk.hook with
  | none => some none
  | some _ =>
    let path := kwStr (walk.view addr) "id"
    (walk.addJtreeChildren fuel path addr).map fun children =>
      some (.node (walk.view addr) path children)

end Walk

/-- A node is in a hook of another. -/
def Under (schema : Schema) (graph : Graph) (hook : String) (child parent : Addr) : Prop :=
  ∃ items, listChildren schema graph hook (.node parent) = some items ∧ .node child ∈ items

namespace Walk

variable {walk : Walk}

/-- The children of an item that pass the filter. -/
def children (walk : Walk) (node : Item) : List Item :=
  ((listChildren walk.schema walk.graph walk.hook node).getD []).filter walk.keeps

theorem foldlM_children {fuel : Nat}
    (below : ∀ list node, walk.addTreeChildren true fuel list node =
      (Descent.descend walk.children Descent.preorder fuel node).map (list ++ ·))
    (list children : List Item) :
    (children.foldlM (fun list child =>
        if walk.keeps child then walk.addTreeChildren true fuel (list ++ [child]) child
        else some list) list) =
      ((children.filter walk.keeps).mapM fun child =>
        (Descent.descend walk.children Descent.preorder fuel child).map fun below =>
          (child, below)).map fun found => list ++ found.flatMap fun entry => entry.1 :: entry.2 := by
  induction children generalizing list with
  | nil =>
    rw [filter_nil]
    exact congrArg some (append_nil list).symm
  | cons child rest ih =>
    rw [foldlM_cons]
    cases kept : walk.keeps child with
    | false =>
      rw [filter_cons_of_neg (by rw [kept]; exact Bool.false_ne_true)]
      exact ih list
    | true =>
      rw [filter_cons_of_pos kept, mapM_cons]
      simp only [↓reduceIte]
      rw [below]
      cases Descent.descend walk.children Descent.preorder fuel child with
      | none => rfl
      | some found =>
        rw [map_some, map_some, bind_eq_bind, bind_some, ih, bind_eq_bind, bind_some]
        cases (rest.filter walk.keeps).mapM fun child =>
            (Descent.descend walk.children Descent.preorder fuel child).map fun below =>
              (child, below) with
        | none => rfl
        | some others => simp

theorem addTreeChildren_eq (fuel : Nat) (list : List Item) (node : Item) :
    walk.addTreeChildren true fuel list node =
      (Descent.descend walk.children Descent.preorder fuel node).map (list ++ ·) := by
  induction fuel generalizing list node with
  | zero => rfl
  | succ fuel ih =>
    unfold addTreeChildren
    rw [Descent.descend_succ]
    unfold children
    cases listChildren walk.schema walk.graph walk.hook node with
    | none => exact congrArg some (append_nil list).symm
    | some items =>
      simp only [getD_some, ↓reduceIte]
      rw [foldlM_children ih, Option.map_map]
      rfl

/-- The descent of a tree goes to the children with their paths. -/
def pathChildren (walk : Walk) (node : Addr × String) : List (Addr × String) :=
  (walk.treeChildren node.1).map fun child => (child, walk.childPath node.2 child)

/-- The trees of some children. -/
def joinTrees (walk : Walk) (_ : Addr × String) (found : List ((Addr × String) × List JTree)) :
    List JTree :=
  found.map fun entry => .node (walk.view entry.1.1) entry.1.2 entry.2

theorem mapM_trees (down : Addr × String → Option (List JTree)) (path : String)
    (children : List Addr) :
    (children.mapM fun child => (down (child, walk.childPath path child)).map
        (JTree.node (walk.view child) (walk.childPath path child))) =
      ((children.map fun child => (child, walk.childPath path child)).mapM fun child =>
        (down child).map fun below => (child, below)).map (walk.joinTrees (0, path)) := by
  induction children with
  | nil => rfl
  | cons child rest ih =>
    rw [mapM_cons, map_cons, mapM_cons, ih]
    cases down (child, walk.childPath path child) with
    | none => rfl
    | some below =>
      cases (rest.map fun child => (child, walk.childPath path child)).mapM fun child =>
          (down child).map fun below => (child, below) with
      | none => rfl
      | some others => rfl

theorem addJtreeChildren_eq (fuel : Nat) (path : String) (addr : Addr) :
    walk.addJtreeChildren fuel path addr =
      Descent.descend walk.pathChildren walk.joinTrees fuel (addr, path) := by
  induction fuel generalizing path addr with
  | zero => rfl
  | succ fuel ih =>
    unfold addJtreeChildren
    rw [Descent.descend_succ]
    simp only [ih]
    exact mapM_trees _ path (walk.treeChildren addr)

theorem children_listed {item parent : Item} (among : item ∈ walk.children parent) :
    ∃ addr, parent = .node addr ∧ ∃ items,
      listChildren walk.schema walk.graph walk.hook (.node addr) = some items ∧ item ∈ items := by
  have listed := (mem_filter.1 among).1
  cases found : listChildren walk.schema walk.graph walk.hook parent with
  | none =>
    rw [found] at listed
    exact absurd listed not_mem_nil
  | some items =>
    rw [found] at listed
    cases parent with
    | node addr => exact ⟨addr, rfl, items, found, listed⟩
    | _ => cases found

theorem children_under {child : Addr} {parent : Item} (among : .node child ∈ walk.children parent) :
    ∃ addr, parent = .node addr ∧ Under walk.schema walk.graph walk.hook child addr :=
  children_listed among

theorem children_of_addr?_none {item : Item} (noNode : item.addr? = none) :
    walk.children item = [] := by
  cases item with
  | node addr => cases noNode
  | _ => rfl

theorem acc_children (ends : WellFounded (Under walk.schema walk.graph walk.hook)) (item : Item) :
    Acc (Descent.IsChild walk.children) item := by
  have leaf : ∀ other : Item, other.addr? = none → Acc (Descent.IsChild walk.children) other := by
    intro other noNode
    apply Acc.intro
    intro child among
    unfold Descent.IsChild at among
    rw [children_of_addr?_none noNode] at among
    exact absurd among not_mem_nil
  have nodes : ∀ addr, Acc (Descent.IsChild walk.children) (.node addr) := by
    intro addr
    induction addr using ends.induction with
    | _ addr ih =>
      apply Acc.intro
      intro child among
      cases child with
      | node other =>
        have ⟨parent, same, under⟩ := children_under among
        cases same
        exact ih other under
      | json value => exact leaf _ rfl
      | data other field => exact leaf _ rfl
  cases item with
  | node addr => exact nodes addr
  | json value => exact leaf _ rfl
  | data other field => exact leaf _ rfl

theorem treeChildren_under {child addr : Addr} (among : child ∈ walk.treeChildren addr) :
    Under walk.schema walk.graph walk.hook child addr := by
  have ⟨item, listed, isChild⟩ := mem_filterMap.1 among
  cases item with
  | node other =>
    rw [← Option.some.inj isChild]
    have ⟨parent, same, under⟩ := @children_under walk _ _ listed
    cases same
    exact under
  | _ => cases isChild

theorem acc_pathChildren (ends : WellFounded (Under walk.schema walk.graph walk.hook))
    (node : Addr × String) : Acc (Descent.IsChild walk.pathChildren) node := by
  have within : Subrelation (Descent.IsChild walk.pathChildren)
      (InvImage (Under walk.schema walk.graph walk.hook) Prod.fst) := by
    intro child parent among
    have ⟨addr, listed, same⟩ := mem_map.1 among
    exact same ▸ treeChildren_under listed
  exact within.accessible ((InvImage.wf Prod.fst ends).apply node)

end Walk

/-- An item is in the hook of a node, or of one below it. -/
def HeldBelow (schema : Schema) (graph : Graph) (hook : String) (item : Item) (addr : Addr) : Prop :=
  ∃ holder, Relation.ReflTransGen (Under schema graph hook) holder addr ∧
    ∃ items, listChildren schema graph hook (.node holder) = some items ∧ item ∈ items

/-- The walks from a node through a hook return, and the list of its children holds what is below it
through that hook. -/
structure Walk.Ends (walk : Walk) (addr : Addr) : Prop where
  list : ∃ fuel found, walk.nodeChildren true fuel addr = some found ∧
    ∀ items ∈ found, ∀ item ∈ items,
      HeldBelow walk.schema walk.graph walk.hook item addr ∧
        ∀ child, item = .node child →
          Relation.TransGen (Under walk.schema walk.graph walk.hook) child addr
  tree : ∃ fuel, (walk.nodeJtree fuel addr).isSome

end Yunetas.TrTreedb
