import Mathlib.Logic.Function.Basic
import Yunetas.TrTreedb.Schema

/-!
# Nodes in memory and their indexes

A node is an object that the indexes and the hooks of other nodes refer to, so it has an address;
its fields are cells. A cell is a json value, except that a hook holds nodes: a list of them, or a
dictionary by the child's id. Where the column a child refers back with is a hook too, the parent
holds that column of the child instead of the child.

A topic has a primary index, the nodes by id, and for each secondary key an index of the nodes by
id and by the value of that key. The ids and the values of secondary keys are read here as plain
keys: one with a grave accent, which `kw_find_path` reads as a path, is not modelled. No cell is
shared by two nodes: only a column flagged both `inherit` and as a link would make them share one.
-/

namespace Yunetas.TrTreedb

open Option Function Dict

/-- Where a node is. -/
abbrev Addr := Nat

/-- What a list or a dictionary in a cell holds. -/
inductive Item where
  | json (value : Json)
  | node (addr : Addr)
  | data (addr : Addr) (field : String)

/-- The value of a field of a node. -/
inductive Cell where
  | json (value : Json)
  | list (items : List Item)
  | dict (entries : List (String × Item))

/-- The cell of a json value. -/
def Cell.ofJson : Json → Cell
  | .array items => .list (items.map .json)
  | .object entries => .dict (entries.map fun entry => (entry.1, .json entry.2))
  | value => .json value

/-- The json value of what a cell holds; a child has none, and only a hook, which is never written,
holds one. -/
def Item.toJson : Item → Json
  | .json value => value
  | _ => .null

/-- The json value of a cell. -/
def Cell.toJson : Cell → Json
  | .json value => value
  | .list items => .array (items.map Item.toJson)
  | .dict entries => .object (entries.map fun entry => (entry.1, entry.2.toJson))

@[simp] theorem Cell.toJson_ofJson (value : Json) : (Cell.ofJson value).toJson = value := by
  cases value with
  | array items =>
    simp only [ofJson, toJson, List.map_map]
    congr 1
    exact List.map_id' items
  | object entries =>
    simp only [ofJson, toJson, List.map_map]
    congr 1
    exact List.map_id' entries
  | null => rfl
  | boolean value => rfl
  | integer value => rfl
  | real bits => rfl
  | string value => rfl

/-- A node: the topic of its metadata and its fields. -/
structure Node where
  topic : String
  fields : List (String × Cell)

namespace Node

/-- `kw_get_dict_value` of a field. -/
def get? (node : Node) (field : String) : Option Cell := Dict.lookupEntries field node.fields

/-- `json_object_set` of a field. -/
def set (node : Node) (field : String) (cell : Cell) : Node :=
  { node with fields := Dict.setEntries field cell node.fields }

/-- `kw_get_str` of a field, `none` when it is no string. -/
def str? (node : Node) (field : String) : Option String :=
  match node.get? field with
  | some (.json (.string text)) => some text
  | _ => none

/-- `kw_get_str` of a field with an empty default: `get_key2_value`. -/
def str (node : Node) (field : String) : String := (node.str? field).getD ""

/-- The id of a node. -/
def id (node : Node) : String := node.str "id"

variable (node : Node)

@[simp] theorem set_topic (field : String) (cell : Cell) :
    (node.set field cell).topic = node.topic := rfl

theorem get?_set (field other : String) (cell : Cell) :
    (node.set field cell).get? other = if other = field then some cell else node.get? other :=
  lookupEntries_set field other cell node.fields

@[simp] theorem get?_set_self (field : String) (cell : Cell) :
    (node.set field cell).get? field = some cell := by rw [get?_set, if_pos rfl]

section

variable {field other : String} (cell : Cell) (ne : other ≠ field)
include cell ne

theorem get?_set_ne :
    (node.set field cell).get? other = node.get? other := by rw [get?_set, if_neg ne]

theorem str?_set_ne :
    (node.set field cell).str? other = node.str? other := by
  unfold str?
  rw [get?_set_ne node cell ne]

end

end Node

/-- The nodes in memory and the indexes of every topic. -/
structure Graph where
  heap : Addr → Node
  next : Addr
  primary : String → Dict String Addr
  secondary : String → String → Dict String (Dict String Addr)

namespace Graph

/-- No node. -/
def empty : Graph where
  heap := fun _ => ⟨"", []⟩
  next := 0
  primary := fun _ => Dict.empty
  secondary := fun _ _ => Dict.empty

/-- `treedb_get_node`. -/
def getNode (graph : Graph) (topic id : String) : Option Addr := (graph.primary topic).get? id

/-- The slot of an id and a value in the index of a secondary key. -/
def slot? (graph : Graph) (topic pkey2 id key2 : String) : Option Addr :=
  ((graph.secondary topic pkey2).get? id).bind fun slots => slots.get? key2

/-- `treedb_get_instance`: no node is found by an empty secondary key. -/
def getInstance (graph : Graph) (topic pkey2 id key2 : String) : Option Addr :=
  if key2 = "" then none else graph.slot? topic pkey2 id key2

/-- Set a field of a node. -/
def setField (graph : Graph) (addr : Addr) (field : String) (cell : Cell) : Graph :=
  { graph with heap := Function.update graph.heap addr ((graph.heap addr).set field cell) }

/-- A new node. -/
def alloc (graph : Graph) (node : Node) : Graph :=
  { graph with heap := Function.update graph.heap graph.next node, next := graph.next + 1 }

/-- `add_primary_node`. -/
def addPrimary (graph : Graph) (topic id : String) (addr : Addr) : Graph :=
  { graph with primary := Function.update graph.primary topic ((graph.primary topic).set id addr) }

/-- `delete_primary_node`. -/
def deletePrimary (graph : Graph) (topic id : String) : Graph :=
  { graph with primary := Function.update graph.primary topic ((graph.primary topic).erase id) }

/-- Replace an index of a topic. -/
def setSecondary (graph : Graph) (topic pkey2 : String) (index : Dict String (Dict String Addr)) :
    Graph :=
  let indexes := Function.update (graph.secondary topic) pkey2 index
  { graph with secondary := Function.update graph.secondary topic indexes }

/-- `add_secondary_node`. -/
def addSecondary (graph : Graph) (topic pkey2 id key2 : String) (addr : Addr) : Graph :=
  let index := graph.secondary topic pkey2
  graph.setSecondary topic pkey2
    (index.set id (((index.get? id).getD Dict.empty).set key2 addr))

/-- `delete_secondary_node`: nothing is under an empty secondary key. -/
def deleteSecondary (graph : Graph) (topic pkey2 id key2 : String) : Graph :=
  let index := graph.secondary topic pkey2
  match index.get? id with
  | some slots =>
    if key2 = "" then graph
    else graph.setSecondary topic pkey2 (index.set id (slots.erase key2))
  | none => graph

/-- Drop every node of an id from the index of a secondary key. -/
def dropInstances (graph : Graph) (topic pkey2 id : String) : Graph :=
  graph.setSecondary topic pkey2 ((graph.secondary topic pkey2).erase id)

section Read

variable (graph : Graph)

@[simp] theorem heap_setField (addr : Addr) (field : String) (cell : Cell) :
    (graph.setField addr field cell).heap =
      Function.update graph.heap addr ((graph.heap addr).set field cell) := rfl

@[simp] theorem heap_alloc (node : Node) :
    (graph.alloc node).heap = Function.update graph.heap graph.next node := rfl

@[simp] theorem next_alloc (node : Node) : (graph.alloc node).next = graph.next + 1 := rfl

@[simp] theorem primary_addPrimary (topic id : String) (addr : Addr) :
    (graph.addPrimary topic id addr).primary =
      Function.update graph.primary topic ((graph.primary topic).set id addr) := rfl

@[simp] theorem primary_deletePrimary (topic id : String) :
    (graph.deletePrimary topic id).primary =
      Function.update graph.primary topic ((graph.primary topic).erase id) := rfl

@[simp] theorem secondary_setSecondary (topic pkey2 : String)
    (index : Dict String (Dict String Addr)) :
    (graph.setSecondary topic pkey2 index).secondary = Function.update graph.secondary topic
        (Function.update (graph.secondary topic) pkey2 index) := rfl

theorem getNode_addPrimary (topic id other name : String) (addr : Addr) :
    (graph.addPrimary topic id addr).getNode other name =
      if other = topic ∧ name = id then some addr else graph.getNode other name := by
  unfold getNode
  rw [primary_addPrimary]
  by_cases same : other = topic
  · rw [same, update_self, get?_set]
    simp
  · rw [update_of_ne same]
    simp [same, ↓reduceIte]

theorem getNode_deletePrimary (topic id other name : String) :
    (graph.deletePrimary topic id).getNode other name =
      if other = topic ∧ name = id then none else graph.getNode other name := by
  unfold getNode
  rw [primary_deletePrimary]
  by_cases same : other = topic
  · rw [same, update_self, get?_erase]
    simp
  · rw [update_of_ne same]
    simp [same, ↓reduceIte]

theorem slot?_setSecondary (topic pkey2 : String) (index : Dict String (Dict String Addr))
    (other otherKey name key2 : String) :
    (graph.setSecondary topic pkey2 index).slot? other otherKey name key2 =
      if other = topic ∧ otherKey = pkey2 then (index.get? name).bind fun slots => slots.get? key2
      else graph.slot? other otherKey name key2 := by
  unfold slot?
  rw [secondary_setSecondary]
  by_cases sameTopic : other = topic
  · rw [sameTopic, update_self]
    by_cases sameKey : otherKey = pkey2
    · rw [sameKey, update_self]
      simp
    · rw [update_of_ne sameKey]
      simp [sameKey, ↓reduceIte]
  · rw [update_of_ne sameTopic]
    simp [sameTopic, ↓reduceIte]

theorem slot?_addSecondary (topic pkey2 id key2 other otherKey name value : String) (addr : Addr) :
    (graph.addSecondary topic pkey2 id key2 addr).slot? other otherKey name value =
      if other = topic ∧ otherKey = pkey2 ∧ name = id ∧ value = key2 then some addr
      else graph.slot? other otherKey name value := by
  unfold addSecondary
  rw [slot?_setSecondary]
  by_cases index : other = topic ∧ otherKey = pkey2
  · obtain ⟨rfl, rfl⟩ := index
    simp only [and_self, ↓reduceIte, true_and, get?_set]
    unfold slot?
    by_cases sameId : name = id
    · rw [if_pos sameId, bind_some, get?_set, sameId]
      cases (graph.secondary other otherKey).get? id <;> simp
    · simp [sameId, ↓reduceIte]
  · rw [if_neg index]
    by_cases all : other = topic ∧ otherKey = pkey2 ∧ name = id ∧ value = key2
    · exact absurd ⟨all.1, all.2.1⟩ index
    · rw [if_neg all]

theorem slot?_deleteSecondary_eq (topic pkey2 id : String) {key2 : String} (real : key2 ≠ "")
    (other otherKey name value : String) :
    (graph.deleteSecondary topic pkey2 id key2).slot? other otherKey name value =
      if other = topic ∧ otherKey = pkey2 ∧ name = id ∧ value = key2 then none
      else graph.slot? other otherKey name value := by
  unfold deleteSecondary
  dsimp only
  split
  · rename_i slots stored
    rw [if_neg real, slot?_setSecondary]
    by_cases index : other = topic ∧ otherKey = pkey2
    · obtain ⟨rfl, rfl⟩ := index
      simp only [and_self, ↓reduceIte, true_and, get?_set]
      unfold slot?
      by_cases sameId : name = id
      · rw [if_pos sameId, bind_some, get?_erase, sameId, stored, bind_some]
        simp
      · simp [sameId, ↓reduceIte]
    · rw [if_neg index]
      by_cases all : other = topic ∧ otherKey = pkey2 ∧ name = id ∧ value = key2
      · exact absurd ⟨all.1, all.2.1⟩ index
      · rw [if_neg all]
  · rename_i absent
    split
    · rename_i all
      unfold slot?
      rw [all.1, all.2.1, all.2.2.1, absent]
      rfl
    · rfl

theorem slot?_deleteSecondary (topic pkey2 id key2 other otherKey name value : String)
    (addr : Addr) (found : (graph.deleteSecondary topic pkey2 id key2).slot? other otherKey name
      value = some addr) : graph.slot? other otherKey name value = some addr := by
  by_cases real : key2 = ""
  · have same : graph.deleteSecondary topic pkey2 id key2 = graph := by
      unfold deleteSecondary
      dsimp only
      split
      · rw [if_pos real]
      · rfl
    rw [same] at found
    exact found
  · rw [slot?_deleteSecondary_eq graph topic pkey2 id real] at found
    split at found
    · cases found
    · exact found

theorem deleteSecondary_keeps (topic pkey2 id key2 : String) :
    (graph.deleteSecondary topic pkey2 id key2).heap = graph.heap ∧
      (graph.deleteSecondary topic pkey2 id key2).next = graph.next ∧
      ∀ other name, (graph.deleteSecondary topic pkey2 id key2).getNode other name =
        graph.getNode other name := by
  unfold deleteSecondary
  dsimp only
  split
  · split <;> exact ⟨rfl, rfl, fun _ _ => rfl⟩
  · exact ⟨rfl, rfl, fun _ _ => rfl⟩

theorem slot?_dropInstances (topic pkey2 id other otherKey name value : String) :
    (graph.dropInstances topic pkey2 id).slot? other otherKey name value =
      if other = topic ∧ otherKey = pkey2 ∧ name = id then none
      else graph.slot? other otherKey name value := by
  unfold dropInstances
  rw [slot?_setSecondary]
  by_cases index : other = topic ∧ otherKey = pkey2
  · obtain ⟨rfl, rfl⟩ := index
    simp only [and_self, ↓reduceIte, true_and, get?_erase]
    split <;> rfl
  · rw [if_neg index]
    by_cases all : other = topic ∧ otherKey = pkey2 ∧ name = id
    · exact absurd ⟨all.1, all.2.1⟩ index
    · rw [if_neg all]

end Read

/-- A node that an index refers to. -/
inductive Ref where
  | node (topic id : String)
  | version (topic pkey2 id key2 : String)
  deriving DecidableEq, Repr

/-- The node of a reference. -/
def resolve (graph : Graph) : Ref → Option Addr
  | .node topic id => graph.getNode topic id
  | .version topic pkey2 id key2 => graph.getInstance topic pkey2 id key2

end Graph

end Yunetas.TrTreedb
