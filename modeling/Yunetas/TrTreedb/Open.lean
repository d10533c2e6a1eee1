import Yunetas.Lib.Strtoll
import Yunetas.TrTreedb.Deletes

/-!
# Opening a treedb and its snapshots

Opening a treedb reads the rows of every key backward: the first row that is no tombstone, and that
has the tag of the active snapshot when there is one, becomes the node of the key; the first of each
value of a secondary key becomes the instance of that value, whatever its tag. Then the hooks are
rebuilt. Shooting a snapshot writes its tag on the row of every node in the primary indexes, or
appends a clone of a node that has another tag; activating one only marks it for the next opening.
-/

namespace Yunetas.TrTreedb

variable (ctx : Context)

/-- The metadata of a row: `md2json`. -/
def Row.md (row : Row) : Md := ⟨row.t, row.rowid, row.tag, row.immutable⟩

/-- A node read from a row. -/
def readNode (topic : Topic) (row : Row) : Node :=
  ⟨topic.name, convertTranger2record ctx.conv topic.cols row.record⟩

/-- The nodes in memory while a treedb is opened. -/
structure Loading where
  graph : Graph
  md : Addr → Md

/-- A node read from a row, not in any index yet. -/
def loadNode (topic : Topic) (loading : Loading) (row : Row) : Loading where
  graph := loading.graph.alloc (readNode ctx topic row)
  md := Function.update loading.md loading.graph.next row.md

/-- `load_id_callback`: a row of a key that has its node already is ignored. -/
def loadIdCallback (topic : Topic) (key : String) (loading : Loading) (row : Row) : Loading :=
  if (loading.graph.getNode topic.name key).isSome then loading
  else
    let loaded := loadNode ctx topic loading row
    { loaded with graph := loaded.graph.addPrimary topic.name key loading.graph.next }

/-- `load_pkey2_callback`: a row of an instance that is there already is ignored. -/
def loadPkey2Callback (topic : Topic) (pkey2 key : String) (loading : Loading) (row : Row) :
    Loading :=
  let key2 := kwStr row.record pkey2
  if (loading.graph.getInstance topic.name pkey2 key key2).isSome then loading
  else
    let loaded := loadNode ctx topic loading row
    { loaded with graph := loaded.graph.addSecondary topic.name pkey2 key key2 loading.graph.next }

/-- `tranger2_open_list` backward: call back with every row that is loaded, key by key. -/
def openList (store : Store) (topic : String) (snapTag : Nat)
    (callback : String → Loading → Row → Loading) (loading : Loading) : Loading :=
  (store topic).entries.foldl (fun loading entry =>
    (entry.2.reverse.filter (Row.loads snapTag)).foldl (callback entry.1) loading) loading

/-- The lists of a topic: `treedb_create_topic`. -/
def openTopic (store : Store) (snapTag : Nat) (loading : Loading) (topic : Topic) : Loading :=
  (topic.pkey2s.filter (· ≠ "")).foldl (fun loading pkey2 =>
      openList store topic.name 0 (loadPkey2Callback ctx topic pkey2) loading)
    (openList store topic.name snapTag (loadIdCallback ctx topic) loading)

/-- A meta-table, whose name begins with two underscores. -/
def Topic.isMeta (topic : Topic) : Bool := topic.name.toList.take 2 = ['_', '_']

/-- Nothing in memory. -/
def Loading.empty : Loading := ⟨Graph.empty, fun _ => ⟨0, 0, 0, false⟩⟩

/-- The lists of some topics. -/
def openTopics (store : Store) (snapTag : Nat) (topics : List Topic) (loading : Loading) :
    Loading :=
  topics.foldl (openTopic ctx store snapTag) loading

/-- A field of a node is true. -/
def Node.isTrue (node : Node) (field : String) : Bool :=
  match node.get? field with
  | some (.json (.boolean value)) => value
  | _ => false

/-- The snapshots in memory, in the order of the index, that pass a test. -/
def snapsWith (state : State) (test : Node → Bool) : List Addr :=
  ((state.graph.primary snapsTopic.name).entries.map Prod.snd).filter fun addr =>
    test (state.node addr)

/-- The tag of a snapshot: its id, a number. -/
def snapTagOf (state : State) (snap : Addr) : Nat :=
  (strtoll (state.node snap).id % 2 ^ 32).toNat

/-- Set the `active` of a snapshot and save it. -/
def saveActive (state : State) (snap : Addr) (active : Bool) : Bool × State :=
  saveNode ctx { state with
    graph := state.graph.setField snap "active" (.json (.boolean active)) } snap

/-- `treedb_get_activated_snap_tag`: the active snapshot; of several, the last one stays active. -/
def activatedSnap (state : State) : Option Addr × State :=
  let snaps := snapsWith state fun node => node.isTrue "active"
  (snaps.getLast?,
    snaps.dropLast.foldl (fun state snap => (saveActive ctx state snap false).2) state)

/-- The treedb when its system topics are open. -/
def openSystem (store : Store) (tick : Nat) : State :=
  let system := openTopics ctx store 0 [snapsTopic, graphsTopic] Loading.empty
  ⟨system.graph, system.md, store, tick⟩

/-- The tag that the topics of the user are opened with: that of the active snapshot. -/
def openedTag (found : Option Addr × State) : Nat :=
  match found.1 with
  | some snap => snapTagOf found.2 snap
  | none => 0

/-- The topics of the user, opened after the active snapshot was found. -/
def openUser (found : Option Addr × State) : Loading :=
  openTopics ctx found.2.store (openedTag found) ctx.schema.userTopics
    ⟨found.2.graph, found.2.md⟩

/-- A treedb opened on a store, `treedb_open_db`: the system topics first, then the topics of the
user with the tag of the active snapshot, then the hooks. -/
def openDb (store : Store) (tick : Nat) : State :=
  let found := activatedSnap ctx (openSystem ctx store tick)
  let opened := openUser ctx found
  { found.2 with graph := loadAllLinks ctx.schema opened.graph, md := opened.md }

/-- Closing a treedb and opening it again. -/
def reopen (state : State) : State := openDb ctx state.store state.tick

/-- Set the tag of a row. -/
def Row.setTag (tag : Nat) (row : Row) : Row := { row with tag }

/-- `treedb_shoot_snap` of one node: a clone is appended for a node with another tag, and a node
without one gets the tag, on its row and in memory. -/
def shootNode (topic : String) (tag : Nat) (state : State) (entry : String × Addr) : State :=
  let md := state.md entry.2
  if md.tag ≠ 0 && md.tag ≠ tag then
    match convertNode2tranger ctx.schema (state.node entry.2) with
    | none => state
    | some record => (appendRecord ctx state topic tag record).2
  else
    let written := rewriteMd ctx state topic entry.1 md.t md.rowid (Row.setTag tag)
    if written.1 then written.2.setMd entry.2 { md with tag } else written.2

/-- The nodes of the topics that are no meta-table get the tag. -/
def shootTopics (tag : Nat) (state : State) : State :=
  (ctx.schema.topics.filter fun topic => !topic.isMeta).foldl (fun state topic =>
    (state.graph.primary topic.name).entries.foldl (shootNode ctx topic.name tag) state) state

/-- The fields a snapshot is created with. -/
def snapFields (name date description : String) : Json.Fields :=
  [("name", .string name), ("date", .string date), ("description", .string description),
    ("active", .boolean false)]

/-- `treedb_shoot_snap`. -/
def shootSnap (state : State) (name date description : String) (now : Int) : Bool × State :=
  if !(snapsWith state fun node => node.str? "name" = some name).isEmpty then (false, state)
  else
    match createNode ctx state snapsTopic.name (snapFields name date description) "" now with
    | (none, asked) => (false, asked)
    | (some snap, created) =>
      let tag := snapTagOf created snap
      if tag = 0 || tag ≥ 0xffff then (false, created) else (true, shootTopics ctx tag created)

/-- `treedb_activate_snap`; the name `__clear__` deactivates the active one. -/
def activateSnap (state : State) (name : String) : Bool × State :=
  if name = "__clear__" then
    match activatedSnap ctx state with
    | (some old, found) => (true, (saveActive ctx found old false).2)
    | (none, found) => (true, found)
  else
    match (snapsWith state fun node => node.str? "name" = some name).head? with
    | none => (false, state)
    | some snap =>
      match activatedSnap ctx state with
      | (some old, found) =>
        if snap = old then (true, found)
        else saveActive ctx (saveActive ctx found old false).2 snap true
      | (none, found) => saveActive ctx found snap true

end Yunetas.TrTreedb
