import Yunetas.TrTreedb.Open

/-!
# Sessions of a treedb

A session is a sequence of operations on an open treedb, from a treedb opened on an empty store. A
node is named by the index it is in; an operation on a node that is not there does nothing.
-/

namespace Yunetas.TrTreedb

/-- An operation on a treedb. -/
inductive Op where
  /-- `treedb_create_node`; the uuid and the time are those it would make. -/
  | create (topic : String) (kw : Json.Fields) (uuid : String) (now : Int)
  | update (node : Graph.Ref) (kw : Json.Fields) (now : Int) (save : Bool)
  | save (node : Graph.Ref)
  | setImmutable (node : Graph.Ref) (set : Bool)
  | link (hook : String) (parent child : Graph.Ref)
  | unlink (hook : String) (parent child : Graph.Ref)
  | delete (node : Graph.Ref) (force : Bool)
  | deleteInstance (node : Graph.Ref) (pkey2 : String) (force : Bool)
  | shoot (name date description : String) (now : Int)
  | activate (name : String)
  /-- `treedb_close_db` and `treedb_open_db`. -/
  | reopen

variable (ctx : Context)

/-- Do something with a node, when it is there. -/
def withNode (state : State) (ref : Graph.Ref) (action : Addr → Bool × State) : Bool × State :=
  match state.graph.resolve ref with
  | some addr => action addr
  | none => (false, state)

/-- An operation: whether it reports success, and the state it leaves. -/
def exec (state : State) : Op → Bool × State
  | .create topic kw uuid now =>
    let created := createNode ctx state topic kw uuid now
    (created.1.isSome, created.2)
  | .update node kw now save => withNode state node fun addr => updateNode ctx state addr kw now save
  | .save node => withNode state node fun addr => saveNode ctx state addr
  | .setImmutable node set => withNode state node fun addr => setNodeImmutable ctx state addr set
  | .link hook parent child =>
    withNode state parent fun parent => withNode state child fun child =>
      linkAndSave ctx state hook parent child
  | .unlink hook parent child =>
    withNode state parent fun parent => withNode state child fun child =>
      unlinkAndSave ctx state hook parent child
  | .delete node force => withNode state node fun addr => deleteNode ctx state addr force
  | .deleteInstance node pkey2 force =>
    withNode state node fun addr => deleteInstance ctx state addr pkey2 force
  | .shoot name date description now => shootSnap ctx state name date description now
  | .activate name => activateSnap ctx state name
  | .reopen => (true, reopen ctx state)

/-- The state an operation leaves. -/
def step (state : State) (op : Op) : State := (exec ctx state op).2

/-- A treedb opened on an empty store. -/
def start : State := openDb ctx (fun _ => Dict.empty) 0

/-- A topic of yunos, with an instance for each release. -/
def yunosTopic : Topic where
  name := "yunos"
  pkey2s := ["release"]
  cols := [
    { id := "id", type := .string, persistent := true, required := true },
    { id := "release", type := .string, persistent := true, required := true }]

/-- A treedb of yunos, with a file for each hundred times. -/
def yunosCtx : Context where
  schema := { userTopics := [yunosTopic] }
  conv := ⟨fun _ => "", fun _ => 0, fun _ => 0, fun _ => none⟩
  fileOf := fun t => t / 100
  disk := fun tick => { t := tick }

/-- The fields of a release of a yuno. -/
def yunoFields (id release : String) : Json.Fields :=
  [("id", .string id), ("release", .string release)]

/-- A topic of departments, each with the departments under it. -/
def departmentsTopic : Topic where
  name := "departments"
  cols := [
    { id := "id", type := .string, persistent := true, required := true },
    { id := "department_id", type := .string, fkey := true },
    { id := "departments", type := .dict, hook := some [("departments", "department_id")] }]

/-- A treedb of departments, with a file for each hundred times. -/
def departmentsCtx : Context where
  schema := { userTopics := [departmentsTopic] }
  conv := ⟨fun _ => "", fun _ => 0, fun _ => 0, fun _ => none⟩
  fileOf := fun t => t / 100
  disk := fun tick => { t := tick }

/-- A department is created. -/
def newDepartment (id : String) : Op := .create "departments" [("id", .string id)] "" 0

/-- A department is put under another. -/
def underDepartment (parent child : String) : Op :=
  .link "departments" (.node "departments" parent) (.node "departments" child)

end Yunetas.TrTreedb
