import Yunetas.Gobj.Match
/-!
# Message lists

The lists of tr_msg.c: for each key the instances that were accepted and the active one, which is
the same json object as one of them. Json objects are addresses into the records of the list, so a
write through one reference is seen through the other.
-/

namespace Yunetas.Timeranger2

open Json Gobj

/-- A key of the messages. `kw_get_dict_value` reads the key of a record as a path into them; one
without the delimiter of paths names its message directly. -/
abbrev MsgKey := { text : String // pathDelimiter ∉ text.toList }

/-- The dict of a key: `active` and `instances` as addresses of records. -/
structure Message where
  active : Option Nat
  instances : List Nat

/-- A list of `trmsg_open_list`: its messages, and the json objects they refer to. -/
structure MsgList where
  records : List Fields := []
  messages : Dict MsgKey Message := Dict.empty

/-- What `load_record_callback` reads of `match_cond`. -/
structure MsgCond where
  matchFields : Option Json := none
  instanceCallback : Bool := false
  maxKeyInstances : Int := 0
  orderByTm : Bool := false

/-- A record handed to the callback: `none` for a list that takes only metadata. The verdict is
what `trmsg_instance_callback` returns for it. -/
structure LoadedRecord where
  key : MsgKey
  record : Option Fields
  verdict : Int := 1

/-- `kw_get_int` of a field of `__md_tranger__`, which `md2json` fills with integers. -/
def mdInt (record : Fields) (field : String) : Int :=
  match record.get? "__md_tranger__" with
  | some (.object md) =>
    match Fields.get? md field with
    | some (.integer value) => value
    | _ => 0
  | _ => 0

namespace MsgList

def fields (list : MsgList) (address : Nat) : Fields := list.records.getD address []

def alloc (list : MsgList) (record : Fields) : MsgList :=
  { list with records := list.records ++ [record] }

def write (list : MsgList) (address : Nat) (record : Fields) : MsgList :=
  { list with records := list.records.set address record }

def setMessage (list : MsgList) (key : MsgKey) (message : Message) : MsgList :=
  { list with messages := list.messages.set key message }

/-- The message of a key, made with an empty active record when there is none. -/
def message (list : MsgList) (key : MsgKey) : MsgList × Message :=
  match list.messages.get? key with
  | some message => (list, message)
  | none =>
    let message := { active := some list.records.length, instances := [] }
    ((list.alloc []).setMessage key message, message)

end MsgList

variable (realEqual : Json → Json → Bool)

/-- The unsigned `max_key_instances`. -/
def MsgCond.limit (cond : MsgCond) : Nat := (cond.maxKeyInstances % 2 ^ 32).toNat

/-- The record passes `match_fields`. -/
def MsgCond.passes (cond : MsgCond) (record : Fields) : Bool :=
  match cond.matchFields with
  | some filter => kwMatchSimple realEqual record filter
  | none => true

/-- The instance that makes room for another and the ones left without it. -/
def evicted (limit instance_ : Nat) (instances : List Nat) : Option Nat × List Nat :=
  if 0 < limit ∧ limit ≤ instances.length then
    if instances[0]? ≠ some instance_ then (instances[0]?, instances.eraseIdx 0)
    else (instances[1]?, instances.eraseIdx 1)
  else (none, instances)

/-- The loop that looks for the place of a time from the end. -/
def tmIndex (tm : Int) (tms : List Int) : Nat → Nat
  | 0 => 0
  | idx + 1 => if tm ≥ tms.getD idx 0 then idx + 1 else tmIndex tm tms idx

/-- The instances with a new one in its place. -/
def inserted (cond : MsgCond) (list : MsgList) (instance_ : Nat) (instances : List Nat) :
    List Nat :=
  if cond.orderByTm then
    let tm := mdInt (list.fields instance_) "tm"
    let tms := instances.map fun other => mdInt (list.fields other) "tm"
    instances.insertIdx (tmIndex tm tms instances.length) instance_
  else instances ++ [instance_]

/-- The part of `load_record_callback` after the filters. An evicted active record leaves an
empty dict in its place until the new instance takes it. -/
def addInstance (cond : MsgCond) (list : MsgList) (key : MsgKey) (message : Message)
    (record : Fields) : MsgList :=
  let instance_ := list.records.length
  let list := list.alloc record
  let (instance2remove, instances) := evicted cond.limit instance_ message.instances
  let list := if instance2remove.isSome ∧ instance2remove = message.active then list.alloc []
    else list
  list.setMessage key
    { active := some instance_, instances := inserted cond list instance_ instances }

/-- `load_record_callback`. -/
def loadRecordCallback (cond : MsgCond) (list : MsgList) (delivery : LoadedRecord) : MsgList × Int :=
  let (list, message) := list.message delivery.key
  match delivery.record with
  | none => (list, -1)
  | some record =>
    if !cond.passes realEqual record then (list, 0)
    else if cond.instanceCallback && delivery.verdict < 0 then (list, -1)
    else if cond.instanceCallback && delivery.verdict = 0 then (list, 0)
    else (addInstance cond list delivery.key message record, 0)

/-- The list after a sequence of records. -/
def loadRecords (cond : MsgCond) (list : MsgList) (deliveries : List LoadedRecord) : MsgList :=
  deliveries.foldl (fun list delivery => (loadRecordCallback realEqual cond list delivery).1) list

/-- A message as a reader of the list sees it. -/
def MsgList.read (list : MsgList) (message : Message) : Json :=
  .object ((message.active.map fun active => ("active", .object (list.fields active))).toList ++
    [("instances", .array (message.instances.map fun other => .object (list.fields other)))])

/-- `trmsg_get_messages`. -/
def trmsgGetMessages (list : MsgList) : Json :=
  .object (list.messages.entries.map fun entry => (entry.1.val, list.read entry.2))

/-- `trmsg_get_message`. -/
def trmsgGetMessage (list : MsgList) (key : MsgKey) : Option Json :=
  (list.messages.get? key).map list.read

/-- `kw_get_list` of `data` with `KW_CREATE`. A `data` that is no list stays, and what is appended
goes to a list of its own that nobody holds. -/
def getDataList (list : MsgList) (active : Nat) : MsgList × Bool :=
  match (list.fields active).get? "data" with
  | none => (list.write active ((list.fields active).set "data" (.array [])), true)
  | some (.array _) => (list, true)
  | some _ => (list, false)

/-- `json_array_append_new` on the `data` of an active record. What is appended is a reference, but
an instance that is not the active one is not written any more. -/
def appendData (list : MsgList) (active : Nat) (instance_ : Nat) : MsgList :=
  match (list.fields active).get? "data" with
  | some (.array items) =>
    let data := Json.array (items ++ [.object (list.fields instance_)])
    list.write active ((list.fields active).set "data" data)
  | _ => list

/-- The loop over the instances of a message in `trmsg_data_tree`. -/
def dataTreeInstances (filter : Json) (active : Nat) (held : Bool) (activeRowid : Int) :
    Bool → List Nat → MsgList → MsgList
  | _, [], list => list
  | found, instance_ :: rest, list =>
    if !found && mdInt (list.fields instance_) "g_rowid" = activeRowid then
      dataTreeInstances filter active held activeRowid true rest list
    else if kwMatchSimple realEqual (list.fields instance_) filter then
      dataTreeInstances filter active held activeRowid found rest
        (if held then appendData list active instance_ else list)
    else dataTreeInstances filter active held activeRowid found rest list

/-- One message in `trmsg_data_tree`: nothing can be appended without an active record. -/
def dataTreeMessage (filter : Json) (tree : MsgList × List Nat) (message : Message) :
    MsgList × List Nat :=
  match message.active with
  | none => tree
  | some active =>
    if kwMatchSimple realEqual (tree.1.fields active) filter then
      let (list, held) := getDataList tree.1 active
      (dataTreeInstances realEqual filter active held (mdInt (list.fields active) "g_rowid") false
        message.instances list, tree.2 ++ [active])
    else tree

/-- `trmsg_data_tree`: the list it leaves and the records of the array it returns. -/
def trmsgDataTree (list : MsgList) (filter : Json) : MsgList × List Nat :=
  (list.messages.entries.map Prod.snd).foldl (dataTreeMessage realEqual filter) (list, [])

/-- The returned array as it reads when it is returned. -/
def readTree (tree : MsgList × List Nat) : List Json :=
  tree.2.map fun active => .object (tree.1.fields active)

end Yunetas.Timeranger2
