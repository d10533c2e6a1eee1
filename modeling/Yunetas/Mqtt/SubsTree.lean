import Mathlib.Algebra.Order.Ring.Int
import Yunetas.Mqtt.Topic
import Yunetas.Lib.Json

/-!
# The subscription tree

`sub__add`, `sub__remove`, `sub__remove_client` and the search of `c_mqtt_broker.c`. A tree is a json
object: a level name leads to a child, and under `SUBS_KEY` stands the dict of the subscribers of the
node, by client id. The functions of the source change the tree in place; here each gives back the
changed tree.
-/

namespace Yunetas.Mqtt

open Json

/-- `SUBS_KEY`. -/
def subsKey : String := "@subs"

/-- `json_object_get`; what is no object has no entry. -/
def objectGet : Json → String → Option Json
  | .object fields, key => Fields.get? fields key
  | _, _ => none

/-- The entries `json_object_foreach` goes through. -/
def objectEntries : Json → Fields
  | .object fields => fields
  | _ => []

/-- `json_object_size`. -/
def objectSize (json : Json) : Nat := (objectEntries json).length

/-- `json_object_del`. -/
def objectDel (json : Json) (key : String) : Json :=
  match json with
  | .object fields => .object (Fields.del fields key)
  | other => other

/-- `sub_info`: QoS, subscription identifier and options of a subscription. -/
structure SubInfo where
  qos : UInt8
  /-- `subscription_id`. -/
  id : UInt32
  /-- `subscription_options`. -/
  options : UInt8
  deriving DecidableEq

/-- The json of `sub_info`. -/
def SubInfo.toJson (info : SubInfo) : Json :=
  .object [("qos", .integer info.qos.toNat), ("id", .integer info.id.toNat),
    ("options", .integer info.options.toNat)]

/-- `get_or_create_node` of a path, and a change in place of the node it leads to; nothing can be set
in what is no object. -/
def getOrCreateNode {α : Type} (change : Json → Option (α × Json)) :
    Json → List String → Option (α × Json)
  | current, [] => change current
  | .object fields, level :: rest =>
    match getOrCreateNode change ((Fields.get? fields level).getD (.object [])) rest with
    | none => none
    | some (answer, child) => some (answer, .object (Fields.set fields level child))
  | _, _ :: _ => none

/-- The end of `sub__add`: the subscriber dict of the node is made when missing, and the client's
entry is replaced or added; the answer is 1 when it was there. -/
def addSubscriber (clientId : String) (info : SubInfo) : Json → Option (Int × Json)
  | .object fields =>
    match (Fields.get? fields subsKey).getD (.object []) with
    | .object subs =>
      let answer := if (Fields.get? subs clientId).isSome then 1 else 0
      some (answer, .object
        (Fields.set fields subsKey (.object (Fields.set subs clientId info.toJson))))
    | _ => none
  | _ => none

/-- `sub__add` on one tree. -/
def treeAdd (root : Json) (path : List String) (clientId : String) (info : SubInfo) :
    Int × Json :=
  (getOrCreateNode (addSubscriber clientId info) root path).getD (-1, root)

/-- `get_node`. -/
def getNode : Json → List String → Option Json
  | current, [] => some current
  | current, level :: rest => (objectGet current level).bind (getNode · rest)

/-- A change in place of the node of a path. -/
def changeNode (change : Json → Json) : Json → List String → Json
  | current, [] => change current
  | .object fields, level :: rest =>
    match Fields.get? fields level with
    | none => .object fields
    | some child => .object (Fields.set fields level (changeNode change child rest))
  | current, _ :: _ => current

/-- The node has no child and no subscriber. -/
def emptyNode (node : Json) : Bool :=
  match objectGet node subsKey with
  | none => objectSize node = 0
  | some subs => objectSize node - 1 = 0 ∧ objectSize subs = 0

/-- `prune_empty_branches`, and whether the walk goes on: from the leaf to the root empty nodes go,
and the first node that stays ends the walk. -/
def pruneEmptyBranches : Json → List String → Json × Bool
  | current, [] => (current, true)
  | .object fields, level :: rest =>
    match Fields.get? fields level with
    | none => (.object fields, false)
    | some child =>
      match pruneEmptyBranches child rest with
      | (child, false) => (.object (Fields.set fields level child), false)
      | (child, true) =>
        if emptyNode child then (.object (Fields.del fields level), true)
        else (.object (Fields.set fields level child), false)
  | current, _ :: _ => (current, false)

/-- The subscriber leaves the dict of its node, and an empty dict goes. -/
def dropSubscriber (clientId : String) (node : Json) : Json :=
  match node with
  | .object fields =>
    match Fields.get? fields subsKey with
    | none => node
    | some subs =>
      let left := objectDel subs clientId
      if objectSize left = 0 then .object (Fields.del fields subsKey)
      else .object (Fields.set fields subsKey left)
  | _ => node

/-- `sub__remove` on one tree: whether a subscription existed, and the tree. -/
def treeRemove (root : Json) (path : List String) (clientId : String) : Bool × Json :=
  match ((getNode root path).bind (objectGet · subsKey)).bind (objectGet · clientId) with
  | none => (false, root)
  | some _ =>
    (true, (pruneEmptyBranches (changeNode (dropSubscriber clientId) root path) path).1)

mutual

/-- `sub__remove_client_recursive`: the node and the number of subscriptions that went. -/
def removeClientRecursive (clientId : String) : Json → Json × Nat
  | .object entries =>
    let left := removeClientEntries clientId entries
    (.object left.1, left.2)
  | other => (other, 0)

/-- The entries of a node, one by one: the client leaves the subscriber dict, which goes when it is
empty, and every child is cleaned, and goes when it is empty. -/
def removeClientEntries (clientId : String) : List (String × Json) → List (String × Json) × Nat
  | [] => ([], 0)
  | (key, value) :: rest =>
    let others := removeClientEntries clientId rest
    if key = subsKey then
      match objectGet value clientId with
      | none => ((key, value) :: others.1, others.2)
      | some _ =>
        let left := objectDel value clientId
        if objectSize left = 0 then (others.1, others.2 + 1)
        else ((key, left) :: others.1, others.2 + 1)
    else
      let child := removeClientRecursive clientId value
      if emptyNode child.1 then (others.1, others.2 + child.2)
      else ((key, child.1) :: others.1, others.2 + child.2)

end

/-- A cast to `int`. -/
def toInt (value : Int) : Int := Int.bmod value (2 ^ 32)

/-- An entry of the collected subscribers. -/
structure Subscriber where
  qos : Int
  options : Int
  ids : List Int
  deriving DecidableEq

/-- The value of a field of a subscription. -/
def infoField (info : Json) (key : String) : Int :=
  ((objectGet info key).map Json.integerValue).getD 0

/-- What one more matching subscription makes of the entry of its client. -/
def mergeSubscriber (existing : Option Subscriber) (info : Json) : Subscriber :=
  match existing with
  | some existing =>
    let newQos := toInt (infoField info "qos")
    let newId := infoField info "id"
    { existing with
      qos := if newQos > existing.qos then newQos else existing.qos
      ids := if newId > 0 then existing.ids ++ [newId] else existing.ids }
  | none =>
    let id := toInt (infoField info "id")
    { qos := toInt (infoField info "qos")
      options := toInt (infoField info "options")
      ids := if id > 0 then [id] else [] }

/-- The collected subscribers, by client id. -/
abbrev Subscribers := List (String × Subscriber)

/-- One turn of the loop of `collect_subscribers`. -/
def collectOne (subscribers : Subscribers) (entry : String × Json) : Subscribers :=
  Dict.setEntries entry.1 (mergeSubscriber (Dict.lookupEntries entry.1 subscribers) entry.2)
    subscribers

/-- `collect_subscribers`. -/
def collectSubscribers (node : Json) (subscribers : Subscribers) : Subscribers :=
  match objectGet node subsKey with
  | none => subscribers
  | some subs => (objectEntries subs).foldl collectOne subscribers

/-- The test of `search_recursive` for the wildcard `#`, made at the end of the topic too. -/
def collectMultiWildcard (node : Json) (subscribers : Subscribers) : Subscribers :=
  match objectGet node "#" with
  | none => subscribers
  | some multiWildcard => collectSubscribers multiWildcard subscribers

/-- `search_recursive`. -/
def searchRecursive : Json → List String → Subscribers → Subscribers
  | node, [], subscribers => collectSubscribers node (collectMultiWildcard node subscribers)
  | node, currentLevel :: rest, subscribers =>
    let subscribers := collectMultiWildcard node subscribers
    let subscribers :=
      match objectGet node "+" with
      | none => subscribers
      | some wildcardChild => searchRecursive wildcardChild rest subscribers
    match objectGet node currentLevel with
    | none => subscribers
    | some child => searchRecursive child rest subscribers

/-- The two trees of the broker. -/
structure Subs where
  normalSubs : Json
  sharedSubs : Json

/-- `sub__add`. -/
def subAdd (subs : Subs) (topic clientId : String) (info : SubInfo) : Int × Subs :=
  match topicTokenize topic with
  | none => (-1, subs)
  | some (levels, none) =>
    let added := treeAdd subs.normalSubs (nodePath levels) clientId info
    (added.1, { subs with normalSubs := added.2 })
  | some (levels, some _) =>
    let added := treeAdd subs.sharedSubs (nodePath levels) clientId info
    (added.1, { subs with sharedSubs := added.2 })

/-- `MQTT_RC_NO_SUBSCRIPTION_EXISTED`. -/
def mqttRcNoSubscriptionExisted : Nat := 0x11

/-- `sub__remove`: the answer, the reason code and the trees. -/
def subRemove (subs : Subs) (topic clientId : String) : Int × Nat × Subs :=
  match topicTokenize topic with
  | none => (-1, 0, subs)
  | some (levels, none) =>
    let removed := treeRemove subs.normalSubs (nodePath levels) clientId
    (0, if removed.1 then 0 else mqttRcNoSubscriptionExisted,
      { subs with normalSubs := removed.2 })
  | some (levels, some _) =>
    let removed := treeRemove subs.sharedSubs (nodePath levels) clientId
    (0, if removed.1 then 0 else mqttRcNoSubscriptionExisted,
      { subs with sharedSubs := removed.2 })

/-- `sub__remove_client`: the number of subscriptions removed, and the trees. -/
def subRemoveClient (subs : Subs) (clientId : String) : Nat × Subs :=
  let normal := removeClientRecursive clientId subs.normalSubs
  let shared := removeClientRecursive clientId subs.sharedSubs
  (normal.2 + shared.2, { normalSubs := normal.1, sharedSubs := shared.1 })

/-- The search of `sub__messages_queue` in one of the trees. -/
def searchTree (root : Json) (topic : String) (levels : List String) : Subscribers :=
  if dollar topic then
    match levels with
    | [] => []
    | first :: rest =>
      match objectGet root first with
      | none => []
      | some dollarBranch => searchRecursive dollarBranch rest []
  else searchRecursive root levels.tail []

end Yunetas.Mqtt
