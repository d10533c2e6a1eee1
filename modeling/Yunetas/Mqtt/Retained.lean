import Yunetas.Gobj.Gbuffer
import Yunetas.Mqtt.Acl
import Yunetas.TrTreedb.Writes

/-!
# Retained messages

`sub__messages_queue` hands a published message to the subscribers and keeps it when it asks for that,
`retain__store` files it in the topic `retained_msgs` of the treedb, under its name with every `/`
changed to `#`, and `retain__queue` sends the filed messages that a new subscription matches. Of a
node this keeps what `retain__queue` decides by.
-/

namespace Yunetas.Mqtt

open Gobj (Gbuffer gbufferSerialize gbufferDeserialize)
open Timeranger2 (nameMax validStringKey)
open TrTreedb (isValidKeyName)

/-- A message as `sub__messages_queue` gets it. -/
structure Published extends Message where
  retain : Bool
  expiryInterval : Nat
  tm : Int
  /-- `gbuffer`. -/
  payload : Option Gbuffer

/-- `payloadlen`. -/
def Published.payloadlen (published : Published) : Nat :=
  (published.payload.map fun gbuf => gbuf.leftBytes.length).getD 0

/-- A node of the topic `retained_msgs`. -/
structure RetainNode where
  id : String
  qos : Nat
  expiryInterval : Nat
  tm : Int
  payload : Json

/-- The id index of the topic `retained_msgs`; its keys are texts cut to `NAME_MAX` bytes. -/
abbrev Retained := Dict (List UInt8) RetainNode

/-- `change_char`. -/
def changeChar (text : String) (oldChar newChar : Char) : String :=
  String.ofList (text.toList.map fun ch => if ch = oldChar then newChar else ch)

/-- `topic2disk`. -/
def topic2disk (topic : String) : String := changeChar topic '/' '#'

/-- The `key_` of `exist_primary_node`, `add_primary_node` and `delete_primary_node`. -/
def primaryKey (id : String) : List UInt8 :=
  (id.toList.flatMap String.utf8EncodeChar).take nameMax

/-- `gobj_update_node` with the option `create`: `treedb_create_node` when the index has no node
under the key, else `treedb_update_node`, which sets every field, the id among them. -/
def updateRetainNode (retained : Retained) (node : RetainNode) : Retained :=
  match retained.get? (primaryKey node.id) with
  | none =>
    if isValidKeyName node.id && validStringKey node.id then
      retained.set (primaryKey node.id) node
    else retained
  | some _ => retained.set (primaryKey node.id) node

/-- The text starts with `$SYS`. -/
def startsSys (topic : String) : Bool := topic.toList.take 4 = "$SYS".toList

/-- The node that `retain__store` makes of a message. -/
def Published.node (maxBlock : Nat) (published : Published) (gbuf : Gbuffer) :
    RetainNode where
  id := topic2disk published.topic
  qos := published.qos
  expiryInterval := published.expiryInterval
  tm := published.tm
  payload := gbufferSerialize maxBlock gbuf

/-- `retain__store`. -/
def retainStore (maxBlock : Nat) (retained : Retained) (published : Published) : Retained :=
  if startsSys published.topic then retained
  else if published.payloadlen = 0 then retained.erase (primaryKey (topic2disk published.topic))
  else
    match published.payload with
    | none => retained
    | some gbuf => updateRetainNode retained (published.node maxBlock gbuf)

/-- The loop of `sub__messages_queue` over the normal subscribers: the client, the topic of its copy
and what became of it. -/
def sendNormal (sessions : String → Option Session) (message : Message)
    (subscribers : Subscribers) : List (String × String × Handed) :=
  subscribers.filterMap fun entry =>
    (subsSend sessions message entry.1 entry.2).2.map fun handed =>
      (entry.1, message.topic, handed)

/-- What `sub__messages_queue` does. -/
structure Queued where
  normal : List (String × String × Handed)
  shared : List (String × Handed)
  retained : Retained

/-- `sub__messages_queue`. -/
def subMessagesQueueRetain (maxBlock : Nat) (sessions : String → Option Session) (subs : Subs)
    (retained : Retained) (published : Published) : Queued :=
  match collected subs published.topic with
  | none => ⟨[], [], retained⟩
  | some (normal, shared) =>
    -- a retained message without payload only clears the store
    if published.retain ∧ published.payloadlen = 0 then
      ⟨[], [], retainStore maxBlock retained published⟩
    else
      { normal := sendNormal sessions published.toMessage normal
        shared := sendShared sessions published.toMessage shared
        retained :=
          if published.retain then retainStore maxBlock retained published else retained }

/-- The message has waited as long as its expiry interval. -/
def RetainNode.expired (now : Int) (node : RetainNode) : Bool :=
  0 < node.expiryInterval && node.expiryInterval ≤ now - node.tm

/-- One turn of the loop of `retain__queue`: the topic of the copy and what became of it. -/
def retainQueueOne (maxBlock : Nat) (session : Session) (now : Int) (subLevels : List String)
    (subQos : Nat) (node : RetainNode) : Option (String × Handed) :=
  let retainTopic := changeChar node.id '#' '/'
  match topicTokenize retainTopic with
  | none => none
  | some (retainLevels, _) =>
    if ¬topicMatchesSub subLevels retainLevels then none
    else if node.expired now then none
    else
      let msgQos := if node.qos > subQos then subQos else node.qos
      match gbufferDeserialize maxBlock node.payload with
      | none => none
      | some _ =>
        if session.connected then some (retainTopic, .sent msgQos)
        else if msgQos > 0 then some (retainTopic, .queued msgQos)
        else some (retainTopic, .lost)

/-- `retain__queue`: the nodes sent from, with the topics of the copies and what became of them. -/
def retainQueue (maxBlock : Nat) (sessions : String → Option Session) (now : Int)
    (retained : Retained) (clientId sub : String) (subQos : Nat) :
    List (RetainNode × String × Handed) :=
  if namesShare sub then []
  else
    match topicTokenize sub with
    | none => []
    | some (subLevels, _) =>
      match sessions clientId with
      | none => []
      | some session =>
        retained.entries.filterMap fun entry =>
          (retainQueueOne maxBlock session now subLevels subQos entry.2).map fun copy =>
            (entry.2, copy)

/-- What a client gets of the retained messages as it subscribes, where `ac_mqtt_subscribe` calls
`retain__queue`: nothing when `sub__add` fails. -/
def subscribeRetained (maxBlock : Nat) (sessions : String → Option Session) (now : Int)
    (subs : Subs) (retained : Retained) (clientId sub : String) (info : SubInfo) :
    List (RetainNode × String × Handed) :=
  if (subAdd subs sub clientId info).1 < 0 then []
  else retainQueue maxBlock sessions now retained clientId sub info.qos.toNat

/-- The client gets the message, now or when it connects. -/
def Handed.arrives : Handed → Bool
  | .queued _ => true
  | .sent _ => true
  | .skipped => false
  | .lost => false

end Yunetas.Mqtt
