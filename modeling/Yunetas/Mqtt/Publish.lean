import Yunetas.Mqtt.SubsTree

/-!
# Publishing

The part of `sub__messages_queue` that finds the subscribers of a topic, those of the normal tree and
those of the tree of shared subscriptions, and what `subs__send` does with the message for one of
them.
-/

namespace Yunetas.Mqtt

/-- The subscribers `sub__messages_queue` collects, normal and shared; nothing for a topic it
refuses. -/
def collected (subs : Subs) (topic : String) : Option (Subscribers × Subscribers) :=
  if topic.toList = [] then none
  else if topic.toList.any fun ch => ch = '+' ∨ ch = '#' then none
  else
    match topicTokenize topic with
    | none => none
    | some (levels, _) =>
      some (searchTree subs.normalSubs topic levels, searchTree subs.sharedSubs topic levels)

theorem collected_eq (subs : Subs) {topic : String} (accepted : mqttPubTopicCheck2 topic = 0) :
    collected subs topic = (topicTokenize topic).map fun split =>
      (searchTree subs.normalSubs topic split.1, searchTree subs.sharedSubs topic split.1) := by
  have plain : ¬(topic.toList.any fun ch => ch = '+' ∨ ch = '#') = true := by
    intro wild
    unfold mqttPubTopicCheck2 at accepted
    rw [if_pos wild] at accepted
    split at accepted <;> cases accepted
  unfold collected
  rw [if_neg (toList_ne_nil accepted), if_neg plain]
  cases topicTokenize topic <;> rfl

/-- `normal_subscribers`. -/
def normalSubscribers (subs : Subs) (topic : String) : Subscribers :=
  ((collected subs topic).map Prod.fst).getD []

/-- `shared_subscribers`. -/
def sharedSubscribers (subs : Subs) (topic : String) : Subscribers :=
  ((collected subs topic).map Prod.snd).getD []

/-- A node of the topic `sessions`: whether `_gobj_channel` is set. -/
structure Session where
  connected : Bool

/-- A published message. -/
structure Message where
  topic : String
  qos : Nat
  /-- `client_id`, the publisher. -/
  clientId : String

/-- What becomes of a message for one subscriber. -/
inductive Handed
  | skipped
  | lost
  | queued (qos : Nat)
  | sent (qos : Nat)
  deriving DecidableEq

/-- `MQTT_SUB_OPT_NO_LOCAL` is bit 2 of the options. -/
def noLocal (options : Int) : Bool := options.toNat.testBit 2

/-- `subs__send`: the answer, and what it did with the message. -/
def subsSend (sessions : String → Option Session) (message : Message) (clientId : String)
    (sub : Subscriber) : Int × Option Handed :=
  match sessions clientId with
  | none => (-1, none)
  | some session =>
    if noLocal sub.options ∧ clientId = message.clientId then (0, some .skipped)
    else
      let clientQos := sub.qos.toNat
      let msgQos := if message.qos > clientQos then clientQos else message.qos
      if ¬session.connected then
        if msgQos = 0 then (0, some .lost) else (0, some (.queued msgQos))
      else (0, some (.sent msgQos))

/-- The loop of `sub__messages_queue` over the shared subscribers: it ends at the first one for which
`subs__send` answers zero. -/
def sendShared (sessions : String → Option Session) (message : Message) :
    Subscribers → List (String × Handed)
  | [] => []
  | (clientId, sub) :: rest =>
    match subsSend sessions message clientId sub with
    | (0, some handed) => [(clientId, handed)]
    | _ => sendShared sessions message rest

/-- The deliveries of a message to shared subscribers. -/
def sharedDeliveries (subs : Subs) (sessions : String → Option Session) (message : Message) :
    List (String × Handed) :=
  sendShared sessions message (sharedSubscribers subs message.topic)

/-- No tree has a node yet. -/
def noSubs : Subs := ⟨.object [], .object []⟩

end Yunetas.Mqtt
