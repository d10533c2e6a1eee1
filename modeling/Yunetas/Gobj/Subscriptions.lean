import Mathlib.Logic.Function.Basic
import Yunetas.Gobj.Match

/-!
# Subscriptions and their publication

A subscription ties a subscriber to an event of a publisher, with key words of its own: keys to take
from what is published, keys to add and a filter. `gobj_publish_event` serves the subscriptions of
the publisher in order. The null event is the empty name.
-/

namespace Yunetas.Gobj

open Json

/-- A subscription as `_create_subscription` stores it; key words that are absent are empty. -/
structure Subscription where
  /-- `publisher`, an address. -/
  publisher : Nat
  /-- `subscriber`, an address. -/
  subscriber : Nat
  /-- `event`; the null event stands for all. -/
  event : String
  /-- `renamed_event`, empty when it is not renamed. -/
  renamedEvent : String
  /-- The flag `__hard_subscription__`. -/
  hardSubscription : Bool
  /-- The flag `__own_event__`. -/
  ownEvent : Bool
  config : Fields
  /-- `__global__`. -/
  globalKw : Fields
  /-- `__local__`. -/
  localKw : Fields
  filter : Option Json
  service : String

/-- A dict of the key words of a subscription, empty when it is missing or is no dict. -/
def subscriptionDict (kw : Fields) (key : String) : Fields :=
  (kwGetDict (some (.object kw)) key).getD []

/-- A value of the key words of a subscription; an empty list or dict counts for nothing. -/
def subscriptionFilter (kw : Fields) : Option Json :=
  (kw.get? "__filter__").filter fun filter => jsonSize filter > 0

/-- `kw_get_bool` without flags, false when it is no boolean. -/
def kwGetBool (kw : Fields) (key : String) : Bool :=
  match kw.get? key with
  | some (.boolean value) => value
  | _ => false

/-- The event that `__rename_event_name__` names, of those of any class. -/
def renamedEvent (findEventType : String → Option String) (config : Fields) : Option String :=
  let name := kwGetStr (some (.object config)) "__rename_event_name__" ""
  if name = "" then none else findEventType name

/-- `_create_subscription`. What `__config__` says to the system is taken out of the stored copy, and
a renamed event leaves its original name in `__global__`. -/
def createSubscription (findEventType : String → Option String) (publisher : Nat) (event : String)
    (kw : Fields) (subscriber : Nat) : Subscription :=
  let config := subscriptionDict kw "__config__"
  let renamed := renamedEvent findEventType config
  let config := if renamed.isSome then config.del "__rename_event_name__" else config
  let globalKw := subscriptionDict kw "__global__"
  let globalKw :=
    if renamed.isSome && event ≠ "" then
      kwSetDictValue globalKw "__original_event_name__" (.string event)
    else globalKw
  let hardSubscription := kwGetBool config "__hard_subscription__"
  let config := config.del "__hard_subscription__"
  let ownEvent := kwGetBool config "__own_event__"
  { publisher, subscriber, event
    renamedEvent := renamed.getD ""
    hardSubscription, ownEvent
    config := config.del "__own_event__"
    globalKw
    localKw := subscriptionDict kw "__local__"
    filter := subscriptionFilter kw
    service := kwGetStr (some (.object kw)) "__service__" "" }

/-! ## Publication -/

/-- A subscription in a publication, with what its subscriber and its action do. -/
structure Turn where
  subs : Subscription
  living : Bool
  accepts : Bool
  /-- What `gobj_send_event` answers. -/
  answer : Int
  publisherGone : Bool

/-- An event sent to a subscriber. -/
structure Sent where
  subscriber : Nat
  event : String
  kw : Fields

/-- The subscription is to the event or to all. -/
def Subscription.wants (subs : Subscription) (event : String) : Bool :=
  subs.event = "" || subs.event = event

/-- Its filter lets the key words through. -/
def Subscription.passes (realEqual : Json → Json → Bool) (subs : Subscription) (kw : Fields) :
    Bool :=
  match subs.filter with
  | none => true
  | some filter => kwMatchSimple realEqual kw filter

/-- Its local keys are removed (`kw_pop`), then its global keys are added. -/
def Subscription.fill (subs : Subscription) (kw : Fields) : Fields :=
  (kw.delAll (subs.localKw.map Prod.fst)).update subs.globalKw

/-- The name under which it gets an event. -/
def Subscription.eventName (subs : Subscription) (event : String) : String :=
  if subs.renamedEvent = "" then event else subs.renamedEvent

/-- The loop ends after this turn. -/
def Turn.stops (turn : Turn) : Bool :=
  turn.answer < 0 && turn.subs.ownEvent || turn.publisherGone

/-- The loop of `gobj_publish_event` for a publisher without publication methods: what each turn
sends. One object `kw` serves all of them, so each finds it as those before left it. -/
def gobjPublishEvent (realEqual : Json → Json → Bool) (event : String) :
    Fields → List Turn → List (Option Sent)
  | _, [] => []
  | kw, turn :: rest =>
    if turn.living && turn.subs.wants event && turn.subs.passes realEqual kw && turn.accepts then
      some ⟨turn.subs.subscriber, turn.subs.eventName event, turn.subs.fill kw⟩ ::
        if turn.stops then rest.map fun _ => none
        else gobjPublishEvent realEqual event (turn.subs.fill kw) rest
    else none :: gobjPublishEvent realEqual event kw rest

/-! ## The lists of subscriptions -/

/-- `json_equal`, which holds of a value and itself. -/
structure JsonEqual where
  equal : Json → Json → Bool
  refl : ∀ json, equal json json = true

/-- What `_match_subscription` reads of key words, or of a subscription taken as such. -/
structure SubscriptionKw where
  config : Fields
  /-- `__global__`. -/
  globalKw : Fields
  /-- `__local__`. -/
  localKw : Fields
  filter : Option Json

/-- The key words of a call. -/
def subscriptionKw (kw : Fields) : SubscriptionKw where
  config := subscriptionDict kw "__config__"
  globalKw := subscriptionDict kw "__global__"
  localKw := subscriptionDict kw "__local__"
  filter := subscriptionFilter kw

/-- A subscription as key words of a call. -/
def Subscription.kw (subs : Subscription) : SubscriptionKw :=
  ⟨subs.config, subs.globalKw, subs.localKw, subs.filter⟩

/-- A dict of a pattern matches a stored one: an empty one matches any. -/
def matchDict (json : JsonEqual) (stored asked : Fields) : Bool :=
  if asked.length > 0 then
    if stored.length > 0 then json.equal (.object stored) (.object asked) else false
  else true

/-- A filter of a pattern matches a stored one: an empty one matches any. -/
def matchFilter (json : JsonEqual) (stored asked : Option Json) : Bool :=
  match asked with
  | none => true
  | some asked =>
    match stored with
    | none => false
    | some stored => json.equal stored asked

/-- `_match_subscription`. The null event and empty key words match any. -/
def matchSubscription (json : JsonEqual) (subs : Subscription) (publisher : Nat) (event : String)
    (kw : SubscriptionKw) (subscriber : Nat) : Bool :=
  publisher = subs.publisher && subscriber = subs.subscriber &&
    (event = "" || event = subs.event) && matchDict json subs.config kw.config &&
    matchDict json subs.globalKw kw.globalKw && matchDict json subs.localKw kw.localKw &&
    matchFilter json subs.filter kw.filter

/-- A subscription in the lists: a json object at an address. -/
structure Subs where
  address : Nat
  record : Subscription
  asked : Fields

/-- The lists of all gobjs. -/
structure Lists where
  /-- `dl_subscriptions` of each publisher. -/
  subscriptions : Nat → List Subs
  /-- `dl_subscribings` of each subscriber. -/
  subscribings : Nat → List Subs
  next : Nat

/-- The objects a subscription matches when it is taken as a pattern. -/
def Subs.pattern (json : JsonEqual) (subs other : Subs) : Bool :=
  matchSubscription json other.record subs.record.publisher subs.record.event subs.record.kw
    subs.record.subscriber

/-- `_delete_subscription`: in each list the first object that matches is removed. -/
def deleteSubscription (json : JsonEqual) (lists : Lists) (subs : Subs) (force : Bool) : Lists :=
  if subs.record.hardSubscription && !force then lists
  else
    let publisher := subs.record.publisher
    let subscriber := subs.record.subscriber
    { lists with
      subscriptions := Function.update lists.subscriptions publisher
        ((lists.subscriptions publisher).eraseP (subs.pattern json))
      subscribings := Function.update lists.subscribings subscriber
        ((lists.subscribings subscriber).eraseP (subs.pattern json)) }

/-- `_find_subscriptions` in the list of a publisher. -/
def findSubscriptions (json : JsonEqual) (lists : Lists) (publisher : Nat) (event : String)
    (kw : Fields) (subscriber : Nat) : List Subs :=
  (lists.subscriptions publisher).filter fun subs =>
    matchSubscription json subs.record publisher event (subscriptionKw kw) subscriber

/-- `gobj_unsubscribe_list`. -/
def gobjUnsubscribeList (json : JsonEqual) (lists : Lists) (dlSubs : List Subs) (force : Bool) :
    Lists :=
  dlSubs.foldl (fun lists subs => deleteSubscription json lists subs force) lists

/-- What the calls read of the classes and of the registered events. -/
structure Classes where
  /-- `gobj_find_event_type`. -/
  findEventType : String → Option String
  hasOutputEvent : Nat → String → Bool

/-- The subscription that a call makes. -/
def newSubs (classes : Classes) (lists : Lists) (publisher : Nat) (event : String) (kw : Fields)
    (subscriber : Nat) : Subs where
  address := lists.next
  record := createSubscription classes.findEventType publisher event kw subscriber
  asked := kw

/-- Append an object to the lists of its publisher and of its subscriber. -/
def appendSubs (lists : Lists) (subs : Subs) : Lists where
  subscriptions := Function.update lists.subscriptions subs.record.publisher
    (lists.subscriptions subs.record.publisher ++ [subs])
  subscribings := Function.update lists.subscribings subs.record.subscriber
    (lists.subscribings subs.record.subscriber ++ [subs])
  next := lists.next + 1

/-- `gobj_subscribe_event`: what matches the call is removed first, unless it is hard. `accepted` is
false when `mt_subscription_added` of the publisher refuses. -/
def gobjSubscribeEvent (json : JsonEqual) (classes : Classes) (lists : Lists) (publisher : Nat)
    (event : String) (kw : Fields) (subscriber : Nat) (accepted : Bool) : Lists :=
  if event ≠ "" && !classes.hasOutputEvent publisher event then lists
  else
    let repeated := findSubscriptions json lists publisher event kw subscriber
    let lists := gobjUnsubscribeList json lists repeated false
    let subs := newSubs classes lists publisher event kw subscriber
    let lists := appendSubs lists subs
    if accepted then lists else deleteSubscription json lists subs true

/-- `gobj_unsubscribe_event`. -/
def gobjUnsubscribeEvent (json : JsonEqual) (classes : Classes) (lists : Lists) (publisher : Nat)
    (event : String) (kw : Fields) (subscriber : Nat) : Lists :=
  if event ≠ "" && !classes.hasOutputEvent publisher event then lists
  else gobjUnsubscribeList json lists
    (findSubscriptions json lists publisher event kw subscriber) false

end Yunetas.Gobj
