import Yunetas.Gobj.Subscriptions

/-!
# Subscribers of one event

Each subscriber should get the published key words without the paths of its own `__local__` and with
the keys of its own `__global__`, whoever else is subscribed. The code serves all of them with one
object and never gives it back its published state, so a subscriber gets what the subscription
served before it left there. It gets its own exactly when that one changed nothing that the filter
or the key words of this one do not cover, and when what its `__local__` names are plain keys.
-/

namespace Yunetas.Gobj

open Json List

/-- A subscription by its arguments, with what happens when its turn comes. -/
structure Request where
  event : String
  kw : Fields
  subscriber : Nat
  living : Bool
  accepts : Bool
  /-- What `gobj_send_event` answers. -/
  answer : Int
  publisherGone : Bool

/-- The turn of a subscription. -/
def Request.turn (findEventType : String → Option String) (publisher : Nat) (request : Request) :
    Turn where
  subs := createSubscription findEventType publisher request.event request.kw request.subscriber
  living := request.living
  accepts := request.accepts
  answer := request.answer
  publisherGone := request.publisherGone

mutual

/-- The paths that a `__local__` names: the keys of a dict, or the strings of a list. -/
def localNames : Json → List String
  | .object entries => entries.map Prod.fst
  | .array items => localNamesAll items
  | .string name => [name]
  | _ => []

/-- The paths of the items of a list. -/
def localNamesAll : List Json → List String
  | [] => []
  | item :: rest => localNames item ++ localNamesAll rest

end

/-- A value without what is at a path, given by its segments. -/
def withoutSegments : List (List Char) → Json → Json
  | [], json => json
  | [last], .object fields => .object (Fields.del fields (String.ofList last))
  | segment :: rest, .object fields =>
    match Fields.get? fields (String.ofList segment) with
    | none => .object fields
    | some next => .object (Fields.set fields (String.ofList segment) (withoutSegments rest next))
  | segment :: rest, .array items =>
    if atoi segment < 0 then .array items
    else .array (items.modify (atoi segment).toNat (withoutSegments rest))
  | _, json => json

/-- Key words without a path. -/
def withoutPath (kw : Fields) (path : String) : Fields :=
  match withoutSegments (segments path.toList) (.object kw) with
  | .object fields => fields
  | _ => kw

section Publication

variable (findEventType : String → Option String) (publisher : Nat)
  (realEqual : Json → Json → Bool) (event : String) (kw : Fields)

/-- The subscription that a request makes. -/
def Request.subs (request : Request) : Subscription := (request.turn findEventType publisher).subs

/-- A living subscriber of the event. -/
def Request.subscribed (request : Request) : Bool :=
  request.living && (request.subs findEventType publisher).wants event && request.accepts

/-- A living subscriber of the event whose filter matches the published key words. -/
def Request.due (request : Request) : Bool :=
  request.subscribed findEventType publisher event &&
    (request.subs findEventType publisher).passes realEqual kw

/-- The published key words without the paths of its `__local__` and with the keys of its
`__global__`. -/
def Request.ownKw (request : Request) : Fields :=
  let paths := ((request.kw.get? "__local__").map localNames).getD []
  Fields.update (paths.foldl withoutPath kw) (request.subs findEventType publisher).globalKw

/-- What a subscriber should get. -/
def Request.expected (request : Request) : Option Sent :=
  if request.due findEventType publisher realEqual event kw then
    some ⟨request.subscriber, (request.subs findEventType publisher).eventName event,
      request.ownKw findEventType publisher kw⟩
  else none

/-- The same event to the same subscriber, with the same keys and values; or nothing. -/
inductive SameSent : Option Sent → Option Sent → Prop where
  | nothing : SameSent none none
  | event {sent other : Sent} (subscriber : sent.subscriber = other.subscriber)
      (event : sent.event = other.event) (kw : ∀ key, sent.kw.get? key = other.kw.get? key) :
      SameSent (some sent) (some other)

/-- Every subscription gets what it should. -/
def Isolated (requests : List Request) : Prop :=
  List.Forall₂ SameSent
    (gobjPublishEvent realEqual event kw (requests.map (Request.turn findEventType publisher)))
    (requests.map (Request.expected findEventType publisher realEqual event kw))

/-- Key words handed on serve a subscription like those published: its filter says the same, and when
it matches, every key that is not in its `__global__` has, its `__local__` keys taken away, the
value of the published key words without its `__local__` paths. -/
structure Undisturbed (handed : Fields) (request : Request) : Prop where
  filter : (request.subs findEventType publisher).passes realEqual handed =
    (request.subs findEventType publisher).passes realEqual kw
  keys : (request.subs findEventType publisher).passes realEqual kw = true →
    ∀ key, key ∉ (request.subs findEventType publisher).globalKw.map Prod.fst →
      (if key ∈ (request.subs findEventType publisher).localKw.map Prod.fst then none
        else handed.get? key) = (request.ownKw findEventType publisher kw).get? key

/-- Subscriptions that do not disturb each other, given the key words that the last one served should
have got: those handed on serve each living subscriber of the event like those published, and none
that is served ends the publication before another that is due. -/
def Apart : Fields → List Request → Prop
  | _, [] => True
  | handed, request :: rest =>
    (request.subscribed findEventType publisher event = true →
      Undisturbed findEventType publisher realEqual kw handed request) ∧
    if request.due findEventType publisher realEqual event kw then
      if (request.turn findEventType publisher).stops then
        ∀ other ∈ rest, other.due findEventType publisher realEqual event kw = false
      else Apart (request.ownKw findEventType publisher kw) rest
    else Apart handed rest

theorem SameSent.trans {left middle right : Option Sent} (first : SameSent left middle)
    (second : SameSent middle right) : SameSent left right := by
  cases first with
  | nothing => exact second
  | event subscriber event kw =>
    cases second with
    | event subscriber' event' kw' =>
      exact .event (subscriber.trans subscriber') (event.trans event') fun key =>
        (kw key).trans (kw' key)

variable {left right : Fields}

section

variable (subs : Subscription) (same : ∀ key, left.get? key = right.get? key)
include subs same

theorem fill_congr (key : String) :
    (subs.fill left).get? key = (subs.fill right).get? key := by
  unfold Subscription.fill
  by_cases named : key ∈ subs.globalKw.map Prod.fst
  · exact Fields.get?_update_eq _ _ named
  · rw [Fields.get?_update_ne _ named, Fields.get?_update_ne _ named, Fields.get?_delAll,
      Fields.get?_delAll, same]

theorem passes_congr :
    subs.passes realEqual left = subs.passes realEqual right := by
  unfold Subscription.passes
  cases subs.filter with
  | none => rfl
  | some filter => exact kwMatchSimple_congr realEqual same filter

end

theorem gobjPublishEvent_congr (turns : List Turn) (same : ∀ key, left.get? key = right.get? key) :
    List.Forall₂ SameSent (gobjPublishEvent realEqual event left turns)
      (gobjPublishEvent realEqual event right turns) := by
  induction turns generalizing left right with
  | nil => exact .nil
  | cons turn rest ih =>
    unfold gobjPublishEvent
    rw [passes_congr realEqual turn.subs same]
    split
    · refine .cons (.event rfl rfl (fill_congr turn.subs same)) ?_
      split
      · exact List.forall₂_same.2 fun sent among => by
          obtain ⟨other, -, rfl⟩ := mem_map.1 among
          exact .nothing
      · exact ih (fill_congr turn.subs same)
    · exact .cons .nothing (ih same)

theorem forall₂_sameSent_trans {left middle right : List (Option Sent)}
    (first : List.Forall₂ SameSent left middle) (second : List.Forall₂ SameSent middle right) :
    List.Forall₂ SameSent left right := by
  induction first generalizing right with
  | nil => exact second
  | cons here _ ih =>
    cases second with
    | cons there later => exact .cons (here.trans there) (ih later)

/-- Subscriptions get what they should from key words handed on. -/
def GoodFrom (handed : Fields) (requests : List Request) : Prop :=
  List.Forall₂ SameSent
    (gobjPublishEvent realEqual event handed (requests.map (Request.turn findEventType publisher)))
    (requests.map (Request.expected findEventType publisher realEqual event kw))

theorem GoodFrom.congr (same : ∀ key, left.get? key = right.get? key) {requests : List Request}
    (good : GoodFrom findEventType publisher realEqual event kw left requests) :
    GoodFrom findEventType publisher realEqual event kw right requests :=
  forall₂_sameSent_trans (gobjPublishEvent_congr realEqual event _ fun key => (same key).symm) good

/-- What a served subscription gets is what it should exactly when the keys outside its `__global__`
are. -/
theorem fill_eq_ownKw_iff (handed : Fields) (request : Request) :
    (∀ key, ((request.subs findEventType publisher).fill handed).get? key =
      (request.ownKw findEventType publisher kw).get? key) ↔
    ∀ key, key ∉ (request.subs findEventType publisher).globalKw.map Prod.fst →
      (if key ∈ (request.subs findEventType publisher).localKw.map Prod.fst then none
        else handed.get? key) = (request.ownKw findEventType publisher kw).get? key := by
  unfold Subscription.fill
  constructor
  · intro all key unnamed
    rw [← all key, Fields.get?_update_ne _ unnamed, Fields.get?_delAll]
  · intro outside key
    by_cases named : key ∈ (request.subs findEventType publisher).globalKw.map Prod.fst
    · exact Fields.get?_update_eq _ _ named
    · rw [← outside key named, Fields.get?_update_ne _ named, Fields.get?_delAll]

theorem silent_iff (requests : List Request) :
    List.Forall₂ SameSent ((requests.map (Request.turn findEventType publisher)).map fun _ => none)
      (requests.map (Request.expected findEventType publisher realEqual event kw)) ↔
    ∀ other ∈ requests, other.due findEventType publisher realEqual event kw = false := by
  rw [map_map, List.forall₂_map_left_iff, List.forall₂_map_right_iff, List.forall₂_same]
  apply forall₂_congr
  intro other _
  unfold Request.expected
  constructor
  · intro same
    split at same
    · cases same
    · rename_i notDue
      exact Bool.eq_false_iff.2 notDue
  · intro notDue
    rw [if_neg (by rw [notDue]; exact Bool.false_ne_true)]
    exact .nothing

theorem turn_test (handed : Fields) (request : Request) :
    ((request.turn findEventType publisher).living &&
        (request.turn findEventType publisher).subs.wants event &&
        (request.turn findEventType publisher).subs.passes realEqual handed &&
        (request.turn findEventType publisher).accepts) =
      (request.subscribed findEventType publisher event &&
        (request.subs findEventType publisher).passes realEqual handed) := by
  exact Bool.and_right_comm _ _ _

theorem goodFrom_silent {handed : Fields} {request : Request} {rest : List Request}
    (test : (request.subscribed findEventType publisher event &&
      (request.subs findEventType publisher).passes realEqual handed) = false) :
    GoodFrom findEventType publisher realEqual event kw handed (request :: rest) ↔
      request.due findEventType publisher realEqual event kw = false ∧
        GoodFrom findEventType publisher realEqual event kw handed rest := by
  unfold GoodFrom
  rw [map_cons, gobjPublishEvent, if_neg (by rw [turn_test, test]; exact Bool.false_ne_true),
    map_cons, List.forall₂_cons]
  apply and_congr_left
  intro _
  unfold Request.expected
  split
  · rename_i due
    rw [due]
    exact ⟨fun same => (by cases same), fun never => (by cases never)⟩
  · rename_i notDue
    exact ⟨fun _ => Bool.eq_false_iff.2 notDue, fun _ => .nothing⟩

theorem goodFrom_sends {handed : Fields} {request : Request} {rest : List Request}
    (test : (request.subscribed findEventType publisher event &&
      (request.subs findEventType publisher).passes realEqual handed) = true) :
    GoodFrom findEventType publisher realEqual event kw handed (request :: rest) ↔
      request.due findEventType publisher realEqual event kw = true ∧
      (∀ key, ((request.subs findEventType publisher).fill handed).get? key =
        (request.ownKw findEventType publisher kw).get? key) ∧
      if (request.turn findEventType publisher).stops then
        ∀ other ∈ rest, other.due findEventType publisher realEqual event kw = false
      else GoodFrom findEventType publisher realEqual event kw
        ((request.subs findEventType publisher).fill handed) rest := by
  unfold GoodFrom
  rw [map_cons, gobjPublishEvent, if_pos (by rw [turn_test, test]), map_cons,
    List.forall₂_cons, ← and_assoc]
  apply and_congr
  · unfold Request.expected
    split
    · rename_i due
      constructor
      · intro same
        cases same with
        | event subscriber name keys => exact ⟨due, keys⟩
      · intro own
        exact .event rfl rfl own.2
    · rename_i notDue
      exact ⟨fun same => (by cases same), fun own => absurd own.1 notDue⟩
  · split
    · exact silent_iff findEventType publisher realEqual event kw rest
    · exact Iff.rfl

/-- Subscriptions get what they should from key words handed on exactly when they do not disturb each
other. -/
theorem goodFrom_iff (handed : Fields) (requests : List Request) :
    GoodFrom findEventType publisher realEqual event kw handed requests ↔
      Apart findEventType publisher realEqual event kw handed requests := by
  induction requests generalizing handed with
  | nil => exact ⟨fun _ => trivial, fun _ => .nil⟩
  | cons request rest ih =>
    have dueIs : request.due findEventType publisher realEqual event kw =
        (request.subscribed findEventType publisher event &&
          (request.subs findEventType publisher).passes realEqual kw) := rfl
    unfold Apart
    cases subscribed : request.subscribed findEventType publisher event with
    | false =>
      rw [goodFrom_silent findEventType publisher realEqual event kw (by rw [subscribed]; rfl),
        dueIs, subscribed, ih]
      simp
    | true =>
      rw [subscribed, Bool.true_and] at dueIs
      cases passes : (request.subs findEventType publisher).passes realEqual handed with
      | false =>
        rw [goodFrom_silent findEventType publisher realEqual event kw
          (by rw [subscribed, passes]; rfl), dueIs, ih]
        cases matched : (request.subs findEventType publisher).passes realEqual kw with
        | false =>
          have fine : Undisturbed findEventType publisher realEqual kw handed request :=
            ⟨passes.trans matched.symm, fun never => by rw [matched] at never; cases never⟩
          simp [fine]
        | true =>
          have bad : ¬ Undisturbed findEventType publisher realEqual kw handed request := by
            intro undisturbed
            have agree := undisturbed.filter
            rw [passes, matched] at agree
            cases agree
          simp [bad]
      | true =>
        rw [goodFrom_sends findEventType publisher realEqual event kw
          (by rw [subscribed, passes]; rfl), dueIs]
        cases matched : (request.subs findEventType publisher).passes realEqual kw with
        | false =>
          have bad : ¬ Undisturbed findEventType publisher realEqual kw handed request := by
            intro undisturbed
            have agree := undisturbed.filter
            rw [passes, matched] at agree
            cases agree
          simp [bad]
        | true =>
          have keys : Undisturbed findEventType publisher realEqual kw handed request ↔
              ∀ key, ((request.subs findEventType publisher).fill handed).get? key =
                (request.ownKw findEventType publisher kw).get? key := by
            rw [fill_eq_ownKw_iff]
            exact ⟨fun undisturbed => undisturbed.keys matched,
              fun outside => ⟨passes.trans matched.symm, fun _ => outside⟩⟩
          simp only [if_true, keys, true_and, forall_const]
          apply and_congr_right
          intro own
          split
          · exact Iff.rfl
          · rw [← ih]
            exact ⟨fun good => good.congr findEventType publisher realEqual event kw own,
              fun good => good.congr findEventType publisher realEqual event kw fun key =>
                (own key).symm⟩

end Publication

/-- A subscriber that adds a key, and one that asks for nothing. -/
def taggedAndPlain : List Request :=
  [⟨"EV_ON_MESSAGE", [("__global__", .object [("tag", .integer 1)])], 1, true, true, 0, false⟩,
    ⟨"EV_ON_MESSAGE", [], 2, true, true, 0, false⟩]

end Yunetas.Gobj
