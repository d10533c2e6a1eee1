import Yunetas.Mqtt.Checks

/-!
# Opens and closes

What `ac_on_open` and `ac_on_close` do to the client they are for, and that they leave the sessions of
the others alone.
-/

namespace Yunetas.Mqtt

open List Option Dict

open Json

/-- What `ac_on_close` reads of a channel. -/
def ChannelAttrs.core (attrs : ChannelAttrs) : String × Protocol × Nat :=
  (attrs.clientId, attrs.protocolVersion, attrs.sessionExpiryInterval)

/-- What `ac_on_close` would read of a channel of the broker. -/
def Broker.core (broker : Broker) (channel : Nat) : Option (String × Protocol × Nat) :=
  (broker.channels.get? channel).map ChannelAttrs.core

variable {broker : Broker} {channel : Nat} {attrs : ChannelAttrs} {clientId : String} {kw : OpenKw}
  {session : SessionNode} {packet : ConnectPacket}

theorem core_of_channel (found : broker.channels.get? channel = some attrs) {protocol : Protocol}
    {interval : Nat} (core : broker.core channel = some (clientId, protocol, interval)) :
    attrs.clientId = clientId ∧ attrs.protocolVersion = protocol ∧
      attrs.sessionExpiryInterval = interval := by
  unfold Broker.core at core
  rw [found] at core
  have equal : attrs.core = (clientId, protocol, interval) := some.inj core
  exact ⟨congrArg Prod.fst equal, congrArg (fun core => core.2.1) equal,
    congrArg (fun core => core.2.2) equal⟩

/-! ## Queues and channels -/

@[simp] theorem closeQueues_seen (broker : Broker) (channel : Nat) (attrs : ChannelAttrs)
    (clientId : String) : (closeQueues broker channel attrs).seen clientId = broker.seen clientId := by
  unfold closeQueues
  split
  · split <;> rfl
  · rfl

@[simp] theorem closeQueues_clients (broker : Broker) (channel : Nat) (attrs : ChannelAttrs) :
    (closeQueues broker channel attrs).clients = broker.clients := by
  unfold closeQueues
  split
  · split <;> rfl
  · rfl

@[simp] theorem closeQueues_subs (broker : Broker) (channel : Nat) (attrs : ChannelAttrs) :
    (closeQueues broker channel attrs).subs = broker.subs := by
  unfold closeQueues
  split
  · split <;> rfl
  · rfl

theorem closeQueues_channels (broker : Broker) (channel : Nat) (attrs : ChannelAttrs) :
    (closeQueues broker channel attrs).channels =
      if attrs.queuesOpen then
        broker.channels.set channel { attrs with queuesOpen := false }
      else broker.channels := by
  unfold closeQueues
  split
  · split <;> rfl
  · rfl

theorem closeQueues_core (found : broker.channels.get? channel = some attrs) (other : Nat) :
    (closeQueues broker channel attrs).core other = broker.core other := by
  unfold Broker.core
  rw [closeQueues_channels]
  split
  · rw [get?_set]
    split
    · rename_i same
      rw [same, found]
      rfl
    · rfl
  · rfl

@[simp] theorem evDrop_seen (broker : Broker) (channel : Nat) (takeOver : Bool)
    (clientId : String) : (evDrop broker channel takeOver).seen clientId = broker.seen clientId := by
  unfold evDrop
  split
  · rfl
  · split
    · rfl
    · cases takeOver with
      | true => rfl
      | false => exact closeQueues_seen broker channel _ clientId

@[simp] theorem evDrop_clients (broker : Broker) (channel : Nat) (takeOver : Bool) :
    (evDrop broker channel takeOver).clients = broker.clients := by
  unfold evDrop
  split
  · rfl
  · split
    · rfl
    · cases takeOver with
      | true => rfl
      | false => exact closeQueues_clients broker channel _

@[simp] theorem evDrop_subs (broker : Broker) (channel : Nat) (takeOver : Bool) :
    (evDrop broker channel takeOver).subs = broker.subs := by
  unfold evDrop
  split
  · rfl
  · split
    · rfl
    · cases takeOver with
      | true => rfl
      | false => exact closeQueues_subs broker channel _

theorem evDrop_queues (broker : Broker) (channel : Nat) :
    (evDrop broker channel true).queues = broker.queues := by
  unfold evDrop
  split
  · rfl
  · split <;> rfl

@[simp] theorem evDrop_core (broker : Broker) (channel : Nat) (takeOver : Bool) (other : Nat) :
    (evDrop broker channel takeOver).core other = broker.core other := by
  unfold evDrop
  cases found : broker.channels.get? channel with
  | none => rfl
  | some attrs =>
    dsimp only
    split
    · rfl
    · have queues : (if takeOver then broker else closeQueues broker channel attrs).core other =
          broker.core other := by
        split
        · rfl
        · exact closeQueues_core found other
      unfold Broker.core at queues ⊢
      rw [get?_set]
      split
      · rename_i same
        rw [same, found]
        rfl
      · exact queues

/-! ## What the handlers leave alone -/

/-- A property that each thing done to sessions, wills and queues keeps. -/
structure Stable (good : Broker → Prop) : Prop where
  sent : ∀ {broker}, good broker → ∀ clientId session, good (willSend broker clientId session)
  updated : ∀ {broker}, good broker → ∀ clientId session, good (updateNode broker clientId session)
  deleted : ∀ {broker}, good broker → ∀ clientId, good (deleteSession broker clientId)
  queues : ∀ {broker}, good broker → ∀ clientId, good (deleteQueues broker clientId)
  dropped : ∀ {broker}, good broker → ∀ channel takeOver, good (evDrop broker channel takeOver)

namespace Stable

variable {good : Broker → Prop} (stable : Stable good) {broker : Broker} (holds : good broker)
include stable holds

theorem willClear (clientId : String) (session : SessionNode) :
    good (willClear broker clientId session).1 := by
  rw [willClear_eq]
  split
  · exact holds
  · exact stable.updated holds clientId session.clear

theorem sessionExpiryOne (entry : String × SessionNode) : good (sessionExpiryOne broker entry) := by
  unfold Mqtt.sessionExpiryOne
  dsimp only
  split
  · have cleared := stable.willClear (stable.sent holds entry.1 entry.2) entry.1 entry.2
    exact stable.queues (stable.deleted cleared entry.1) entry.1
  · exact holds

theorem willDelayOne (entry : String × SessionNode) : good (willDelayOne broker entry) := by
  unfold Mqtt.willDelayOne
  dsimp only
  split
  · exact stable.willClear (stable.sent holds entry.1 entry.2) entry.1 entry.2
  · exact holds

theorem acTimeout : good (acTimeout broker) := by
  have first : good (sessionExpiryCheck broker) :=
    broker.sessions.sweep_keeps Mqtt.sessionExpiryOne good
      (fun _ entry _ reached => stable.sessionExpiryOne reached entry) holds
  exact (sessionExpiryCheck broker).sessions.sweep_keeps Mqtt.willDelayOne good
    (fun _ entry _ reached => stable.willDelayOne reached entry) first

theorem dropPrevious (session : SessionNode) (resumed : Bool) :
    good (dropPrevious broker session resumed) := by
  unfold Mqtt.dropPrevious
  cases session.gobjChannel with
  | none => exact holds
  | some channel => exact stable.dropped holds channel resumed

theorem openPrevious (kw : OpenKw) (session : SessionNode) :
    good (openPrevious broker kw session).2 := by
  have first : good (sendReplaced broker kw session).1 := by
    unfold sendReplaced
    split
    · exact stable.willClear (stable.sent holds kw.id session) kw.id session
    · exact holds
  unfold Mqtt.openPrevious
  dsimp only
  split
  · exact stable.dropPrevious first _ true
  · have deleted := stable.deleted
      (stable.dropPrevious first (sendReplaced broker kw session).2 false) kw.id
    unfold deletePrevious
    split
    · exact stable.queues deleted kw.id
    · exact deleted

theorem closePersistent (attrs : ChannelAttrs) (session : SessionNode) :
    good (closePersistent broker attrs session) := by
  unfold Mqtt.closePersistent
  refine stable.updated ?_ attrs.clientId _
  unfold willProcessDisconnect
  split
  · exact holds
  · dsimp only
    split
    · exact stable.willClear holds attrs.clientId session
    · split
      · exact holds
      · exact stable.willClear (stable.sent holds attrs.clientId _) attrs.clientId _

end Stable

/-- What none of them changes. -/
structure Untouched {α : Type} (read : Broker → α) : Prop where
  sent : ∀ broker clientId session, read (willSend broker clientId session) = read broker
  updated : ∀ broker clientId session, read (updateNode broker clientId session) = read broker
  deleted : ∀ broker clientId, read (deleteSession broker clientId) = read broker
  queues : ∀ broker clientId, read (deleteQueues broker clientId) = read broker
  dropped : ∀ broker channel takeOver, read (evDrop broker channel takeOver) = read broker

theorem Untouched.stable {α : Type} {read : Broker → α} (untouched : Untouched read) (value : α) :
    Stable fun broker => read broker = value where
  sent := fun same clientId session => (untouched.sent _ clientId session).trans same
  updated := fun same clientId session => (untouched.updated _ clientId session).trans same
  deleted := fun same clientId => (untouched.deleted _ clientId).trans same
  queues := fun same clientId => (untouched.queues _ clientId).trans same
  dropped := fun same channel takeOver => (untouched.dropped _ channel takeOver).trans same

theorem untouched_clients : Untouched Broker.clients where
  sent := willSend_clients
  updated := updateNode_clients
  deleted := fun _ _ => rfl
  queues := fun _ _ => rfl
  dropped := evDrop_clients

theorem untouched_core (channel : Nat) : Untouched fun broker => broker.core channel where
  sent := fun broker clientId session => by
    unfold Broker.core
    rw [willSend_channels]
  updated := fun broker clientId session => by
    unfold Broker.core
    rw [updateNode_channels]
  deleted := fun _ _ => rfl
  queues := fun _ _ => rfl
  dropped := fun broker dropped takeOver => evDrop_core broker dropped takeOver channel

/-! ## `ac_on_open` -/

/-- The previous session when `ac_on_open` decides whether it is resumed. -/
def SessionNode.prepared (session : SessionNode) (kw : OpenKw) : SessionNode :=
  if session.Replaced kw then session.clear else session

/-- The wills `ac_on_open` publishes for the previous session. -/
def SessionNode.replacedOwed (session : SessionNode) (kw : OpenKw) : List WillMessage :=
  if session.Replaced kw then session.owed kw.id else []

/-- The session after an open. -/
def openedSession (previous : Option SessionNode) (kw : OpenKw) (now channel wallClock : Nat) :
    SessionNode :=
  match previous with
  | none => SessionNode.create kw channel wallClock
  | some session =>
    if (session.prepared kw).Resumed kw now then (session.prepared kw).update kw channel
    else SessionNode.create kw channel wallClock

/-- The answer of `ac_on_open` to a client it accepts. -/
def openAnswer (previous : Option SessionNode) (kw : OpenKw) (now : Nat) : Int :=
  match previous with
  | none => 0
  | some session => if (session.prepared kw).Resumed kw now then 1 else 0

theorem sendReplaced_other (broker : Broker) (session : SessionNode) (ne : clientId ≠ kw.id) :
    (sendReplaced broker kw session).1.seen clientId = broker.seen clientId := by
  unfold sendReplaced
  split
  · unfold Broker.seen
    rw [willClear_now, willSend_now, willClear_other _ ne, willSend_sessions, willClear_sentBy,
      willSend_sentBy_other broker ne]
  · rfl

theorem sendReplaced_own (found : broker.sessions.get? kw.id = some session) :
    (sendReplaced broker kw session).2 = session.prepared kw ∧
      (sendReplaced broker kw session).1.seen kw.id = (broker.now, some (session.prepared kw),
          broker.sentBy kw.id ++ session.replacedOwed kw) := by
  unfold sendReplaced SessionNode.prepared SessionNode.replacedOwed
  split
  · have stored : (willSend broker kw.id session).sessions.get? kw.id = some session := by
      rw [willSend_sessions, found]
    refine ⟨by rw [willClear_eq], ?_⟩
    unfold Broker.seen
    rw [willClear_now, willSend_now, willClear_own stored, willClear_sentBy, willSend_sentBy]
  · refine ⟨rfl, ?_⟩
    unfold Broker.seen
    rw [found, append_nil]

@[simp] theorem dropPrevious_seen (broker : Broker) (session : SessionNode) (resumed : Bool)
    (clientId : String) :
    (dropPrevious broker session resumed).seen clientId = broker.seen clientId := by
  unfold dropPrevious
  cases session.gobjChannel with
  | none => rfl
  | some previous => exact evDrop_seen broker previous resumed clientId

theorem deleteSession_other (broker : Broker) {clientId other : String} (ne : other ≠ clientId) :
    (deleteSession broker clientId).seen other = broker.seen other := by
  unfold Broker.seen deleteSession
  rw [get?_erase, if_neg ne]
  rfl

theorem deleteSession_own (broker : Broker) (clientId : String) :
    (deleteSession broker clientId).seen clientId = (broker.now, none, broker.sentBy clientId) := by
  unfold Broker.seen deleteSession
  rw [get?_erase, if_pos rfl]
  rfl

theorem deletePrevious_seen (broker : Broker) (kw : OpenKw) (session : SessionNode)
    (clientId : String) :
    (deletePrevious broker kw session).seen clientId =
      (deleteSession broker kw.id).seen clientId := by
  unfold deletePrevious
  split <;> rfl

theorem openPrevious_other (broker : Broker) (session : SessionNode) (ne : clientId ≠ kw.id) :
    (openPrevious broker kw session).2.seen clientId = broker.seen clientId := by
  have sent := sendReplaced_other broker session ne
  unfold openPrevious
  dsimp only
  split
  · exact (dropPrevious_seen _ _ true clientId).trans sent
  · calc _ = (deleteSession (dropPrevious (sendReplaced broker kw session).1
            (sendReplaced broker kw session).2 false) kw.id).seen clientId :=
        deletePrevious_seen _ kw _ clientId
      _ = (sendReplaced broker kw session).1.seen clientId := by
        rw [deleteSession_other _ ne, dropPrevious_seen]
      _ = broker.seen clientId := sent

/-- What the client has: its previous will is published when the session is replaced, and the session
stays when it is resumed. -/
theorem openPrevious_own (found : broker.sessions.get? kw.id = some session) :
    (openPrevious broker kw session).1 = openAnswer (some session) kw broker.now ∧
      (openPrevious broker kw session).2.seen kw.id = (broker.now,
          if (session.prepared kw).Resumed kw broker.now then some (session.prepared kw) else none,
          broker.sentBy kw.id ++ session.replacedOwed kw) := by
  have ⟨same, sent⟩ := sendReplaced_own found
  have ⟨clock, _, published⟩ := seen_eq.1 sent
  unfold openPrevious openAnswer
  dsimp only
  rw [same, clock]
  split
  · exact ⟨rfl, (dropPrevious_seen _ _ true kw.id).trans sent⟩
  · refine ⟨rfl, ?_⟩
    have ⟨later, _, still⟩ := seen_eq.1
      (dropPrevious_seen (sendReplaced broker kw session).1 (session.prepared kw) false kw.id)
    rw [deletePrevious_seen, deleteSession_own, later, still, clock, published]

theorem openSession_own (broker : Broker) (channel : Nat) (kw : OpenKw) (wallClock : Nat) :
    (openSession broker channel kw wallClock).seen kw.id = (broker.now,
        some (match broker.sessions.get? kw.id with
          | none => SessionNode.create kw channel wallClock
          | some session => session.update kw channel),
        broker.sentBy kw.id) := by
  unfold openSession Broker.seen
  rw [get?_set_self]
  rfl

theorem openSession_other (broker : Broker) (channel : Nat) (kw : OpenKw) (wallClock : Nat)
    (ne : clientId ≠ kw.id) :
    (openSession broker channel kw wallClock).seen clientId = broker.seen clientId := by
  unfold openSession Broker.seen
  rw [get?_set_ne _ _ ne]
  rfl

/-- The clients `ac_on_open` accepts. -/
def Broker.Accepts (broker : Broker) (clientId : String) : Prop :=
  broker.clients.get? clientId ≠ none ∨ broker.enableNewClients = true

/-- The client is created when it is new. -/
def Broker.withClient (broker : Broker) (kw : OpenKw) : Broker :=
  if broker.clients.get? kw.id = none then
    { broker with clients := broker.clients.set kw.id kw.assigned }
  else broker

@[simp] theorem withClient_seen (broker : Broker) (kw : OpenKw) (clientId : String) :
    (broker.withClient kw).seen clientId = broker.seen clientId := by
  unfold Broker.withClient
  split <;> rfl

@[simp] theorem withClient_sessions (broker : Broker) (kw : OpenKw) :
    (broker.withClient kw).sessions = broker.sessions := by
  unfold Broker.withClient
  split <;> rfl

theorem acOnOpen_refused (refused : ¬broker.Accepts kw.id)
    (channel wallClock : Nat) : acOnOpen broker channel kw wallClock = (-1, broker) := by
  unfold Broker.Accepts at refused
  rw [not_or, not_ne_iff] at refused
  exact if_pos refused

theorem acOnOpen_accepted (accepted : broker.Accepts kw.id) (channel wallClock : Nat) :
    acOnOpen broker channel kw wallClock =
      match broker.sessions.get? kw.id with
      | none => (0, openSession (broker.withClient kw) channel kw wallClock)
      | some session =>
        ((openPrevious (broker.withClient kw) kw session).1,
          openSession (openPrevious (broker.withClient kw) kw session).2 channel kw wallClock) := by
  have passes : ¬(broker.clients.get? kw.id = none ∧ ¬broker.enableNewClients = true) := by
    rintro ⟨absent, closed⟩
    exact accepted.elim (fun present => present absent) closed
  unfold acOnOpen
  rw [if_neg passes]
  show (match (broker.withClient kw).sessions.get? kw.id with
    | none => (0, openSession (broker.withClient kw) channel kw wallClock)
    | some session =>
      ((openPrevious (broker.withClient kw) kw session).1,
        openSession (openPrevious (broker.withClient kw) kw session).2 channel kw wallClock)) = _
  rw [withClient_sessions]

theorem acOnOpen_other (broker : Broker) (channel : Nat) (kw : OpenKw) (wallClock : Nat)
    (ne : clientId ≠ kw.id) :
    (acOnOpen broker channel kw wallClock).2.seen clientId = broker.seen clientId := by
  by_cases accepted : broker.Accepts kw.id
  · rw [acOnOpen_accepted accepted]
    cases broker.sessions.get? kw.id with
    | none => exact (openSession_other _ _ _ _ ne).trans (withClient_seen broker kw clientId)
    | some session =>
      exact (openSession_other _ _ _ _ ne).trans
        ((openPrevious_other _ session ne).trans (withClient_seen broker kw clientId))
  · rw [acOnOpen_refused accepted]

/-- The wills `ac_on_open` publishes for the client. -/
def openOwed (previous : Option SessionNode) (kw : OpenKw) : List WillMessage :=
  match previous with
  | none => []
  | some session => session.replacedOwed kw

theorem acOnOpen_own (accepted : broker.Accepts kw.id) (channel wallClock : Nat) :
    (acOnOpen broker channel kw wallClock).1 =
        openAnswer (broker.sessions.get? kw.id) kw broker.now ∧
      (acOnOpen broker channel kw wallClock).2.seen kw.id = (broker.now,
          some (openedSession (broker.sessions.get? kw.id) kw broker.now channel wallClock),
          broker.sentBy kw.id ++ openOwed (broker.sessions.get? kw.id) kw) := by
  have ⟨clock, stored, sent⟩ := seen_eq.1 (withClient_seen broker kw kw.id)
  rw [acOnOpen_accepted accepted]
  cases found : broker.sessions.get? kw.id with
  | none =>
    refine ⟨rfl, ?_⟩
    rw [openSession_own, stored, found, clock, sent]
    unfold openedSession openOwed
    rw [append_nil]
  | some session =>
    have ⟨answer, seen⟩ := openPrevious_own (stored.trans found)
    have ⟨later, left, published⟩ := seen_eq.1 seen
    refine ⟨answer.trans (by rw [clock]), ?_⟩
    rw [openSession_own, later, left, published, clock, sent]
    unfold openedSession openOwed
    dsimp only
    by_cases resumed : (session.prepared kw).Resumed kw broker.now
    · rw [if_pos resumed, if_pos resumed]
    · rw [if_neg resumed, if_neg resumed]

theorem acOnOpen_core (broker : Broker) (channel : Nat) (kw : OpenKw) (wallClock other : Nat) :
    (acOnOpen broker channel kw wallClock).2.core other = broker.core other := by
  have client : (broker.withClient kw).core other = broker.core other := by
    unfold Broker.withClient
    split <;> rfl
  by_cases accepted : broker.Accepts kw.id
  · rw [acOnOpen_accepted accepted]
    cases broker.sessions.get? kw.id with
    | none => exact client
    | some session => exact ((untouched_core other).stable _).openPrevious client kw session
  · rw [acOnOpen_refused accepted]

theorem acOnOpen_clients (channel wallClock : Nat)
    (known : (broker.clients.get? clientId).isSome ∨ clientId = kw.id ∧ broker.Accepts kw.id) :
    ((acOnOpen broker channel kw wallClock).2.clients.get? clientId).isSome := by
  have client : (broker.clients.get? clientId).isSome ∨ clientId = kw.id →
      ((broker.withClient kw).clients.get? clientId).isSome := by
    intro either
    unfold Broker.withClient
    split
    · rw [get?_set]
      split
      · rfl
      · rename_i ne
        exact either.resolve_right ne
    · rename_i present
      rcases either with there | same
      · exact there
      · rw [same]
        exact isSome_iff_ne_none.2 present
  by_cases accepted : broker.Accepts kw.id
  · rw [acOnOpen_accepted accepted]
    have there := client (known.imp_right And.left)
    cases broker.sessions.get? kw.id with
    | none => exact there
    | some session =>
      have same := (untouched_clients.stable _).openPrevious
        (rfl : (broker.withClient kw).clients = _) kw session
      show ((openPrevious (broker.withClient kw) kw session).2.clients.get? clientId).isSome = true
      rwa [same]
  · rw [acOnOpen_refused accepted]
    exact known.resolve_right fun both => accepted both.2

theorem openAnswer_nonneg (previous : Option SessionNode) (kw : OpenKw) (now : Nat) :
    ¬openAnswer previous kw now < 0 := by
  unfold openAnswer
  cases previous with
  | none => exact Int.lt_irrefl 0
  | some session =>
    split <;> omega

/-! ## `ac_on_close` -/

/-- The session after a disconnection that it outlives. -/
def SessionNode.left (session : SessionNode) (now : Nat) : SessionNode :=
  let processed :=
    if session.will.willTopic = "" then session
    else if session.clampDelay.will.willDelayInterval > 0 then session.clampDelay
    else session.clampDelay.clear
  { processed with gobjChannel := none, willDelayTime := now }

/-- The wills published at a disconnection that the session outlives. -/
def SessionNode.leftOwed (session : SessionNode) (clientId : String) : List WillMessage :=
  if session.clampDelay.will.willDelayInterval > 0 then [] else session.owed clientId

@[simp] theorem clampDelay_owed (session : SessionNode) (clientId : String) :
    session.clampDelay.owed clientId = session.owed clientId := by
  unfold SessionNode.clampDelay
  dsimp only
  split <;> rfl

@[simp] theorem clampDelay_willTopic (session : SessionNode) :
    session.clampDelay.will.willTopic = session.will.willTopic := by
  unfold SessionNode.clampDelay
  dsimp only
  split <;> rfl

theorem willProcessDisconnect_own {stored : SessionNode}
    (found : broker.sessions.get? clientId = some stored) (session : SessionNode) :
    { (willProcessDisconnect broker clientId session true).2 with
        gobjChannel := none, willDelayTime := broker.now } = session.left broker.now ∧
      (willProcessDisconnect broker clientId session true).1.now = broker.now ∧
      ((willProcessDisconnect broker clientId session true).1.sessions.get? clientId).isSome ∧
      (willProcessDisconnect broker clientId session true).1.sentBy clientId =
        broker.sentBy clientId ++ session.leftOwed clientId := by
  unfold willProcessDisconnect SessionNode.left SessionNode.leftOwed
  by_cases empty : session.will.willTopic = ""
  · have nothing : session.owed clientId = [] := if_pos empty
    rw [if_pos empty, nothing, ite_self, append_nil]
    exact ⟨by rw [if_pos empty], rfl, by rw [found]; rfl, rfl⟩
  · rw [if_neg empty, if_neg (by decide)]
    by_cases delayed : session.clampDelay.will.willDelayInterval > 0
    · simp only [if_pos delayed, if_neg empty, append_nil]
      exact ⟨trivial, trivial, by rw [found]; rfl, trivial⟩
    · simp only [if_neg delayed, if_neg empty]
      refine ⟨by rw [willClear_eq], by rw [willClear_now, willSend_now], ?_, ?_⟩
      · rw [willClear_eq]
        split
        · rw [willSend_sessions, found]
          rfl
        · rw [updateNode_get?, if_pos rfl, willSend_sessions, found]
          rfl
      · rw [willClear_sentBy, willSend_sentBy, clampDelay_owed]

theorem closePersistent_own {stored : SessionNode}
    (found : broker.sessions.get? attrs.clientId = some stored) (session : SessionNode) :
    (closePersistent broker attrs session).seen attrs.clientId =
      (broker.now, some (session.left broker.now),
        broker.sentBy attrs.clientId ++ session.leftOwed attrs.clientId) := by
  have ⟨left, clock, there, sent⟩ := willProcessDisconnect_own found session
  have ⟨old, present⟩ := isSome_iff_exists.1 there
  unfold closePersistent Broker.seen Broker.sentBy
  rw [updateNode_now, updateNode_get?, if_pos rfl, updateNode_published, present, left, clock]
  exact Prod.ext rfl (Prod.ext rfl sent)

theorem closePersistent_other (broker : Broker) (session : SessionNode)
    (ne : clientId ≠ attrs.clientId) :
    (closePersistent broker attrs session).seen clientId = broker.seen clientId := by
  have first : (willProcessDisconnect broker attrs.clientId session true).1.seen clientId =
      broker.seen clientId := by
    unfold willProcessDisconnect
    split
    · rfl
    · rw [if_neg (by decide)]
      dsimp only
      split
      · rfl
      · unfold Broker.seen
        rw [willClear_now, willSend_now, willClear_other _ ne, willSend_sessions, willClear_sentBy,
          willSend_sentBy_other broker ne]
  rw [← first]
  unfold closePersistent Broker.seen Broker.sentBy
  rw [updateNode_now, updateNode_get?, if_neg ne, updateNode_published]

theorem closeTemporary_seen (broker : Broker) (attrs : ChannelAttrs) (assignedId : Bool)
    (session : SessionNode) (clientId : String) :
    (closeTemporary broker attrs assignedId session).seen clientId =
      (deleteSession (willSend broker attrs.clientId session) attrs.clientId).seen clientId := by
  unfold closeTemporary
  dsimp only
  cases assignedId <;> split <;> rfl

theorem closeTemporary_own (broker : Broker) (attrs : ChannelAttrs) (assignedId : Bool)
    (session : SessionNode) :
    (closeTemporary broker attrs assignedId session).seen attrs.clientId =
      (broker.now, none, broker.sentBy attrs.clientId ++ session.owed attrs.clientId) := by
  rw [closeTemporary_seen, deleteSession_own, willSend_now, willSend_sentBy]

theorem closeTemporary_other (broker : Broker) (assignedId : Bool)
    (session : SessionNode) (ne : clientId ≠ attrs.clientId) :
    (closeTemporary broker attrs assignedId session).seen clientId = broker.seen clientId := by
  rw [closeTemporary_seen, deleteSession_other _ ne]
  unfold Broker.seen
  rw [willSend_now, willSend_sessions, willSend_sentBy_other broker ne]

theorem acOnClose_other (broker : Broker) (channel : Nat) (ne : clientId ≠ attrs.clientId) :
    (acOnClose broker channel attrs).seen clientId = broker.seen clientId := by
  unfold acOnClose
  split
  · rfl
  · split
    · rfl
    · split
      · rfl
      · split
        · exact closeTemporary_other broker _ _ ne
        · exact closePersistent_other broker _ ne

theorem acOnClose_stale
    (stale : (broker.sessions.get? attrs.clientId).bind SessionNode.gobjChannel ≠ some channel) :
    acOnClose broker channel attrs = broker := by
  unfold acOnClose
  split
  · rfl
  · cases found : broker.sessions.get? attrs.clientId with
    | none => rfl
    | some session =>
      rw [found] at stale
      exact if_pos stale

theorem acOnClose_own (known : (broker.clients.get? attrs.clientId).isSome)
    (found : broker.sessions.get? attrs.clientId = some session)
    (own : session.gobjChannel = some channel) :
    (acOnClose broker channel attrs).seen attrs.clientId =
      if (session.sync attrs).Temporary then
        (broker.now, none, broker.sentBy attrs.clientId ++ (session.sync attrs).owed attrs.clientId)
      else
        (broker.now, some ((session.sync attrs).left broker.now),
          broker.sentBy attrs.clientId ++ (session.sync attrs).leftOwed attrs.clientId) := by
  have ⟨assignedId, client⟩ := isSome_iff_exists.1 known
  unfold acOnClose
  rw [client, found]
  dsimp only
  rw [if_neg (not_not_intro own)]
  split
  · exact closeTemporary_own broker attrs assignedId _
  · exact closePersistent_own found _

theorem acOnClose_core (broker : Broker) (channel : Nat) (attrs : ChannelAttrs) (other : Nat) :
    (acOnClose broker channel attrs).core other = broker.core other := by
  unfold acOnClose
  split
  · rfl
  · split
    · rfl
    · rename_i assignedId _ _ session _
      split
      · rfl
      · split
        · have same := (untouched_core other).sent broker attrs.clientId (session.sync attrs)
          refine Eq.trans ?_ same
          unfold closeTemporary
          dsimp only
          cases assignedId <;> split <;> rfl
        · exact ((untouched_core other).stable _).closePersistent rfl attrs _

theorem closeTemporary_clients (broker : Broker) (assignedId : Bool)
    (session : SessionNode) (ne : clientId ≠ attrs.clientId) :
    (closeTemporary broker attrs assignedId session).clients.get? clientId =
      broker.clients.get? clientId := by
  rw [← willSend_clients broker attrs.clientId session]
  unfold closeTemporary
  dsimp only
  cases assignedId with
  | false => split <;> rfl
  | true =>
    split
    · exact (get?_erase _ _ _).trans (if_neg ne)
    · exact (get?_erase _ _ _).trans (if_neg ne)

theorem acOnClose_clients (known : (broker.clients.get? clientId).isSome)
    (stays : ((acOnClose broker channel attrs).sessions.get? clientId).isSome) :
    ((acOnClose broker channel attrs).clients.get? clientId).isSome := by
  cases client : broker.clients.get? attrs.clientId with
  | none =>
    unfold acOnClose
    rw [client]
    exact known
  | some assignedId =>
    cases found : broker.sessions.get? attrs.clientId with
    | none =>
      unfold acOnClose
      rw [client, found]
      exact known
    | some session =>
      by_cases own : session.gobjChannel = some channel
      · by_cases temporary : (session.sync attrs).Temporary
        · have apart : clientId ≠ attrs.clientId := by
            rintro rfl
            have gone := acOnClose_own known found own
            rw [if_pos temporary] at gone
            rw [(seen_eq.1 gone).2.1] at stays
            cases stays
          unfold acOnClose
          rw [client, found]
          dsimp only
          rwa [if_neg (not_not_intro own), if_pos temporary, closeTemporary_clients _ _ _ apart]
        · unfold acOnClose
          rw [client, found]
          dsimp only
          rwa [if_neg (not_not_intro own), if_neg temporary,
            (untouched_clients.stable _).closePersistent (rfl : broker.clients = _)]
      · unfold acOnClose
        rw [client, found]
        dsimp only
        rwa [if_pos own]

/-! ## Steps of a run -/

/-- A CONNECT packet that opens a session: the channel is free and the client accepted. -/
def Broker.Opens (broker : Broker) (channel : Nat) (clientId : String) : Prop :=
  broker.channels.get? channel = none ∧ broker.Accepts clientId

theorem connect_refused (refused : ¬broker.Opens channel packet.clientId) (wallClock : Nat) :
    broker.connect channel packet wallClock = (-1, broker) := by
  unfold Broker.connect
  cases free : broker.channels.get? channel with
  | some attrs => rfl
  | none =>
    have turned : ¬broker.Accepts packet.toKw.id := fun accepted => refused ⟨free, accepted⟩
    rw [acOnOpen_refused turned]
    rfl

theorem connect_opens (opens : broker.Opens channel packet.clientId) (wallClock : Nat) :
    broker.connect channel packet wallClock = ((acOnOpen broker channel packet.toKw wallClock).1,
        { (acOnOpen broker channel packet.toKw wallClock).2 with
          channels := (acOnOpen broker channel packet.toKw wallClock).2.channels.set channel
            packet.attrs
          queues := insert ⟨packet.clientId, .mdIn⟩ (insert ⟨packet.clientId, .mdOut⟩
            (acOnOpen broker channel packet.toKw wallClock).2.queues) }) := by
  have accepted : broker.Accepts packet.toKw.id := opens.2
  have answer := (acOnOpen_own accepted channel wallClock).1
  unfold Broker.connect
  rw [opens.1]
  rw [if_neg]
  rw [answer]
  exact openAnswer_nonneg _ _ _

theorem connect_own (opens : broker.Opens channel packet.clientId) (wallClock : Nat) :
    (broker.connect channel packet wallClock).1 =
        openAnswer (broker.sessions.get? packet.clientId) packet.toKw broker.now ∧
      (broker.connect channel packet wallClock).2.seen packet.clientId = (broker.now,
          some (openedSession (broker.sessions.get? packet.clientId) packet.toKw broker.now channel
            wallClock),
          broker.sentBy packet.clientId ++
            openOwed (broker.sessions.get? packet.clientId) packet.toKw) := by
  have accepted : broker.Accepts packet.toKw.id := opens.2
  rw [connect_opens opens]
  exact acOnOpen_own accepted channel wallClock

theorem connect_other (broker : Broker) (channel : Nat) (wallClock : Nat)
    (ne : clientId ≠ packet.clientId) :
    (broker.connect channel packet wallClock).2.seen clientId = broker.seen clientId := by
  by_cases opens : broker.Opens channel packet.clientId
  · rw [connect_opens opens]
    exact acOnOpen_other broker channel packet.toKw wallClock ne
  · rw [connect_refused opens]

theorem connect_core (opens : broker.Opens channel packet.clientId) (wallClock other : Nat) :
    (broker.connect channel packet wallClock).2.core other =
      if other = channel then some packet.attrs.core else broker.core other := by
  rw [connect_opens opens]
  have same := acOnOpen_core broker channel packet.toKw wallClock other
  unfold Broker.core at same ⊢
  rw [get?_set]
  split
  · rfl
  · exact same

theorem connect_clients (opens : broker.Opens channel packet.clientId) (wallClock : Nat)
    (known : (broker.clients.get? clientId).isSome ∨ clientId = packet.clientId) :
    ((broker.connect channel packet wallClock).2.clients.get? clientId).isSome := by
  have either : (broker.clients.get? clientId).isSome ∨
      clientId = packet.toKw.id ∧ broker.Accepts packet.toKw.id :=
    known.imp_right fun same => ⟨same, opens.2⟩
  rw [connect_opens opens]
  exact acOnOpen_clients channel wallClock either

theorem close_absent
    (absent : broker.channels.get? channel = none) : broker.close channel = broker := by
  unfold Broker.close
  rw [absent]

section

variable (found : broker.channels.get? channel = some attrs)
include found

theorem close_eq :
    broker.close channel = { acOnClose (closeQueues broker channel attrs) channel attrs with
        channels :=
          (acOnClose (closeQueues broker channel attrs) channel attrs).channels.erase channel } := by
  unfold Broker.close
  rw [found]

theorem close_other
    (ne : clientId ≠ attrs.clientId) : (broker.close channel).seen clientId = broker.seen clientId := by
  rw [close_eq found]
  exact (acOnClose_other _ channel ne).trans (closeQueues_seen broker channel attrs clientId)

theorem close_stale
    (stale : (broker.sessions.get? attrs.clientId).bind SessionNode.gobjChannel ≠ some channel)
    (clientId : String) : (broker.close channel).seen clientId = broker.seen clientId := by
  have ⟨_, sessions, _⟩ := seen_eq.1 (closeQueues_seen broker channel attrs attrs.clientId)
  rw [close_eq found, acOnClose_stale (by rw [sessions]; exact stale)]
  exact closeQueues_seen broker channel attrs clientId

theorem close_own (known : (broker.clients.get? attrs.clientId).isSome)
    (stored : broker.sessions.get? attrs.clientId = some session)
    (own : session.gobjChannel = some channel) :
    (broker.close channel).seen attrs.clientId =
      if (session.sync attrs).Temporary then
        (broker.now, none, broker.sentBy attrs.clientId ++ (session.sync attrs).owed attrs.clientId)
      else
        (broker.now, some ((session.sync attrs).left broker.now),
          broker.sentBy attrs.clientId ++ (session.sync attrs).leftOwed attrs.clientId) := by
  have ⟨clock, sessions, sent⟩ := seen_eq.1 (closeQueues_seen broker channel attrs attrs.clientId)
  rw [close_eq found, ← clock, ← sent]
  exact acOnClose_own (by rwa [closeQueues_clients]) (sessions.trans stored) own

theorem close_core (other : Nat) :
    (broker.close channel).core other = if other = channel then none else broker.core other := by
  rw [close_eq found]
  have same := (acOnClose_core (closeQueues broker channel attrs) channel attrs other).trans
    (closeQueues_core found other)
  unfold Broker.core at same ⊢
  rw [get?_erase]
  split
  · rfl
  · exact same

theorem close_clients (known : (broker.clients.get? clientId).isSome)
    (stays : ((broker.close channel).sessions.get? clientId).isSome) :
    ((broker.close channel).clients.get? clientId).isSome := by
  rw [close_eq found] at stays ⊢
  exact acOnClose_clients (by rwa [closeQueues_clients]) stays

end

theorem disconnect_seen (broker : Broker) (channel : Nat) (packet : DisconnectPacket)
    (clientId : String) : (broker.disconnect channel packet).seen clientId = broker.seen clientId := by
  unfold Broker.disconnect
  split <;> rfl

theorem disconnect_clients (broker : Broker) (channel : Nat) (packet : DisconnectPacket) :
    (broker.disconnect channel packet).clients = broker.clients := by
  unfold Broker.disconnect
  split <;> rfl

/-- The session expiry interval after a DISCONNECT packet: one of 0 stays, and so does any when the
property has the value `UINT32_MAX`. -/
def ChannelAttrs.intervalAfter (attrs : ChannelAttrs) (packet : DisconnectPacket) : Nat :=
  if attrs.protocolVersion ≠ .mqtt5 then attrs.sessionExpiryInterval
  else
    match packet.sessionExpiry with
    | none => attrs.sessionExpiryInterval
    | some value =>
      if value.toNat = uint32Max ∨ attrs.sessionExpiryInterval = 0 then
        attrs.sessionExpiryInterval
      else value.toNat

theorem disconnectProperties_core (attrs : ChannelAttrs) (packet : DisconnectPacket) :
    ((disconnectProperties attrs packet).getD attrs).core =
      (attrs.clientId, attrs.protocolVersion, attrs.intervalAfter packet) := by
  unfold disconnectProperties ChannelAttrs.intervalAfter
  by_cases mqtt5 : attrs.protocolVersion = .mqtt5
  · rw [if_pos mqtt5, if_neg (not_not_intro mqtt5)]
    cases packet.sessionExpiry with
    | none => rfl
    | some value =>
      dsimp only
      by_cases max : value.toNat = uint32Max
      · rw [if_pos max, if_pos (.inl max)]
        rfl
      · by_cases zero : attrs.sessionExpiryInterval = 0
        · rw [if_neg max, if_pos (Or.inr zero)]
          by_cases same : value.toNat = 0
          · rw [if_neg (fun both => both.2 same), zero, same]
            rfl
          · rw [if_pos ⟨zero, same⟩]
            rfl
        · rw [if_neg max, if_neg (fun both => zero both.1), if_neg (not_or.2 ⟨max, zero⟩)]
          rfl
  · rw [if_neg mqtt5, if_pos mqtt5]
    rfl

theorem handleDisconnectS_core (attrs : ChannelAttrs) (packet : DisconnectPacket) :
    (handleDisconnectS attrs packet).2.core =
      (attrs.clientId, attrs.protocolVersion, attrs.intervalAfter packet) := by
  rw [← disconnectProperties_core]
  unfold handleDisconnectS
  generalize (if attrs.protocolVersion = .mqtt5 then packet.reasonCode else 0) = reasonCode
  cases disconnectProperties attrs packet with
  | none => rfl
  | some changed =>
    dsimp only
    split
    · rfl
    · split
      · rfl
      · split <;> rfl

theorem disconnect_core
    (reading : broker.reading channel = some attrs) (packet : DisconnectPacket) (other : Nat) :
    (broker.disconnect channel packet).core other =
      if other = channel then some (handleDisconnectS attrs packet).2.core
      else broker.core other := by
  unfold Broker.disconnect Broker.core
  rw [reading]
  rw [get?_set]
  split <;> rfl

theorem disconnect_ignored (unread : broker.reading channel = none) (packet : DisconnectPacket) :
    broker.disconnect channel packet = broker := by
  unfold Broker.disconnect
  rw [unread]

theorem reading_some (reading : broker.reading channel = some attrs) :
    broker.channels.get? channel = some attrs ∧ attrs.dropped = false := by
  have ⟨found, live⟩ := filter_eq_some_iff.1 reading
  exact ⟨found, by simpa using live⟩

end Yunetas.Mqtt
