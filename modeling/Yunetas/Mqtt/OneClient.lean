import Yunetas.Mqtt.Broker
import Yunetas.Mqtt.Held

/-!
# One client

What a step of the broker does to one client: to its session, to the wills it has published, to its
subscriptions and queues. A step for another client changes none of them but the queue, which may get
a message.
-/

namespace Yunetas.Mqtt

open List Option

open Json

/-- The wills published for a client. -/
def Broker.sentBy (broker : Broker) (clientId : String) : List WillMessage :=
  broker.published.filter (·.clientId = clientId)

/-- What `will__send` publishes for a session. -/
def SessionNode.owed (session : SessionNode) (clientId : String) : List WillMessage :=
  if session.will.willTopic = "" then [] else [session.willMessage clientId]

/-- What `will__clear` makes of a session. -/
def SessionNode.clear (session : SessionNode) : SessionNode :=
  if session.will.willTopic = "" then session
  else { session with will := StoredWill.cleared, willDelayTime := 0 }

@[simp] theorem clear_gobjChannel (session : SessionNode) :
    session.clear.gobjChannel = session.gobjChannel := by
  unfold SessionNode.clear
  split <;> rfl

@[simp] theorem clear_sessionExpiryInterval (session : SessionNode) :
    session.clear.sessionExpiryInterval = session.sessionExpiryInterval := by
  unfold SessionNode.clear
  split <;> rfl

/-! ## Sending and clearing -/

variable (broker : Broker)

section

variable (clientId : String) (session : SessionNode)
include clientId session

@[simp] theorem willSend_now :
    (willSend broker clientId session).now = broker.now := by
  unfold willSend
  split <;> rfl

@[simp] theorem willSend_clients :
    (willSend broker clientId session).clients = broker.clients := by
  unfold willSend
  split <;> rfl

@[simp] theorem willSend_sessions :
    (willSend broker clientId session).sessions = broker.sessions := by
  unfold willSend
  split <;> rfl

@[simp] theorem willSend_channels :
    (willSend broker clientId session).channels = broker.channels := by
  unfold willSend
  split <;> rfl

@[simp] theorem willSend_subs :
    (willSend broker clientId session).subs = broker.subs := by
  unfold willSend
  split <;> rfl

theorem willSend_published :
    (willSend broker clientId session).published = broker.published ++ session.owed clientId := by
  unfold willSend SessionNode.owed
  split
  · rw [append_nil]
  · rfl

theorem subset_willSend_queues : broker.queues ⊆ (willSend broker clientId session).queues := by
  unfold willSend
  split
  · exact Finset.Subset.refl _
  · exact Finset.subset_union_left

end

variable {sessions : String → Option Session} {clientId : String} {clientId other : String}

theorem subsSend_queued {message : Message} {sub : Subscriber} {qos : Nat}
    (handed : (subsSend sessions message clientId sub).2 = some (.queued qos)) :
    (sessions clientId).isSome := by
  unfold subsSend at handed
  cases found : sessions clientId with
  | none =>
    rw [found] at handed
    cases handed
  | some session => rfl

theorem normalDeliveries_queued {subs : Subs} {message : Message} {qos : Nat}
    (among : (clientId, .queued qos) ∈ normalDeliveries subs sessions message) :
    (sessions clientId).isSome := by
  have ⟨entry, _, delivered⟩ := mem_filterMap.1 among
  have ⟨handed, sent, same⟩ := map_eq_some_iff.1 delivered
  obtain ⟨rfl, rfl⟩ := Prod.mk.inj same
  exact subsSend_queued sent

theorem sendShared_queued {message : Message} {subscribers : Subscribers} {qos : Nat}
    (among : (clientId, .queued qos) ∈ sendShared sessions message subscribers) :
    (sessions clientId).isSome := by
  induction subscribers with
  | nil => cases among
  | cons entry rest ih =>
    unfold sendShared at among
    split at among
    · rename_i handed sent
      obtain ⟨rfl, rfl⟩ := Prod.mk.inj (mem_singleton.1 among)
      exact subsSend_queued (by rw [sent])
    · exact ih among

theorem mem_willSend_queues {broker : Broker} {session : SessionNode}
    {name : QueueName} (among : name ∈ (willSend broker clientId session).queues) :
    name ∈ broker.queues ∨ (broker.sessions.get? name.clientId).isSome := by
  unfold willSend at among
  split at among
  · exact .inl among
  · rcases Finset.mem_union.1 among with there | opened
    · exact .inl there
    · refine .inr ?_
      have ⟨⟨subscriber, handed⟩, listed, opens⟩ := mem_filterMap.1 (mem_toFinset.1 opened)
      cases handed with
      | queued qos =>
        cases opens
        have known : (broker.connected subscriber).isSome := by
          rcases mem_append.1 listed with normal | shared
          · exact normalDeliveries_queued normal
          · exact sendShared_queued shared
        rwa [Broker.connected, isSome_map] at known
      | skipped => cases opens
      | lost => cases opens
      | sent qos => cases opens

@[simp] theorem updateNode_now (clientId : String) (session : SessionNode) :
    (updateNode broker clientId session).now = broker.now := by
  unfold updateNode
  split <;> rfl

@[simp] theorem updateNode_published (clientId : String)
    (session : SessionNode) : (updateNode broker clientId session).published = broker.published := by
  unfold updateNode
  split <;> rfl

@[simp] theorem updateNode_queues (clientId : String) (session : SessionNode) :
    (updateNode broker clientId session).queues = broker.queues := by
  unfold updateNode
  split <;> rfl

@[simp] theorem updateNode_subs (clientId : String) (session : SessionNode) :
    (updateNode broker clientId session).subs = broker.subs := by
  unfold updateNode
  split <;> rfl

@[simp] theorem updateNode_channels (clientId : String)
    (session : SessionNode) : (updateNode broker clientId session).channels = broker.channels := by
  unfold updateNode
  split <;> rfl

@[simp] theorem updateNode_clients (clientId : String)
    (session : SessionNode) : (updateNode broker clientId session).clients = broker.clients := by
  unfold updateNode
  split <;> rfl

theorem updateNode_get? (clientId other : String) (session : SessionNode) :
    (updateNode broker clientId session).sessions.get? other =
      if other = clientId then (broker.sessions.get? clientId).map fun _ => session
      else broker.sessions.get? other := by
  unfold updateNode
  split
  · rename_i absent
    split
    · rename_i same
      rw [same, absent, map_none]
    · rfl
  · rename_i present
    rw [Dict.get?_set, present, map_some]

theorem willClear_eq (clientId : String) (session : SessionNode) :
    willClear broker clientId session =
      (if session.will.willTopic = "" then broker else updateNode broker clientId session.clear,
        session.clear) := by
  unfold willClear SessionNode.clear
  split <;> rfl

theorem willClear_same {α : Type} (read : Broker → α)
    (updates : ∀ broker clientId session, read (updateNode broker clientId session) = read broker)
    (broker : Broker) (clientId : String) (session : SessionNode) :
    read (willClear broker clientId session).1 = read broker := by
  rw [willClear_eq]
  split
  · rfl
  · exact updates broker clientId session.clear

@[simp] theorem willClear_now (clientId : String) (session : SessionNode) :
    (willClear broker clientId session).1.now = broker.now :=
  willClear_same Broker.now updateNode_now broker clientId session

@[simp] theorem willClear_published (clientId : String)
    (session : SessionNode) :
    (willClear broker clientId session).1.published = broker.published :=
  willClear_same Broker.published updateNode_published broker clientId session

@[simp] theorem willClear_queues (clientId : String) (session : SessionNode) :
    (willClear broker clientId session).1.queues = broker.queues :=
  willClear_same Broker.queues updateNode_queues broker clientId session

@[simp] theorem willClear_subs (clientId : String) (session : SessionNode) :
    (willClear broker clientId session).1.subs = broker.subs :=
  willClear_same Broker.subs updateNode_subs broker clientId session

theorem willClear_other (ne : other ≠ clientId) (session : SessionNode) :
    (willClear broker clientId session).1.sessions.get? other = broker.sessions.get? other := by
  rw [willClear_eq]
  split
  · rfl
  · rw [updateNode_get?, if_neg ne]

theorem willClear_own {broker : Broker} {session : SessionNode}
    (stored : broker.sessions.get? clientId = some session) :
    (willClear broker clientId session).1.sessions.get? clientId = some session.clear := by
  rw [willClear_eq]
  split
  · rename_i empty
    rw [stored, SessionNode.clear, if_pos empty]
  · rw [updateNode_get?, if_pos rfl, stored, map_some]

/-! ## What a client has published -/

@[simp] theorem owed_of_ne {session : SessionNode}
    (ne : clientId ≠ other) : (session.owed clientId).filter (·.clientId = other) = [] := by
  unfold SessionNode.owed SessionNode.willMessage
  split
  · rfl
  · simp [ne]

@[simp] theorem owed_own (session : SessionNode) (clientId : String) :
    (session.owed clientId).filter (·.clientId = clientId) = session.owed clientId := by
  unfold SessionNode.owed SessionNode.willMessage
  split
  · rfl
  · simp

theorem willSend_sentBy_other (ne : other ≠ clientId)
    (session : SessionNode) : (willSend broker clientId session).sentBy other = broker.sentBy other := by
  unfold Broker.sentBy
  rw [willSend_published, filter_append, owed_of_ne (Ne.symm ne), append_nil]

theorem willSend_sentBy (clientId : String) (session : SessionNode) :
    (willSend broker clientId session).sentBy clientId =
      broker.sentBy clientId ++ session.owed clientId := by
  unfold Broker.sentBy
  rw [willSend_published, filter_append, owed_own]

@[simp] theorem willClear_sentBy (clientId other : String)
    (session : SessionNode) :
    (willClear broker clientId session).1.sentBy other = broker.sentBy other := by
  unfold Broker.sentBy
  rw [willClear_published]

end Yunetas.Mqtt
