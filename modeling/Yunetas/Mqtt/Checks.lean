import Yunetas.Mqtt.OneClient

/-!
# The periodic checks

What `session_expiry__check` and `will_delay__check` do to the session of one client: their loops run
over all sessions, and the turns of the other sessions leave it alone.
-/

namespace Yunetas.Mqtt

open Json Dict

/-- What the checks read and write of a client: the clock, its session and the wills published. -/
def Broker.seen (clientId : String) (broker : Broker) :
    Nat × Option SessionNode × List WillMessage :=
  (broker.now, broker.sessions.get? clientId, broker.sentBy clientId)

variable {broker : Broker} {clientId : String} {session : SessionNode}

theorem seen_eq {now : Nat} {session : Option SessionNode} {sent : List WillMessage} :
    broker.seen clientId = (now, session, sent) ↔
      broker.now = now ∧ broker.sessions.get? clientId = session ∧
        broker.sentBy clientId = sent := by
  unfold Broker.seen
  rw [Prod.mk.injEq, Prod.mk.injEq]

/-- What a client has after its session expired. -/
def SessionNode.expiredSeen (session : SessionNode) (clientId : String) (broker : Broker) :
    Nat × Option SessionNode × List WillMessage :=
  (broker.now, none, broker.sentBy clientId ++ session.owed clientId)

/-- What a client has after its delayed will was sent. -/
def SessionNode.dueSeen (session : SessionNode) (clientId : String) (broker : Broker) :
    Nat × Option SessionNode × List WillMessage :=
  (broker.now, some session.clear, broker.sentBy clientId ++ session.owed clientId)

theorem sessionExpiryOne_other (broker : Broker)
    (entry : String × SessionNode) (ne : entry.1 ≠ clientId) :
    (sessionExpiryOne broker entry).seen clientId = broker.seen clientId := by
  unfold sessionExpiryOne Broker.seen
  dsimp only
  split
  · have apart : clientId ≠ entry.1 := Ne.symm ne
    have sent : (willClear (willSend broker entry.1 entry.2) entry.1 entry.2).1.sentBy clientId =
        broker.sentBy clientId := by
      rw [willClear_sentBy, willSend_sentBy_other broker apart]
    have kept : ((willClear (willSend broker entry.1 entry.2) entry.1
        entry.2).1.sessions.erase entry.1).get? clientId = broker.sessions.get? clientId := by
      rw [get?_erase, if_neg apart, willClear_other _ apart, willSend_sessions]
    refine Prod.ext ?_ (Prod.ext kept sent)
    show (willClear (willSend broker entry.1 entry.2) entry.1 entry.2).1.now = broker.now
    rw [willClear_now, willSend_now]
  · rfl

theorem sessionExpiryOne_own {clientId : String} {session : SessionNode} (broker : Broker) :
    (sessionExpiryOne broker (clientId, session)).seen clientId =
      if session.Expired broker.now then session.expiredSeen clientId broker
      else broker.seen clientId := by
  unfold sessionExpiryOne
  dsimp only
  split
  · have sent : (willClear (willSend broker clientId session) clientId session).1.sentBy clientId =
        broker.sentBy clientId ++ session.owed clientId := by
      rw [willClear_sentBy, willSend_sentBy]
    have gone : ((willClear (willSend broker clientId session) clientId
        session).1.sessions.erase clientId).get? clientId = none := by
      rw [get?_erase, if_pos rfl]
    refine Prod.ext ?_ (Prod.ext gone sent)
    show (willClear (willSend broker clientId session) clientId session).1.now = broker.now
    rw [willClear_now, willSend_now]
  · rfl

theorem sessionExpiryCheck_none (absent : broker.sessions.get? clientId = none) :
    (sessionExpiryCheck broker).seen clientId = broker.seen clientId :=
  broker.sessions.sweep_absent sessionExpiryOne sessionExpiryOne_other absent broker

theorem sessionExpiryCheck_some (found : broker.sessions.get? clientId = some session) :
    (sessionExpiryCheck broker).seen clientId =
      if session.Expired broker.now then session.expiredSeen clientId broker
      else broker.seen clientId := by
  have ⟨reached, same, done⟩ :=
    broker.sessions.sweep_own sessionExpiryOne sessionExpiryOne_other found broker
  have ⟨clock, _, sent⟩ := seen_eq.1 same
  refine done.trans ?_
  rw [sessionExpiryOne_own, clock]
  split
  · unfold SessionNode.expiredSeen
    rw [clock, sent]
  · exact same

theorem willDelayOne_other (broker : Broker)
    (entry : String × SessionNode) (ne : entry.1 ≠ clientId) :
    (willDelayOne broker entry).seen clientId = broker.seen clientId := by
  unfold willDelayOne Broker.seen
  dsimp only
  split
  · have apart : clientId ≠ entry.1 := Ne.symm ne
    rw [willClear_now, willSend_now, willClear_other _ apart, willSend_sessions, willClear_sentBy,
      willSend_sentBy_other broker apart]
  · rfl

theorem willDelayOne_own (found : broker.sessions.get? clientId = some session) :
    (willDelayOne broker (clientId, session)).seen clientId =
      if session.WillDue broker.now then session.dueSeen clientId broker
      else broker.seen clientId := by
  unfold willDelayOne
  dsimp only
  split
  · have stored : (willSend broker clientId session).sessions.get? clientId = some session := by
      rw [willSend_sessions, found]
    unfold Broker.seen SessionNode.dueSeen
    rw [willClear_now, willSend_now, willClear_own stored, willClear_sentBy, willSend_sentBy]
  · rfl

theorem willDelayCheck_some (found : broker.sessions.get? clientId = some session) :
    (willDelayCheck broker).seen clientId =
      if session.WillDue broker.now then session.dueSeen clientId broker
      else broker.seen clientId := by
  have ⟨reached, same, done⟩ :=
    broker.sessions.sweep_own willDelayOne willDelayOne_other found broker
  have ⟨clock, kept, sent⟩ := seen_eq.1 same
  refine done.trans ?_
  rw [willDelayOne_own (kept.trans found), clock]
  split
  · unfold SessionNode.dueSeen
    rw [clock, sent]
  · exact same

theorem acTimeout_none (absent : broker.sessions.get? clientId = none) :
    (acTimeout broker).seen clientId = broker.seen clientId := by
  have first := sessionExpiryCheck_none absent
  have still : (sessionExpiryCheck broker).sessions.get? clientId = none :=
    (seen_eq.1 first).2.1.trans absent
  have second : (willDelayCheck (sessionExpiryCheck broker)).seen clientId =
      (sessionExpiryCheck broker).seen clientId :=
    sweep_absent _ _ willDelayOne_other still _
  exact second.trans first

theorem acTimeout_some (found : broker.sessions.get? clientId = some session) :
    (acTimeout broker).seen clientId =
      if session.Expired broker.now then session.expiredSeen clientId broker
      else if session.WillDue broker.now then session.dueSeen clientId broker
      else broker.seen clientId := by
  have first := sessionExpiryCheck_some found
  unfold acTimeout
  split
  · rename_i expired
    rw [if_pos expired] at first
    have gone : (sessionExpiryCheck broker).sessions.get? clientId = none := (seen_eq.1 first).2.1
    have second : (willDelayCheck (sessionExpiryCheck broker)).seen clientId =
        (sessionExpiryCheck broker).seen clientId :=
      sweep_absent _ _ willDelayOne_other gone _
    exact second.trans first
  · rename_i alive
    rw [if_neg alive] at first
    have ⟨clock, kept, sent⟩ := seen_eq.1 first
    rw [willDelayCheck_some (kept.trans found), clock]
    split
    · unfold SessionNode.dueSeen
      rw [clock, sent]
    · exact first

end Yunetas.Mqtt
