import Yunetas.Mqtt.Turns

/-!
# Subscriptions and queues of a session

What a client has in the subscription trees and among the queues: the expiry of its session takes all
of it, and no check takes any of it before.
-/

namespace Yunetas.Mqtt

open Json Option Finset

/-- Both trees are shaped. -/
def Subs.Whole (subs : Subs) : Prop := Shaped subs.normalSubs ∧ Shaped subs.sharedSubs

/-- The client holds no topic filter. -/
def Subs.Without (subs : Subs) (clientId : String) : Prop :=
  ∀ path, subsKey ∉ path →
    held subs.normalSubs path clientId = none ∧ held subs.sharedSubs path clientId = none

/-- The client holds the same in both. -/
def Subs.SameFor (clientId : String) (subs later : Subs) : Prop :=
  ∀ path, subsKey ∉ path →
    held later.normalSubs path clientId = held subs.normalSubs path clientId ∧
      held later.sharedSubs path clientId = held subs.sharedSubs path clientId

/-- The client has no session, no subscription and no queue. -/
structure Broker.Without (broker : Broker) (clientId : String) : Prop where
  session : broker.sessions.get? clientId = none
  subs : broker.subs.Without clientId
  queues : ∀ direction, ⟨clientId, direction⟩ ∉ broker.queues

/-- The client has the session, the subscriptions and the queues it had. -/
structure Broker.Keeps (clientId : String) (broker later : Broker) : Prop where
  session : later.sessions.get? clientId = broker.sessions.get? clientId
  subs : broker.subs.SameFor clientId later.subs
  queues : ∀ direction, ⟨clientId, direction⟩ ∈ broker.queues → ⟨clientId, direction⟩ ∈ later.queues

theorem Subs.SameFor.refl (clientId : String) (subs : Subs) : subs.SameFor clientId subs :=
  fun _ _ => ⟨rfl, rfl⟩

variable {clientId : String} {broker : Broker} {session : SessionNode}

theorem Subs.SameFor.trans {subs middle later : Subs}
    (first : subs.SameFor clientId middle) (second : middle.SameFor clientId later) :
    subs.SameFor clientId later := by
  intro path clean
  exact ⟨(second path clean).1.trans (first path clean).1,
    (second path clean).2.trans (first path clean).2⟩

section

variable {subs : Subs} (whole : subs.Whole)
include whole

theorem Subs.Whole.removeClient (clientId : String) :
    (subRemoveClient subs clientId).2.Whole :=
  ⟨removeClientRecursive_shaped clientId _ whole.1, removeClientRecursive_shaped clientId _ whole.2⟩

theorem Subs.Whole.without (clientId : String) :
    (subRemoveClient subs clientId).2.Without clientId := by
  intro path clean
  have normal := removeClientRecursive_held clientId whole.1 path clean clientId
  have shared := removeClientRecursive_held clientId whole.2 path clean clientId
  rw [if_pos rfl] at normal shared
  exact ⟨normal, shared⟩

theorem Subs.Whole.sameFor {clientId other : String}
    (ne : other ≠ clientId) : subs.SameFor other (subRemoveClient subs clientId).2 := by
  intro path clean
  have normal := removeClientRecursive_held clientId whole.1 path clean other
  have shared := removeClientRecursive_held clientId whole.2 path clean other
  rw [if_neg ne] at normal shared
  exact ⟨normal, shared⟩

end

theorem stable_whole : Stable fun broker => broker.subs.Whole where
  sent := fun whole clientId session => by rwa [willSend_subs]
  updated := fun whole clientId session => by rwa [updateNode_subs]
  deleted := fun whole clientId => whole.removeClient clientId
  queues := fun whole _ => whole
  dropped := fun whole channel takeOver => by rwa [evDrop_subs]

/-- A topic filter that has no level `SUBS_KEY`. -/
def cleanFilter (filter : String) : Bool :=
  match topicTokenize filter with
  | none => true
  | some (levels, _) => subsKey ∉ nodePath levels

theorem Subs.Whole.add {subs : Subs} (whole : subs.Whole) {filter : String}
    (clean : cleanFilter filter = true) (clientId : String) (info : SubInfo) :
    (subAdd subs filter clientId info).2.Whole := by
  unfold cleanFilter at clean
  unfold subAdd
  cases split : topicTokenize filter with
  | none => exact whole
  | some both =>
    have ⟨levels, group⟩ := both
    rw [split] at clean
    have path : subsKey ∉ nodePath levels := by simpa using clean
    cases group with
    | none => exact ⟨(treeAdd_held whole.1 _ path clientId info).2.1, whole.2⟩
    | some name => exact ⟨whole.1, (treeAdd_held whole.2 _ path clientId info).2.1⟩

theorem Subs.Whole.remove {subs : Subs} (whole : subs.Whole) {filter : String}
    (clean : cleanFilter filter = true) (clientId : String) :
    (subRemove subs filter clientId).2.2.Whole := by
  unfold cleanFilter at clean
  unfold subRemove
  cases split : topicTokenize filter with
  | none => exact whole
  | some both =>
    have ⟨levels, group⟩ := both
    rw [split] at clean
    have path : subsKey ∉ nodePath levels := by simpa using clean
    cases group with
    | none => exact ⟨(treeRemove_held whole.1 _ path clientId).2.1, whole.2⟩
    | some name => exact ⟨whole.1, (treeRemove_held whole.2 _ path clientId).2.1⟩

/-! ## The checks -/

theorem mem_queues_other {clientId other : String} (ne : other ≠ clientId)
    (direction : MsgDirection) :
    ⟨other, direction⟩ ∈ (deleteQueues broker clientId).queues ↔
      ⟨other, direction⟩ ∈ broker.queues := by
  unfold deleteQueues
  simp [ne]

theorem Broker.Without.keeps (without : broker.Without clientId) {later : Broker}
    (keeps : broker.Keeps clientId later) (queues : ∀ direction, ⟨clientId, direction⟩ ∉ later.queues) :
    later.Without clientId where
  session := keeps.session.trans without.session
  subs := fun path clean => ⟨(keeps.subs path clean).1.trans (without.subs path clean).1,
    (keeps.subs path clean).2.trans (without.subs path clean).2⟩
  queues := queues

theorem Broker.Without.willSend (without : broker.Without clientId) {direction : MsgDirection}
    {other : String} (there : ⟨clientId, direction⟩ ∈ (willSend broker other session).queues) :
    False := by
  rcases mem_willSend_queues there with old | known
  · exact without.queues direction old
  · rw [without.session] at known
    cases known

section

variable (whole : broker.subs.Whole)
include whole

theorem sessionExpiryOne_keeps (entry : String × SessionNode) (ne : entry.1 ≠ clientId) :
    broker.Keeps clientId (sessionExpiryOne broker entry) where
  session := (seen_eq.1 (sessionExpiryOne_other broker entry ne)).2.1
  subs := by
    unfold sessionExpiryOne
    dsimp only
    split
    · have same := whole.sameFor (Ne.symm ne)
      rwa [← willSend_subs broker entry.1 entry.2,
        ← willClear_subs (willSend broker entry.1 entry.2) entry.1 entry.2] at same ⊢
    · exact Subs.SameFor.refl clientId broker.subs
  queues := by
    intro direction there
    unfold sessionExpiryOne
    dsimp only
    split
    · refine (mem_queues_other (Ne.symm ne) direction).2 ?_
      show _ ∈ (willClear (willSend broker entry.1 entry.2) entry.1 entry.2).1.queues
      rw [willClear_queues]
      exact subset_willSend_queues broker entry.1 entry.2 there
    · exact there

theorem sessionExpiryOne_without
    (without : broker.Without clientId) (entry : String × SessionNode) (ne : entry.1 ≠ clientId) :
    (sessionExpiryOne broker entry).Without clientId := by
  refine without.keeps (sessionExpiryOne_keeps whole entry ne) fun direction there => ?_
  unfold sessionExpiryOne at there
  dsimp only at there
  split at there
  · have before := (mem_queues_other (Ne.symm ne) direction).1 there
    have sent : ⟨clientId, direction⟩ ∈ (willSend broker entry.1 entry.2).queues := by
      rwa [← willClear_queues (willSend broker entry.1 entry.2) entry.1 entry.2]
    exact without.willSend sent
  · exact without.queues direction there

theorem sessionExpiryOne_removes (expired : session.Expired broker.now) :
    (sessionExpiryOne broker (clientId, session)).Without clientId where
  session := by
    have own := @sessionExpiryOne_own clientId session broker
    rw [if_pos expired] at own
    exact (seen_eq.1 own).2.1
  subs := by
    unfold sessionExpiryOne
    dsimp only
    rw [if_pos expired]
    have gone := whole.without clientId
    rwa [← willSend_subs broker clientId session,
      ← willClear_subs (willSend broker clientId session) clientId session] at gone
  queues := by
    intro direction
    unfold sessionExpiryOne
    dsimp only
    rw [if_pos expired]
    unfold deleteQueues
    cases direction <;> simp

end

theorem willDelayOne_keeps (broker : Broker) (entry : String × SessionNode)
    (ne : entry.1 ≠ clientId) : broker.Keeps clientId (willDelayOne broker entry) where
  session := (seen_eq.1 (willDelayOne_other broker entry ne)).2.1
  subs := by
    unfold willDelayOne
    dsimp only
    split
    · rw [willClear_subs, willSend_subs]
      exact Subs.SameFor.refl clientId broker.subs
    · exact Subs.SameFor.refl clientId broker.subs
  queues := by
    intro direction there
    unfold willDelayOne
    dsimp only
    split
    · rw [willClear_queues]
      exact subset_willSend_queues broker entry.1 entry.2 there
    · exact there

theorem willDelayOne_without
    (without : broker.Without clientId) (entry : String × SessionNode) (ne : entry.1 ≠ clientId) :
    (willDelayOne broker entry).Without clientId := by
  refine without.keeps (willDelayOne_keeps broker entry ne) fun direction there => ?_
  unfold willDelayOne at there
  dsimp only at there
  split at there
  · rw [willClear_queues] at there
    exact without.willSend there
  · exact without.queues direction there

theorem Broker.Keeps.refl (clientId : String) (broker : Broker) : broker.Keeps clientId broker where
  session := rfl
  subs := Subs.SameFor.refl clientId broker.subs
  queues := fun _ there => there

theorem Broker.Keeps.trans {broker middle later : Broker}
    (first : broker.Keeps clientId middle) (second : middle.Keeps clientId later) :
    broker.Keeps clientId later where
  session := second.session.trans first.session
  subs := first.subs.trans second.subs
  queues := fun direction there => second.queues direction (first.queues direction there)

theorem sessionExpiryOne_now (broker : Broker) (entry : String × SessionNode) :
    (sessionExpiryOne broker entry).now = broker.now := by
  unfold sessionExpiryOne
  dsimp only
  split
  · show (willClear (willSend broker entry.1 entry.2) entry.1 entry.2).1.now = broker.now
    rw [willClear_now, willSend_now]
  · rfl

section

variable (whole : broker.subs.Whole) (found : broker.sessions.get? clientId = some session)
include whole found

theorem acTimeout_removes
    (expired : session.Expired broker.now) : (acTimeout broker).Without clientId := by
  have first : (sessionExpiryCheck broker).subs.Whole ∧
      (sessionExpiryCheck broker).Without clientId := by
    refine broker.sessions.sweep_brings sessionExpiryOne
      (fun reached => reached.subs.Whole ∧ reached.Without clientId)
      (fun reached => reached.subs.Whole ∧ reached.now = broker.now)
      (fun reached entry ne both => ?_) (fun reached entry _ both => ?_) (fun reached both => ?_)
      found ⟨whole, rfl⟩
    · exact ⟨stable_whole.sessionExpiryOne both.1 entry,
        sessionExpiryOne_without both.1 both.2 entry ne⟩
    · exact ⟨stable_whole.sessionExpiryOne both.1 entry,
        (sessionExpiryOne_now reached entry).trans both.2⟩
    · have due : session.Expired reached.now := by rwa [both.2]
      exact ⟨stable_whole.sessionExpiryOne both.1 (clientId, session),
        sessionExpiryOne_removes both.1 due⟩
  refine (sessionExpiryCheck broker).sessions.sweep_keeps willDelayOne
    (fun reached => reached.Without clientId) (fun reached entry among without => ?_) first.2
  refine willDelayOne_without without entry fun same => ?_
  have there := (sessionExpiryCheck broker).sessions.get?_of_mem among
  rw [same, first.2.session] at there
  cases there

/-- The checks take nothing of a client whose session has not expired and has no will to send. -/
theorem acTimeout_keeps
    (alive : ¬session.Expired broker.now) (quiet : ¬session.WillDue broker.now) :
    broker.Keeps clientId (acTimeout broker) := by
  have first : ((sessionExpiryCheck broker).subs.Whole ∧
      (sessionExpiryCheck broker).now = broker.now) ∧
      broker.Keeps clientId (sessionExpiryCheck broker) := by
    refine broker.sessions.sweep_keeps sessionExpiryOne
      (fun reached => (reached.subs.Whole ∧ reached.now = broker.now) ∧
        broker.Keeps clientId reached) (fun reached entry among both => ?_)
      ⟨⟨whole, rfl⟩, Broker.Keeps.refl clientId broker⟩
    refine ⟨⟨stable_whole.sessionExpiryOne both.1.1 entry,
      (sessionExpiryOne_now reached entry).trans both.1.2⟩, ?_⟩
    by_cases own : entry.1 = clientId
    · have mine := broker.sessions.get?_of_mem among
      rw [own, found] at mine
      obtain rfl := some.inj mine
      have stays : ¬entry.2.Expired reached.now := by rwa [both.1.2]
      have same : sessionExpiryOne reached entry = reached := if_neg stays
      rw [same]
      exact both.2
    · exact both.2.trans (sessionExpiryOne_keeps both.1.1 entry own)
  refine ((sessionExpiryCheck broker).sessions.sweep_keeps willDelayOne
    (fun reached => reached.now = broker.now ∧ broker.Keeps clientId reached)
    (fun reached entry among both => ?_) ⟨first.1.2, first.2⟩).2
  have clock : (willDelayOne reached entry).now = reached.now := by
    unfold willDelayOne
    dsimp only
    split
    · rw [willClear_now, willSend_now]
    · rfl
  refine ⟨clock.trans both.1, ?_⟩
  by_cases own : entry.1 = clientId
  · have mine := (sessionExpiryCheck broker).sessions.get?_of_mem among
    rw [own, first.2.session, found] at mine
    obtain rfl := some.inj mine
    have stays : ¬entry.2.WillDue reached.now := by rwa [both.1]
    have same : willDelayOne reached entry = reached := if_neg stays
    rw [same]
    exact both.2
  · exact both.2.trans (willDelayOne_keeps reached entry own)

end

/-! ## Opens and closes -/

theorem openPrevious_resumes {kw : OpenKw} (resumed : (openPrevious broker kw session).1 = 1) :
    (openPrevious broker kw session).2.subs = broker.subs ∧
      broker.queues ⊆ (openPrevious broker kw session).2.queues := by
  have first : (sendReplaced broker kw session).1.subs = broker.subs ∧
      broker.queues ⊆ (sendReplaced broker kw session).1.queues := by
    unfold sendReplaced
    split
    · rw [willClear_subs, willSend_subs, willClear_queues]
      exact ⟨rfl, subset_willSend_queues broker kw.id session⟩
    · exact ⟨rfl, Finset.Subset.refl _⟩
  have second : ∀ (state : Broker) previous, (dropPrevious state previous true).subs = state.subs ∧
        (dropPrevious state previous true).queues = state.queues := by
    intro state previous
    unfold dropPrevious
    cases previous.gobjChannel with
    | none => exact ⟨rfl, rfl⟩
    | some channel => exact ⟨evDrop_subs state channel true, evDrop_queues state channel⟩
  unfold openPrevious at resumed ⊢
  dsimp only at resumed ⊢
  split at resumed
  · rename_i due
    rw [if_pos due]
    have ⟨subs, queues⟩ := second (sendReplaced broker kw session).1
      (sendReplaced broker kw session).2
    exact ⟨subs.trans first.1, by rw [queues]; exact first.2⟩
  · cases resumed

theorem connect_resumes {channel : Nat} {packet : ConnectPacket}
    {wallClock : Nat} (resumed : (broker.connect channel packet wallClock).1 = 1) :
    (broker.connect channel packet wallClock).2.subs = broker.subs ∧
      broker.queues ⊆ (broker.connect channel packet wallClock).2.queues := by
  by_cases opens : broker.Opens channel packet.clientId
  · have accepted : broker.Accepts packet.toKw.id := opens.2
    have client : (broker.withClient packet.toKw).subs = broker.subs ∧
        (broker.withClient packet.toKw).queues = broker.queues := by
      unfold Broker.withClient
      split <;> exact ⟨rfl, rfl⟩
    have opened : (acOnOpen broker channel packet.toKw wallClock).2.subs = broker.subs ∧
        broker.queues ⊆ (acOnOpen broker channel packet.toKw wallClock).2.queues := by
      rw [connect_opens opens] at resumed
      rw [acOnOpen_accepted accepted] at resumed ⊢
      cases found : broker.sessions.get? packet.toKw.id with
      | none =>
        rw [found] at resumed
        cases resumed
      | some session =>
        rw [found] at resumed
        have kept := openPrevious_resumes resumed
        rwa [client.1, client.2] at kept
    rw [connect_opens opens]
    exact ⟨opened.1, fun name there => mem_insert_of_mem (mem_insert_of_mem
      (opened.2 there))⟩
  · rw [connect_refused opens]
    exact ⟨rfl, Finset.Subset.refl _⟩

theorem Subs.Whole.connect (whole : broker.subs.Whole) (channel : Nat)
    (packet : ConnectPacket) (wallClock : Nat) :
    (broker.connect channel packet wallClock).2.subs.Whole := by
  by_cases opens : broker.Opens channel packet.clientId
  · have accepted : broker.Accepts packet.toKw.id := opens.2
    have client : (broker.withClient packet.toKw).subs.Whole := by
      unfold Broker.withClient
      split <;> exact whole
    rw [connect_opens opens, acOnOpen_accepted accepted]
    cases broker.sessions.get? packet.toKw.id with
    | none => exact client
    | some session => exact stable_whole.openPrevious client packet.toKw session
  · rwa [connect_refused opens]

theorem Subs.Whole.close (whole : broker.subs.Whole) (channel : Nat) :
    (broker.close channel).subs.Whole := by
  cases found : broker.channels.get? channel with
  | none => rwa [close_absent found]
  | some attrs =>
    have first : (closeQueues broker channel attrs).subs.Whole := by rwa [closeQueues_subs]
    rw [close_eq found]
    unfold acOnClose
    split
    · exact first
    · split
      · exact first
      · rename_i assignedId _ _ session _
        split
        · exact first
        · split
          · have deleted := stable_whole.deleted
              (stable_whole.sent first attrs.clientId (session.sync attrs)) attrs.clientId
            unfold closeTemporary
            dsimp only
            cases assignedId <;> split <;> exact deleted
          · exact stable_whole.closePersistent first attrs _

end Yunetas.Mqtt
