import Yunetas.Mqtt.Belongings
import Yunetas.Lib.Run

/-!
# The expiry of sessions

A session outlives its connection by the session expiry interval of the client. The broker keeps the
disconnect time in `will_delay_time`, which is the will timer too: a delayed will that is sent before
the session expires takes the disconnect time along, and the session stays for ever.
-/

namespace Yunetas.Mqtt

open Option

open Json

/-- What is due to a client: its session ends with the connection when the interval is 0, and otherwise
the interval after the disconnection. -/
inductive Lifetime
  | ended
  | connected (channel expiry : Nat)
  | left (since expiry : Nat)

/-- A broker, and what is due to one client. -/
structure Lifetimes where
  broker : Broker
  lifetime : Lifetime

instance (broker : Broker) (channel : Nat) (clientId : String) :
    Decidable (broker.Opens channel clientId) :=
  inferInstanceAs (Decidable (_ ∧ (_ ∨ _)))

/-- The interval a DISCONNECT packet asks for; 0 cannot become another one. -/
def askedInterval (attrs : ChannelAttrs) (packet : DisconnectPacket) (expiry : Nat) : Nat :=
  if attrs.protocolVersion = .mqtt5 ∧ expiry ≠ 0 then
    (packet.sessionExpiry.map UInt32.toNat).getD expiry
  else expiry

/-- A CONNECT packet that opens a session. -/
def Lifetime.connect (clientId : String) (broker : Broker) (lifetime : Lifetime) (channel : Nat)
    (packet : ConnectPacket) : Lifetime :=
  if packet.clientId = clientId ∧ broker.Opens channel clientId then
    .connected channel packet.sessionExpiryInterval
  else lifetime

/-- A DISCONNECT packet of the connection. -/
def Lifetime.disconnect (broker : Broker) (lifetime : Lifetime) (channel : Nat)
    (packet : DisconnectPacket) : Lifetime :=
  match lifetime, broker.reading channel with
  | .connected own expiry, some attrs =>
    if own = channel then .connected own (askedInterval attrs packet expiry) else lifetime
  | _, _ => lifetime

/-- The close of the connection. -/
def Lifetime.close (broker : Broker) (lifetime : Lifetime) (channel : Nat) : Lifetime :=
  match lifetime with
  | .connected own expiry =>
    if own ≠ channel then lifetime
    else if expiry = 0 then .ended
    else .left broker.now expiry
  | _ => lifetime

/-- A check: the session ends when its interval is over. -/
def Lifetime.timeout (broker : Broker) (lifetime : Lifetime) : Lifetime :=
  match lifetime with
  | .left since expiry =>
    if expiry < uint32Max ∧ since + expiry ≤ broker.now then .ended else lifetime
  | _ => lifetime

/-- What is due to a client after a step. -/
def Lifetime.step (clientId : String) (broker : Broker) (lifetime : Lifetime) :
    BrokerCall → Lifetime
  | .connect channel packet _ => lifetime.connect clientId broker channel packet
  | .disconnect channel packet => lifetime.disconnect broker channel packet
  | .close channel => lifetime.close broker channel
  | .timeout => lifetime.timeout broker
  | _ => lifetime

/-- The broker takes a step, and so does what is due. -/
def Lifetimes.step (clientId : String) (state : Lifetimes) (call : BrokerCall) : Lifetimes where
  broker := state.broker.step call
  lifetime := state.lifetime.step clientId state.broker call

/-- A step is on time: a check keeps everything of a client before its interval is over, and takes
everything from then on; a client that comes back without clean start resumes its session exactly
before. -/
def OnTime (clientId : String) (state : Lifetimes) : BrokerCall → Prop
  | .timeout =>
    match state.lifetime with
    | .left since expiry =>
      expiry < uint32Max →
        (state.broker.sessions.get? clientId).isSome ∧
        (state.broker.now < since + expiry →
          state.broker.Keeps clientId (acTimeout state.broker)) ∧
        (since + expiry ≤ state.broker.now → (acTimeout state.broker).Without clientId)
    | _ => True
  | .connect channel packet wallClock =>
    packet.clientId = clientId → state.broker.Opens channel clientId →
      packet.toKw.startsClean = false →
      let opened := state.broker.connect channel packet wallClock
      (opened.1 = 1 → opened.2.subs = state.broker.subs ∧
        state.broker.queues ⊆ opened.2.queues) ∧
      match state.lifetime with
      | .ended => opened.1 = 0
      | .left since expiry =>
        expiry < uint32Max → (opened.1 = 1 ↔ state.broker.now < since + expiry)
      | .connected _ _ => True
  | _ => True

/-- The steps that do not reach a defect: the clock is past 0 at a close, no delayed will is sent
before its session expires, a client that comes back does not use MQTT 3.1, and no topic filter has
the level `SUBS_KEY`. -/
def Orderly (clientId : String) (state : Lifetimes) : BrokerCall → Prop
  | .close _ => 0 < state.broker.now
  | .timeout =>
    ∀ session ∈ state.broker.sessions.get? clientId, session.WillDue state.broker.now →
      session.Expired state.broker.now ∨ session.sessionExpiryInterval = uint32Max
  | .connect _ packet _ =>
    packet.clientId = clientId → packet.protocolVersion = .mqtt31 →
      ∀ session ∈ state.broker.sessions.get? clientId, session.gobjChannel = none →
        session.TooOld state.broker.now
  | .subscribe _ filter _ => cleanFilter filter = true
  | .unsubscribe _ filter => cleanFilter filter = true
  | _ => True

instance (clientId : String) (state : Lifetimes) (call : BrokerCall) :
    Decidable (Orderly clientId state call) :=
  match call with
  | .close _ => inferInstanceAs (Decidable (_ < _))
  | .timeout => inferInstanceAs (Decidable (∀ session ∈ _, _ → _ ∨ _))
  | .connect _ _ _ => inferInstanceAs (Decidable (_ → _ → ∀ session ∈ _, _ → _))
  | .subscribe _ _ _ => inferInstanceAs (Decidable (_ = _))
  | .unsubscribe _ _ => inferInstanceAs (Decidable (_ = _))
  | .wait _ => inferInstanceAs (Decidable True)
  | .disconnect _ _ => inferInstanceAs (Decidable True)

/-- The interval of the channel of a session is the one that is due. -/
def SameInterval (session : SessionNode) (interval expiry : Nat) : Prop :=
  if session.protocolVersion = .mqtt5 then
    interval = expiry ∨ (expiry = uint32Max ∧ interval ≠ 0)
  else (session.cleanStart = true ↔ expiry = 0) ∧ (expiry = 0 ∨ expiry = uint32Max)

/-- The session of a client is as it is due. -/
def AsDue (clientId : String) (broker : Broker) : Lifetime → Prop
  | .ended => broker.sessions.get? clientId = none
  | .connected channel expiry =>
    ∃ session interval, broker.sessions.get? clientId = some session ∧
      session.gobjChannel = some channel ∧
      broker.core channel = some (clientId, session.protocolVersion, interval) ∧
      SameInterval session interval expiry
  | .left since expiry =>
    expiry ≠ 0 ∧ (expiry < uint32Max →
      ∃ session, broker.sessions.get? clientId = some session ∧ session.gobjChannel = none ∧
        session.protocolVersion = .mqtt5 ∧ session.sessionExpiryInterval = expiry ∧
        session.willDelayTime = since ∧ 0 < since)

/-- What every orderly step keeps. -/
structure Good (clientId : String) (broker : Broker) (lifetime : Lifetime) : Prop where
  whole : broker.subs.Whole
  known : (broker.sessions.get? clientId).isSome → (broker.clients.get? clientId).isSome
  due : AsDue clientId broker lifetime

variable {clientId : String} {lifetime : Lifetime} {session : SessionNode} {broker : Broker}

theorem AsDue.same {broker later : Broker} (due : AsDue clientId broker lifetime)
    (session : later.sessions.get? clientId = broker.sessions.get? clientId)
    (core : ∀ channel expiry, lifetime = .connected channel expiry →
      later.core channel = broker.core channel) : AsDue clientId later lifetime := by
  cases lifetime with
  | ended => exact session.trans due
  | connected channel expiry =>
    have ⟨node, interval, found, own, attrs, same⟩ := due
    exact ⟨node, interval, session.trans found, own, (core channel expiry rfl).trans attrs, same⟩
  | left since expiry =>
    refine ⟨due.1, fun finite => ?_⟩
    have ⟨node, found, rest⟩ := due.2 finite
    exact ⟨node, session.trans found, rest⟩

theorem Good.same {broker later : Broker}
    (good : Good clientId broker lifetime) (whole : later.subs.Whole)
    (seen : later.seen clientId = broker.seen clientId)
    (clients : (broker.clients.get? clientId).isSome → (later.clients.get? clientId).isSome)
    (core : ∀ channel expiry, lifetime = .connected channel expiry →
      later.core channel = broker.core channel) : Good clientId later lifetime where
  whole := whole
  known := fun there => clients (good.known (by rwa [(seen_eq.1 seen).2.1] at there))
  due := good.due.same (seen_eq.1 seen).2.1 core

theorem SameInterval.disconnect {attrs : ChannelAttrs} {expiry : Nat}
    (same : SameInterval session attrs.sessionExpiryInterval expiry)
    (protocol : session.protocolVersion = attrs.protocolVersion) (packet : DisconnectPacket) :
    SameInterval session (attrs.intervalAfter packet) (askedInterval attrs packet expiry) := by
  unfold SameInterval at same ⊢
  unfold ChannelAttrs.intervalAfter askedInterval
  rw [protocol] at same ⊢
  by_cases mqtt5 : attrs.protocolVersion = .mqtt5
  · rw [if_pos mqtt5] at same ⊢
    rw [if_neg (not_not_intro mqtt5)]
    by_cases zero : expiry = 0
    · rw [if_neg fun both => both.2 zero]
      have still : attrs.sessionExpiryInterval = 0 := by
        rcases same with here | ⟨max, -⟩
        · omega
        · rw [zero] at max
          exact absurd max (by decide)
      refine .inl ?_
      cases packet.sessionExpiry with
      | none => exact still.trans zero.symm
      | some value =>
        dsimp only
        rw [if_pos (.inr still), still, zero]
    · rw [if_pos ⟨mqtt5, zero⟩]
      have positive : attrs.sessionExpiryInterval ≠ 0 := by
        rcases same with here | ⟨-, there⟩
        · omega
        · exact there
      cases packet.sessionExpiry with
      | none => exact same
      | some value =>
        dsimp only
        by_cases max : value.toNat = uint32Max
        · rw [if_pos (.inl max)]
          exact .inr ⟨max, positive⟩
        · rw [if_neg (not_or.2 ⟨max, positive⟩)]
          exact .inl rfl
  · rw [if_neg mqtt5] at same ⊢
    rw [if_neg fun both => mqtt5 both.1]
    exact same

theorem Good.disconnect
    (good : Good clientId broker lifetime) (channel : Nat) (packet : DisconnectPacket) :
    Good clientId (broker.disconnect channel packet)
      (lifetime.disconnect broker channel packet) := by
  have whole : (broker.disconnect channel packet).subs.Whole := by
    unfold Broker.disconnect
    split <;> exact good.whole
  have seen := disconnect_seen broker channel packet clientId
  have clients := disconnect_clients broker channel packet
  unfold Lifetime.disconnect
  cases reading : broker.reading channel with
  | none =>
    rw [disconnect_ignored reading]
    cases lifetime <;> exact good
  | some attrs =>
    have cores := disconnect_core reading packet
    have apart : (∀ expiry, lifetime ≠ .connected channel expiry) →
        Good clientId (broker.disconnect channel packet) lifetime := by
      intro others
      refine good.same whole seen (by rw [clients]; exact id) fun own expiry connected => ?_
      rw [cores, if_neg]
      rintro rfl
      exact others expiry connected
    cases lifetime with
    | ended => exact apart fun _ same => by cases same
    | left since expiry => exact apart fun _ same => by cases same
    | connected own expiry =>
      dsimp only
      by_cases mine : own = channel
      · subst mine
        have ⟨session, interval, found, chosen, core, same⟩ := good.due
        have ⟨client, protocol, agreed⟩ := core_of_channel (reading_some reading).1 core
        rw [if_pos rfl]
        refine ⟨whole, fun there => ?_, session, attrs.intervalAfter packet,
          (seen_eq.1 seen).2.1.trans found, chosen, ?_, ?_⟩
        · rw [clients]
          exact good.known (by rwa [(seen_eq.1 seen).2.1] at there)
        · rw [cores, if_pos rfl, handleDisconnectS_core, client, protocol]
        · rw [← agreed] at same
          exact same.disconnect protocol.symm packet
      · rw [if_neg mine]
        exact apart fun _ same => mine (by cases same; rfl)

theorem expired_iff {since expiry : Nat}
    (alone : session.gobjChannel = none) (interval : session.sessionExpiryInterval = expiry)
    (time : session.willDelayTime = since) (positive : 0 < since) (some : expiry ≠ 0)
    (finite : expiry < uint32Max) (now : Nat) : session.Expired now ↔ since + expiry ≤ now := by
  unfold SessionNode.Expired
  rw [interval, time]
  constructor
  · rintro ⟨-, -, -, -, elapsed⟩
    omega
  · intro elapsed
    exact ⟨alone, some, by omega, by omega, by omega⟩

theorem acTimeout_connected {channel : Nat} (found : broker.sessions.get? clientId = some session)
    (own : session.gobjChannel = some channel) :
    (acTimeout broker).seen clientId = broker.seen clientId := by
  have connected : session.gobjChannel ≠ none := by
    rw [own]
    exact some_ne_none channel
  rw [acTimeout_some found, if_neg fun expired : session.Expired _ => connected expired.1,
    if_neg fun due : session.WillDue _ => connected due.1]

theorem Good.timeout (good : Good clientId broker lifetime)
    (orderly : ∀ session ∈ broker.sessions.get? clientId, session.WillDue broker.now →
      session.Expired broker.now ∨ session.sessionExpiryInterval = uint32Max) :
    Good clientId (acTimeout broker) (lifetime.timeout broker) := by
  have whole := stable_whole.acTimeout good.whole
  have clients : (acTimeout broker).clients = broker.clients :=
    (untouched_clients.stable _).acTimeout rfl
  have cores : ∀ channel, (acTimeout broker).core channel = broker.core channel := fun channel =>
    ((untouched_core channel).stable _).acTimeout rfl
  have known : ((acTimeout broker).sessions.get? clientId).isSome →
      ((acTimeout broker).clients.get? clientId).isSome := by
    intro there
    rw [clients]
    refine good.known ?_
    by_contra absent
    have gone := acTimeout_none (not_isSome_iff_eq_none.1 absent)
    rw [(seen_eq.1 gone).2.1] at there
    exact absent there
  have stays : (acTimeout broker).seen clientId = broker.seen clientId →
      Good clientId (acTimeout broker) lifetime := by
    intro seen
    exact good.same whole seen (by rw [clients]; exact id) fun channel _ _ => cores channel
  unfold Lifetime.timeout
  cases lifetime with
  | ended => exact stays (acTimeout_none good.due)
  | connected channel expiry =>
    obtain ⟨session, interval, found, own, -⟩ := good.due
    exact stays (acTimeout_connected found own)
  | left since expiry =>
    dsimp only
    obtain ⟨some, finite⟩ := good.due
    by_cases short : expiry < uint32Max
    · obtain ⟨session, found, alone, mqtt5, interval, time, positive⟩ := finite short
      have expired := expired_iff alone interval time positive some short broker.now
      have seen := acTimeout_some found
      by_cases elapsed : since + expiry ≤ broker.now
      · rw [if_pos (expired.2 elapsed)] at seen
        rw [if_pos ⟨short, elapsed⟩]
        exact ⟨whole, known, (seen_eq.1 seen).2.1⟩
      · have quiet : ¬session.WillDue broker.now := by
          intro due
          rcases orderly session found due with gone | max
          · exact elapsed (expired.1 gone)
          · rw [interval] at max
            omega
        rw [if_neg (mt expired.1 elapsed), if_neg quiet] at seen
        rw [if_neg fun both => elapsed both.2]
        exact stays seen
    · rw [if_neg fun both => short both.1]
      exact ⟨whole, known, some, fun finite => absurd finite short⟩

theorem openedSession_fields (previous : Option SessionNode) (kw : OpenKw)
    (now channel wallClock : Nat) :
    (openedSession previous kw now channel wallClock).gobjChannel = some channel ∧
      (openedSession previous kw now channel wallClock).protocolVersion = kw.protocolVersion ∧
      (openedSession previous kw now channel wallClock).cleanStart = kw.cleanStart := by
  unfold openedSession
  cases previous with
  | none => exact ⟨rfl, rfl, rfl⟩
  | some session =>
    dsimp only
    split <;> exact ⟨rfl, rfl, rfl⟩

theorem Good.connect (good : Good clientId broker lifetime) (channel : Nat) (packet : ConnectPacket)
    (wallClock : Nat) :
    Good clientId (broker.connect channel packet wallClock).2
      (lifetime.connect clientId broker channel packet) := by
  have whole := good.whole.connect channel packet wallClock
  unfold Lifetime.connect
  by_cases opens : broker.Opens channel packet.clientId
  · by_cases mine : packet.clientId = clientId
    · subst mine
      rw [if_pos ⟨rfl, opens⟩]
      have seen := (connect_own opens wallClock).2
      have ⟨own, protocol, clean⟩ := openedSession_fields
        (broker.sessions.get? packet.clientId) packet.toKw broker.now channel wallClock
      refine ⟨whole, fun _ => connect_clients opens wallClock (.inr rfl), _,
        packet.sessionExpiryInterval, (seen_eq.1 seen).2.1, own, ?_, ?_⟩
      · rw [connect_core opens, if_pos rfl, protocol]
        rfl
      · unfold SameInterval
        rw [protocol, clean]
        show if packet.protocolVersion = .mqtt5 then _ else _
        unfold ConnectPacket.sessionExpiryInterval
        by_cases mqtt5 : packet.protocolVersion = .mqtt5
        · rw [if_pos mqtt5]
          exact .inl rfl
        · rw [if_neg mqtt5, if_neg mqtt5]
          show (packet.cleanStart = true ↔ _) ∧ _
          cases packet.cleanStart <;> decide
    · rw [if_neg fun both => mine both.1]
      refine good.same whole (connect_other broker channel wallClock (Ne.symm mine))
        (fun there => connect_clients opens wallClock (.inl there)) fun own expiry connected => ?_
      rw [connect_core opens, if_neg]
      rintro rfl
      subst connected
      have ⟨session, interval, _, _, core, _⟩ := good.due
      unfold Broker.core at core
      rw [opens.1] at core
      cases core
  · rw [connect_refused opens, if_neg]
    · exact good
    · rintro ⟨rfl, there⟩
      exact opens there

section

variable {attrs : ChannelAttrs} {expiry : Nat}
  (same : SameInterval session attrs.sessionExpiryInterval expiry)
include same

theorem temporary_sync : (session.sync attrs).Temporary ↔ expiry = 0 := by
  unfold SameInterval at same
  unfold SessionNode.sync SessionNode.Temporary
  by_cases mqtt5 : session.protocolVersion = .mqtt5
  · rw [if_pos mqtt5] at same ⊢
    dsimp only
    constructor
    · rintro (⟨-, zero⟩ | ⟨other, -⟩)
      · rcases same with here | ⟨-, positive⟩
        · omega
        · exact absurd zero positive
      · exact absurd mqtt5 other
    · intro zero
      refine .inl ⟨mqtt5, ?_⟩
      rcases same with here | ⟨max, -⟩
      · omega
      · rw [zero] at max
        exact absurd max (by decide)
  · rw [if_neg mqtt5] at same ⊢
    rw [← same.1]
    exact ⟨fun temporary => temporary.elim (fun both => absurd both.1 mqtt5) And.right,
      fun clean => .inr ⟨mqtt5, clean⟩⟩

theorem sync_finite (some : expiry ≠ 0) (short : expiry < uint32Max) :
    (session.sync attrs).protocolVersion = .mqtt5 ∧
      (session.sync attrs).sessionExpiryInterval = expiry := by
  unfold SameInterval at same
  unfold SessionNode.sync
  by_cases mqtt5 : session.protocolVersion = .mqtt5
  · rw [if_pos mqtt5] at same ⊢
    refine ⟨mqtt5, same.resolve_right fun both => ?_⟩
    rw [both.1] at short
    exact absurd short (Nat.lt_irrefl _)
  · rw [if_neg mqtt5] at same
    rcases same.2 with zero | max
    · exact absurd zero some
    · rw [max] at short
      exact absurd short (Nat.lt_irrefl _)

end

theorem left_fields (session : SessionNode) (now : Nat) :
    (session.left now).gobjChannel = none ∧
      (session.left now).protocolVersion = session.protocolVersion ∧
      (session.left now).sessionExpiryInterval = session.sessionExpiryInterval ∧
      (session.left now).willDelayTime = now := by
  have clamped : session.clampDelay.protocolVersion = session.protocolVersion ∧
      session.clampDelay.sessionExpiryInterval = session.sessionExpiryInterval := by
    unfold SessionNode.clampDelay
    dsimp only
    split <;> exact ⟨rfl, rfl⟩
  have cleared : session.clampDelay.clear.protocolVersion = session.protocolVersion := by
    unfold SessionNode.clear
    split <;> exact clamped.1
  unfold SessionNode.left
  refine ⟨rfl, ?_, ?_, rfl⟩
  · split
    · rfl
    · split
      · exact clamped.1
      · exact cleared
  · split
    · rfl
    · split
      · exact clamped.2
      · rw [clear_sessionExpiryInterval, clamped.2]

theorem Good.close
    (good : Good clientId broker lifetime) (channel : Nat) (running : 0 < broker.now) :
    Good clientId (broker.close channel) (lifetime.close broker channel) := by
  have whole := good.whole.close channel
  cases found : broker.channels.get? channel with
  | none =>
    rw [close_absent found]
    unfold Lifetime.close
    cases lifetime with
    | ended => exact good
    | left since expiry => exact good
    | connected own expiry =>
      dsimp only
      rw [if_pos]
      · exact good
      · rintro rfl
        obtain ⟨session, interval, -, -, core, -⟩ := good.due
        unfold Broker.core at core
        rw [found] at core
        cases core
  | some attrs =>
    have known : ((broker.close channel).sessions.get? clientId).isSome →
        (broker.sessions.get? clientId).isSome →
        ((broker.close channel).clients.get? clientId).isSome := fun stays there =>
      close_clients found (good.known there) stays
    have others : (broker.close channel).seen clientId = broker.seen clientId →
        (∀ expiry, lifetime ≠ .connected channel expiry) →
        Good clientId (broker.close channel) lifetime := by
      intro seen apart
      have sessions := (seen_eq.1 seen).2.1
      refine ⟨whole, fun there => known there (by rwa [sessions] at there), ?_⟩
      refine good.due.same sessions fun own expiry connected => ?_
      rw [close_core found, if_neg]
      rintro rfl
      exact apart expiry connected
    have stale : (broker.sessions.get? clientId).bind SessionNode.gobjChannel ≠ some channel →
        (broker.close channel).seen clientId = broker.seen clientId := by
      intro other
      by_cases mine : attrs.clientId = clientId
      · subst mine
        exact close_stale found other attrs.clientId
      · exact close_other found (Ne.symm mine)
    unfold Lifetime.close
    cases lifetime with
    | ended =>
      refine others (stale ?_) fun _ same => by cases same
      have absent : broker.sessions.get? clientId = none := good.due
      rw [absent]
      exact some_ne_none channel ∘ Eq.symm
    | left since expiry =>
      obtain ⟨some, finite⟩ := good.due
      by_cases short : expiry < uint32Max
      · obtain ⟨session, stored, alone, -⟩ := finite short
        refine others (stale ?_) fun _ same => by cases same
        rw [stored, bind_some, alone]
        exact some_ne_none channel ∘ Eq.symm
      · refine ⟨whole, fun there => ?_, some, fun finite => absurd finite short⟩
        by_cases before : (broker.sessions.get? clientId).isSome
        · exact known there before
        · have absent := not_isSome_iff_eq_none.1 before
          have seen := stale (by rw [absent]; exact some_ne_none channel ∘ Eq.symm)
          rw [(seen_eq.1 seen).2.1] at there
          exact absurd there before
    | connected own expiry =>
      dsimp only
      obtain ⟨session, interval, stored, chosen, core, same⟩ := good.due
      by_cases mine : own = channel
      · subst mine
        rw [if_neg (not_not_intro rfl)]
        obtain ⟨rfl, -, agreed⟩ := core_of_channel found core
        rw [← agreed] at same
        have seen := close_own found (good.known (by rw [stored]; rfl)) stored chosen
        by_cases zero : expiry = 0
        · rw [if_pos ((temporary_sync same).2 zero)] at seen
          rw [if_pos zero]
          exact ⟨whole, fun there => known there (by rw [stored]; rfl), (seen_eq.1 seen).2.1⟩
        · rw [if_neg (mt (temporary_sync same).1 zero)] at seen
          rw [if_neg zero]
          refine ⟨whole, fun there => known there (by rw [stored]; rfl), zero, fun short => ?_⟩
          obtain ⟨alone, mqtt5, kept, time⟩ := left_fields (session.sync attrs) broker.now
          obtain ⟨protocol, interval⟩ := sync_finite same zero short
          exact ⟨_, (seen_eq.1 seen).2.1, alone, mqtt5.trans protocol, kept.trans interval, time,
            running⟩
      · rw [if_pos mine]
        refine others (stale ?_) fun _ same => mine (by cases same; rfl)
        rw [stored, bind_some, chosen]
        exact fun same => mine (Option.some.inj same)

section

variable {state : Lifetimes} (good : Good clientId state.broker state.lifetime)
include good

theorem Good.step {call : BrokerCall} (orderly : Orderly clientId state call) :
    Good clientId (state.step clientId call).broker (state.step clientId call).lifetime := by
  cases call with
  | wait seconds =>
    exact ⟨good.whole, good.known, good.due.same rfl fun _ _ _ => rfl⟩
  | connect channel packet wallClock => exact good.connect channel packet wallClock
  | disconnect channel packet => exact good.disconnect channel packet
  | close channel => exact good.close channel orderly
  | timeout => exact good.timeout orderly
  | subscribe channel filter info =>
    show Good clientId (state.broker.step (.subscribe channel filter info)) state.lifetime
    unfold Broker.step
    dsimp only
    split
    · exact good
    · exact ⟨good.whole.add orderly _ info, good.known, good.due.same rfl fun _ _ _ => rfl⟩
  | unsubscribe channel filter =>
    show Good clientId (state.broker.step (.unsubscribe channel filter)) state.lifetime
    unfold Broker.step
    dsimp only
    split
    · exact good
    · exact ⟨good.whole.remove orderly _, good.known, good.due.same rfl fun _ _ _ => rfl⟩

theorem Good.timely_timeout
    (orderly : Orderly clientId state .timeout) : OnTime clientId state .timeout := by
  obtain ⟨broker, lifetime⟩ := state
  cases lifetime with
  | ended => trivial
  | connected channel expiry => trivial
  | left since expiry =>
    intro short
    obtain ⟨some, finite⟩ := good.due
    obtain ⟨session, found, alone, -, interval, time, positive⟩ := finite short
    have expired := expired_iff alone interval time positive some short broker.now
    refine ⟨isSome_iff_exists.2 ⟨session, found⟩, fun before => ?_, fun elapsed => ?_⟩
    · have alive : ¬session.Expired broker.now := fun gone =>
        absurd (expired.1 gone) (Nat.not_le_of_lt before)
      refine acTimeout_keeps good.whole found alive fun due => ?_
      rcases orderly session found due with gone | max
      · exact alive gone
      · rw [interval] at max
        omega
    · exact acTimeout_removes good.whole found (expired.2 elapsed)

theorem Good.timely_connect {channel : Nat} {packet : ConnectPacket}
    {wallClock : Nat} (orderly : Orderly clientId state (.connect channel packet wallClock)) :
    OnTime clientId state (.connect channel packet wallClock) := by
  obtain ⟨broker, lifetime⟩ := state
  rintro rfl opens dirty
  refine ⟨connect_resumes, ?_⟩
  have answer := (connect_own opens wallClock).1
  cases lifetime with
  | connected own expiry => trivial
  | ended =>
    have absent : broker.sessions.get? packet.clientId = none := good.due
    rw [answer, absent]
    rfl
  | left since expiry =>
    intro short
    obtain ⟨some, finite⟩ := good.due
    obtain ⟨session, found, alone, mqtt5, interval, time, positive⟩ := finite short
    have lasting : ¬session.Temporary := by
      rintro (⟨-, zero⟩ | ⟨other, -⟩)
      · exact some (interval.symm.trans zero)
      · exact other mqtt5
    have prepared : session.prepared packet.toKw = session := by
      refine if_neg fun replaced => ?_
      rcases replaced with temporary | clean
      · exact lasting temporary
      · rw [dirty] at clean
        cases clean
    have old : session.TooOld broker.now ↔ since + expiry ≤ broker.now := by
      unfold SessionNode.TooOld
      rw [interval, time]
      omega
    have resumed : session.Resumed packet.toKw broker.now ↔ broker.now < since + expiry := by
      unfold SessionNode.Resumed
      rw [old, interval]
      constructor
      · rintro ⟨-, -, young, -⟩
        omega
      · intro young
        refine ⟨dirty, by omega, by omega, fun mqtt31 => ?_⟩
        exact absurd (old.1 (orderly rfl mqtt31 session found alone)) (by omega)
    rw [answer, found, ← resumed]
    show (if (session.prepared packet.toKw).Resumed packet.toKw broker.now then (1 : Int) else 0) =
      1 ↔ _
    rw [prepared]
    constructor
    · intro one
      by_contra other
      rw [if_neg other] at one
      cases one
    · exact fun here => if_pos here

end

theorem good_start (clientId : String) (now : Nat) (enableNewClients : Bool) :
    Good clientId (Broker.start now enableNewClients) .ended where
  whole := ⟨shaped_empty, shaped_empty⟩
  known := fun there => by cases there
  due := rfl

/-- Along every run of orderly steps, from any instant, every session expires on time. -/
theorem sessions_expire_along (clientId : String) (now : Nat) (enableNewClients : Bool)
    (calls : List BrokerCall)
    (orderly : AllSteps (Lifetimes.step clientId) (Orderly clientId)
      ⟨Broker.start now enableNewClients, .ended⟩ calls) :
    AllSteps (Lifetimes.step clientId) (OnTime clientId)
      ⟨Broker.start now enableNewClients, .ended⟩ calls := by
  have keeps : ∀ state call, Good clientId state.broker state.lifetime →
      Orderly clientId state call → Good clientId (Lifetimes.step clientId state call).broker
        (Lifetimes.step clientId state call).lifetime := fun _ _ good fine => good.step fine
  refine AllSteps.strengthen (Lifetimes.step clientId) keeps (fun state call good fine => ?_)
    (good_start clientId now enableNewClients) orderly
  cases call with
  | timeout => exact Good.timely_timeout good fine
  | connect channel packet wallClock => exact Good.timely_connect good fine
  | wait seconds => trivial
  | disconnect channel packet => trivial
  | close channel => trivial
  | subscribe channel filter info => trivial
  | unsubscribe channel filter => trivial

/-- A CONNECT packet of MQTT 5 with a session expiry interval of ten seconds, without clean start. -/
def tenSeconds (will : Option WillPacket) : ConnectPacket :=
  ⟨"client", false, false, .mqtt5, some 10, will⟩

/-- A session without will is resumed after nine seconds, and expires ten seconds after its second
disconnection. -/
theorem sessions_expire_along_ten :
    AllSteps (Lifetimes.step "client") (OnTime "client") ⟨Broker.start 100 true, .ended⟩
      [.connect 1 (tenSeconds none) 1700000000, .close 1, .wait 9, .timeout,
        .connect 2 (tenSeconds none) 1700000009, .close 2, .wait 10, .timeout] :=
  sessions_expire_along "client" 100 true _ ⟨by decide, by decide, by decide, by decide, by decide,
    by decide, by decide, by decide, trivial⟩

/-- A will with a delay of five seconds. -/
def fiveSeconds : WillPacket := ⟨"will", none, 0, false, 5, [], by decide⟩

/-- A will that is sent before its session expires keeps the session for ever: the check sixteen seconds
after the disconnection does not remove a session of ten seconds. -/
theorem session_outlives_will :
    ¬AllSteps (Lifetimes.step "client") (OnTime "client") ⟨Broker.start 100 true, .ended⟩
      [.connect 1 (tenSeconds (some fiveSeconds)) 1700000000, .close 1, .wait 6, .timeout,
        .wait 10, .timeout] := by
  rintro ⟨-, -, -, -, -, late, -⟩
  have removed := (late (by decide)).2.2 (by decide)
  exact absurd removed.session (by decide)

/-! ## A connected client -/

/-- The call neither opens nor closes a connection of the client. -/
def LeavesConnected (clientId : String) (broker : Broker) : BrokerCall → Prop
  | .connect _ packet _ => packet.clientId ≠ clientId
  | .close channel => ∀ attrs ∈ broker.channels.get? channel, attrs.clientId ≠ clientId
  | _ => True

theorem step_connected {clientId : String} {broker : Broker} {call : BrokerCall}
    (connected : ∀ session ∈ broker.sessions.get? clientId, session.gobjChannel ≠ none)
    (leaves : LeavesConnected clientId broker call) :
    (broker.step call).sessions.get? clientId = broker.sessions.get? clientId ∧
      (broker.step call).sentBy clientId = broker.sentBy clientId := by
  have same {later : Broker} (seen : later.seen clientId = broker.seen clientId) :
      later.sessions.get? clientId = broker.sessions.get? clientId ∧
        later.sentBy clientId = broker.sentBy clientId := (seen_eq.1 seen).2
  cases call with
  | wait seconds => exact ⟨rfl, rfl⟩
  | timeout =>
    apply same
    cases found : broker.sessions.get? clientId with
    | none => exact acTimeout_none found
    | some session =>
      have channel := connected session found
      rw [show broker.step .timeout = acTimeout broker from rfl, acTimeout_some found,
        if_neg fun expired => channel expired.1, if_neg fun due => channel due.1]
  | connect channel packet wallClock =>
    exact same (connect_other broker channel wallClock (Ne.symm leaves))
  | disconnect channel packet => exact same (disconnect_seen broker channel packet clientId)
  | close channel =>
    apply same
    cases found : broker.channels.get? channel with
    | none => exact congrArg (Broker.seen clientId) (close_absent found)
    | some attrs => exact close_other found (Ne.symm (leaves attrs found))
  | subscribe channel filter info =>
    apply same
    unfold Broker.step
    dsimp only
    split <;> rfl
  | unsubscribe channel filter =>
    apply same
    unfold Broker.step
    dsimp only
    split <;> rfl

/-- While a client is connected, or has no session, its session stays as it is and no will of it is
published, whatever other clients do and however long it takes. -/
theorem connected_session_stays (clientId : String) (broker : Broker) (calls : List BrokerCall)
    (connected : ∀ session ∈ broker.sessions.get? clientId, session.gobjChannel ≠ none)
    (leaves : AllSteps Broker.step (LeavesConnected clientId) broker calls) :
    let later := run Broker.step broker calls
    later.sessions.get? clientId = broker.sessions.get? clientId ∧
      later.sentBy clientId = broker.sentBy clientId := by
  intro later
  induction calls generalizing broker with
  | nil => exact ⟨rfl, rfl⟩
  | cons call rest ih =>
    have here := step_connected connected leaves.1
    have stays := ih _ (fun session found => connected session (here.1 ▸ found)) leaves.2
    exact ⟨stays.1.trans here.1, stays.2.trans here.2⟩

/-- A client stays connected beyond its interval, while another one comes and goes. -/
theorem connected_session_stays_twenty :
    let broker := Broker.step (.start 100 true) (.connect 1 (tenSeconds none) 1700000000)
    (run Broker.step broker [.wait 20, .connect 2 { tenSeconds none with clientId := "other" }
      1700000020, .timeout, .close 2, .timeout]).sessions.get? "client" =
        broker.sessions.get? "client" :=
  (connected_session_stays "client" _ [.wait 20,
    .connect 2 { tenSeconds none with clientId := "other" } 1700000020, .timeout, .close 2, .timeout]
    (by decide)
    ⟨trivial, (by decide : "other" ≠ "client"), trivial,
      (by decide : ∀ attrs ∈ _, ChannelAttrs.clientId attrs ≠ "client"), trivial, trivial⟩).1

end Yunetas.Mqtt
