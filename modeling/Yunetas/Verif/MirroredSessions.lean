import Mathlib.Data.List.Perm.Subperm
import Yunetas.Verif.Revocation

/-!
# Sessions and open channels

The sessions of a user are its open channels: one for each channel that was authenticated as this user
and was neither dropped nor closed since. It is so where every session id belongs to one channel only
until this channel is closed, and no login is refused once its session is saved. Logins from a trusted
address have no session. The limit of sessions holds in any case.
-/

namespace Yunetas.Authz

open List Option Bool Dict

/-! ## Runs of authentications and closes -/

/-- What a channel does. -/
inductive ChannelCall
  | authenticate (channel : Nat) (request : AuthRequest)
  /-- It is closed, and publishes `EV_ON_CLOSE`. -/
  | close (channel : Nat)

/-- The call to `C_AUTHZ`. -/
def ChannelCall.toAuthz : ChannelCall → AuthzCall
  | .authenticate channel request => .authenticate channel request
  | .close channel => .close channel true

/-- A channel that was authenticated with result 0, and neither dropped nor closed since. -/
structure OpenChannel where
  channel : Nat
  username : String
  byLocalIp : Bool
  deriving DecidableEq

/-- The sessions, and the open channels. -/
structure Served where
  sessions : Sessions
  opened : List OpenChannel

/-- A channel is dropped or closed. -/
def Happening.shutsChannel (channel : Nat) : Happening → Bool
  | .drop other => other = channel
  | .close other => other = channel
  | _ => false

/-- What happened between two states. -/
def since (before after : Sessions) : List Happening :=
  after.history.take (after.history.length - before.history.length)

/-- A request is accepted by its address. -/
def acceptedByAddress (place : Surroundings) (state : Sessions) (request : AuthRequest) : Bool :=
  match identify place state request with
  | .ok identity => identity.byLocalIp
  | .error _ => false

/-- A channel calls. -/
def Served.step (served : Served) (input : Surroundings × ChannelCall) : Served :=
  let after := (served.sessions.call input.1 input.2.toAuthz).2
  let left := served.opened.filter fun entry =>
    !(since served.sessions after).any (Happening.shutsChannel entry.channel)
  { sessions := after
    opened :=
      match input.2 with
      | .close _ => left
      | .authenticate channel request =>
        match (mtAuthenticate input.1 served.sessions channel request).1 with
        | .error _ => left
        | .ok username =>
          ⟨channel, username, acceptedByAddress input.1 served.sessions request⟩ :: left }

/-- The users as they are loaded, and no channel. -/
def Served.start (users : Dict String User) (maxSessionsPerUser : Int) : Served :=
  ⟨Sessions.start users maxSessionsPerUser, []⟩

/-- The sessions of every user hold one entry for each of its channels, and no other. -/
def Mirrors (state : Sessions) (opened : List OpenChannel) : Prop :=
  ∀ username user, state.getUser username = some user → ∀ channel,
    (user.sessions.entries.map Prod.snd).count channel =
      if ∃ entry ∈ opened, entry.channel = channel ∧ entry.username = username then 1 else 0

/-- No user has more sessions than it may. -/
def Limited (state : Sessions) : Prop :=
  ∀ username user, state.getUser username = some user → maxSessions state user > 0 →
    (user.sessions.entries.length : Int) ≤ maxSessions state user

/-- `EV_DROP` leads to the `EV_ON_CLOSE` of the channel, at once or later. -/
def Surroundings.Informs (place : Surroundings) : Prop :=
  ∀ channel, place.closesAtOnce channel ≠ some false

/-- A session id can be extracted. -/
def PlainId (sessionId : String) : Prop := Char.ofNat 96 ∉ sessionId.toList

/-- Of the channels whose `EV_ON_CLOSE` is awaited, this channel alone may have this session of the user,
and no other session. -/
def SessionFree (state : Sessions) (channel : Nat) (username sessionId : String) : Prop :=
  ∀ other, (state.attrs other).subscribed = true →
    ((state.attrs other).username = username ∧ (state.attrs other).sessionId = sessionId ↔
      other = channel)

/-- The user of an identity is there, is enabled and has a role. -/
def Admitted (place : Surroundings) (state : Sessions) (identity : Identity)
    (request : AuthRequest) : Prop :=
  ∃ user, state.getUser identity.username = some user ∧
    place.hasRole identity.username request.dstService = true ∧ user.disabled = false

/-- A call keeps the sessions a mirror: a channel that is accepted by its address has no session yet, and
a login whose session is saved is not refused, and its session id is free and can be extracted. -/
def Clean (state : Sessions) (input : Surroundings × ChannelCall) : Prop :=
  match input.2 with
  | .close _ => True
  | .authenticate channel request =>
    ∀ identity, identify input.1 state request = .ok identity →
      if identity.byLocalIp then (state.attrs channel).subscribed = false
      else Admitted input.1 state identity request →
        input.1.refuses = false ∧ PlainId (identity.sessionId.getD input.1.uuid) ∧
          SessionFree state channel identity.username (identity.sessionId.getD input.1.uuid)

/-! ## The mirror -/

/-- Every session is of an open channel which has its attributes, and every open channel has one. -/
structure Sessions.Held (state : Sessions) (opened : List OpenChannel) : Prop where
  entry : ∀ username user sessionId channel, state.getUser username = some user →
    user.sessions.get? sessionId = some channel →
      (⟨channel, username, false⟩ : OpenChannel) ∈ opened ∧
        state.attrs channel = ⟨username, sessionId, true⟩
  present : ∀ entry ∈ opened, entry.byLocalIp = false → ∃ user sessionId,
    state.getUser entry.username = some user ∧
      user.sessions.get? sessionId = some entry.channel
  plain : ∀ channel, (state.attrs channel).subscribed = true →
    PlainId (state.attrs channel).sessionId
  apart : ∀ channel other, (state.attrs channel).subscribed = true →
    (state.attrs other).subscribed = true →
      (state.attrs channel).username = (state.attrs other).username →
        (state.attrs channel).sessionId = (state.attrs other).sessionId → channel = other

theorem Sessions.Held.mirrors {state : Sessions} {opened : List OpenChannel}
    (held : state.Held opened) : Mirrors state (opened.filter (!·.byLocalIp)) := by
  intro username user found channel
  have stored {entry : String × Nat} (among : entry ∈ user.sessions.entries) :
      user.sessions.get? entry.1 = some entry.2 := user.sessions.get?_of_mem among
  have distinct : (user.sessions.entries.map Prod.snd).Nodup := by
    apply List.Nodup.map_on
    · intro first one second two same
      have left := (held.entry username user first.1 first.2 found (stored one)).2
      have right := (held.entry username user second.1 second.2 found (stored two)).2
      rw [same, right] at left
      have ids : second.1 = first.1 := (Attrs.mk.inj left).2.1
      exact Prod.ext ids.symm same
    · exact List.Nodup.of_map _ user.sessions.keys_nodup
  by_cases isOpen : ∃ entry ∈ opened.filter (!·.byLocalIp),
      entry.channel = channel ∧ entry.username = username
  · rw [if_pos isOpen]
    obtain ⟨entry, among, rfl, rfl⟩ := isOpen
    have ⟨there, remote⟩ := mem_filter.1 among
    have ⟨same, sessionId, has, session⟩ := held.present entry there (by simpa using remote)
    rw [found] at has
    obtain rfl := some.inj has
    apply count_eq_one_of_mem distinct
    exact mem_map.2 ⟨_, mem_of_lookupEntries session, rfl⟩
  · rw [if_neg isOpen]
    apply count_eq_zero_of_not_mem
    intro among
    obtain ⟨entry, listed, rfl⟩ := mem_map.1 among
    have session := (held.entry username user entry.1 entry.2 found (stored listed)).1
    exact isOpen ⟨_, mem_filter.2 ⟨session, rfl⟩, rfl, rfl⟩

/-! ## Happenings -/

/-- One state comes after another one, with some channels shut in between. -/
def Happened (before after : Sessions) (shut : Nat → Bool) : Prop :=
  ∃ news, after.history = news ++ before.history ∧
    ∀ channel, news.any (Happening.shutsChannel channel) = shut channel

variable {before after : Sessions}

theorem Happened.same (same : after.history = before.history) :
    Happened before after fun _ => false :=
  ⟨[], same, fun _ => rfl⟩

theorem Happened.trans {first second third : Sessions} {shut later : Nat → Bool}
    (before : Happened first second shut) (after : Happened second third later) :
    Happened first third fun channel => later channel || shut channel := by
  have ⟨news, history, shuts⟩ := before
  have ⟨more, histories, shutsLater⟩ := after
  refine ⟨more ++ news, by rw [histories, history, append_assoc], fun channel => ?_⟩
  rw [any_append, shutsLater, shuts]

theorem Happened.record (state : Sessions) (happening : Happening) :
    Happened state (state.record happening) fun channel => happening.shutsChannel channel :=
  ⟨[happening], rfl, fun _ => or_false _⟩

theorem Happened.since {shut : Nat → Bool} (happened : Happened before after shut) (channel : Nat) :
    (since before after).any (Happening.shutsChannel channel) = shut channel := by
  have ⟨news, history, shuts⟩ := happened
  unfold Authz.since
  rw [history, length_append, Nat.add_sub_cancel, take_left, shuts]

/-! ## Closes -/

theorem attrs_closeChannel (state : Sessions) (channel other : Nat) :
    (closeChannel state channel true).attrs other =
      if other = channel then ⟨"", "", false⟩ else state.attrs other := by
  have set (channels : Dict Nat Attrs) (attrs : Attrs) :
      ((channels.set channel attrs).get? other).getD ⟨"", "", false⟩ =
        if other = channel then attrs else (channels.get? other).getD ⟨"", "", false⟩ := by
    rw [get?_set]
    split
    · rfl
    · rfl
  unfold closeChannel Sessions.attrs Sessions.record
  rw [Bool.true_and]
  cases watched : ((state.channels.get? channel).getD ⟨"", "", false⟩).subscribed with
  | false =>
    rw [if_neg Bool.false_ne_true, set, watched]
  | true =>
    rw [if_pos rfl, set]
    unfold acOnClose Sessions.attrs
    rw [get?_set_self, set]
    by_cases same : other = channel
    · rw [if_pos same, if_pos same]
      rfl
    · rw [if_neg same, if_neg same, if_neg same]

theorem getUser_logOut {state : Sessions} {attrs : Attrs} {username : String} {later : User}
    (found : (logOut state attrs).getUser username = some later) :
    ∃ user, state.getUser username = some user ∧ later.sessions = if username = attrs.username then
        extractSession user.sessions attrs.sessionId else user.sessions := by
  unfold logOut at found
  cases there : state.getUser attrs.username with
  | none =>
    rw [there] at found
    refine ⟨later, found, ?_⟩
    rw [if_neg]
    rintro rfl
    rw [show state.getUser attrs.username = some later from found] at there
    cases there
  | some user =>
    rw [there] at found
    change (updateUser _ _ _).getUser username = some later at found
    rw [getUser_update (getUser_named there)] at found
    by_cases same : username = attrs.username
    · rw [if_pos same] at found
      refine ⟨user, by rw [same, there], ?_⟩
      rw [if_pos same, ← some.inj found]
    · rw [if_neg same] at found
      exact ⟨later, found, (if_neg same).symm⟩

theorem getUser_closeChannel {state : Sessions} {channel : Nat} {username : String} {later : User}
    (found : (closeChannel state channel true).getUser username = some later) :
    ∃ user, state.getUser username = some user ∧
      later.sessions = if (state.attrs channel).subscribed = true ∧
          username = (state.attrs channel).username then
        extractSession user.sessions (state.attrs channel).sessionId else user.sessions := by
  unfold closeChannel at found
  rw [Bool.true_and] at found
  cases watched : (state.attrs channel).subscribed with
  | false =>
    rw [watched, if_neg Bool.false_ne_true] at found
    exact ⟨later, found, (if_neg fun both => Bool.false_ne_true both.1).symm⟩
  | true =>
    rw [watched, if_pos rfl] at found
    have ⟨user, there, sessions⟩ := getUser_logOut
      (show (logOut state (state.attrs channel)).getUser username = some later from found)
    refine ⟨user, there, ?_⟩
    rw [sessions]
    simp

theorem happened_logOut (state : Sessions) (attrs : Attrs) :
    Happened state (logOut state attrs) fun _ => false := by
  unfold logOut
  cases state.getUser attrs.username with
  | none => exact Happened.same rfl
  | some user => exact ⟨[.logout attrs.username attrs.sessionId], rfl, fun _ => rfl⟩

theorem happened_close (state : Sessions) (channel : Nat) :
    Happened state (closeChannel state channel true) fun other => decide (channel = other) := by
  have quiet : Happened state (if (true && (state.attrs channel).subscribed) = true then
      acOnClose state channel else state) fun _ => false := by
    split
    · exact happened_logOut state (state.attrs channel)
    · exact Happened.same rfl
  have ⟨news, history, shuts⟩ := quiet
  refine ⟨.close channel :: news, ?_, fun other => ?_⟩
  · rw [cons_append, ← history]
    rfl
  · rw [any_cons, shuts, Bool.or_false]
    rfl

section Sessions

variable {state : Sessions} {opened : List OpenChannel}

theorem Sessions.Held.close (held : state.Held opened) (channel : Nat) :
    (closeChannel state channel true).Held (opened.filter (·.channel ≠ channel)) := by
  have others {other : Nat} (ne : other ≠ channel) :
      (closeChannel state channel true).attrs other = state.attrs other := by
    rw [attrs_closeChannel, if_neg ne]
  have watched {other : Nat}
      (subscribed : ((closeChannel state channel true).attrs other).subscribed = true) :
      other ≠ channel := by
    rintro rfl
    rw [attrs_closeChannel, if_pos rfl] at subscribed
    cases subscribed
  constructor
  · intro username later sessionId other found session
    obtain ⟨user, there, sessions⟩ := getUser_closeChannel found
    have before : user.sessions.get? sessionId = some other := by
      rw [sessions] at session
      split at session
      · exact get?_of_extract session
      · exact session
    have entry := held.entry username user sessionId other there before
    have ne : other ≠ channel := by
      rintro rfl
      have plain := held.plain other (by rw [entry.2])
      rw [entry.2] at sessions plain
      rw [sessions, if_pos ⟨rfl, rfl⟩] at session
      unfold extractSession at session
      rw [if_neg plain, get?_erase, if_pos rfl] at session
      cases session
    rw [others ne]
    exact ⟨mem_filter.2 ⟨entry.1, by simpa using ne⟩, entry.2⟩
  · intro entry among remote
    obtain ⟨there, ne⟩ := mem_filter.1 among
    have apart : entry.channel ≠ channel := by simpa using ne
    obtain ⟨user, sessionId, found, session⟩ := held.present entry there remote
    obtain ⟨later, last, _, _⟩ :=
      (closeChannel_shrinks state channel true).stays entry.username user found
    obtain ⟨same, has, sessions⟩ := getUser_closeChannel last
    rw [found] at has
    obtain rfl := some.inj has
    refine ⟨later, sessionId, last, ?_⟩
    have attrs := (held.entry _ user sessionId _ found session).2
    rw [sessions]
    split
    · rename_i mine
      have other : sessionId ≠ (state.attrs channel).sessionId := by
        intro equal
        apply apart
        apply held.apart
        · rw [attrs]
        · exact mine.1
        · rw [attrs, mine.2]
        · rw [attrs, equal]
      rw [get?_extract other]
      exact session
    · exact session
  · intro other subscribed
    have ne := watched subscribed
    rw [others ne] at subscribed ⊢
    exact held.plain other subscribed
  · intro one other first second
    have left := watched first
    have right := watched second
    rw [others left] at first ⊢
    rw [others right] at second ⊢
    exact held.apart one other first second

theorem Sessions.Held.record (held : state.Held opened) (happening : Happening) :
    (state.record happening).Held opened :=
  ⟨held.entry, held.present, held.plain, held.apart⟩

theorem getUser_delSession {username sessionId other : String} {later : User}
    (found : (delSession state username sessionId).getUser other = some later) :
    ∃ user, state.getUser other = some user ∧
      later.sessions = if other = username then user.sessions.erase sessionId
        else user.sessions := by
  unfold delSession at found
  cases there : state.getUser username with
  | none =>
    rw [there] at found
    refine ⟨later, found, ?_⟩
    rw [if_neg]
    rintro rfl
    rw [show state.getUser other = some later from found] at there
    cases there
  | some user =>
    rw [there] at found
    rw [getUser_update (getUser_named there)] at found
    by_cases same : other = username
    · rw [if_pos same] at found
      refine ⟨user, by rw [same, there], ?_⟩
      rw [if_pos same, ← some.inj found]
    · rw [if_neg same] at found
      exact ⟨later, found, (if_neg same).symm⟩

variable {username sessionId : String} {place : Surroundings}

theorem Sessions.Held.delete (held : state.Held opened) {channel : Nat}
    (mine : ∀ user other, state.getUser username = some user →
      user.sessions.get? sessionId = some other → other = channel)
    (only : ∀ other user otherId, state.getUser other = some user →
      user.sessions.get? otherId = some channel → other = username ∧ otherId = sessionId) :
    (delSession state username sessionId).Held (opened.filter (·.channel ≠ channel)) := by
  have attrs : (delSession state username sessionId).attrs = state.attrs := by
    unfold delSession
    cases state.getUser username with
    | none => rfl
    | some user => rfl
  constructor
  · intro other later otherId node found session
    obtain ⟨user, there, sessions⟩ := getUser_delSession found
    have before : user.sessions.get? otherId = some node ∧
        ¬ (other = username ∧ otherId = sessionId) := by
      rw [sessions] at session
      split at session
      · rw [get?_erase] at session
        split at session
        · cases session
        · rename_i ne
          exact ⟨session, fun both => ne both.2⟩
      · rename_i ne
        exact ⟨session, fun both => ne both.1⟩
    have entry := held.entry other user otherId node there before.1
    have ne : node ≠ channel := by
      rintro rfl
      exact before.2 (only other user otherId there before.1)
    rw [attrs]
    exact ⟨mem_filter.2 ⟨entry.1, by simpa using ne⟩, entry.2⟩
  · intro entry among remote
    obtain ⟨there, ne⟩ := mem_filter.1 among
    have apart : entry.channel ≠ channel := by simpa using ne
    obtain ⟨user, otherId, found, session⟩ := held.present entry there remote
    obtain ⟨later, last, _, _⟩ :=
      (delSession_shrinks state username sessionId).stays entry.username user found
    obtain ⟨same, has, sessions⟩ := getUser_delSession last
    rw [found] at has
    obtain rfl := some.inj has
    refine ⟨later, otherId, last, ?_⟩
    rw [sessions]
    split
    · rename_i equal
      have other : otherId ≠ sessionId := by
        rintro rfl
        rw [equal] at found
        exact apart (mine user entry.channel found session)
      rw [get?_erase, if_neg other]
      exact session
    · exact session
  · rw [attrs]
    exact held.plain
  · rw [attrs]
    exact held.apart

theorem Sessions.Held.drop (held : state.Held opened)
    (informs : place.Informs) {user : User} {channel : Nat}
    (found : state.getUser username = some user)
    (session : user.sessions.get? sessionId = some channel) :
    (delSession (evDrop place state channel) username sessionId).Held
      (opened.filter (·.channel ≠ channel)) := by
  have attrs := (held.entry username user sessionId channel found session).2
  have shrinks := evDrop_shrinks place state channel
  have mine : ∀ later other, (evDrop place state channel).getUser username = some later →
      later.sessions.get? sessionId = some other → other = channel := by
    intro later other there has
    have ⟨last, same, _, fewer⟩ := shrinks.stays username user found
    rw [there] at same
    obtain rfl := some.inj same
    have before := fewer sessionId other has
    rw [session] at before
    exact (some.inj before).symm
  have only : ∀ other later otherId, (evDrop place state channel).getUser other = some later →
      later.sessions.get? otherId = some channel → other = username ∧ otherId = sessionId := by
    intro other later otherId there has
    cases before : state.getUser other with
    | none =>
      rw [shrinks.absent other before] at there
      cases there
    | some node =>
      have ⟨last, same, _, fewer⟩ := shrinks.stays other node before
      rw [there] at same
      obtain rfl := some.inj same
      have twin := (held.entry other node otherId channel before (fewer otherId channel has)).2
      rw [attrs] at twin
      exact ⟨(Attrs.mk.inj twin).1.symm, (Attrs.mk.inj twin).2.1.symm⟩
  unfold evDrop at mine only ⊢
  cases closes : place.closesAtOnce channel with
  | none =>
    rw [closes] at mine only
    exact (held.record _).delete mine only
  | some informed =>
    cases informed with
    | false => exact absurd closes (informs channel)
    | true =>
      rw [closes] at mine only
      have closed := ((held.record (.drop channel)).close channel).delete mine only
      rw [List.filter_filter] at closed
      simp only [Bool.and_self] at closed
      exact closed

theorem happened_drop (informs : place.Informs) (channel : Nat) (username sessionId : String) :
    Happened state (delSession (evDrop place state channel) username sessionId)
      fun other => decide (channel = other) := by
  have dropped : Happened state (evDrop place state channel) fun other =>
      decide (channel = other) := by
    unfold evDrop
    cases closes : place.closesAtOnce channel with
    | none => exact Happened.record state (.drop channel)
    | some informed =>
      cases informed with
      | false => exact absurd closes (informs channel)
      | true =>
        have both := (Happened.record state (.drop channel)).trans (happened_close _ channel)
        have ⟨news, history, shuts⟩ := both
        refine ⟨news, history, fun other => ?_⟩
        rw [shuts]
        exact or_self _
  have ⟨news, history, shuts⟩ := dropped
  refine ⟨news, ?_, shuts⟩
  rw [← history]
  unfold delSession
  cases (evDrop place state channel).getUser username with
  | none => rfl
  | some user => rfl

theorem attrs_drop (informs : place.Informs) (channel : Nat)
    (username sessionId : String) {other : Nat}
    (watched : ((delSession (evDrop place state channel) username sessionId).attrs
      other).subscribed = true) :
    (delSession (evDrop place state channel) username sessionId).attrs other =
      state.attrs other := by
  have attrs (between : Sessions) :
      (delSession between username sessionId).attrs other = between.attrs other := by
    unfold delSession
    cases between.getUser username with
    | none => rfl
    | some user => rfl
  rw [attrs] at watched ⊢
  unfold evDrop at watched ⊢
  cases closes : place.closesAtOnce channel with
  | none => rfl
  | some informed =>
    cases informed with
    | false => exact absurd closes (informs channel)
    | true =>
      rw [closes] at watched
      rw [attrs_closeChannel] at watched ⊢
      split at watched
      · cases watched
      · rename_i ne
        rw [if_neg ne]
        rfl

theorem Sessions.Held.unshut (held : state.Held opened) :
    state.Held (opened.filter fun entry => !(fun _ : Nat => false) entry.channel) := by
  have same : opened.filter (fun entry => !(fun _ : Nat => false) entry.channel) = opened :=
    filter_eq_self.2 fun _ _ => rfl
  rw [same]
  exact held

theorem dropSessions_held (informs : place.Informs) (username : String)
    (fewEnough : Nat → Bool) (sessionIds : List String) {state : Sessions}
    {opened : List OpenChannel} (held : state.Held opened) :
    ∃ shut, Happened state (dropSessions place username fewEnough sessionIds state).2 shut ∧
      (dropSessions place username fewEnough sessionIds state).2.Held
        (opened.filter (!shut ·.channel)) ∧
      ∀ other, ((dropSessions place username fewEnough sessionIds state).2.attrs
          other).subscribed = true →
        (dropSessions place username fewEnough sessionIds state).2.attrs other =
          state.attrs other := by
  have nothing {state : Sessions} {opened : List OpenChannel} (held : state.Held opened) :
      ∃ shut, Happened state state shut ∧ state.Held (opened.filter (!shut ·.channel)) ∧
        ∀ other, (state.attrs other).subscribed = true → state.attrs other = state.attrs other :=
    ⟨fun _ => false, Happened.same rfl, held.unshut, fun _ _ => rfl⟩
  induction sessionIds generalizing state opened with
  | nil => exact nothing held
  | cons sessionId rest ih =>
    unfold dropSessions
    cases found : state.getUser username with
    | none => exact nothing held
    | some user =>
      dsimp only
      by_cases enough : fewEnough user.sessions.entries.length = true
      · rw [if_pos enough]
        exact nothing held
      · rw [if_neg enough]
        cases session : user.sessions.get? sessionId with
        | none => exact ih held
        | some channel =>
          obtain ⟨shut, happened, kept, attrs⟩ := ih (held.drop informs found session)
          rw [List.filter_filter] at kept
          refine ⟨_, (happened_drop informs channel username sessionId).trans happened, ?_, ?_⟩
          · have same : opened.filter (fun entry => !(shut entry.channel ||
                decide (channel = entry.channel))) =
                opened.filter (fun entry => !shut entry.channel && decide (entry.channel ≠ channel)) := by
              apply filter_congr
              intro entry _
              rw [Bool.not_or]
              by_cases equal : channel = entry.channel
              · simp [equal]
              · simp [equal, Ne.symm equal]
            rw [same]
            exact kept
          · intro other watched
            have later := attrs other watched
            rw [later] at watched ⊢
            exact attrs_drop informs channel username sessionId watched

theorem dropOldSessions_held (informs : place.Informs) (username : String)
    (user : User) (held : state.Held opened) :
    ∃ shut, Happened state (dropOldSessions place state username user) shut ∧
      (dropOldSessions place state username user).Held (opened.filter (!shut ·.channel)) ∧
      ∀ other, ((dropOldSessions place state username user).attrs other).subscribed = true →
        (dropOldSessions place state username user).attrs other = state.attrs other := by
  unfold dropOldSessions
  dsimp only
  split
  · exact dropSessions_held informs username _ _ held
  · exact ⟨fun _ => false, Happened.same rfl, held.unshut, fun _ _ => rfl⟩

/-! ## Logins -/

theorem attrs_saveSession (channel : Nat) (username sessionId : String) (other : Nat) :
    (saveSession state channel username sessionId).attrs other =
      if other = channel then ⟨username, sessionId, true⟩ else state.attrs other := by
  have set : ((state.channels.set channel ⟨username, sessionId, true⟩).get? other).getD
      ⟨"", "", false⟩ = if other = channel then ⟨username, sessionId, true⟩
        else (state.channels.get? other).getD ⟨"", "", false⟩ := by
    rw [get?_set]
    split
    · rfl
    · rfl
  unfold saveSession Sessions.attrs Sessions.record
  dsimp only
  cases Sessions.getUser { state with
      channels := state.channels.set channel ⟨username, sessionId, true⟩ } username with
  | none => exact set
  | some user => exact set

theorem getUser_saveSession {username : String} {user : User}
    (found : state.getUser username = some user) (channel : Nat) (sessionId other : String) :
    (saveSession state channel username sessionId).getUser other =
      if other = username then
        some { user with sessions := user.sessions.set sessionId channel }
      else state.getUser other := by
  have there : Sessions.getUser
      { state with channels := state.channels.set channel ⟨username, sessionId, true⟩ } username =
        some user := found
  unfold saveSession
  dsimp only
  rw [there]
  show (updateUser _ _ _).getUser other = _
  rw [getUser_update (getUser_named found)]
  rfl

theorem Sessions.Held.save (held : state.Held opened) {channel : Nat}
    {user : User} (found : state.getUser username = some user) (plain : PlainId sessionId)
    (free : SessionFree state channel username sessionId) :
    (saveSession state channel username sessionId).Held (⟨channel, username, false⟩ :: opened) := by
  have same {other : String} {node : User} {otherId : String}
      (there : state.getUser other = some node)
      (session : node.sessions.get? otherId = some channel) :
      other = username ∧ otherId = sessionId := by
    have attrs := (held.entry other node otherId channel there session).2
    have only := (free channel (by rw [attrs])).2 rfl
    rw [attrs] at only
    exact only
  constructor
  · intro other later otherId node there session
    rw [getUser_saveSession found] at there
    rw [attrs_saveSession]
    have before (old : User) (has : state.getUser other = some old)
        (older : old.sessions.get? otherId = some node)
        (ne : ¬ (other = username ∧ otherId = sessionId)) :
        (⟨node, other, false⟩ : OpenChannel) ∈ ⟨channel, username, false⟩ :: opened ∧
          (if node = channel then (⟨username, sessionId, true⟩ : Attrs) else state.attrs node) =
            ⟨other, otherId, true⟩ := by
      have entry := held.entry other old otherId node has older
      have apart : node ≠ channel := by
        intro equal
        rw [equal] at older
        exact ne (same has older)
      rw [if_neg apart]
      exact ⟨mem_cons_of_mem _ entry.1, entry.2⟩
    by_cases mine : other = username
    · rw [if_pos mine] at there
      rw [← some.inj there] at session
      by_cases equal : otherId = sessionId
      · rw [equal, get?_set_self] at session
        rw [← some.inj session, if_pos rfl, mine, equal]
        exact ⟨mem_cons_self, rfl⟩
      · rw [get?_set_ne _ _ equal] at session
        exact before user (mine ▸ found) session fun both => equal both.2
    · rw [if_neg mine] at there
      exact before later there session fun both => mine both.1
  · intro entry among remote
    rcases mem_cons.1 among with rfl | older
    · refine ⟨{ user with sessions := user.sessions.set sessionId channel }, sessionId, ?_, ?_⟩
      · rw [getUser_saveSession found, if_pos rfl]
      · exact get?_set_self _ _ _
    · have ⟨node, otherId, there, session⟩ := held.present entry older remote
      by_cases mine : entry.username = username
      · rw [mine, found] at there
        obtain rfl := some.inj there
        refine ⟨{ user with sessions := user.sessions.set sessionId channel }, otherId, ?_, ?_⟩
        · rw [getUser_saveSession found, if_pos mine]
        · rw [get?_set]
          split
          · rename_i equal
            have attrs := (held.entry username user otherId entry.channel found session).2
            have only := (free entry.channel (by rw [attrs])).1 (by rw [attrs]; exact ⟨rfl, equal⟩)
            rw [only]
          · exact session
      · refine ⟨node, otherId, ?_, session⟩
        rw [getUser_saveSession found, if_neg mine]
        exact there
  · intro other watched
    rw [attrs_saveSession] at watched ⊢
    split
    · exact plain
    · rename_i ne
      rw [if_neg ne] at watched
      exact held.plain other watched
  · intro one other first second
    rw [attrs_saveSession] at first second ⊢
    rw [attrs_saveSession]
    split
    · rename_i mine
      split
      · rename_i alsoMine
        intro _ _
        rw [mine, alsoMine]
      · rename_i ne
        rw [if_neg ne] at second
        intro users ids
        have only := (free other second).1 ⟨users.symm, ids.symm⟩
        exact absurd only ne
    · rename_i ne
      rw [if_neg ne] at first
      split
      · intro users ids
        have only := (free one first).1 ⟨users, ids⟩
        exact absurd only ne
      · rename_i neither
        rw [if_neg neither] at second
        exact held.apart one other first second

end Sessions

/-! ## The limit -/

theorem sessions_fewer {sessions fewer : Dict String Nat}
    (each : ∀ sessionId channel, fewer.get? sessionId = some channel →
      sessions.get? sessionId = some channel) :
    fewer.entries.length ≤ sessions.entries.length := by
  have among : fewer.keys ⊆ sessions.keys := by
    intro key there
    rw [Dict.mem_keys] at there ⊢
    have ⟨channel, found⟩ := isSome_iff_exists.1 there
    rw [each key channel found]
    rfl
  have count := (subperm_of_subset fewer.keys_nodup among).length_le
  unfold Dict.keys at count
  rw [length_map, length_map] at count
  exact count

theorem Limited.shrinks (limited : Limited before)
    (shrinks : before.Shrinks after) : Limited after := by
  intro username later found
  cases there : before.getUser username with
  | none =>
    rw [shrinks.absent username there] at found
    cases found
  | some user =>
    have ⟨last, same, ⟨_, most⟩, fewer⟩ := shrinks.stays username user there
    rw [found] at same
    obtain rfl := some.inj same
    have limit : maxSessions after later = maxSessions before user := by
      unfold maxSessions
      rw [most, shrinks.limit]
    have count := sessions_fewer fewer
    rw [limit]
    intro positive
    have bound := limited username user there positive
    omega

section Limit

variable (place : Surroundings) (username : String) {limit : Int}

theorem dropSessions_enough (positive : 0 < limit) (sessionIds : List String) {state : Sessions}
    (all : ∀ user, state.getUser username = some user →
      ∀ sessionId ∈ user.sessions.keys, sessionId ∈ sessionIds) (later : User)
    (found : (dropSessions place username (fun sessions => (sessions : Int) < limit) sessionIds
      state).2.getUser username = some later) : (later.sessions.entries.length : Int) < limit := by
  induction sessionIds generalizing state with
  | nil =>
    have none : later.sessions.keys = [] := by
      apply eq_nil_iff_forall_not_mem.2
      intro sessionId among
      exact not_mem_nil (all later found sessionId among)
    have empty : later.sessions.entries.length = 0 := by
      rw [map_eq_nil_iff.1 none, length_nil]
    omega
  | cons sessionId rest ih =>
    unfold dropSessions at found
    cases there : state.getUser username with
    | none =>
      rw [there] at found
      rw [there] at found
      cases found
    | some user =>
      rw [there] at found
      dsimp only at found
      by_cases enough : (user.sessions.entries.length : Int) < limit
      · rw [if_pos (decide_eq_true enough)] at found
        rw [there] at found
        rw [← some.inj found]
        exact enough
      · rw [if_neg (by rw [decide_eq_true_eq]; exact enough)] at found
        have listed := all user there
        cases session : user.sessions.get? sessionId with
        | none =>
          rw [session] at found
          apply ih _ found
          intro other same key among
          rw [there] at same
          obtain rfl := some.inj same
          apply (mem_cons.1 (listed key among)).resolve_left
          rintro rfl
          rw [Dict.mem_keys, session] at among
          cases among
        | some channel =>
          rw [session] at found
          apply ih _ found
          intro other same key among
          have shrinks := (evDrop_shrinks place state channel).trans
            (delSession_shrinks (evDrop place state channel) username sessionId)
          obtain ⟨last, still, _, fewer⟩ := shrinks.stays username user there
          rw [same] at still
          obtain rfl := some.inj still
          rw [Dict.mem_keys] at among
          obtain ⟨node, has⟩ := isSome_iff_exists.1 among
          have before : key ∈ user.sessions.keys := by
            rw [Dict.mem_keys, fewer key node has]
            rfl
          apply (mem_cons.1 (listed key before)).resolve_left
          rintro rfl
          rw [delSession_gone _ username key other same] at has
          cases has

theorem saveSession_limited {state : Sessions} (limited : Limited state) {user : User}
    (found : state.getUser username = some user) (channel : Nat) (sessionId : String) :
    Limited (saveSession (dropOldSessions place state username user) channel username
      sessionId) := by
  have shrinks := dropOldSessions_shrinks place state username user
  have ⟨later, there, ⟨_, most⟩, _⟩ := shrinks.stays username user found
  have before := limited.shrinks shrinks
  have limits : (saveSession (dropOldSessions place state username user) channel username
      sessionId).maxSessionsPerUser = state.maxSessionsPerUser := by
    rw [← shrinks.limit]
    unfold saveSession
    dsimp only
    split
    · rfl
    · rfl
  intro other node has
  rw [getUser_saveSession there] at has
  by_cases mine : other = username
  · rw [if_pos mine] at has
    obtain rfl := some.inj has
    have limit : maxSessions (saveSession (dropOldSessions place state username user) channel username
        sessionId) { later with sessions := later.sessions.set sessionId channel } =
        maxSessions state user := by
      unfold maxSessions
      rw [most, limits]
    rw [limit]
    intro positive
    have few : (later.sessions.entries.length : Int) < maxSessions state user := by
      unfold dropOldSessions at there
      rw [if_pos positive] at there
      apply dropSessions_enough place username positive user.sessions.keys _ later there
      intro same has key among
      rw [found] at has
      obtain rfl := some.inj has
      exact among
    have length : (later.sessions.set sessionId channel).entries.length ≤
        later.sessions.entries.length + 1 := by
      have keys := congrArg List.length (later.sessions.keys_set sessionId channel)
      unfold Dict.keys at keys
      rw [length_map] at keys
      rw [keys]
      split
      · rw [length_map]
        exact Nat.le_succ _
      · simp
    show ((later.sessions.set sessionId channel).entries.length : Int) ≤ _
    omega
  · rw [if_neg mine] at has
    have limit : maxSessions (saveSession (dropOldSessions place state username user) channel username
        sessionId) node = maxSessions (dropOldSessions place state username user) node := by
      unfold maxSessions
      rw [limits, shrinks.limit]
    rw [limit]
    exact before other node has

end Limit

/-! ## The steps -/

/-- The users after an authentication that does not save a session, or after the login. -/
theorem mtAuthenticate_cases (place : Surroundings) (state : Sessions) (channel : Nat)
    (request : AuthRequest) :
    (∃ comment, mtAuthenticate place state channel request = (.error comment, state)) ∨
      (∃ identity, identify place state request = .ok identity ∧ identity.byLocalIp = true ∧
        mtAuthenticate place state channel request = (.ok identity.username, { state with
            channels := state.channels.set channel
              { state.attrs channel with username := identity.username, sessionId := "" } })) ∨
      ∃ identity user, identify place state request = .ok identity ∧ identity.byLocalIp = false ∧
        Admitted place state identity request ∧ state.getUser identity.username = some user ∧
        mtAuthenticate place state channel request =
          ((if place.refuses then .error "Some subscriber refusing user"
            else .ok identity.username),
            saveSession (dropOldSessions place state identity.username user) channel
              identity.username (identity.sessionId.getD place.uuid)) := by
  unfold mtAuthenticate
  cases identify place state request with
  | error comment => exact .inl ⟨comment, rfl⟩
  | ok identity =>
    dsimp only
    cases address : identity.byLocalIp with
    | true => exact .inr (.inl ⟨identity, rfl, address, rfl⟩)
    | false =>
      rw [if_neg Bool.false_ne_true]
      cases found : state.getUser identity.username with
      | none => exact .inl ⟨_, rfl⟩
      | some user =>
        dsimp only
        cases role : place.hasRole identity.username request.dstService with
        | false => exact .inl ⟨_, rfl⟩
        | true =>
          cases disabled : user.disabled with
          | true => exact .inl ⟨_, rfl⟩
          | false =>
            refine .inr (.inr ⟨identity, user, rfl, address, ⟨user, found, role, disabled⟩, found, ?_⟩)
            cases place.refuses with
            | true => rfl
            | false => rfl

theorem step_limited {served : Served} (limited : Limited served.sessions)
    (input : Surroundings × ChannelCall) : Limited (served.step input).sessions := by
  have ⟨place, call⟩ := input
  cases call with
  | close channel => exact limited.shrinks (closeChannel_shrinks served.sessions channel true)
  | authenticate channel request =>
    show Limited (mtAuthenticate place served.sessions channel request).2
    rcases mtAuthenticate_cases place served.sessions channel request with
      ⟨comment, refused⟩ | ⟨identity, -, -, accepted⟩ | ⟨identity, user, -, -, -, found, login⟩
    · rw [refused]
      exact limited
    · rw [accepted]
      exact limited
    · rw [login]
      exact saveSession_limited place identity.username limited found channel _

theorem opened_authenticate {served : Served} {place : Surroundings} {channel : Nat}
    {request : AuthRequest} {shut : Nat → Bool}
    (happened : Happened served.sessions
      (mtAuthenticate place served.sessions channel request).2 shut) :
    (served.step (place, .authenticate channel request)).opened =
      match (mtAuthenticate place served.sessions channel request).1 with
      | .error _ => served.opened.filter (!shut ·.channel)
      | .ok username =>
        ⟨channel, username, acceptedByAddress place served.sessions request⟩ ::
          served.opened.filter (!shut ·.channel) := by
  have left : served.opened.filter (fun entry =>
      !(since served.sessions (mtAuthenticate place served.sessions channel request).2).any
        (Happening.shutsChannel entry.channel)) = served.opened.filter (!shut ·.channel) := by
    apply filter_congr
    intro entry _
    rw [happened.since]
  unfold Served.step
  dsimp only [ChannelCall.toAuthz, Sessions.call]
  rw [left]

theorem step_held {served : Served} (held : served.sessions.Held served.opened)
    {input : Surroundings × ChannelCall} (informs : input.1.Informs)
    (clean : Clean served.sessions input) :
    (served.step input).sessions.Held (served.step input).opened := by
  obtain ⟨place, call⟩ := input
  cases call with
  | close channel =>
    have opened : (served.step (place, .close channel)).opened =
        served.opened.filter (·.channel ≠ channel) := by
      have happened := happened_close served.sessions channel
      apply filter_congr
      intro entry _
      show (!(since served.sessions (closeChannel served.sessions channel true)).any
        (Happening.shutsChannel entry.channel)) = _
      rw [happened.since]
      by_cases same : channel = entry.channel
      · simp [same]
      · simp [same, Ne.symm same]
    rw [opened]
    exact held.close channel
  | authenticate channel request =>
    show (mtAuthenticate place served.sessions channel request).2.Held _
    rcases mtAuthenticate_cases place served.sessions channel request with
      ⟨comment, refused⟩ | ⟨identity, identified, address, accepted⟩ |
      ⟨identity, user, identified, remote, admitted, found, login⟩
    · have happened : Happened served.sessions
          (mtAuthenticate place served.sessions channel request).2 fun _ => false := by
        rw [refused]
        exact Happened.same rfl
      rw [opened_authenticate happened, refused]
      exact held.unshut
    · have happened : Happened served.sessions
          (mtAuthenticate place served.sessions channel request).2 fun _ => false := by
        rw [accepted]
        exact Happened.same rfl
      have unwatched := clean identity identified
      rw [if_pos address] at unwatched
      have local_login : acceptedByAddress place served.sessions request = true := by
        unfold acceptedByAddress
        rw [identified]
        exact address
      rw [opened_authenticate happened, accepted, local_login]
      have others {other : Nat} : Sessions.attrs { served.sessions with
          channels := served.sessions.channels.set channel { served.sessions.attrs channel with
            username := identity.username, sessionId := "" } } other =
          if other = channel then { served.sessions.attrs channel with
            username := identity.username, sessionId := "" } else served.sessions.attrs other := by
        unfold Sessions.attrs
        rw [get?_set]
        split
        · rfl
        · rfl
      have watched {other : Nat} (subscribed : (Sessions.attrs { served.sessions with
          channels := served.sessions.channels.set channel { served.sessions.attrs channel with
            username := identity.username, sessionId := "" } } other).subscribed = true) :
          other ≠ channel := by
        rintro rfl
        rw [others, if_pos rfl] at subscribed
        rw [unwatched] at subscribed
        cases subscribed
      have kept := held.unshut
      constructor
      · intro username user sessionId other there session
        have entry := kept.entry username user sessionId other there session
        have ne : other ≠ channel := by
          rintro rfl
          rw [entry.2] at unwatched
          cases unwatched
        rw [others, if_neg ne]
        exact ⟨mem_cons_of_mem _ entry.1, entry.2⟩
      · intro entry among remote
        rcases mem_cons.1 among with rfl | older
        · cases remote
        · exact kept.present entry older remote
      · intro other subscribed
        have ne := watched subscribed
        rw [others, if_neg ne] at subscribed ⊢
        exact kept.plain other subscribed
      · intro one other first second
        have left := watched first
        have right := watched second
        rw [others, if_neg left] at first ⊢
        rw [others, if_neg right] at second ⊢
        exact kept.apart one other first second
    · have safe := clean identity identified
      rw [if_neg (by rw [remote]; exact false_ne_true)] at safe
      obtain ⟨accepts, plain, free⟩ := safe admitted
      obtain ⟨shut, happened, kept, attrs⟩ := dropOldSessions_held informs identity.username user held
      obtain ⟨later, there, _, _⟩ :=
        (dropOldSessions_shrinks place served.sessions identity.username user).stays
          identity.username user found
      have saved : Happened served.sessions
          (mtAuthenticate place served.sessions channel request).2 shut := by
        obtain ⟨news, history, shuts⟩ := happened
        refine ⟨.login channel identity.username (identity.sessionId.getD place.uuid) :: news, ?_, ?_⟩
        · rw [login, cons_append, ← history]
          unfold saveSession
          dsimp only
          split
          · rfl
          · rfl
        · intro other
          rw [any_cons, shuts]
          rfl
      have remote_login : acceptedByAddress place served.sessions request = false := by
        unfold acceptedByAddress
        rw [identified]
        exact remote
      rw [opened_authenticate saved, login, accepts, remote_login]
      apply kept.save there plain
      intro other watched
      rw [attrs other watched]
      rw [attrs other watched] at watched
      exact free other watched

/-! ## Runs -/

/-- In every run of authentications and closes no user ever has more sessions than it may. Where every
`EV_DROP` leads to its `EV_ON_CLOSE` and the calls are clean, the sessions of every user are in every
state those of its open channels, but for the channels that were accepted by their address. -/
theorem sessions_mirrored (users : Dict String User) (maxSessionsPerUser : Int)
    (inputs : List (Surroundings × ChannelCall)) :
    AllStates Served.step (fun served => Limited served.sessions)
        (Served.start users maxSessionsPerUser) inputs ∧
      ((∀ input ∈ inputs, input.1.Informs) →
        AllSteps Served.step (fun served input => Clean served.sessions input)
          (Served.start users maxSessionsPerUser) inputs →
        AllStates Served.step
          (fun served => Mirrors served.sessions (served.opened.filter (!·.byLocalIp)))
          (Served.start users maxSessionsPerUser) inputs) := by
  have empty (username : String) (user : User)
      (found : (Served.start users maxSessionsPerUser).sessions.getUser username = some user) :
      user.sessions = Dict.empty := by
    unfold Sessions.getUser at found
    split at found
    · cases found
    · rw [show (Served.start users maxSessionsPerUser).sessions.users.get? username =
        (users.get? username).map fun user => { user with sessions := Dict.empty } from
        Dict.get?_mapValues _ _ _] at found
      obtain ⟨loaded, -, rfl⟩ := Option.map_eq_some_iff.1 found
      rfl
  constructor
  · have start : Limited (Served.start users maxSessionsPerUser).sessions := by
      intro username user found positive
      rw [empty username user found]
      exact Int.le_of_lt positive
    rw [allStates_iff]
    intro before after _
    exact run_invariant Served.step (fun served => Limited served.sessions)
      (fun _ input limited => step_limited limited input) start before
  · intro informs clean
    have start : (Served.start users maxSessionsPerUser).sessions.Held [] := by
      refine ⟨?_, fun _ among => absurd among List.not_mem_nil, ?_, ?_⟩
      · intro username user sessionId channel found session
        rw [empty username user found] at session
        cases session
      · intro channel watched
        cases watched
      · intro channel other watched
        cases watched
    have keeps : ∀ (served : Served) (input : Surroundings × ChannelCall),
        served.sessions.Held served.opened → Clean served.sessions input ∧ input.1.Informs →
        (served.step input).sessions.Held (served.step input).opened :=
      fun _ _ held met => step_held held met.2 met.1
    have all := clean.and Served.step (AllSteps.of_mem Served.step informs _)
    exact (all.invariant Served.step keeps start).mono Served.step fun _ held => held.mirrors

/-- A user with its node, without sessions. -/
def loadedUser : User := ⟨false, 0, [], false, Dict.empty⟩

/-- A channel logs in with a token and is closed. -/
theorem sessions_mirrored_login :
    AllStates Served.step
      (fun served => Mirrors served.sessions (served.opened.filter (!·.byLocalIp)))
      (Served.start (Dict.empty.set "a@b" loadedUser) 1)
      [(plain, .authenticate 1 (byToken "a@b")), (plain, .close 1)] := by
  apply (sessions_mirrored (Dict.empty.set "a@b" loadedUser) 1 _).2
  · intro input among
    rcases List.mem_cons.1 among with rfl | among
    · exact nofun
    · rcases List.mem_cons.1 among with rfl | among
      · exact nofun
      · cases among
  · refine ⟨?_, trivial, trivial⟩
    intro identity identified
    have known : identity = ⟨"a@b", some "a@b", false⟩ := by
      have token : identify plain (Served.start (Dict.empty.set "a@b" loadedUser) 1).sessions
          (byToken "a@b") = .ok ⟨"a@b", some "a@b", false⟩ := rfl
      exact (Except.ok.inj (token.symm.trans identified)).symm
    subst known
    intro admitted
    refine ⟨rfl, by unfold PlainId; decide, ?_⟩
    intro other watched
    cases watched

/-- The trusted address of localhost lets `yuneta` in without a session; and a login that a subscriber
refuses leaves its session. -/
theorem sessions_not_mirrored :
    ¬ AllStates Served.step (fun served => Mirrors served.sessions served.opened)
      (Served.start (Dict.empty.set "yuneta" loadedUser) 0)
      [(plain, .authenticate 1 ⟨"yuneta", "", none, "127.0.0.1", "service"⟩)] ∧
    ¬ AllStates Served.step (fun served => Mirrors served.sessions served.opened)
      (Served.start (Dict.empty.set "a@b" loadedUser) 0)
      [({ plain with refuses := true }, .authenticate 1 (byToken "a@b"))] := by
  constructor
  · intro all
    have last := all.2 "yuneta" loadedUser rfl 1
    revert last
    decide
  · intro all
    have last := all.2 "a@b" { loadedUser with sessions := Dict.empty.set "a@b" 1 } rfl 1
    revert last
    decide

end Yunetas.Authz
