import Yunetas.Authz.Sessions
import Yunetas.Lib.Run

/-!
# Users that are kept out

A user that is disabled or deleted cannot authenticate again, but from localhost without credentials. When
it is rejected, `EV_DROP` is sent to the channels of its sessions: to the last channel of each session id,
if no channel with this id was closed since. The command that disables a user drops nothing.
-/

namespace Yunetas.Authz

open List Option Dict Int

/-- A channel that was authenticated. -/
structure Login where
  channel : Nat
  username : String
  sessionId : String
  deriving DecidableEq

/-- A channel that was authenticated is dropped, or closed. -/
def Happening.shuts : Happening → Login → Bool
  | .drop channel, entry => entry.channel = channel
  | .close channel, entry => entry.channel = channel
  | _, _ => false

/-- It is dropped or closed, or its session id is that of another login, or of a logout. -/
def Happening.ends : Happening → Login → Bool
  | .login _ username sessionId, entry => entry.username = username ∧ entry.sessionId = sessionId
  | .logout username sessionId, entry => entry.username = username ∧ entry.sessionId = sessionId
  | happening, entry => happening.shuts entry

/-- The channel that is authenticated. -/
def Happening.opens : Happening → List Login
  | .login channel username sessionId => [⟨channel, username, sessionId⟩]
  | _ => []

/-- The logins that nothing has ended since. -/
def standing (ends : Happening → Login → Bool) : List Happening → List Login
  | [] => []
  | happening :: older => happening.opens ++ (standing ends older).filter (!ends happening ·)

/-- No login of the user stands. -/
def Out (ends : Happening → Login → Bool) (username : String) (history : List Happening) : Prop :=
  ∀ login ∈ standing ends history, login.username ≠ username

instance (ends : Happening → Login → Bool) (username : String) (history : List Happening) :
    Decidable (Out ends username history) :=
  inferInstanceAs (Decidable (∀ login ∈ _, _))

/-- The sessions, and the users that must not get in. -/
structure Watched where
  sessions : Sessions
  barred : List String

/-- The users that must not get in after a call. -/
def Watched.barredAfter (watched : Watched) (result : Int) (call : AuthzCall) : List String :=
  if result < 0 then watched.barred
  else
    match call with
    | .disableUser username => username :: watched.barred
    | .deleteUser username _ => username :: watched.barred
    | .rejectUser username (some true) => username :: watched.barred
    | .rejectUser username (some false) => watched.barred.filter (· ≠ username)
    | .enableUser username => watched.barred.filter (· ≠ username)
    | .addUser username disabled _ =>
      if disabled = some false ∨ (watched.sessions.getUser username).isNone then
        watched.barred.filter (· ≠ username)
      else watched.barred
    | _ => watched.barred

/-- A call is made. -/
def Watched.step (watched : Watched) (input : Surroundings × AuthzCall) : Watched :=
  let answer := watched.sessions.call input.1 input.2
  ⟨answer.2, watched.barredAfter answer.1 input.2⟩

/-- A call as it should be: a user is disabled, deleted or rejected when its channels have been dropped or
are closed, and one that must not get in does not. -/
def KeepsAllOut (watched : Watched) (input : Surroundings × AuthzCall) : Prop :=
  let answer := watched.sessions.call input.1 input.2
  match input.2 with
  | .authenticate channel request =>
    ∀ username, (mtAuthenticate input.1 watched.sessions channel request).1 = .ok username →
      username ∉ watched.barred
  | .disableUser username => answer.1 ≥ 0 → Out Happening.shuts username answer.2.history
  | .deleteUser username _ => answer.1 ≥ 0 → Out Happening.shuts username answer.2.history
  | .rejectUser username (some true) =>
    answer.1 ≥ 0 → Out Happening.shuts username answer.2.history
  | _ => True

/-- A request from localhost without credentials. -/
def AuthRequest.Anonymous (request : AuthRequest) : Prop :=
  request.jwt = none ∧ request.password = "" ∧ isLocalhost request.peername = true

/-- A call as it is: a user is deleted or rejected when nothing but its session ids keeps a channel of it
from having been dropped or closed, and one that must not get in does so only from localhost without
credentials. -/
def KeepsOut (watched : Watched) (input : Surroundings × AuthzCall) : Prop :=
  let answer := watched.sessions.call input.1 input.2
  match input.2 with
  | .authenticate channel request =>
    ∀ username, (mtAuthenticate input.1 watched.sessions channel request).1 = .ok username →
      username ∈ watched.barred → request.Anonymous
  | .deleteUser username _ => answer.1 ≥ 0 → Out Happening.ends username answer.2.history
  | .rejectUser username (some true) =>
    answer.1 ≥ 0 → Out Happening.ends username answer.2.history
  | _ => True

/-- The session of every login that stands is there. -/
def Sessions.Known (state : Sessions) : Prop :=
  ∀ login ∈ standing Happening.ends state.history, ∃ user,
    state.getUser login.username = some user ∧
      user.sessions.get? login.sessionId = some login.channel

/-- Sessions went, and nothing else changed of the users. -/
structure Sessions.Shrinks (before after : Sessions) : Prop where
  stays : ∀ username user, before.getUser username = some user → ∃ later,
    after.getUser username = some later ∧
      (later.disabled = user.disabled ∧ later.maxSessions = user.maxSessions) ∧
      ∀ sessionId channel, later.sessions.get? sessionId = some channel →
        user.sessions.get? sessionId = some channel
  absent : ∀ username, before.getUser username = none → after.getUser username = none
  limit : after.maxSessionsPerUser = before.maxSessionsPerUser

/-! ## Logins and users -/

theorem mem_standing {ends : Happening → Login → Bool} {happening : Happening}
    {older : List Happening} {login : Login} :
    login ∈ standing ends (happening :: older) ↔
      login ∈ happening.opens ∨ (login ∈ standing ends older ∧ ends happening login = false) := by
  show login ∈ happening.opens ++ (standing ends older).filter (!ends happening ·) ↔ _
  rw [mem_append, mem_filter, Bool.not_eq_true']

variable {state : Sessions} {username : String} {user : User} {before after : Sessions}
  {sessions : Dict String Nat} {sessionId other : String} {channel : Nat} {place : Surroundings}
  {other : String} {username other : String}

theorem getUser_named (found : state.getUser username = some user) : username ≠ "" := by
  rintro rfl
  cases found

theorem getUser_update (named : username ≠ "") (user : User) (other : String) :
    (updateUser state username user).getUser other =
      if other = username then some user else state.getUser other := by
  unfold Sessions.getUser updateUser
  rw [get?_set]
  by_cases same : other = username
  · rw [if_pos same, if_pos same, same, if_neg named]
  · rw [if_neg same, if_neg same]

theorem Sessions.Shrinks.refl (state : Sessions) : state.Shrinks state where
  stays := fun _ user found => ⟨user, found, ⟨rfl, rfl⟩, fun _ _ there => there⟩
  absent := fun _ none => none
  limit := rfl

theorem Sessions.Shrinks.trans {first second third : Sessions} (before : first.Shrinks second)
    (after : second.Shrinks third) : first.Shrinks third where
  stays := by
    intro username user found
    have ⟨middle, between, same, fewer⟩ := before.stays username user found
    have ⟨later, there, still, fewest⟩ := after.stays username middle between
    exact ⟨later, there, ⟨still.1.trans same.1, still.2.trans same.2⟩,
      fun sessionId channel among => fewer sessionId channel (fewest sessionId channel among)⟩
  absent := fun username none => after.absent username (before.absent username none)
  limit := after.limit.trans before.limit

theorem Sessions.Shrinks.of_users (same : after.users = before.users)
    (limit : after.maxSessionsPerUser = before.maxSessionsPerUser) : before.Shrinks after := by
  have users : ∀ username, after.getUser username = before.getUser username := by
    intro username
    unfold Sessions.getUser
    rw [same]
  refine ⟨fun username user found => ⟨user, ?_, ⟨rfl, rfl⟩, fun _ _ there => there⟩,
    fun username none => ?_, limit⟩
  · rw [users, found]
  · rw [users, none]

theorem shrinks_update (found : state.getUser username = some user)
    (fewer : ∀ sessionId channel, sessions.get? sessionId = some channel →
      user.sessions.get? sessionId = some channel) :
    state.Shrinks (updateUser state username { user with sessions := sessions }) where
  stays := by
    intro other node there
    rw [getUser_update (getUser_named found)]
    by_cases same : other = username
    · rw [if_pos same]
      rw [same, found] at there
      obtain rfl := some.inj there
      exact ⟨_, rfl, ⟨rfl, rfl⟩, fewer⟩
    · rw [if_neg same]
      exact ⟨node, there, ⟨rfl, rfl⟩, fun _ _ among => among⟩
  absent := by
    intro other none
    rw [getUser_update (getUser_named found), if_neg]
    · exact none
    · rintro rfl
      rw [found] at none
      cases none
  limit := rfl

theorem get?_of_erase (there : (sessions.erase sessionId).get? other = some channel) :
    sessions.get? other = some channel := by
  rw [get?_erase] at there
  split at there
  · cases there
  · exact there

theorem get?_of_extract (there : (extractSession sessions sessionId).get? other = some channel) :
    sessions.get? other = some channel := by
  unfold extractSession at there
  split at there
  · exact there
  · exact get?_of_erase there

theorem get?_extract (ne : other ≠ sessionId) :
    (extractSession sessions sessionId).get? other = sessions.get? other := by
  unfold extractSession
  split
  · rfl
  · rw [get?_erase, if_neg ne]

/-! ## Drops and closes -/

theorem logOut_shrinks (state : Sessions) (attrs : Attrs) : state.Shrinks (logOut state attrs) := by
  unfold logOut
  cases found : state.getUser attrs.username with
  | none => exact Sessions.Shrinks.refl state
  | some user =>
    have fewer : state.Shrinks (updateUser state attrs.username
        { user with sessions := extractSession user.sessions attrs.sessionId }) :=
      shrinks_update found fun _ _ there => get?_of_extract there
    exact fewer.trans (Sessions.Shrinks.of_users rfl rfl)

theorem acOnClose_shrinks (state : Sessions) (channel : Nat) :
    state.Shrinks (acOnClose state channel) :=
  (logOut_shrinks state (state.attrs channel)).trans (Sessions.Shrinks.of_users rfl rfl)

theorem closeChannel_shrinks (state : Sessions) (channel : Nat) (informed : Bool) :
    state.Shrinks (closeChannel state channel informed) := by
  unfold closeChannel
  split
  · exact (acOnClose_shrinks state channel).trans (Sessions.Shrinks.of_users rfl rfl)
  · exact Sessions.Shrinks.of_users rfl rfl

theorem evDrop_shrinks (place : Surroundings) (state : Sessions) (channel : Nat) :
    state.Shrinks (evDrop place state channel) := by
  have recorded : state.Shrinks (state.record (.drop channel)) := Sessions.Shrinks.of_users rfl rfl
  unfold evDrop
  split
  · exact recorded
  · exact recorded.trans (closeChannel_shrinks (state.record (.drop channel)) channel _)

theorem delSession_shrinks (state : Sessions) (username sessionId : String) :
    state.Shrinks (delSession state username sessionId) := by
  unfold delSession
  cases found : state.getUser username with
  | none => exact Sessions.Shrinks.refl state
  | some user => exact shrinks_update found fun _ _ there => get?_of_erase there

section

variable (known : state.Known)
include known

theorem Sessions.Known.record {happening : Happening}
    (quiet : happening.opens = []) : (state.record happening).Known := by
  intro login stands
  have before := mem_standing.1 stands
  rw [quiet] at before
  rcases before with opened | ⟨older, -⟩
  · cases opened
  · exact known login older

theorem Sessions.Known.logOut (attrs : Attrs) : (logOut state attrs).Known := by
  unfold Authz.logOut
  cases found : state.getUser attrs.username with
  | none => exact known
  | some user =>
    intro login stands
    rcases mem_standing.1 stands with opened | ⟨older, apart⟩
    · cases opened
    · have ⟨node, there, session⟩ := known login older
      show ∃ user, (updateUser _ _ _).getUser login.username = some user ∧ _
      rw [getUser_update (getUser_named found)]
      by_cases same : login.username = attrs.username
      · have other : login.sessionId ≠ attrs.sessionId := by
          intro equal
          simp [Happening.ends, same, equal] at apart
        rw [if_pos same]
        rw [same, found] at there
        obtain rfl := some.inj there
        exact ⟨_, rfl, (get?_extract other).trans session⟩
      · rw [if_neg same]
        exact ⟨node, there, session⟩

theorem Sessions.Known.acOnClose (channel : Nat) : (acOnClose state channel).Known :=
  known.logOut (state.attrs channel)

theorem Sessions.Known.closeChannel (channel : Nat)
    (informed : Bool) : (closeChannel state channel informed).Known := by
  unfold Authz.closeChannel
  refine Sessions.Known.record ?_ rfl
  split
  · exact known.acOnClose channel
  · exact known

theorem Sessions.Known.evDrop (place : Surroundings)
    (channel : Nat) : (evDrop place state channel).Known := by
  unfold Authz.evDrop
  split
  · exact known.record rfl
  · exact (known.record rfl).closeChannel channel _

end

theorem standing_logOut {attrs : Attrs} {login : Login}
    (stands : login ∈ standing Happening.ends (logOut state attrs).history) :
    login ∈ standing Happening.ends state.history := by
  unfold logOut at stands
  split at stands
  · exact stands
  · rcases mem_standing.1 stands with opened | ⟨older, -⟩
    · cases opened
    · exact older

theorem standing_evDrop {login : Login}
    (stands : login ∈ standing Happening.ends (evDrop place state channel).history) :
    login.channel ≠ channel := by
  have dropped : login ∈ standing Happening.ends (state.record (.drop channel)).history →
      login.channel ≠ channel := by
    intro stands
    rcases mem_standing.1 stands with opened | ⟨-, apart⟩
    · cases opened
    · simpa [Happening.ends, Happening.shuts] using apart
  unfold evDrop at stands
  split at stands
  · exact dropped stands
  · rcases mem_standing.1 stands with opened | ⟨older, -⟩
    · cases opened
    · refine dropped ?_
      split at older
      · exact standing_logOut older
      · exact older

/-! ## The loops -/

theorem Sessions.Shrinks.gone (shrinks : before.Shrinks after) {username sessionId : String}
    (gone : ∀ user, before.getUser username = some user → user.sessions.get? sessionId = none)
    (user : User) (found : after.getUser username = some user) :
    user.sessions.get? sessionId = none := by
  cases there : before.getUser username with
  | none =>
    rw [shrinks.absent username there] at found
    cases found
  | some old =>
    have ⟨later, same, _, fewer⟩ := shrinks.stays username old there
    rw [found] at same
    obtain rfl := some.inj same
    cases session : user.sessions.get? sessionId with
    | none => rfl
    | some channel =>
      have before := fewer sessionId channel session
      rw [gone old there] at before
      cases before

theorem delSession_gone (state : Sessions) (username sessionId : String) (user : User)
    (found : (delSession state username sessionId).getUser username = some user) :
    user.sessions.get? sessionId = none := by
  unfold delSession at found
  cases there : state.getUser username with
  | none =>
    rw [there] at found
    rw [there] at found
    cases found
  | some old =>
    rw [there] at found
    rw [getUser_update (getUser_named there), if_pos rfl] at found
    obtain rfl := some.inj found
    rw [get?_erase, if_pos rfl]

theorem Sessions.Known.drop (known : state.Known) (place : Surroundings)
    {username sessionId : String}
    (found : state.getUser username = some user)
    (session : user.sessions.get? sessionId = some channel) :
    (delSession (Authz.evDrop place state channel) username sessionId).Known := by
  have ⟨later, there, _, fewer⟩ := (evDrop_shrinks place state channel).stays username user found
  unfold delSession
  rw [there]
  intro login stands
  have apart := standing_evDrop stands
  have ⟨node, has, kept⟩ := known.evDrop place channel login stands
  rw [getUser_update (getUser_named found)]
  by_cases mine : login.username = username
  · rw [if_pos mine]
    rw [mine, there] at has
    obtain rfl := some.inj has
    refine ⟨_, rfl, ?_⟩
    rw [get?_erase, if_neg]
    · exact kept
    · intro same
      have before := fewer login.sessionId login.channel kept
      rw [same, session] at before
      exact apart (some.inj before).symm
  · rw [if_neg mine]
    exact ⟨node, has, kept⟩

section Loop

variable (place : Surroundings) (username : String) (fewEnough : Nat → Bool)

variable (sessionIds : List String)

theorem dropSessions_shrinks (state : Sessions) :
    state.Shrinks (dropSessions place username fewEnough sessionIds state).2 := by
  induction sessionIds generalizing state with
  | nil => exact Sessions.Shrinks.refl state
  | cons sessionId rest ih =>
    unfold dropSessions
    split
    · exact Sessions.Shrinks.refl state
    · split
      · exact Sessions.Shrinks.refl state
      · split
        · exact ih state
        · exact (evDrop_shrinks place state _).trans
            ((delSession_shrinks _ username sessionId).trans (ih _))

theorem dropSessions_known {state : Sessions} (known : state.Known) :
    (dropSessions place username fewEnough sessionIds state).2.Known := by
  induction sessionIds generalizing state with
  | nil => exact known
  | cons sessionId rest ih =>
    unfold dropSessions
    split
    · exact known
    · rename_i user found
      split
      · exact known
      · split
        · exact ih known
        · rename_i channel session
          exact ih (known.drop place found session)

theorem dropSessions_gone (state : Sessions) {sessionId : String}
    (among : sessionId ∈ sessionIds) (user : User)
    (found : (dropSessions place username (fun _ => false) sessionIds state).2.getUser username =
      some user) : user.sessions.get? sessionId = none := by
  induction sessionIds generalizing state with
  | nil => cases among
  | cons first rest ih =>
    unfold dropSessions at found
    split at found
    · rename_i absent
      rw [absent] at found
      cases found
    · rename_i old there
      rw [if_neg Bool.false_ne_true] at found
      split at found
      · rename_i none
        rcases mem_cons.1 among with rfl | later
        · refine (dropSessions_shrinks place username _ rest state).gone (fun node same => ?_) user
            found
          rw [there] at same
          obtain rfl := some.inj same
          exact none
        · exact ih state later found
      · rcases mem_cons.1 among with rfl | later
        · exact (dropSessions_shrinks place username _ rest _).gone
            (delSession_gone _ username sessionId) user found
        · exact ih _ later found

end Loop

/-! ## Rejections -/

theorem Sessions.Known.update {state : Sessions} (known : state.Known) {username : String}
    {user later : User} (found : state.getUser username = some user)
    (same : later.sessions = user.sessions) : (updateUser state username later).Known := by
  intro login stands
  have ⟨node, there, session⟩ := known login stands
  rw [getUser_update (getUser_named found)]
  by_cases mine : login.username = username
  · rw [if_pos mine]
    rw [mine, found] at there
    obtain rfl := some.inj there
    exact ⟨later, rfl, by rw [same, session]⟩
  · rw [if_neg mine]
    exact ⟨node, there, session⟩

theorem dropSessions_out {place : Surroundings} {state : Sessions} (known : state.Known)
    {username : String} {user : User} (found : state.getUser username = some user) :
    Out Happening.ends username
      (dropSessions place username (fun _ => false) user.sessions.keys state).2.history := by
  intro login stands mine
  have ⟨later, there, session⟩ := dropSessions_known place username _ _ known login stands
  have ⟨same, last, _, fewer⟩ :=
    (dropSessions_shrinks place username (fun _ => false) user.sessions.keys state).stays username
      user found
  rw [mine] at there
  rw [there] at last
  obtain rfl := Option.some.inj last
  have before := fewer login.sessionId login.channel session
  have among : login.sessionId ∈ user.sessions.keys := by
    rw [Dict.mem_keys, before]
    rfl
  rw [dropSessions_gone place username _ state among later there] at session
  cases session

theorem acRejectUser_spec (place : Surroundings) (known : state.Known)
    (username : String) (disabled : Option Bool) :
    (acRejectUser place state username disabled).2.Known ∧
      (0 ≤ (acRejectUser place state username disabled).1 →
        Out Happening.ends username (acRejectUser place state username disabled).2.history) := by
  unfold acRejectUser
  cases found : state.getUser username with
  | none => exact ⟨known, fun success : (0 : Int) ≤ -1 => absurd success (by decide)⟩
  | some user =>
    cases disabled with
    | none =>
      exact ⟨dropSessions_known place username _ _ known, fun _ => dropSessions_out known found⟩
    | some disabled =>
      have updated := @Sessions.Known.update state known username user
        { user.view with disabled := disabled } found rfl
      have there : (updateUser state username { user.view with disabled := disabled }).getUser
          username = some { user.view with disabled := disabled } := by
        rw [getUser_update (getUser_named found), if_pos rfl]
      have out := @dropSessions_out place _ updated username _ there
      exact ⟨dropSessions_known place username _ _ updated, fun _ => out⟩

/-! ## The calls -/

/-- No node of the user is enabled. -/
def Sessions.Shut (state : Sessions) (username : String) : Prop :=
  ∀ user, state.getUser username = some user → user.disabled = true

theorem Sessions.Shut.shrinks
    (shut : before.Shut username) (shrinks : before.Shrinks after) : after.Shut username := by
  intro user found
  cases there : before.getUser username with
  | none =>
    rw [shrinks.absent username there] at found
    cases found
  | some old =>
    have ⟨later, last, same, _⟩ := shrinks.stays username old there
    rw [found] at last
    cases last
    rw [same.1, shut old there]

/-- A user that is updated is shut when it becomes disabled, and stays shut when it is another's update. -/
theorem Sessions.Shut.update {state : Sessions} {username other : String} (named : username ≠ "")
    {user : User} (mine : other = username → user.disabled = true)
    (shut : other ≠ username → state.Shut other) : (updateUser state username user).Shut other := by
  intro later found
  rw [getUser_update named] at found
  by_cases same : other = username
  · rw [if_pos same] at found
    cases found
    exact mine same
  · rw [if_neg same] at found
    exact shut same later found

theorem getUser_erase (state : Sessions) (username other : String) :
    Sessions.getUser { state with users := state.users.erase username } other =
      if other = username then none else state.getUser other := by
  unfold Sessions.getUser
  rw [get?_erase]
  by_cases same : other = username
  · rw [if_pos same, if_pos same, ite_self]
  · rw [if_neg same, if_neg same]

theorem Sessions.Known.erase (known : state.Known)
    (out : Out Happening.ends username state.history) :
    Sessions.Known { state with users := state.users.erase username } := by
  intro login stands
  rw [getUser_erase, if_neg (out login stands)]
  exact known login stands

theorem Sessions.Known.create (known : state.Known)
    (named : username ≠ "") (absent : state.getUser username = none) (user : User) :
    (updateUser state username user).Known := by
  intro login stands
  have ⟨node, there, session⟩ := known login stands
  have other : login.username ≠ username := by
    intro same
    rw [same, absent] at there
    cases there
  rw [getUser_update named, if_neg other]
  exact ⟨node, there, session⟩

theorem Sessions.Known.saveSession (known : state.Known) (channel : Nat)
    (found : state.getUser username = some user)
    (sessionId : String) : (saveSession state channel username sessionId).Known := by
  unfold Authz.saveSession
  have there : Sessions.getUser
      { state with channels := state.channels.set channel ⟨username, sessionId, true⟩ } username =
        some user := found
  dsimp only
  rw [there]
  intro login stands
  have named := getUser_named found
  show ∃ user, (updateUser _ _ _).getUser login.username = some user ∧ _
  rw [getUser_update named]
  rcases mem_standing.1 stands with opened | ⟨older, apart⟩
  · have only := mem_singleton.1 opened
    rw [only, if_pos rfl]
    exact ⟨_, rfl, get?_set_self _ _ _⟩
  · have ⟨node, has, session⟩ := known login older
    by_cases same : login.username = username
    · have other : login.sessionId ≠ sessionId := by
        intro equal
        simp [Happening.ends, same, equal] at apart
      rw [same, found] at has
      cases has
      rw [if_pos same]
      exact ⟨_, rfl, (get?_set_ne _ _ other).trans session⟩
    · rw [if_neg same]
      exact ⟨node, has, session⟩

theorem saveSession_shut (channel : Nat)
    (found : state.getUser username = some user) (sessionId : String)
    (shut : state.Shut other) : (saveSession state channel username sessionId).Shut other := by
  unfold saveSession
  have there : Sessions.getUser
      { state with channels := state.channels.set channel ⟨username, sessionId, true⟩ } username =
        some user := found
  dsimp only
  rw [there]
  have updated : (updateUser
      { state with channels := state.channels.set channel ⟨username, sessionId, true⟩ } username
      { user with sessions := user.sessions.set sessionId channel }).Shut other :=
    Sessions.Shut.update (getUser_named found)
      (fun same => shut user (by rw [same]; exact found)) (fun _ => shut)
  exact updated

theorem dropOldSessions_shrinks (place : Surroundings) (state : Sessions) (username : String)
    (user : User) : state.Shrinks (dropOldSessions place state username user) := by
  unfold dropOldSessions
  dsimp only
  split
  · exact dropSessions_shrinks place username _ _ state
  · exact Sessions.Shrinks.refl state

theorem Sessions.Known.dropOldSessions (known : state.Known)
    (place : Surroundings) (username : String) (user : User) :
    (dropOldSessions place state username user).Known := by
  unfold Authz.dropOldSessions
  dsimp only
  split
  · exact dropSessions_known place username _ _ known
  · exact known

theorem mtAuthenticate_keeps (place : Surroundings) (known : state.Known)
    (channel : Nat) (request : AuthRequest) :
    (mtAuthenticate place state channel request).2.Known ∧ ∀ other, state.Shut other →
      (mtAuthenticate place state channel request).2.Shut other := by
  unfold mtAuthenticate
  cases identify place state request with
  | error comment => exact ⟨known, fun _ shut => shut⟩
  | ok identity =>
    dsimp only
    split
    · exact ⟨known, fun _ shut => shut⟩
    · cases found : state.getUser identity.username with
      | none => exact ⟨known, fun _ shut => shut⟩
      | some user =>
        have shrinks := dropOldSessions_shrinks place state identity.username user
        have ⟨later, there, _⟩ := shrinks.stays identity.username user found
        have saved := (known.dropOldSessions place identity.username user).saveSession channel there
          (identity.sessionId.getD place.uuid)
        have closed : ∀ other, state.Shut other → (saveSession (dropOldSessions place state
            identity.username user) channel identity.username
              (identity.sessionId.getD place.uuid)).Shut other :=
          fun other shut => saveSession_shut channel there _ (shut.shrinks shrinks)
        dsimp only
        split
        · exact ⟨known, fun _ shut => shut⟩
        · split
          · exact ⟨known, fun _ shut => shut⟩
          · split
            · exact ⟨saved, closed⟩
            · exact ⟨saved, closed⟩

theorem identify_anonymous {request : AuthRequest}
    {identity : Identity} (accepted : identify place state request = .ok identity)
    (byLocalIp : identity.byLocalIp = true) : request.Anonymous := by
  unfold identify at accepted
  split_ifs at accepted
  cases jwt : request.jwt with
  | none =>
    rw [jwt] at accepted
    unfold identifyWithoutJwt at accepted
    split_ifs at accepted with password check only address localhost
    · cases accepted
      cases byLocalIp
    · cases accepted
      cases byLocalIp
    · exact ⟨jwt, not_not.1 password, localhost⟩
  | some token =>
    rw [jwt] at accepted
    dsimp only at accepted
    unfold identifyByJwt at accepted
    split at accepted
    · cases accepted
    · split_ifs at accepted
      cases accepted
      cases byLocalIp

theorem mtAuthenticate_shut {request : AuthRequest}
    (accepted : (mtAuthenticate place state channel request).1 = .ok username)
    (shut : state.Shut username) : request.Anonymous := by
  unfold mtAuthenticate at accepted
  cases identified : identify place state request with
  | error comment =>
    rw [identified] at accepted
    cases accepted
  | ok identity =>
    rw [identified] at accepted
    dsimp only at accepted
    split at accepted
    · rename_i byLocalIp
      exact identify_anonymous identified byLocalIp
    · cases found : state.getUser identity.username with
      | none =>
        rw [found] at accepted
        cases accepted
      | some user =>
        rw [found] at accepted
        dsimp only at accepted
        split_ifs at accepted with role disabled refuses
        cases accepted
        exact absurd (shut user found) disabled

theorem acRejectUser_shut (place : Surroundings) {disabled : Option Bool}
    (stays : 0 ≤ (acRejectUser place state username disabled).1 → other = username →
      disabled ≠ some false)
    (shut : other = username ∧ disabled = some true ∨ state.Shut other) :
    (acRejectUser place state username disabled).2.Shut other := by
  unfold acRejectUser at stays ⊢
  cases found : state.getUser username with
  | none =>
    rcases shut with ⟨rfl, -⟩ | shut
    · intro user there
      rw [found] at there
      cases there
    · exact shut
  | some user =>
    rw [found] at stays
    have keeps := stays (natCast_nonneg _)
    cases disabled with
    | none =>
      have before : state.Shut other := shut.resolve_left (fun both => by cases both.2)
      exact before.shrinks (dropSessions_shrinks place username _ _ state)
    | some disabled =>
      have updated : (updateUser state username { user.view with disabled := disabled }).Shut
          other := by
        refine Sessions.Shut.update (getUser_named found) (fun same => ?_) (fun other => ?_)
        · cases disabled with
          | true => rfl
          | false => exact absurd rfl (keeps same)
        · exact shut.resolve_left (fun both => other both.1)
      exact updated.shrinks (dropSessions_shrinks place username _ _ _)

theorem cmdDeleteUser_known (place : Surroundings) (known : state.Known)
    (username : String) (force : Bool) :
    (cmdDeleteUser place state username force).2.Known ∧
      (0 ≤ (cmdDeleteUser place state username force).1 →
        Out Happening.ends username (cmdDeleteUser place state username force).2.history) := by
  have fails : ∀ state : Sessions, state.Known → ((-1 : Int), state).2.Known ∧
      (0 ≤ ((-1 : Int), state).1 → Out Happening.ends username ((-1 : Int), state).2.history) :=
    fun state known => ⟨known, fun success : (0 : Int) ≤ -1 => absurd success (by decide)⟩
  unfold cmdDeleteUser
  cases found : state.getUser username with
  | none => exact fails state known
  | some user =>
    have ⟨rejected, out⟩ := acRejectUser_spec place known username none
    have gone : Out Happening.ends username (acRejectUser place state username none).2.history := by
      refine out ?_
      unfold acRejectUser
      rw [found]
      exact natCast_nonneg _
    dsimp only
    split
    · exact fails state known
    · split
      · exact fails state known
      · split
        · exact ⟨rejected.erase gone, fun _ => gone⟩
        · exact fails _ rejected

theorem cmdDeleteUser_shut (place : Surroundings) (username : String)
    (force : Bool) (shut : state.Shut other) :
    (cmdDeleteUser place state username force).2.Shut other := by
  unfold cmdDeleteUser
  cases found : state.getUser username with
  | none => exact shut
  | some user =>
    have rejected : (acRejectUser place state username none).2.Shut other :=
      acRejectUser_shut place (fun _ _ enabled => by cases enabled) (.inr shut)
    dsimp only
    split
    · exact shut
    · split
      · exact shut
      · split
        · intro user there
          rw [getUser_erase] at there
          split at there
          · cases there
          · exact rejected user there
        · exact rejected

theorem cmdDeleteUser_gone
    {force : Bool} (success : 0 ≤ (cmdDeleteUser place state username force).1) :
    (cmdDeleteUser place state username force).2.Shut username := by
  have fails : ¬(0 : Int) ≤ -1 := by decide
  unfold cmdDeleteUser at success ⊢
  cases found : state.getUser username with
  | none =>
    rw [found] at success
    exact absurd success fails
  | some user =>
    rw [found] at success
    dsimp only at success ⊢
    split_ifs at success ⊢ with immutable roles deletes
    · exact absurd success fails
    · exact absurd success fails
    · intro user there
      rw [getUser_erase, if_pos rfl] at there
      cases there
    · exact absurd success fails

/-! ## Runs -/

/-- Every session is known, and whoever must not get in is shut. -/
structure Watched.Kept (watched : Watched) : Prop where
  known : watched.sessions.Known
  shut : ∀ username ∈ watched.barred, watched.sessions.Shut username

theorem call_known (place : Surroundings) (known : state.Known)
    (call : AuthzCall) : (state.call place call).2.Known := by
  cases call with
  | authenticate channel request => exact (mtAuthenticate_keeps place known channel request).1
  | close channel informed => exact known.closeChannel channel informed
  | rejectUser username disabled => exact (acRejectUser_spec place known username disabled).1
  | enableUser username =>
    show (cmdEnableUser state username).2.Known
    unfold cmdEnableUser
    cases found : state.getUser username with
    | none => exact known
    | some user => exact known.update found rfl
  | disableUser username =>
    show (cmdDisableUser place state username).2.Known
    unfold cmdDisableUser
    cases found : state.getUser username with
    | none => exact known
    | some user =>
      have updated : (updateUser state username { user.view with disabled := true }).Known :=
        known.update found rfl
      exact (acRejectUser_spec place updated "" (some true)).1
  | deleteUser username force => exact (cmdDeleteUser_known place known username force).1
  | addUser username disabled credentials =>
    show (acCreateUser state username disabled credentials).2.Known
    unfold acCreateUser
    cases found : state.getUser username with
    | none =>
      dsimp only
      split
      · rename_i valid
        refine known.create ?_ found _
        rintro rfl
        exact absurd valid (by decide)
      · exact known
    | some user => exact known.update found rfl
  | setMaxSessions username maxSessions =>
    show (cmdSetMaxSessions state username maxSessions).2.Known
    unfold cmdSetMaxSessions
    split
    · exact known
    · cases found : state.getUser username with
      | none => exact known
      | some user => exact known.update found rfl

theorem cmdEnableUser_shut
    (ne : 0 ≤ (cmdEnableUser state username).1 → other ≠ username) (shut : state.Shut other) :
    (cmdEnableUser state username).2.Shut other := by
  unfold cmdEnableUser at ne ⊢
  cases found : state.getUser username with
  | none => exact shut
  | some user =>
    rw [found] at ne
    refine Sessions.Shut.update (getUser_named found) (fun same => ?_) fun _ => shut
    exact absurd same (ne Int.le_rfl)

theorem cmdDisableUser_shut (place : Surroundings) (shut : other = username ∨ state.Shut other) :
    (cmdDisableUser place state username).2.Shut other := by
  unfold cmdDisableUser
  cases found : state.getUser username with
  | none =>
    rcases shut with rfl | shut
    · intro user there
      rw [found] at there
      cases there
    · exact shut
  | some user =>
    have updated : (updateUser state username { user.view with disabled := true }).Shut other :=
      Sessions.Shut.update (getUser_named found) (fun _ => rfl) fun ne => shut.resolve_left ne
    exact acRejectUser_shut place (fun _ _ enabled => by cases enabled) (.inr updated)

theorem acCreateUser_shut {disabled : Option Bool} (credentials : Option (List Credential))
    (stays : 0 ≤ (acCreateUser state username disabled credentials).1 → other = username →
      disabled ≠ some false ∧ (state.getUser username).isSome)
    (shut : state.Shut other) : (acCreateUser state username disabled credentials).2.Shut other := by
  unfold acCreateUser at stays ⊢
  cases found : state.getUser username with
  | none =>
    rw [found] at stays
    by_cases valid : isValidKeyName username = true
    · rw [if_pos valid] at stays ⊢
      refine Sessions.Shut.update ?_ (fun same => ?_) fun _ => shut
      · rintro rfl
        exact absurd valid (by decide)
      · have there := (stays Int.le_rfl same).2
        cases there
    · rw [if_neg valid]
      exact shut
  | some user =>
    rw [found] at stays
    refine Sessions.Shut.update (getUser_named found) (fun same => ?_) fun _ => shut
    have before : user.disabled = true := shut user (by rw [same, found])
    have keeps := (stays Int.le_rfl same).1
    cases disabled with
    | none => exact before
    | some disabled =>
      cases disabled with
      | true => rfl
      | false => exact absurd rfl keeps

theorem cmdSetMaxSessions_shut (username : String) (maxSessions : Int) (shut : state.Shut other) :
    (cmdSetMaxSessions state username maxSessions).2.Shut other := by
  unfold cmdSetMaxSessions
  split
  · exact shut
  · cases found : state.getUser username with
    | none => exact shut
    | some user =>
      refine Sessions.Shut.update (getUser_named found) (fun same => ?_) fun _ => shut
      exact shut user (by rw [same, found])

theorem call_shut (place : Surroundings) {watched : Watched} (kept : watched.Kept)
    (call : AuthzCall)
    (barred : other ∈ watched.barredAfter (watched.sessions.call place call).1 call) :
    (watched.sessions.call place call).2.Shut other := by
  -- a call that fails bars nobody and lets nobody in
  have failed : ∀ {result : Int}, result < 0 → ¬0 ≤ result := fun less => Int.not_le.2 less
  unfold Watched.barredAfter at barred
  cases call with
  | authenticate channel request =>
    rw [ite_self] at barred
    exact (mtAuthenticate_keeps place kept.known channel request).2 other (kept.shut other barred)
  | close channel informed =>
    rw [ite_self] at barred
    exact (kept.shut other barred).shrinks (closeChannel_shrinks _ channel informed)
  | rejectUser username disabled =>
    split at barred
    · rename_i less
      exact acRejectUser_shut place (fun success => absurd success (failed less))
        (.inr (kept.shut other barred))
    · cases disabled with
      | none =>
        exact acRejectUser_shut place (fun _ _ enabled => by cases enabled)
          (.inr (kept.shut other barred))
      | some disabled =>
        cases disabled with
        | true =>
          refine acRejectUser_shut place (fun _ _ enabled => by cases enabled) ?_
          rcases mem_cons.1 barred with same | before
          · exact .inl ⟨same, rfl⟩
          · exact .inr (kept.shut other before)
        | false =>
          have apart := mem_filter.1 barred
          refine acRejectUser_shut place (fun _ same => ?_) (.inr (kept.shut other apart.1))
          exact absurd same (of_decide_eq_true apart.2)
  | enableUser username =>
    split at barred
    · rename_i less
      exact cmdEnableUser_shut (fun success => absurd success (failed less)) (kept.shut other barred)
    · have apart := mem_filter.1 barred
      exact cmdEnableUser_shut (fun _ => of_decide_eq_true apart.2) (kept.shut other apart.1)
  | disableUser username =>
    split at barred
    · exact cmdDisableUser_shut place (.inr (kept.shut other barred))
    · rcases mem_cons.1 barred with same | before
      · exact cmdDisableUser_shut place (.inl same)
      · exact cmdDisableUser_shut place (.inr (kept.shut other before))
  | deleteUser username force =>
    split at barred
    · exact cmdDeleteUser_shut place username force (kept.shut other barred)
    · rename_i success
      rcases mem_cons.1 barred with rfl | before
      · exact cmdDeleteUser_gone (Int.not_lt.1 success)
      · exact cmdDeleteUser_shut place username force (kept.shut other before)
  | addUser username disabled credentials =>
    split at barred
    · rename_i less
      exact acCreateUser_shut credentials (fun success => absurd success (failed less))
        (kept.shut other barred)
    · dsimp only at barred
      split at barred
      · have apart := mem_filter.1 barred
        exact acCreateUser_shut credentials
          (fun _ same => absurd same (of_decide_eq_true apart.2)) (kept.shut other apart.1)
      · rename_i opens
        refine acCreateUser_shut credentials (fun _ _ => ⟨fun enabled => opens (.inl enabled), ?_⟩)
          (kept.shut other barred)
        cases found : watched.sessions.getUser username with
        | none => exact absurd (.inr (by rw [found]; rfl)) opens
        | some user => rfl
  | setMaxSessions username maxSessions =>
    rw [ite_self] at barred
    exact cmdSetMaxSessions_shut username maxSessions (kept.shut other barred)

section

variable {watched : Watched} (kept : watched.Kept) (input : Surroundings × AuthzCall)
include kept input

theorem Watched.Kept.step : (watched.step input).Kept where
  known := call_known input.1 kept.known input.2
  shut := fun _ barred => call_shut input.1 kept input.2 barred

theorem Watched.Kept.keepsOut : KeepsOut watched input := by
  have ⟨place, call⟩ := input
  cases call with
  | authenticate channel request =>
    intro username accepted barred
    exact mtAuthenticate_shut accepted (kept.shut username barred)
  | deleteUser username force => exact (cmdDeleteUser_known place kept.known username force).2
  | rejectUser username disabled =>
    match disabled with
    | some true => exact (acRejectUser_spec place kept.known username (some true)).2
    | some false => trivial
    | none => trivial
  | _ => trivial

end

/-- In every run, a user that is deleted, or rejected with `disabled`, has no channel left that was not
dropped or closed, but for session ids that came again; and whoever is disabled or deleted authenticates
only from localhost without credentials, until it is enabled or created again. -/
theorem users_kept_out (users : Dict String User) (maxSessionsPerUser : Int)
    (calls : List (Surroundings × AuthzCall)) :
    AllSteps Watched.step KeepsOut ⟨Sessions.start users maxSessionsPerUser, []⟩ calls := by
  have start : Watched.Kept ⟨Sessions.start users maxSessionsPerUser, []⟩ :=
    ⟨fun _ stands => absurd stands List.not_mem_nil, fun _ barred => absurd barred List.not_mem_nil⟩
  have keeps : ∀ (watched : Watched) (input : Surroundings × AuthzCall), watched.Kept →
      (watched.step input).Kept := fun _ input kept => kept.step input
  have implies : ∀ (watched : Watched) (input : Surroundings × AuthzCall), watched.Kept →
      KeepsOut watched input := fun _ input kept => kept.keepsOut input
  exact allSteps_of_invariant Watched.step keeps implies start calls

/-- The service is there, the token is its own email and session id, and channels close later. -/
def plain : Surroundings where
  findService := fun _ => true
  isIpDenied := fun _ => false
  isIpAllowed := fun _ => false
  allowAnonymousInLocalhost := false
  verifyToken := fun jwt => some ⟨jwt, true, some jwt, none⟩
  matchHash := fun _ _ => false
  hasRole := fun _ _ => true
  holdsRoles := fun _ => false
  uuid := "1"
  refuses := false
  closesAtOnce := fun _ => none
  deletes := true

/-- A request with a token. -/
def byToken (jwt : String) : AuthRequest := ⟨"", "", some jwt, "10.0.0.1", "service"⟩

/-- `yuneta` is disabled and comes in from localhost. -/
theorem disabled_user_from_localhost :
    ¬ AllSteps Watched.step KeepsAllOut ⟨Sessions.start Dict.empty 0, []⟩
      [(plain, .addUser "yuneta" none none), (plain, .disableUser "yuneta"),
        (plain, .authenticate 1 ⟨"yuneta", "", none, "127.0.0.1", "service"⟩)] ∧
    -- two channels with the session id of one token, of which the first is never dropped
    ¬ AllSteps Watched.step KeepsAllOut ⟨Sessions.start Dict.empty 0, []⟩
      [(plain, .addUser "a@b" none none), (plain, .authenticate 1 (byToken "a@b")),
        (plain, .authenticate 2 (byToken "a@b")), (plain, .deleteUser "a@b" false)] := by
  constructor
  · intro all
    have ⟨_, _, last, _⟩ := all
    exact absurd (last "yuneta" (by decide)) (by decide)
  · intro all
    have ⟨_, _, _, last, _⟩ := all
    exact absurd (last (by decide)) (by decide)

end Yunetas.Authz
