import Yunetas.Lib.Dict

/-!
# Sessions of users

The authentication of channels in `c_authz.c`, and the handlers that end sessions. The open channels of a
user are known by the dict `__sessions` of its node, keyed by session id. `node_collapsed_view` puts this
dict itself, not a copy, in the view of a node, so a handler that runs inside another changes what the
other one reads. A username is the key of a node, to which `exist_primary_node` cuts a longer one.
-/

namespace Yunetas.Authz

/-- An element of `credentials`. -/
structure Credential where
  /-- `secretData.value`. -/
  value : String
  /-- `secretData.salt`. -/
  salt : String
  /-- `credentialData.hashIterations`. -/
  hashIterations : Int
  /-- `credentialData.algorithm`. -/
  algorithm : String
  deriving DecidableEq

/-- A node of the topic `users`. -/
structure User where
  disabled : Bool
  maxSessions : Int
  /-- `credentials`; null is none. -/
  credentials : List Credential
  /-- `immutable` of the metadata. -/
  immutable : Bool
  /-- `__sessions`: the `channel_gobj` of each session id. -/
  sessions : Dict String Nat

/-- What `mt_authenticate` writes to a channel. -/
structure Attrs where
  username : String
  sessionId : String
  /-- `C_AUTHZ` is subscribed to the `EV_ON_CLOSE` of the channel. -/
  subscribed : Bool

/-- What is seen of users and channels from outside. -/
inductive Happening
  /-- `EV_AUTHZ_USER_LOGIN` is published. -/
  | login (channel : Nat) (username sessionId : String)
  /-- `EV_AUTHZ_USER_LOGOUT` is published. -/
  | logout (username sessionId : String)
  /-- `EV_DROP` is sent to a channel. -/
  | drop (channel : Nat)
  | close (channel : Nat)
  deriving DecidableEq

/-- The users and the channels of a `C_AUTHZ` with a treedb. -/
structure Sessions where
  /-- The nodes of the topic `users`. -/
  users : Dict String User
  maxSessionsPerUser : Int
  channels : Dict Nat Attrs
  history : List Happening

/-- What `mt_authenticate` reads of the payload of a JWT. -/
structure JwtPayload where
  /-- `email`, empty when absent. -/
  email : String
  emailVerified : Bool
  sid : Option String
  sessionState : Option String

/-- What `mt_authenticate` reads of its `kw`; the fields are empty when absent. -/
structure AuthRequest where
  username : String
  password : String
  /-- `jwt`; none when it is empty. -/
  jwt : Option String
  peername : String
  dstService : String

/-- What a call depends on besides the users and the channels, as it is at that instant. -/
structure Surroundings where
  /-- `gobj_find_service`. -/
  findService : String → Bool
  isIpDenied : String → Bool
  isIpAllowed : String → Bool
  allowAnonymousInLocalhost : Bool
  /-- `verify_token`: the payload of a valid token. -/
  verifyToken : String → Option JwtPayload
  matchHash : String → Credential → Bool
  /-- `get_user_roles` has a service for a user. -/
  hasRole : String → String → Bool
  /-- The field `roles` of a user is not empty. -/
  holdsRoles : String → Bool
  /-- `create_random_uuid`. -/
  uuid : String
  /-- A subscriber of `EV_AUTHZ_USER_LOGIN` refuses the user. -/
  refuses : Bool
  /-- The channels that close inside `EV_DROP`, and whether they publish `EV_ON_CLOSE`. -/
  closesAtOnce : Nat → Option Bool
  /-- `treedb_delete_node` deletes the node. -/
  deletes : Bool

/-! ## Nodes and channels -/

/-- `gobj_get_node`: no node has an empty id. -/
def Sessions.getUser (state : Sessions) (username : String) : Option User :=
  if username = "" then none else state.users.get? username

/-- The view of a user: `credentials` is hidden, and reads as null. -/
def User.view (user : User) : User := { user with credentials := [] }

/-- `gobj_update_node` of a user that is there; a view brings its null credentials along. -/
def updateUser (state : Sessions) (username : String) (user : User) : Sessions :=
  { state with users := state.users.set username user }

/-- The attributes of a channel. -/
def Sessions.attrs (state : Sessions) (channel : Nat) : Attrs :=
  (state.channels.get? channel).getD ⟨"", "", false⟩

/-- One more thing happens. -/
def Sessions.record (state : Sessions) (happening : Happening) : Sessions :=
  { state with history := happening :: state.history }

/-- `kw_get_dict` with `KW_EXTRACT` of a session: an id with the delimiter, character 96, is a path
that leads nowhere. -/
def extractSession (sessions : Dict String Nat) (sessionId : String) : Dict String Nat :=
  if Char.ofNat 96 ∈ sessionId.toList then sessions else sessions.erase sessionId

/-- The logout of `ac_on_close`: the session leaves the node of the user. -/
def logOut (state : Sessions) (attrs : Attrs) : Sessions :=
  match state.getUser attrs.username with
  | none => state
  | some user =>
    (updateUser state attrs.username
      { user with sessions := extractSession user.sessions attrs.sessionId }).record
        (.logout attrs.username attrs.sessionId)

/-- `ac_on_close`. -/
def acOnClose (state : Sessions) (channel : Nat) : Sessions :=
  let attrs := state.attrs channel
  { logOut state attrs with channels := state.channels.set channel { attrs with subscribed := false } }

/-- The close of a channel: it publishes `EV_ON_CLOSE` when it was in session, and its attributes are
reset. -/
def closeChannel (state : Sessions) (channel : Nat) (informed : Bool) : Sessions :=
  let state :=
    if informed && (state.attrs channel).subscribed then acOnClose state channel else state
  { state with
      channels := state.channels.set channel ⟨"", "", (state.attrs channel).subscribed⟩ }.record
    (.close channel)

/-- `EV_DROP` is sent to a channel, which may close before the answer. -/
def evDrop (place : Surroundings) (state : Sessions) (channel : Nat) : Sessions :=
  match place.closesAtOnce channel with
  | none => state.record (.drop channel)
  | some informed => closeChannel (state.record (.drop channel)) channel informed

/-- `json_object_del` of a session of a user. -/
def delSession (state : Sessions) (username sessionId : String) : Sessions :=
  match state.getUser username with
  | none => state
  | some user =>
    updateUser state username { user with sessions := user.sessions.erase sessionId }

/-- The loops that drop sessions: those that are still there, until there are few enough. They are
counted. -/
def dropSessions (place : Surroundings) (username : String) (fewEnough : Nat → Bool) :
    List String → Sessions → Nat × Sessions
  | [], state => (0, state)
  | sessionId :: rest, state =>
    match state.getUser username with
    | none => (0, state)
    | some user =>
      if fewEnough user.sessions.entries.length then (0, state)
      else
        match user.sessions.get? sessionId with
        | none => dropSessions place username fewEnough rest state
        | some channel =>
          let dropped := dropSessions place username fewEnough rest
            (delSession (evDrop place state channel) username sessionId)
          (dropped.1 + 1, dropped.2)

/-! ## Authentication -/

/-- Who a request comes from. -/
structure Identity where
  username : String
  sessionId : Option String
  /-- `yuneta_by_local_ip`. -/
  byLocalIp : Bool

/-- `check_password`. -/
def checkPassword (place : Surroundings) (state : Sessions) (username password : String) : Bool :=
  match state.getUser username with
  | none => false
  | some user => user.credentials.any (place.matchHash password)

/-- `sid`, or `session_state` without it. -/
def JwtPayload.sessionId (payload : JwtPayload) : String :=
  (payload.sid.or payload.sessionState).getD ""

/-- The address is one of localhost. -/
def isLocalhost (peername : String) : Bool := "127.0.0.".toList.isPrefixOf peername.toList

/-- The checks of a request without JWT. -/
def identifyWithoutJwt (place : Surroundings) (state : Sessions) (request : AuthRequest) :
    Except String Identity :=
  if request.password ≠ "" then
    if checkPassword place state request.username request.password then
      .ok ⟨request.username, none, false⟩
    else .error "Invalid username or password."
  else if ¬place.allowAnonymousInLocalhost ∧ request.username ≠ "yuneta" then
    .error "Without JWT/passw only yuneta is allowed"
  else if place.isIpAllowed request.peername then .ok ⟨request.username, none, false⟩
  else if ¬isLocalhost request.peername then .error "Without JWT/passw only localhost is allowed"
  else .ok ⟨request.username, none, true⟩

/-- The checks of a JWT. -/
def identifyByJwt (place : Surroundings) (jwt : String) : Except String Identity :=
  match place.verifyToken jwt with
  | none => .error "Authentication failed: Invalid token"
  | some payload =>
    if ¬payload.emailVerified then .error "Email not verified"
    else if '@' ∉ payload.email.toList then .error "Username must be an email address"
    else .ok ⟨payload.email, some payload.sessionId, false⟩

/-- The first half of `mt_authenticate`: the user a request comes from. -/
def identify (place : Surroundings) (state : Sessions) (request : AuthRequest) :
    Except String Identity :=
  if request.peername = "" then .error "Peername is required"
  else if ¬place.findService request.dstService then .error "Destination service not found"
  else if place.isIpDenied request.peername then .error "Ip denied"
  else
    match request.jwt with
    | none => identifyWithoutJwt place state request
    | some jwt => identifyByJwt place jwt

/-- The sessions a user may have; no limit is 0 or less. -/
def maxSessions (state : Sessions) (user : User) : Int :=
  if user.maxSessions ≤ 0 then state.maxSessionsPerUser else user.maxSessions

/-- Old sessions are dropped until a new one fits. -/
def dropOldSessions (place : Surroundings) (state : Sessions) (username : String) (user : User) :
    Sessions :=
  let limit := maxSessions state user
  if limit > 0 then
    (dropSessions place username (fun sessions => (sessions : Int) < limit) user.sessions.keys
      state).2
  else state

/-- The new session is saved, and the channel is watched. -/
def saveSession (state : Sessions) (channel : Nat) (username sessionId : String) : Sessions :=
  let state := { state with channels := state.channels.set channel ⟨username, sessionId, true⟩ }
  let state :=
    match state.getUser username with
    | none => state
    | some user =>
      updateUser state username { user with sessions := user.sessions.set sessionId channel }
  state.record (.login channel username sessionId)

/-- `mt_authenticate`: the username that is accepted, or the comment. -/
def mtAuthenticate (place : Surroundings) (state : Sessions) (channel : Nat)
    (request : AuthRequest) : Except String String × Sessions :=
  match identify place state request with
  | .error comment => (.error comment, state)
  | .ok identity =>
    let username := identity.username
    if identity.byLocalIp then
      let attrs := { state.attrs channel with username := username, sessionId := "" }
      (.ok username, { state with channels := state.channels.set channel attrs })
    else
      match state.getUser username with
      | none => (.error "User does not exist", state)
      | some user =>
        if ¬place.hasRole username request.dstService then
          (.error "User has not authz in service", state)
        else if user.disabled then (.error "User disabled", state)
        else
          let state := saveSession (dropOldSessions place state username user) channel username
            (identity.sessionId.getD place.uuid)
          if place.refuses then (.error "Some subscriber refusing user", state)
          else (.ok username, state)

/-! ## Events and commands -/

/-- `ac_reject_user`, of the `username` and the `disabled` of its `kw`. -/
def acRejectUser (place : Surroundings) (state : Sessions) (username : String)
    (disabled : Option Bool) : Int × Sessions :=
  match state.getUser username with
  | none => (-1, state)
  | some user =>
    let state :=
      match disabled with
      | none => state
      | some disabled => updateUser state username { user.view with disabled := disabled }
    let dropped := dropSessions place username (fun _ => false) user.sessions.keys state
    (dropped.1, dropped.2)

/-- `cmd_enable_user`. -/
def cmdEnableUser (state : Sessions) (username : String) : Int × Sessions :=
  match state.getUser username with
  | none => (-1, state)
  | some user => (0, updateUser state username { user.view with disabled := false })

/-- `cmd_disable_user`. The `kw` of the event is the node, which has `id` and no `username`. -/
def cmdDisableUser (place : Surroundings) (state : Sessions) (username : String) : Int × Sessions :=
  match state.getUser username with
  | none => (-1, state)
  | some user =>
    let state := updateUser state username { user.view with disabled := true }
    (0, (acRejectUser place state "" (some true)).2)

/-- `cmd_delete_user`. -/
def cmdDeleteUser (place : Surroundings) (state : Sessions) (username : String) (force : Bool) :
    Int × Sessions :=
  match state.getUser username with
  | none => (-1, state)
  | some user =>
    if user.immutable then (-1, state)
    else if ¬force ∧ place.holdsRoles username then (-1, state)
    else
      let state := (acRejectUser place state username none).2
      if place.deletes then (0, { state with users := state.users.erase username })
      else (-1, state)

/-- `is_valid_key_name`. -/
def isValidKeyName (id : String) : Bool :=
  id ≠ "" ∧ '/' ∉ id.toList ∧ id.toList.head? ≠ some '.'

/-- `ac_create_user`: the record has what the `kw` has. -/
def acCreateUser (state : Sessions) (username : String) (disabled : Option Bool)
    (credentials : Option (List Credential)) : Int × Sessions :=
  match state.getUser username with
  | none =>
    if isValidKeyName username then
      (0, updateUser state username
        ⟨disabled.getD false, 0, credentials.getD [], false, Dict.empty⟩)
    else (-1, state)
  | some user =>
    (0, updateUser state username
      { user with
        disabled := disabled.getD user.disabled
        credentials := credentials.getD user.credentials })

/-- `cmd_set_max_sessions`, for all users when there is no username. -/
def cmdSetMaxSessions (state : Sessions) (username : String) (maxSessions : Int) : Int × Sessions :=
  if username = "" then (0, { state with maxSessionsPerUser := maxSessions })
  else
    match state.getUser username with
    | none => (-1, state)
    | some user => (0, updateUser state username { user.view with maxSessions := maxSessions })

/-- What happens to `C_AUTHZ`. -/
inductive AuthzCall
  | authenticate (channel : Nat) (request : AuthRequest)
  /-- A channel is closed, and publishes `EV_ON_CLOSE` or not. -/
  | close (channel : Nat) (informed : Bool)
  /-- `EV_REJECT_USER`. -/
  | rejectUser (username : String) (disabled : Option Bool)
  | enableUser (username : String)
  | disableUser (username : String)
  | deleteUser (username : String) (force : Bool)
  /-- `EV_ADD_USER`. -/
  | addUser (username : String) (disabled : Option Bool) (credentials : Option (List Credential))
  | setMaxSessions (username : String) (maxSessions : Int)

/-- The result of a call, and the state after it. -/
def Sessions.call (place : Surroundings) (state : Sessions) : AuthzCall → Int × Sessions
  | .authenticate channel request =>
    let answer := mtAuthenticate place state channel request
    (if answer.1.isOk then 0 else -1, answer.2)
  | .close channel informed => (0, closeChannel state channel informed)
  | .rejectUser username disabled => acRejectUser place state username disabled
  | .enableUser username => cmdEnableUser state username
  | .disableUser username => cmdDisableUser place state username
  | .deleteUser username force => cmdDeleteUser place state username force
  | .addUser username disabled credentials => acCreateUser state username disabled credentials
  | .setMaxSessions username maxSessions => cmdSetMaxSessions state username maxSessions

/-- The users as they are loaded, without sessions. -/
def Sessions.start (users : Dict String User) (maxSessionsPerUser : Int) : Sessions where
  users := users.mapValues fun user => { user with sessions := Dict.empty }
  maxSessionsPerUser := maxSessionsPerUser
  channels := Dict.empty
  history := []

end Yunetas.Authz
