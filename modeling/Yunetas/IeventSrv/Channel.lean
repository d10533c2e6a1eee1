import Yunetas.Gobj.Registry

/-!
# The inter-event server channel

`C_IEVENT_SRV` is the entry gate of a client. After the identity card the channel is in session, and
each message of the client names an event, a destination service in its routing stack and, for
commands and stats, perhaps another service in its own `service` field.

What the object around the channel decides enters with each message: the registries of the yuno and
the answer of `gobj_authenticate` to an identity card. Dropping closes the connection later, as an
input of its own. Answers of commands that end later are sent without more ado.
-/

namespace Yunetas.IeventSrv

open Json Gobj

/-- States of the machine. -/
inductive State where
  | disconnected
  | waitIdentityCard
  | session
  deriving DecidableEq, Repr

/-- Attributes of the channel that its actions read back. -/
structure Channel where
  state : State
  /-- `__username__`, written by the authenticator. -/
  username : String
  authenticated : Bool
  /-- `gobj_service`: the service of the identity card. -/
  gobjService : Option Service
  authorizedServices : List String
  isSuperuser : Bool
  informOnClose : Bool

/-- The answer of `gobj_authenticate`. -/
inductive Authentication where
  | rejected
  /-- The user the authenticator wrote into the channel, if it did, the keys of `services_roles` and
  `superuser`. -/
  | accepted (username : Option String) (services : List String) (superuser : Bool)

/-- What an action does outside the channel. -/
inductive Effect where
  /-- `gobj_command` on a service. -/
  | command (service : Service) (command : String) (kw : Fields)
  /-- `gobj_stats` on a service. -/
  | stats (service : Service) (stats : String) (kw : Fields)
  /-- `gobj_subscribe_event` to a service. -/
  | subscribe (service : Service) (event : String)
  /-- `gobj_unsubscribe_event` from a service. -/
  | unsubscribe (service : Service) (event : String)
  /-- `EV_ON_IEV_MESSAGE` published to the subscriber of the channel, with the service the message was
  routed to. -/
  | inject (service : Service) (event : String) (kw : Fields)
  /-- `EV_ON_OPEN` published: an identity card for a service was accepted. -/
  | opened (service : Service)
  /-- `EV_ON_CLOSE` published. -/
  | closed
  | unsubscribeAll
  | answer (event comment : String)
  | send (event : String)
  | drop

/-- A channel just created, or after `gobj_reset_volatil_attrs`. -/
def resetVolatilAttrs (state : State) (informOnClose : Bool) : Channel :=
  ⟨state, "", false, none, [], false, informOnClose⟩

/-- `is_service_authorized`. -/
def isServiceAuthorized (channel : Channel) (service : Service) : Bool :=
  if channel.isSuperuser then true
  else
    match channel.gobjService with
    | none => true
    | some primary =>
      service.address = primary.address ∨
        channel.authorizedServices.any fun authorized => strcaseEq authorized service.name

/-- Set `__username__` in the key words of a message. -/
def setUsername (channel : Channel) (kw : Fields) : Fields :=
  kwSetDictValue kw "__username__" (.string channel.username)

/-- "Gate authenticated": what an accepted card leaves in the channel. -/
def acceptCard (channel : Channel) (service : Service) (username : Option String)
    (services : List String) (superuser : Bool) : Channel where
  state := .session
  username := username.getD channel.username
  authenticated := true
  gobjService := some service
  authorizedServices := services
  isSuperuser := superuser
  informOnClose := true

/-- `ac_identity_card`: whether it returns zero, the channel, and what it did. -/
def acIdentityCard (yuno : Yuno) (channel : Channel) (kw : Fields)
    (authentication : Authentication) : Bool × Channel × List Effect :=
  match msgIevGetStack kw ieventStackId with
  | none => (false, channel, [])
  | some request =>
    let dstRole := kwGetStr (some request) "dst_role" ""
    let dstYuno := kwGetStr (some request) "dst_yuno" ""
    let srcRole := kwGetStr (some request) "src_role" ""
    let srcService := kwGetStr (some request) "src_service" ""
    if !strcaseEq dstRole yuno.role then (false, channel, [])
    else if dstYuno ≠ "" ∧ !strcaseEq dstYuno yuno.name then (false, channel, [])
    else if srcRole = "" then (false, channel, [])
    else if srcService = "" then (false, channel, [])
    else
      match gobjFindService yuno (kwGetStr (some request) "dst_service" "") with
      | none => (false, channel, [])
      | some service =>
        match authentication with
        | .rejected => (true, channel, [.send "EV_IDENTITY_CARD_ACK"])
        | .accepted username services superuser =>
          (true, acceptCard channel service username services superuser,
            [.send "EV_IDENTITY_CARD_ACK", .opened service])

/-- The service a command or a stats request asks for: the primary one when its `service` field is
empty. -/
def requestedService (yuno : Yuno) (channel : Channel) (kw : Fields) : Option Service :=
  let service := kwGetStr (some (.object kw)) "service" ""
  if service = "" then channel.gobjService else gobjFindService yuno service

/-- The text of a request: its own field of version 6, else the field of its stack of version 7. -/
def requestText (kw : Fields) (stack field : String) : String :=
  match (kw.get? stack).bind Json.stringValue with
  | some text => text
  | none => kwGetStr (msgIevGetStack kw stack) field ""

/-- `ac_mt_stats`. -/
def acMtStats (yuno : Yuno) (channel : Channel) (kw : Fields) : List Effect :=
  let service := kwGetStr (some (.object kw)) "service" ""
  if !channel.authenticated then
    [.answer "EV_MT_STATS_ANSWER" "Only authenticated users can request stats"]
  else
    match requestedService yuno channel kw with
    | none =>
      if service = "" then [] else [.answer "EV_MT_STATS_ANSWER" s!"Service not found: '{service}'"]
    | some gobjService =>
      if !isServiceAuthorized channel gobjService then
        [.answer "EV_MT_STATS_ANSWER"
          s!"Not authorized to request stats of service: '{service}'"]
      else [.stats gobjService (requestText kw "__stats__" "stats") (setUsername channel kw)]

/-- `ac_mt_command`. -/
def acMtCommand (yuno : Yuno) (channel : Channel) (kw : Fields) : List Effect :=
  let service := kwGetStr (some (.object kw)) "service" ""
  if !channel.authenticated then
    [.answer "EV_MT_COMMAND_ANSWER" "Only authenticated users can request commands"]
  else
    match requestedService yuno channel kw with
    | none =>
      if service = "" then []
      else [.answer "EV_MT_COMMAND_ANSWER" s!"Service not found: '{service}'"]
    | some gobjService =>
      [.command gobjService (requestText kw "__command__" "command") (setUsername channel kw)]

/-- `reject_unrouted_iev`: commands and stats are answered, anything else drops the channel. The
comment fits a buffer of 120 characters. -/
def rejectUnroutedIev (event comment : String) : List Effect :=
  let comment := String.ofList (comment.toList.take 119)
  if event = "EV_MT_COMMAND" then [.answer "EV_MT_COMMAND_ANSWER" comment]
  else if event = "EV_MT_STATS" then [.answer "EV_MT_STATS_ANSWER" comment]
  else [.drop]

/-- The routing checks of `ac_on_message` in session: the service the message goes to, or what is
done instead. A name that is no service stands for the primary one. -/
def route (yuno : Yuno) (channel : Channel) (event : String) (kw : Fields) :
    Except (List Effect) Service :=
  let record := msgIevGetStack kw ieventStackId
  let dstRole := kwGetStr record "dst_role" ""
  let dstYuno := kwGetStr record "dst_yuno" ""
  let dstService := kwGetStr record "dst_service" ""
  if dstRole ≠ "" ∧ !strcaseEq dstRole yuno.role then .error [.drop]
  else if dstYuno ≠ "" ∧ !strcaseEq dstYuno yuno.name then .error [.drop]
  else
    match (gobjFindService yuno dstService).or channel.gobjService with
    | none => .error (rejectUnroutedIev event s!"Service not found: '{dstService}'")
    | some service =>
      if isServiceAuthorized channel service then .ok service
      else .error
        (rejectUnroutedIev event s!"Service not authorized for this channel: '{dstService}'")

/-- Where the channel stands: what does not change while it lives. -/
structure Place where
  inputService : String
  inputChannel : String
  eventAddress : String → Int

/-- The channel signs the routing record of a message. -/
def signRecord (place : Place) (channel : Channel) (kw : Fields) : Fields :=
  setRoutingFields kw
    [("input_service", .string place.inputService), ("input_channel", .string place.inputChannel),
      ("__username__", .string channel.username)]

/-- The end of `ac_on_message`: the routed message by its type. The five public events of the channel
are its own, any other is published. -/
def dispatch (place : Place) (yuno : Yuno) (channel : Channel) (service : Service) (event : String)
    (kw : Fields) (authentication : Authentication) : Channel × List Effect :=
  let msgType := msgIevGetMsgType kw
  let kw := signRecord place channel kw
  if strcaseEq msgType "__subscribing__" then
    if hasPublicOutputEvent service event then (channel, [.subscribe service event])
    else (channel, [])
  else if strcaseEq msgType "__unsubscribing__" then
    if hasPublicOutputEvent service event then (channel, [.unsubscribe service event])
    else (channel, [])
  else
    let kw := setUsername channel kw
    if event = "EV_MT_COMMAND" then (channel, acMtCommand yuno channel kw)
    else if event = "EV_MT_STATS" then (channel, acMtStats yuno channel kw)
    else if event = "EV_IDENTITY_CARD" then (acIdentityCard yuno channel kw authentication).2
    else if event = "EV_GOODBYE" then (channel, [.drop])
    else if event = "EV_REMOTE_LOG" then (channel, [])
    else
      (channel,
        [.inject service event (kw.set "__iev_event__" (.integer (place.eventAddress event)))])

theorem get?_setUsername (channel : Channel) (kw : Fields) :
    (setUsername channel kw).get? "__username__" =
      some ((kw.get? "__username__").getD (.string channel.username)) := by
  unfold setUsername
  rw [get?_kwSetDictValue, if_pos rfl]

theorem get?_setUsername_ne (channel : Channel) (kw : Fields) {key : String}
    (ne : key ≠ "__username__") : (setUsername channel kw).get? key = kw.get? key := by
  unfold setUsername
  rw [get?_kwSetDictValue, if_neg ne]

theorem requestedService_congr (yuno : Yuno) (channel : Channel) {kw other : Fields}
    (same : other.get? "service" = kw.get? "service") :
    requestedService yuno channel other = requestedService yuno channel kw := by
  unfold requestedService kwGetStr kwFindPath
  simp [same]

/-- A routed message with the record signed and the name set. -/
def named (place : Place) (channel : Channel) (kw : Fields) : Fields :=
  setUsername channel (signRecord place channel kw)

theorem get?_named (place : Place) (channel : Channel) (kw : Fields) :
    (named place channel kw).get? "__username__" =
      some ((kw.get? "__username__").getD (.string channel.username)) := by
  unfold named signRecord
  rw [get?_setUsername, get?_setRoutingFields kw _ "__username__" (by decide)]

theorem get?_setUsername_named (place : Place) (channel : Channel) (kw : Fields) :
    (setUsername channel (named place channel kw)).get? "__username__" =
      some ((kw.get? "__username__").getD (.string channel.username)) := by
  rw [get?_setUsername, get?_named, Option.getD_some]

theorem requestedService_named (yuno : Yuno) (place : Place) (channel : Channel) (kw : Fields) :
    requestedService yuno channel (named place channel kw) = requestedService yuno channel kw := by
  apply requestedService_congr
  unfold named signRecord
  rw [get?_setUsername_ne channel _ (by decide), get?_setRoutingFields kw _ "service" (by decide)]

/-- A message before the session: only an identity card and a goodbye have an action, and what is
not done drops the channel. -/
def beforeSession (yuno : Yuno) (channel : Channel) (event : String) (kw : Fields)
    (authentication : Authentication) : Channel × List Effect :=
  if event = "EV_IDENTITY_CARD" then
    let card := acIdentityCard yuno channel kw authentication
    if card.1 then card.2 else (card.2.1, card.2.2 ++ [.drop])
  else (channel, [.drop])

/-- `ac_on_message`. -/
def acOnMessage (place : Place) (yuno : Yuno) (channel : Channel) (wire : Option Json)
    (authentication : Authentication) : Channel × List Effect :=
  match ievCreateFromGbuffer yuno wire with
  | none => (channel, [.drop])
  | some (none, _) => (channel, [.drop])
  | some (some event, kw) =>
    if channel.state ≠ .session then beforeSession yuno channel event kw authentication
    else
      match route yuno channel event kw with
      | .error effects => (channel, effects)
      | .ok service => dispatch place yuno channel service event kw authentication

/-- Inputs of the channel. -/
inductive Input where
  /-- `EV_ON_OPEN`. -/
  | onOpen
  /-- `EV_ON_CLOSE`. -/
  | onClose
  /-- `EV_ON_MESSAGE`: a decoded message, none for bad json. -/
  | onMessage (yuno : Yuno) (wire : Option Json) (authentication : Authentication)
  /-- `EV_MT_COMMAND_ANSWER`. -/
  | mtCommandAnswer
  /-- `EV_DROP`. -/
  | drop
  /-- `EV_TIMEOUT`. -/
  | timeout
  /-- `EV_STOPPED`. -/
  | stopped

/-- `gobj_send_event` to the channel: the state changes before the action. An event without an action
goes to `mt_inject_event`, which in session sends it to the client. -/
def sendEvent (place : Place) (channel : Channel) : Input → Channel × List Effect
  | .onOpen =>
    match channel.state with
    | .disconnected => (resetVolatilAttrs .waitIdentityCard channel.informOnClose, [])
    | .waitIdentityCard => (channel, [])
    | .session => (channel, [.send "EV_ON_OPEN"])
  | .onClose =>
    if channel.state = .disconnected then (channel, [])
    else
      (resetVolatilAttrs .disconnected false,
        if channel.informOnClose then [.unsubscribeAll, .closed] else [.unsubscribeAll])
  | .onMessage yuno wire authentication =>
    if channel.state = .disconnected then (channel, [])
    else acOnMessage place yuno channel wire authentication
  | .mtCommandAnswer =>
    if channel.state = .session then (channel, [.send "EV_MT_COMMAND_ANSWER"]) else (channel, [])
  | .drop => if channel.state = .disconnected then (channel, []) else (channel, [.drop])
  | .timeout =>
    match channel.state with
    | .disconnected => (channel, [])
    | .waitIdentityCard => (channel, [.drop])
    | .session => (channel, [.send "EV_TIMEOUT"])
  | .stopped =>
    match channel.state with
    | .disconnected => (channel, [])
    | .waitIdentityCard => (channel, [])
    | .session => (channel, [])

end Yunetas.IeventSrv
