import Yunetas.Lib.Run
import Yunetas.IeventSrv.Channel

/-!
# Services a channel reaches

A connection is granted services by its last accepted identity card. Along every run of a channel,
whatever it carries out is carried out on a granted service exactly when every command that names a
service in its own `service` field names a granted one: stats requests and the routing stack go
through `is_service_authorized`, that field of a command does not.
-/

namespace Yunetas.IeventSrv

open List

open Json Gobj

/-- The service an effect is carried out on. An injected event counts for the service it was routed
to; it is published to the subscriber of the channel. -/
def Effect.target : Effect → Option Service
  | .command service _ _ => some service
  | .stats service _ _ => some service
  | .subscribe service _ => some service
  | .unsubscribe service _ => some service
  | .inject service _ _ => some service
  | _ => none

/-- An accepted identity card, with what its authentication granted. -/
structure Card where
  service : Service
  /-- Keys of `services_roles`. -/
  granted : List String
  superuser : Bool

/-- The service of the identity card accepted in a step. -/
def openedService (effects : List Effect) : Option Service :=
  effects.findSome? fun effect =>
    match effect with
    | .opened service => some service
    | _ => none

/-- The last identity card of the connection after a step; a connection ends when it is closed. -/
def nextCard (card : Option Card) (input : Input) (effects : List Effect) : Option Card :=
  match input with
  | .onClose => none
  | .onMessage _ _ (.accepted _ services superuser) =>
    match openedService effects with
    | some service => some ⟨service, services, superuser⟩
    | none => card
  | _ => card

/-- A channel with the last identity card of its connection. -/
structure Connection where
  channel : Channel
  card : Option Card

/-- One input, with the card it leaves. -/
def Connection.step (place : Place) (connection : Connection) (input : Input) : Connection :=
  let result := sendEvent place connection.channel input
  ⟨result.1, nextCard connection.card input result.2⟩

/-- A channel just created. -/
def Connection.start : Connection := ⟨resetVolatilAttrs .disconnected false, none⟩

/-- The card allows the service: it is the primary one, a granted one, or any for a superuser. -/
def Card.Allows (card : Card) (service : Service) : Prop :=
  card.superuser = false →
    service.address = card.service.address ∨
      ∃ granted ∈ card.granted, strcaseEq granted service.name = true

/-- Whatever the input carries out is carried out on a service the card of the connection allows. -/
def ReachesAllowed (place : Place) (connection : Connection) (input : Input) : Prop :=
  ∀ effect ∈ (sendEvent place connection.channel input).2, ∀ service,
    effect.target = some service → ∃ card, connection.card = some card ∧ card.Allows service

/-- The message is a routed command, and asks for the service. -/
def CommandFor (yuno : Yuno) (channel : Channel) (wire : Option Json) (service : Service) : Prop :=
  ∃ kw, ievCreateFromGbuffer yuno wire = some (some "EV_MT_COMMAND", kw) ∧
    (∃ routed, route yuno channel "EV_MT_COMMAND" kw = .ok routed) ∧
    strcaseEq (msgIevGetMsgType kw) "__subscribing__" = false ∧
    strcaseEq (msgIevGetMsgType kw) "__unsubscribing__" = false ∧
    requestedService yuno channel kw = some service

/-- A command in session asks for a service the channel is authorized for. -/
def CommandAuthorized (connection : Connection) (input : Input) : Prop :=
  match input with
  | .onMessage yuno wire _ =>
    connection.channel.state = .session → ∀ service,
      CommandFor yuno connection.channel wire service →
        isServiceAuthorized connection.channel service = true
  | _ => True

/-- In session the channel holds what its card granted. -/
def Connection.Inv (connection : Connection) : Prop :=
  connection.channel.state = .session →
    connection.channel.authenticated = true ∧
    ∃ card, connection.card = some card ∧
      connection.channel.gobjService = some card.service ∧
      connection.channel.authorizedServices = card.granted ∧
      connection.channel.isSuperuser = card.superuser

variable {channel : Channel}

theorem isServiceAuthorized_iff {card : Card} (primary : channel.gobjService = some card.service)
    (granted : channel.authorizedServices = card.granted)
    (superuser : channel.isSuperuser = card.superuser) (service : Service) :
    isServiceAuthorized channel service = true ↔ card.Allows service := by
  unfold isServiceAuthorized Card.Allows
  rw [superuser, primary, granted]
  cases card.superuser with
  | true => simp
  | false => simp [any_eq_true]

theorem route_authorized {yuno : Yuno} {event : String} {kw : Fields}
    {service : Service} (routed : route yuno channel event kw = .ok service) :
    isServiceAuthorized channel service = true := by
  unfold route at routed
  dsimp only at routed
  split_ifs at routed
  split at routed
  · cases routed
  · split_ifs at routed with authorized
    cases routed
    exact authorized

/-- What a message leaves in the channel: nothing new, or an accepted card. -/
def CardOutcome (channel : Channel) (authentication : Authentication)
    (result : Channel × List Effect) : Prop :=
  (result.1 = channel ∧ openedService result.2 = none) ∨
  ∃ username services superuser service,
    authentication = .accepted username services superuser ∧
      result.1 = acceptCard channel service username services superuser ∧
      openedService result.2 = some service

theorem acIdentityCard_outcome (yuno : Yuno) (channel : Channel) (kw : Fields)
    (authentication : Authentication) :
    CardOutcome channel authentication (acIdentityCard yuno channel kw authentication).2 ∧
      ∀ effect ∈ (acIdentityCard yuno channel kw authentication).2.2, effect.target = none := by
  unfold acIdentityCard
  split
  · exact ⟨.inl ⟨rfl, rfl⟩, by simp⟩
  · dsimp only
    split_ifs
    all_goals try exact ⟨.inl ⟨rfl, rfl⟩, by simp⟩
    split
    · exact ⟨.inl ⟨rfl, rfl⟩, by simp⟩
    · split
      · exact ⟨.inl ⟨rfl, rfl⟩, by simp [Effect.target]⟩
      · exact ⟨.inr ⟨_, _, _, _, rfl, rfl, rfl⟩, by simp [Effect.target]⟩

theorem beforeSession_outcome (yuno : Yuno) (channel : Channel) (event : String) (kw : Fields)
    (authentication : Authentication) :
    CardOutcome channel authentication (beforeSession yuno channel event kw authentication) ∧
      ∀ effect ∈ (beforeSession yuno channel event kw authentication).2, effect.target = none := by
  have card := acIdentityCard_outcome yuno channel kw authentication
  unfold beforeSession
  dsimp only
  split_ifs
  · exact card
  · constructor
    · unfold CardOutcome openedService at *
      simpa [List.findSome?_append] using card.1
    · intro effect among
      rcases mem_append.1 among with among | among
      · exact card.2 effect among
      · rw [mem_singleton.1 among]
        rfl
  · exact ⟨.inl ⟨rfl, rfl⟩, by simp [Effect.target]⟩

theorem rejectUnroutedIev_outcome (event comment : String) :
    openedService (rejectUnroutedIev event comment) = none ∧
      ∀ effect ∈ rejectUnroutedIev event comment, effect.target = none := by
  unfold rejectUnroutedIev
  split_ifs <;> exact ⟨rfl, by simp [Effect.target]⟩

theorem route_outcome {yuno : Yuno} {event : String} {kw : Fields}
    {effects : List Effect} (failed : route yuno channel event kw = .error effects) :
    openedService effects = none ∧ ∀ effect ∈ effects, effect.target = none := by
  unfold route at failed
  dsimp only at failed
  split_ifs at failed
  · cases failed
    exact ⟨rfl, by simp [Effect.target]⟩
  · cases failed
    exact ⟨rfl, by simp [Effect.target]⟩
  · split at failed
    · cases failed
      exact rejectUnroutedIev_outcome event _
    · split_ifs at failed
      cases failed
      exact rejectUnroutedIev_outcome event _

theorem acMtCommand_outcome (yuno : Yuno) (channel : Channel) (kw : Fields) :
    openedService (acMtCommand yuno channel kw) = none ∧
      (acMtCommand yuno channel kw).filterMap Effect.target =
        if channel.authenticated then (requestedService yuno channel kw).toList else [] := by
  unfold acMtCommand
  cases channel.authenticated with
  | false => exact ⟨rfl, rfl⟩
  | true =>
    cases requestedService yuno channel kw with
    | none =>
      dsimp only
      split_ifs <;> exact ⟨rfl, rfl⟩
    | some service => exact ⟨rfl, rfl⟩

theorem acMtStats_outcome (yuno : Yuno) (channel : Channel) (kw : Fields) :
    openedService (acMtStats yuno channel kw) = none ∧
      ∀ effect ∈ acMtStats yuno channel kw, ∀ service, effect.target = some service →
        isServiceAuthorized channel service = true := by
  unfold acMtStats
  cases channel.authenticated with
  | false => exact ⟨rfl, by simp [Effect.target]⟩
  | true =>
    cases requestedService yuno channel kw with
    | none =>
      dsimp only
      split_ifs <;> exact ⟨rfl, by simp [Effect.target]⟩
    | some service =>
      cases authorized : isServiceAuthorized channel service with
      | false => simp [authorized, openedService, Effect.target]
      | true =>
        simp only [Bool.not_true, Bool.false_eq_true, if_false, authorized]
        refine ⟨rfl, fun effect among other found => ?_⟩
        rw [mem_singleton.1 among] at found
        cases found
        exact authorized

variable (place : Place)

/-- What a routed message leaves and carries out: on the service it was routed to, on one the gate
allows, or, for a command, on the one requested. -/
theorem dispatch_outcome (yuno : Yuno) (channel : Channel) (service : Service)
    (event : String) (kw : Fields) (authentication : Authentication) :
    CardOutcome channel authentication
        (dispatch place yuno channel service event kw authentication) ∧
      ∀ effect ∈ (dispatch place yuno channel service event kw authentication).2, ∀ other,
        effect.target = some other → other = service ∨ isServiceAuthorized channel other = true ∨
          (event = "EV_MT_COMMAND" ∧ strcaseEq (msgIevGetMsgType kw) "__subscribing__" = false ∧
            strcaseEq (msgIevGetMsgType kw) "__unsubscribing__" = false ∧
            requestedService yuno channel kw = some other) := by
  have on_service {effects : List Effect} (targets : effects.filterMap Effect.target ⊆ [service]) :
      ∀ effect ∈ effects, ∀ other, effect.target = some other → other = service := by
    intro effect among other found
    exact mem_singleton.1 (targets (mem_filterMap.2 ⟨effect, among, found⟩))
  unfold dispatch
  dsimp only
  cases subscribing : strcaseEq (msgIevGetMsgType kw) "__subscribing__" with
  | true =>
    rw [if_pos rfl]
    split
    · exact ⟨.inl ⟨rfl, rfl⟩, fun effect among other found =>
        .inl (on_service (List.Subset.refl _) effect among other found)⟩
    · exact ⟨.inl ⟨rfl, rfl⟩, by simp⟩
  | false =>
    rw [if_neg (by decide)]
    cases unsubscribing : strcaseEq (msgIevGetMsgType kw) "__unsubscribing__" with
    | true =>
      rw [if_pos rfl]
      split
      · exact ⟨.inl ⟨rfl, rfl⟩, fun effect among other found =>
          .inl (on_service (List.Subset.refl _) effect among other found)⟩
      · exact ⟨.inl ⟨rfl, rfl⟩, by simp⟩
    | false =>
      rw [if_neg (by decide)]
      split_ifs with command stats card goodbye log
      · have outcome := acMtCommand_outcome yuno channel (named place channel kw)
        refine ⟨.inl ⟨rfl, outcome.1⟩, fun effect among other found => ?_⟩
        have target : other ∈ (acMtCommand yuno channel (named place channel kw)).filterMap
            Effect.target := mem_filterMap.2 ⟨effect, among, found⟩
        rw [outcome.2, requestedService_named] at target
        split_ifs at target
        · exact .inr (.inr ⟨command, rfl, rfl, Option.mem_toList.1 target⟩)
        · cases target
      · have outcome := acMtStats_outcome yuno channel (named place channel kw)
        exact ⟨.inl ⟨rfl, outcome.1⟩, fun effect among other found =>
          .inr (.inl (outcome.2 effect among other found))⟩
      · have outcome := acIdentityCard_outcome yuno channel (named place channel kw) authentication
        refine ⟨outcome.1, fun effect among other found => ?_⟩
        rw [outcome.2 effect among] at found
        cases found
      · exact ⟨.inl ⟨rfl, rfl⟩, by simp [Effect.target]⟩
      · exact ⟨.inl ⟨rfl, rfl⟩, by simp⟩
      · exact ⟨.inl ⟨rfl, rfl⟩, fun effect among other found =>
          .inl (on_service (List.Subset.refl _) effect among other found)⟩

theorem acOnMessage_outcome (yuno : Yuno) (channel : Channel) (wire : Option Json)
    (authentication : Authentication) :
    CardOutcome channel authentication (acOnMessage place yuno channel wire authentication) := by
  unfold acOnMessage
  split
  · exact .inl ⟨rfl, rfl⟩
  · exact .inl ⟨rfl, rfl⟩
  · split_ifs
    · exact (beforeSession_outcome yuno channel _ _ authentication).1
    · split
      · rename_i failed
        exact .inl ⟨rfl, (route_outcome failed).1⟩
      · exact (dispatch_outcome place yuno channel _ _ _ authentication).1

/-- The input is a message of the client. -/
def Input.isMessage : Input → Bool
  | .onMessage _ _ _ => true
  | _ => false

/-- Another input carries nothing out; it leaves the channel as it is or out of session, and a close
leaves it out of session. -/
theorem sendEvent_other (channel : Channel) (input : Input) (other : input.isMessage = false) :
    ((sendEvent place channel input).1 = channel ∧ input ≠ .onClose ∨
      (sendEvent place channel input).1.state ≠ .session) ∧
    ∀ effect ∈ (sendEvent place channel input).2, effect.target = none := by
  unfold sendEvent
  cases input with
  | onMessage yuno wire authentication => cases other
  | onOpen =>
    cases channel.state with
    | disconnected => exact ⟨.inr (show State.waitIdentityCard ≠ .session by decide), by simp⟩
    | waitIdentityCard => exact ⟨.inl ⟨rfl, nofun⟩, by simp⟩
    | session => exact ⟨.inl ⟨rfl, nofun⟩, by simp [Effect.target]⟩
  | onClose =>
    dsimp only
    split_ifs with disconnected informs
    · exact ⟨.inr (show channel.state ≠ .session by rw [disconnected]; decide), by simp⟩
    · exact ⟨.inr (show State.disconnected ≠ .session by decide), by simp [Effect.target]⟩
    · exact ⟨.inr (show State.disconnected ≠ .session by decide), by simp [Effect.target]⟩
  | mtCommandAnswer =>
    split_ifs <;> exact ⟨.inl ⟨rfl, nofun⟩, by simp [Effect.target]⟩
  | drop =>
    split_ifs <;> exact ⟨.inl ⟨rfl, nofun⟩, by simp [Effect.target]⟩
  | timeout => cases channel.state <;> exact ⟨.inl ⟨rfl, nofun⟩, by simp [Effect.target]⟩
  | stopped => cases channel.state <;> exact ⟨.inl ⟨rfl, nofun⟩, by simp⟩

theorem Connection.inv_step (connection : Connection) (input : Input)
    (inv : connection.Inv) : (connection.step place input).Inv := by
  cases message : input.isMessage with
  | false =>
    intro session
    rcases (sendEvent_other place connection.channel input message).1 with ⟨same, open_⟩ | out
    · unfold Connection.step at session ⊢
      dsimp only at session ⊢
      rw [same] at session ⊢
      have kept : nextCard connection.card input (sendEvent place connection.channel input).2 =
          connection.card := by
        cases input with
        | onMessage yuno wire authentication => cases message
        | onClose => exact absurd rfl open_
        | onOpen => rfl
        | mtCommandAnswer => rfl
        | drop => rfl
        | timeout => rfl
        | stopped => rfl
      rw [kept]
      exact inv session
    · exact absurd session out
  | true =>
    cases input with
    | onMessage yuno wire authentication =>
      unfold Connection.step sendEvent
      dsimp only
      split_ifs with disconnected
      · cases authentication <;> exact inv
      · have outcome := acOnMessage_outcome place yuno connection.channel wire authentication
        rcases outcome with ⟨same, unopened⟩ | ⟨username, services, superuser, service, rfl, made,
          opened⟩
        · rw [same]
          cases authentication with
          | rejected => exact inv
          | accepted username services superuser =>
            unfold nextCard
            rw [unopened]
            exact inv
        · rw [made]
          unfold nextCard
          rw [opened]
          exact fun _ => ⟨rfl, _, rfl, rfl, rfl, rfl⟩
    | _ => cases message

theorem commandFor_target {yuno : Yuno} {wire : Option Json}
    (authentication : Authentication) {service : Service} (session : channel.state = .session)
    (authenticated : channel.authenticated = true) (asks : CommandFor yuno channel wire service) :
    ∃ effect ∈ (acOnMessage place yuno channel wire authentication).2,
      effect.target = some service := by
  have ⟨kw, read, ⟨routed, route⟩, subscribing, unsubscribing, requested⟩ := asks
  have outcome := (acMtCommand_outcome yuno channel (named place channel kw)).2
  rw [authenticated, if_pos rfl, requestedService_named, requested] at outcome
  apply mem_filterMap.1
  unfold acOnMessage
  simp only [read, session, ne_eq, not_true_eq_false, if_false, route]
  unfold dispatch
  simp only [subscribing, unsubscribing, Bool.false_eq_true, if_false, if_true]
  show service ∈ (acMtCommand yuno channel (named place channel kw)).filterMap Effect.target
  rw [outcome]
  exact mem_singleton_self service

theorem acOnMessage_target {yuno : Yuno} {wire : Option Json}
    {authentication : Authentication} (session : channel.state = .session) {effect : Effect}
    (among : effect ∈ (acOnMessage place yuno channel wire authentication).2) {service : Service}
    (target : effect.target = some service) :
    isServiceAuthorized channel service = true ∨ CommandFor yuno channel wire service := by
  unfold acOnMessage at among
  split at among
  · rw [mem_singleton.1 among] at target
    cases target
  · rw [mem_singleton.1 among] at target
    cases target
  · rename_i event kw read
    rw [if_neg (not_not_intro session)] at among
    split at among
    · rename_i effects failed
      rw [(route_outcome failed).2 effect among] at target
      cases target
    · rename_i routed route
      rcases (dispatch_outcome place yuno channel routed event kw authentication).2 effect among
        service target with same | gate | command
      · exact .inl (same ▸ route_authorized route)
      · exact .inl gate
      · obtain ⟨rfl, subscribing, unsubscribing, requested⟩ := command
        exact .inr ⟨kw, read, ⟨routed, route⟩, subscribing, unsubscribing, requested⟩

theorem acOnMessage_unopened (yuno : Yuno) (channel : Channel) (wire : Option Json)
    (authentication : Authentication) (session : channel.state ≠ .session) :
    ∀ effect ∈ (acOnMessage place yuno channel wire authentication).2, effect.target = none := by
  unfold acOnMessage
  split
  · simp [Effect.target]
  · simp [Effect.target]
  · rw [if_pos session]
    exact (beforeSession_outcome yuno channel _ _ authentication).2

/-- Under the invariant, an input reaches allowed services only exactly when it is no command for an
unauthorized one. -/
theorem reachesAllowed_iff (connection : Connection) (input : Input) (inv : connection.Inv) :
    ReachesAllowed place connection input ↔ CommandAuthorized connection input := by
  unfold ReachesAllowed
  cases message : input.isMessage with
  | false =>
    have quiet := (sendEvent_other place connection.channel input message).2
    constructor
    · intro _
      cases input with
      | onMessage yuno wire authentication => cases message
      | _ => trivial
    · intro _ effect among service target
      rw [quiet effect among] at target
      cases target
  | true =>
    cases input with
    | onMessage yuno wire authentication =>
      unfold CommandAuthorized sendEvent
      dsimp only
      by_cases session : connection.channel.state = .session
      · have ⟨authenticated, card, held, primary, granted, superuser⟩ := inv session
        have allows := isServiceAuthorized_iff primary granted superuser
        have connected : connection.channel.state ≠ .disconnected := by rw [session]; decide
        rw [if_neg connected]
        constructor
        · intro reaches _ service asks
          have ⟨effect, among, target⟩ :=
            commandFor_target place authentication session authenticated asks
          have ⟨other, same, allowed⟩ := reaches effect among service target
          rw [held] at same
          cases same
          exact (allows service).2 allowed
        · intro authorized effect among service target
          refine ⟨card, held, (allows service).1 ?_⟩
          rcases acOnMessage_target place session among target with gate | asks
          · exact gate
          · exact authorized session service asks
      · constructor
        · exact fun _ session' => absurd session' session
        · intro _ effect among service target
          split_ifs at among
          · cases among
          · rw [acOnMessage_unopened place yuno connection.channel wire authentication session
              effect among] at target
            cases target
    | _ => cases message

/-- Along every run of a channel, all that is carried out is carried out on a service that the last
accepted card of the connection allows, exactly when every command in session that names a service
names one the channel is authorized for. -/
theorem reaches_allowed_iff (inputs : List Input) :
    AllSteps (Connection.step place) (ReachesAllowed place) .start inputs ↔
      AllSteps (Connection.step place) CommandAuthorized .start inputs := by
  have start : Connection.start.Inv := fun session => absurd session (by decide)
  apply allSteps_congr (Connection.step place) _ _ start
  · intro connection input _ inv _
    exact Connection.inv_step place connection input inv
  · intro connection input _ inv
    exact reachesAllowed_iff place connection input inv

/-- The service `db`. -/
def dbService : Service := ⟨2, "db", []⟩

/-- The service `vault`. -/
def vaultService : Service := ⟨3, "vault", []⟩

/-- A yuno with two services. -/
def vaultYuno : Yuno where
  role := "role"
  name := "yuno"
  root := ⟨1, "yuno", []⟩
  defaultService := none
  services := (Dict.empty.set "db" dbService).set "vault" vaultService
  publicEvents := ["EV_MT_COMMAND", "EV_MT_STATS", "EV_IDENTITY_CARD"]
  gbufferDeserialize := fun _ => 0

/-- An identity card for `db`. -/
def dbCard : Json :=
  let record := Json.object [("dst_role", .string "role"), ("dst_service", .string "db"),
    ("src_role", .string "cli"), ("src_service", .string "cli")]
  .object [("event", .string "EV_IDENTITY_CARD"),
    ("kw", .object [("__md_iev__", .object [("ievent_gate_stack", .array [record])])])]

/-- A command that names `vault` in its `service` field. -/
def vaultCommand : Json :=
  .object [("event", .string "EV_MT_COMMAND"),
    ("kw", .object [("__command__", .string "list"), ("service", .string "vault")])]

/-- The gate a client connects to. -/
def inputSide : Place := ⟨"__input_side__", "tcp-1", fun _ => 0⟩

/-- A client granted `db` alone has a command carried out on `vault`. -/
theorem command_reaches_vault :
    ¬ AllSteps (Connection.step inputSide) (ReachesAllowed inputSide) .start
      [.onOpen, .onMessage vaultYuno (some dbCard) (.accepted (some "ana") ["db"] false),
        .onMessage vaultYuno (some vaultCommand) .rejected] := by
  intro all
  have carried := all.2.2.1 (.command vaultService "list"
    [("__command__", .string "list"), ("service", .string "vault"),
      ("__username__", .string "ana")])
    (List.mem_singleton.2 rfl) vaultService rfl
  have ⟨card, held, allowed⟩ := carried
  have granted : some (Card.mk dbService ["db"] false) = some card := held
  cases granted
  rcases allowed rfl with primary | ⟨name, among, same⟩
  · exact absurd primary (by decide)
  · rw [List.mem_singleton.1 among] at same
    exact absurd same (by decide)

end Yunetas.IeventSrv
