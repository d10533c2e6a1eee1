import Yunetas.IeventSrv.Channel

/-!
# The user name in a message

The channel means to set its user's name in every message it hands over, but `kw_set_dict_value`
keeps a name that the client put there. So the name handed over is the channel's exactly when the
client sent none, or the same.
-/

namespace Yunetas.IeventSrv

open Json Gobj

/-- The key words that an effect hands over. -/
def Effect.handed : Effect → Option Fields
  | .command _ _ kw => some kw
  | .stats _ _ kw => some kw
  | .inject _ _ kw => some kw
  | _ => none

/-- The name the client put into a message. -/
def clientUsername (wire : Option Json) : Option Json :=
  (kwGetDict wire "kw").bind fun kw => Fields.get? kw "__username__"

/-- The guards a routed message passes before its key words are handed over. -/
def carried (yuno : Yuno) (channel : Channel) (event : String) (kw : Fields) : Bool :=
  if strcaseEq (msgIevGetMsgType kw) "__subscribing__" then false
  else if strcaseEq (msgIevGetMsgType kw) "__unsubscribing__" then false
  else if event = "EV_MT_COMMAND" then
    channel.authenticated && (requestedService yuno channel kw).isSome
  else if event = "EV_MT_STATS" then
    channel.authenticated && (requestedService yuno channel kw).any (isServiceAuthorized channel)
  else event ≠ "EV_IDENTITY_CARD" ∧ event ≠ "EV_GOODBYE" ∧ event ≠ "EV_REMOTE_LOG"

/-- The message is read, routed and carried. -/
def Carried (yuno : Yuno) (channel : Channel) (wire : Option Json) : Prop :=
  ∃ event kw, ievCreateFromGbuffer yuno wire = some (some event, kw) ∧
    (∃ service, route yuno channel event kw = .ok service) ∧ carried yuno channel event kw = true

variable (yuno : Yuno)

section

variable (channel : Channel) (kw : Fields)
include channel kw

theorem acIdentityCard_handed (authentication : Authentication) :
    ∀ effect ∈ (acIdentityCard yuno channel kw authentication).2.2, effect.handed = none := by
  unfold acIdentityCard
  split
  · simp
  · dsimp only
    split_ifs
    all_goals try simp
    split
    · simp
    · split <;> simp [Effect.handed]

theorem acMtCommand_handed :
    (acMtCommand yuno channel kw).filterMap Effect.handed =
      if channel.authenticated && (requestedService yuno channel kw).isSome then
        [setUsername channel kw]
      else [] := by
  unfold acMtCommand
  cases channel.authenticated with
  | false => rfl
  | true =>
    cases requestedService yuno channel kw with
    | none =>
      dsimp only
      split_ifs <;> first | rfl | contradiction
    | some service => rfl

theorem acMtStats_handed :
    (acMtStats yuno channel kw).filterMap Effect.handed =
      if channel.authenticated &&
          (requestedService yuno channel kw).any (isServiceAuthorized channel) then
        [setUsername channel kw]
      else [] := by
  unfold acMtStats
  cases channel.authenticated with
  | false => rfl
  | true =>
    cases requestedService yuno channel kw with
    | none =>
      dsimp only
      split_ifs <;> first | rfl | contradiction
    | some service =>
      cases authorized : isServiceAuthorized channel service <;> simp [authorized, Effect.handed]

end

/-- The key words a carried message hands over. -/
def handedOver (place : Place) (channel : Channel) (event : String) (kw : Fields) : Fields :=
  if event = "EV_MT_COMMAND" then setUsername channel (named place channel kw)
  else if event = "EV_MT_STATS" then setUsername channel (named place channel kw)
  else (named place channel kw).set "__iev_event__" (.integer (place.eventAddress event))

theorem get?_handedOver (place : Place) (channel : Channel) (event : String) (kw : Fields) :
    (handedOver place channel event kw).get? "__username__" =
      some ((kw.get? "__username__").getD (.string channel.username)) := by
  unfold handedOver
  split_ifs
  · exact get?_setUsername_named place channel kw
  · exact get?_setUsername_named place channel kw
  · rw [Fields.get?_set_ne _ _ (by decide), get?_named]

theorem dispatch_handed (place : Place) (yuno : Yuno) (channel : Channel) (service : Service)
    (event : String) (kw : Fields) (authentication : Authentication) :
    (dispatch place yuno channel service event kw authentication).2.filterMap Effect.handed =
      if carried yuno channel event kw then [handedOver place channel event kw] else [] := by
  unfold dispatch carried
  by_cases subscribing : strcaseEq (msgIevGetMsgType kw) "__subscribing__" = true
  · rw [if_pos subscribing, if_pos subscribing]
    split <;> rfl
  rw [if_neg subscribing, if_neg subscribing]
  by_cases unsubscribing : strcaseEq (msgIevGetMsgType kw) "__unsubscribing__" = true
  · rw [if_pos unsubscribing, if_pos unsubscribing]
    split <;> rfl
  rw [if_neg unsubscribing, if_neg unsubscribing]
  unfold handedOver
  by_cases command : event = "EV_MT_COMMAND"
  · rw [if_pos command, if_pos command, if_pos command]
    show (acMtCommand yuno channel (named place channel kw)).filterMap Effect.handed = _
    rw [acMtCommand_handed, requestedService_named]
  rw [if_neg command, if_neg command, if_neg command]
  by_cases stats : event = "EV_MT_STATS"
  · rw [if_pos stats, if_pos stats, if_pos stats]
    show (acMtStats yuno channel (named place channel kw)).filterMap Effect.handed = _
    rw [acMtStats_handed, requestedService_named]
  rw [if_neg stats, if_neg stats, if_neg stats]
  by_cases card : event = "EV_IDENTITY_CARD"
  · have own : (event ≠ "EV_IDENTITY_CARD" ∧ event ≠ "EV_GOODBYE" ∧ event ≠ "EV_REMOTE_LOG") =
        False := by simp [card]
    simp only [if_pos card, own, decide_false]
    exact List.filterMap_eq_nil_iff.2 (acIdentityCard_handed yuno channel _ authentication)
  by_cases goodbye : event = "EV_GOODBYE"
  · simp [goodbye, Effect.handed]
  by_cases log : event = "EV_REMOTE_LOG"
  · simp [log]
  · simp [card, goodbye, log, Effect.handed, named]

theorem rejectUnroutedIev_handed (event comment : String) :
    (rejectUnroutedIev event comment).filterMap Effect.handed = [] := by
  unfold rejectUnroutedIev
  split_ifs <;> rfl

theorem route_handed (channel : Channel) (event : String) (kw : Fields)
    {effects : List Effect} (failed : route yuno channel event kw = .error effects) :
    effects.filterMap Effect.handed = [] := by
  unfold route at failed
  dsimp only at failed
  split_ifs at failed
  · cases failed
    rfl
  · cases failed
    rfl
  · split at failed
    · cases failed
      exact rejectUnroutedIev_handed event _
    · split_ifs at failed
      cases failed
      exact rejectUnroutedIev_handed event _

theorem get?_ievCreateFromGbuffer (wire : Option Json) {event : Option String}
    {kw : Fields} (read : ievCreateFromGbuffer yuno wire = some (event, kw)) :
    kw.get? "__username__" = clientUsername wire := by
  unfold ievCreateFromGbuffer at read
  unfold clientUsername
  dsimp only at read
  split at read
  · cases read
  · rename_i fields found
    split_ifs at read
    cases read
    rw [found, Option.bind_some]
    apply get?_kwDeserialize
    intro field among
    rw [binaryTypes, List.mem_singleton] at among
    rw [among]
    show "__username__" ≠ "gbuffer" ∧ "__username__" ≠ "__gbuffer___"
    decide

/-- Key words that the message hands over carry the user name of the channel. -/
def HandsOwnUsername (place : Place) (yuno : Yuno) (channel : Channel) (wire : Option Json)
    (authentication : Authentication) : Prop :=
  ∀ effect ∈ (acOnMessage place yuno channel wire authentication).2, ∀ kw,
    effect.handed = some kw → kw.get? "__username__" = some (.string channel.username)

/-- In session, every message hands over the channel's user name exactly when a message that is
carried brings no name of its own, or the same. -/
theorem username_from_channel_iff (place : Place) (yuno : Yuno) (channel : Channel)
    (wire : Option Json) (authentication : Authentication) (inSession : channel.state = .session) :
    HandsOwnUsername place yuno channel wire authentication ↔
      (Carried yuno channel wire →
        clientUsername wire = none ∨ clientUsername wire = some (.string channel.username)) := by
  have all_handed (effects : List Effect) :
      (∀ effect ∈ effects, ∀ kw, effect.handed = some kw →
        kw.get? "__username__" = some (.string channel.username)) ↔
      ∀ kw ∈ effects.filterMap Effect.handed,
        kw.get? "__username__" = some (.string channel.username) := by
    simp only [List.mem_filterMap]
    constructor
    · rintro each kw ⟨effect, among, handed⟩
      exact each effect among kw handed
    · intro each effect among kw handed
      exact each kw ⟨effect, among, handed⟩
  unfold HandsOwnUsername
  rw [all_handed]
  unfold acOnMessage Carried
  cases read : ievCreateFromGbuffer yuno wire with
  | none => simp [Effect.handed]
  | some message =>
    have ⟨event, kw⟩ := message
    cases event with
    | none => simp [Effect.handed]
    | some event =>
      have client := get?_ievCreateFromGbuffer yuno wire read
      simp only [inSession, ne_eq, not_true_eq_false, if_false]
      cases routed : route yuno channel event kw with
      | error effects =>
        simp only [route_handed yuno channel event kw routed, List.not_mem_nil, false_implies,
          implies_true, true_iff]
        rintro ⟨other, otherKw, same, ⟨service, found⟩, -⟩
        cases same
        rw [routed] at found
        cases found
      | ok service =>
        simp only [dispatch_handed]
        by_cases carries : carried yuno channel event kw = true
        · have through : ∃ other otherKw, some (some event, kw) = some (some other, otherKw) ∧
              (∃ service, route yuno channel other otherKw = .ok service) ∧
              carried yuno channel other otherKw = true :=
            ⟨event, kw, rfl, ⟨service, routed⟩, carries⟩
          simp only [carries, if_true, List.mem_singleton, forall_eq, get?_handedOver, client,
            through, true_implies]
          cases clientUsername wire with
          | none => simp
          | some name => simp
        · simp only [if_neg carries, List.not_mem_nil, false_implies, implies_true, true_iff]
          rintro ⟨other, otherKw, same, -, carries'⟩
          cases same
          exact absurd carries' carries

/-- A yuno with one service. -/
def dbYuno : Yuno where
  role := "role"
  name := "yuno"
  root := ⟨1, "__root__", []⟩
  defaultService := none
  services := Dict.empty.set "db" ⟨2, "db", []⟩
  publicEvents := ["EV_MT_COMMAND", "EV_MT_STATS", "EV_IDENTITY_CARD"]
  gbufferDeserialize := fun _ => 0

/-- Where a channel stands. -/
def gatePlace : Place := ⟨"__input_side__", "tcp-1", fun _ => 0⟩

/-- A channel in session with the user `ana`. -/
def anaChannel : Channel := ⟨.session, "ana", true, some ⟨2, "db", []⟩, ["db"], false, true⟩

/-- A command without routing record, with the given further key words. -/
def commandWire (more : Fields) : Option Json :=
  some (.object [("event", .string "EV_MT_COMMAND"),
    ("kw", .object (("__command__", .string "list-users") :: more))])

/-- A name in the message of a client reaches the command parser. -/
theorem username_spoofed :
    ¬ HandsOwnUsername gatePlace dbYuno anaChannel
        (commandWire [("__username__", .string "root")]) .rejected := by
  intro all
  have spoofed := all (.command ⟨2, "db", []⟩ "list-users"
    [("__command__", .string "list-users"), ("__username__", .string "root")])
    (List.mem_singleton.2 rfl) _ rfl
  have same : some (Json.string "root") = some (Json.string "ana") := spoofed
  exact absurd (Json.string.inj (Option.some.inj same)) (by decide)

/-- Without a name of its own, the command carries the user of the channel. -/
theorem username_from_channel_iff_plain :
    HandsOwnUsername gatePlace dbYuno anaChannel (commandWire []) .rejected :=
  (username_from_channel_iff gatePlace dbYuno anaChannel (commandWire []) .rejected rfl).2
    fun _ => .inl rfl

end Yunetas.IeventSrv
