import Yunetas.Mqtt.Retained
import Yunetas.Verif.ReadAcl
import Yunetas.Verif.Routing

/-!
# Retained delivery

A client that subscribes before a message is published gets it from the search of the tree, one that
subscribes afterwards gets it from the loop over the retained messages. The two agree on the topics
that are not read as a shared subscription, as long as the message can be kept: its name has to do as
the key of a node, and it has not expired. Of a topic `$share/<group>/<rest>` the search looks for
`/<rest>` and the loop for `<rest>`.
-/

namespace Yunetas.Mqtt

open List Option Dict

open Gobj (gbufferSerialize gbufferDeserialize)
open Timeranger2 (validStringKey)
open TrTreedb (isValidKeyName)

/-- The subscription trees with the live subscriptions, and the retained messages. -/
structure Serving where
  routing : Routing
  /-- The nodes of `retained_msgs`. -/
  retained : Retained

/-- What the broker does: a call on the trees, or a message published while the sessions are in some
state. -/
inductive ServingCall
  | call (call : Call)
  | publish (sessions : String → Option Session) (published : Published)

/-- One step of the broker. -/
def Serving.step (maxBlock : Nat) (serving : Serving) : ServingCall → Serving
  | .call call => { serving with routing := serving.routing.step call }
  | .publish sessions published =>
    { serving with
      retained := (subMessagesQueueRetain maxBlock sessions serving.routing.subs serving.retained
        published).retained }

/-- No subscription and no retained message. -/
def Serving.fresh : Serving := ⟨Routing.fresh, Dict.empty⟩

/-- No filter has a level `SUBS_KEY`, and no client that name. -/
def ServingCall.Clean : ServingCall → Prop
  | .call (.add filter clientId _) => subsKey ∉ tokens filter.text ∧ clientId ≠ subsKey
  | .call (.remove filter _) => subsKey ∉ tokens filter.text
  | .call (.removeClient _) => True
  | .publish _ _ => True

/-- The call leaves the node of a key as it is. -/
def ServingCall.Leaves (key : List UInt8) : ServingCall → Prop
  | .call _ => True
  | .publish _ published =>
    published.retain = true → primaryKey (topic2disk published.topic) ≠ key

/-- The normal tree holds the live subscriptions, no client is named `SUBS_KEY`, and the retained
messages are filed by their ids. -/
structure Serving.Sound (serving : Serving) : Prop where
  keeps : Keeps serving.routing.subs.normalSubs serving.routing.live
  named : ∀ key ∈ serving.routing.live.keys, key.2 ≠ subsKey
  filed : ∀ key node, serving.retained.get? key = some node → key = primaryKey node.id

/-- A message that asks to be retained, and a client without subscriptions that subscribes to a
filter: in one story before the message is published, in the other one at a time `now` behind it and
behind other calls that leave the message in its place. -/
structure Encounter (serving : Serving) where
  filter : String
  /-- `mqtt_sub_topic_check2` accepts it. -/
  acceptedFilter : mqttSubTopicCheck2 filter = 0
  unshared : namesShare filter = false
  /-- It has no level `SUBS_KEY`. -/
  clean : subsKey ∉ tokens filter
  clientId : String
  /-- It has another name than `SUBS_KEY`. -/
  named : clientId ≠ subsKey
  fresh : ∀ path, serving.routing.live.get? (path, clientId) = none
  info : SubInfo
  published : Published
  /-- `mqtt_pub_topic_check2` accepts its topic. -/
  acceptedTopic : mqttPubTopicCheck2 published.topic = 0
  /-- It does not start with `$SYS`. -/
  ordinary : startsSys published.topic = false
  retained : published.retain = true
  sessions : String → Option Session
  now : Int
  later : List ServingCall
  /-- Their filters have no level `SUBS_KEY`. -/
  laterClean : ∀ call ∈ later, call.Clean
  laterLeaves : ∀ call ∈ later, call.Leaves (primaryKey (topic2disk published.topic))

namespace Encounter

variable {serving : Serving} (encounter : Encounter serving) (maxBlock : Nat)

/-- The copies of the client that subscribed before, each with its topic. -/
def liveCopies : List (String × Handed) :=
  let subs := (subAdd serving.routing.subs encounter.filter encounter.clientId encounter.info).2
  let queued :=
    subMessagesQueueRetain maxBlock encounter.sessions subs serving.retained encounter.published
  (queued.normal.filter fun copy => copy.1 = encounter.clientId).map Prod.snd

/-- The state when the client subscribes behind the message. -/
def afterwards : Serving :=
  run (Serving.step maxBlock)
    (serving.step maxBlock (.publish encounter.sessions encounter.published)) encounter.later

/-- The copies of the client that subscribed afterwards, of the node of the topic. -/
def retainedCopies : List (String × Handed) :=
  let after := encounter.afterwards maxBlock
  let copies := subscribeRetained maxBlock encounter.sessions encounter.now after.routing.subs
    after.retained encounter.clientId encounter.filter encounter.info
  (copies.filter fun copy => copy.1.id = topic2disk encounter.published.topic).map Prod.snd

end Encounter

/-- One of the copies gets to the client. -/
def Arrives (copies : List (String × Handed)) : Prop := ∃ copy ∈ copies, copy.2.arrives = true

/-- Both stories end alike, and under the published topic. -/
structure Agree (topic : String) (live retained : List (String × Handed)) : Prop where
  alike : Arrives live ↔ Arrives retained
  named : ∀ copy ∈ live ++ retained, copy.1 = topic

namespace Encounter

variable {serving : Serving} (encounter : Encounter serving) (maxBlock : Nat)

/-- The client has a session and is connected or gets a QoS that is queued, and the message has a
payload. -/
def Deliverable : Prop :=
  (∃ session, encounter.sessions encounter.clientId = some session ∧
    (session.connected = true ∨ 0 < encounter.published.qos ∧ 0 < encounter.info.qos.toNat)) ∧
  encounter.published.payloadlen ≠ 0

/-- The client did not publish the message itself with the option noLocal set. -/
def Wanted : Prop :=
  ¬(noLocal encounter.info.options.toNat = true ∧ encounter.clientId = encounter.published.clientId)

/-- The message is kept: its name is a valid key, or the one of a node that is there, it has not
expired when the client subscribes, and its payload can be read back. -/
def Kept : Prop :=
  ((isValidKeyName (topic2disk encounter.published.topic) &&
      validStringKey (topic2disk encounter.published.topic)) = true ∨
    (serving.retained.get? (primaryKey (topic2disk encounter.published.topic))).isSome = true) ∧
  ∃ gbuf, encounter.published.payload = some gbuf ∧
    (encounter.published.node maxBlock gbuf).expired encounter.now = false ∧
    (gbufferDeserialize maxBlock (gbufferSerialize maxBlock gbuf)).isSome = true

/-- The conditions of the two stories agree, where the message can be delivered at all: a filter that
matches by the MQTT rules needs the message kept if and only if the client wants it, and a topic
`$share/<group>/<rest>` is looked for as `/<rest>` in one and as `<rest>` in the other. -/
def Fair : Prop :=
  encounter.Deliverable →
    match topicTokenize encounter.published.topic with
    | none => True
    | some (_, none) =>
      MqttMatches (tokens encounter.filter) (tokens encounter.published.topic) →
        (encounter.Wanted ↔ encounter.Kept maxBlock)
    | some (levels, some _) =>
      ((∃ path, tokens encounter.filter = "" :: path ∧
          Wildcard.Matches "+" "#" path levels.tail) ∧ encounter.Wanted ↔
        (dollar encounter.filter = false ∧
          Wildcard.Matches "+" "#" (tokens encounter.filter) levels.tail) ∧
        encounter.Kept maxBlock)

end Encounter

variable {topic : String} {serving : Serving} {copy : String × Handed}

theorem changeChar_topic2disk (plain : '#' ∉ topic.toList) :
    changeChar (topic2disk topic) '#' '/' = topic := by
  unfold topic2disk changeChar
  apply String.toList_inj.1
  rw [String.toList_ofList, String.toList_ofList, List.map_map]
  conv => rhs; rw [← map_id topic.toList]
  refine map_congr_left fun ch among => ?_
  have other : ch ≠ '#' := fun same => plain (same ▸ among)
  by_cases slash : ch = '/'
  · simp [slash]
  · simp [slash, other]

theorem publishable_of_accepted (accepted : mqttPubTopicCheck2 topic = 0) : Publishable topic := by
  have plain : ¬(topic.toList.any fun ch => ch = '+' ∨ ch = '#') = true := by
    intro wild
    unfold mqttPubTopicCheck2 at accepted
    rw [if_pos wild] at accepted
    split at accepted <;> cases accepted
  have each : ∀ ch ∈ topic.toList, ¬(ch = '+' ∨ ch = '#') := by simpa using plain
  exact ⟨toList_ne_nil accepted, fun among => each '+' among (.inl rfl),
    fun among => each '#' among (.inr rfl)⟩

/-! ### The two matchers -/

theorem topicTokenize_unshared {filter : String} (accepted : mqttSubTopicCheck2 filter = 0)
    (unshared : namesShare filter = false) :
    ((tokens filter).head? ≠ some "$share" ∧
      topicTokenize filter = some (ownLevels (tokens filter), none)) ∨
    ((tokens filter).head? = some "$share" ∧ topicTokenize filter = none) := by
  have some_text : filter.toList ≠ [] := by
    intro empty
    have blank : filter = "" := String.toList_inj.1 empty
    rw [blank] at accepted
    revert accepted
    decide
  by_cases shared : (tokens filter).head? = some "$share"
  · refine .inr ⟨shared, topicTokenize_refused shared fun group rest split => ?_⟩
    rw [namesShare_of_tokens split] at unshared
    cases unshared
  · refine .inl ⟨shared, ?_⟩
    rw [topicTokenize_plain some_text shared, ownLevels_tokens]

theorem ownLevels_matches {path topic : List String} (some_path : path ≠ [])
    (some_level : topic ≠ []) :
    Wildcard.Matches "+" "#" (ownLevels path) (ownLevels topic) ↔ MqttMatches path topic := by
  refine ⟨fun covers => ?_, fun both => (both.own some_path).1⟩
  have blank : "" ≠ "+" ∧ "" ≠ "#" := by decide
  unfold ownLevels at covers
  cases path with
  | nil => exact absurd rfl some_path
  | cons level path =>
    cases topic with
    | nil => exact absurd rfl some_level
    | cons other topic =>
      rw [head?_cons, head?_cons, map_some, map_some] at covers
      have literal (system : dollar level = true) : level ≠ "+" ∧ level ≠ "#" := by
        constructor
        · rintro rfl
          revert system
          decide
        · rintro rfl
          revert system
          decide
      by_cases mine : dollar level = true
      · rw [if_pos (congrArg some mine)] at covers
        by_cases its : dollar other = true
        · rw [if_pos (congrArg some its)] at covers
          refine ⟨fun _ => ?_, covers⟩
          simpa using literal mine
        · rw [if_neg fun same => its (some.inj same),
            Wildcard.matches_cons "+" "#" (literal mine)] at covers
          rw [covers.1] at mine
          exact absurd mine (by decide)
      · rw [if_neg fun same => mine (some.inj same)] at covers
        by_cases its : dollar other = true
        · rw [if_pos (congrArg some its), Wildcard.matches_cons "+" "#" blank] at covers
          rw [← covers.1] at its
          exact absurd its (by decide)
        · rw [if_neg fun same => its (some.inj same),
            Wildcard.matches_cons "+" "#" blank] at covers
          exact ⟨fun is => absurd (some.inj is) its, covers.2⟩

theorem not_mqttMatches_of_share {path topic : List String} (shared : path.head? = some "$share")
    (plain : topic.head? ≠ some "$share") : ¬MqttMatches path topic := by
  intro both
  cases both.2 with
  | rest => exact absurd shared (by decide)
  | done => cases shared
  | one _ _ => exact absurd shared (by rw [head?_cons]; decide)
  | level _ _ => exact plain shared

section Matchers

variable {filter topic : String} (acceptedFilter : mqttSubTopicCheck2 filter = 0)
  (unshared : namesShare filter = false) (acceptedTopic : mqttPubTopicCheck2 topic = 0)
include acceptedFilter unshared

section

variable {levels : List String} {group : Option String}
  (split : topicTokenize topic = some (levels, group))
include split

theorem retainMatches_iff :
    RetainMatches filter topic ↔ (tokens filter).head? ≠ some "$share" ∧
      Wildcard.Matches "+" "#" (ownLevels (tokens filter)) levels := by
  have last := last_ownLevels (accepted_last acceptedFilter)
  unfold RetainMatches
  rw [split]
  rcases topicTokenize_unshared acceptedFilter unshared with ⟨plain, own⟩ | ⟨shared, refused⟩
  · rw [own]
    constructor
    · rintro ⟨-, subLevels, _, _, _, first, second, covers⟩
      cases first
      cases second
      rw [topicMatchesSub_iff, upToHash_of_last last] at covers
      exact ⟨plain, covers⟩
    · rintro ⟨-, covers⟩
      refine ⟨unshared, _, _, _, _, rfl, rfl, ?_⟩
      rw [topicMatchesSub_iff, upToHash_of_last last]
      exact covers
  · rw [refused]
    constructor
    · rintro ⟨-, subLevels, _, _, _, first, -⟩
      cases first
    · rintro ⟨plain, -⟩
      exact absurd shared plain

theorem queueMatches_iff :
    QueueMatches filter topic ↔ (tokens filter).head? ≠ some "$share" ∧
      tokens filter ∈ lookedPaths topic levels := by
  have path : nodePath (ownLevels (tokens filter)) = tokens filter := by
    rw [ownLevels_tokens, nodePath_plain]
  unfold QueueMatches
  rw [split]
  rcases topicTokenize_unshared acceptedFilter unshared with ⟨plain, own⟩ | ⟨shared, refused⟩
  · rw [own]
    constructor
    · rintro ⟨subLevels, _, _, _, first, second, among⟩
      cases first
      cases second
      rw [path] at among
      exact ⟨plain, among⟩
    · rintro ⟨-, among⟩
      exact ⟨_, _, _, _, rfl, rfl, by rwa [path]⟩
  · rw [refused]
    constructor
    · rintro ⟨subLevels, _, _, _, first, -⟩
      cases first
    · rintro ⟨plain, -⟩
      exact absurd shared plain

end

include acceptedTopic

theorem matchers_plain (plain : (tokens topic).head? ≠ some "$share") :
    (QueueMatches filter topic ↔ MqttMatches (tokens filter) (tokens topic)) ∧
    (RetainMatches filter topic ↔ MqttMatches (tokens filter) (tokens topic)) := by
  have split := topicTokenize_plain (toList_ne_nil acceptedTopic) plain
  have head (both : MqttMatches (tokens filter) (tokens topic)) :
      (tokens filter).head? ≠ some "$share" :=
    fun shared => not_mqttMatches_of_share shared plain both
  constructor
  · rw [queueMatches_iff acceptedFilter unshared split, lookedPaths_plain,
      mem_topicPaths (tokens_ne_nil topic)]
    exact ⟨fun both => both.2, fun both => ⟨head both, both⟩⟩
  · rw [retainMatches_iff acceptedFilter unshared split, ← ownLevels_tokens,
      ownLevels_matches (tokens_ne_nil filter) (tokens_ne_nil topic)]
    exact ⟨fun both => both.2, fun both => ⟨head both, both⟩⟩

omit acceptedTopic in
/-- A topic `$share/<group>/<rest>` is looked for as `/<rest>` by the search and as `<rest>` by the
loop. -/
theorem matchers_shared {group : String} {rest : List String}
    (names : tokens topic = "$share" :: group :: rest) (long : rest ≠ [] ∧ rest ≠ [""]) :
    (QueueMatches filter topic ↔ ∃ path, tokens filter = "" :: path ∧
      Wildcard.Matches "+" "#" path rest) ∧
    (RetainMatches filter topic ↔ dollar filter = false ∧
      Wildcard.Matches "+" "#" (tokens filter) rest) := by
  have split := topicTokenize_shared names long
  constructor
  · rw [queueMatches_iff acceptedFilter unshared split, lookedPaths_shared names, List.mem_map]
    constructor
    · rintro ⟨-, path, among, same⟩
      exact ⟨path, same.symm, (Wildcard.mem_visited "+" "#").1 among⟩
    · rintro ⟨path, same, covers⟩
      refine ⟨?_, path, (Wildcard.mem_visited "+" "#").2 covers, same.symm⟩
      rw [same, head?_cons]
      decide
  · rw [retainMatches_iff acceptedFilter unshared split, ownLevels_tokens]
    have first := tokens_dollar filter
    cases levels : tokens filter with
    | nil => exact absurd levels (tokens_ne_nil filter)
    | cons level others =>
      rw [levels, head?_cons, map_some, some.injEq] at first
      by_cases system : dollar filter = true
      · rw [if_pos system]
        constructor
        · rintro ⟨-, covers⟩
          have literal : level ≠ "+" ∧ level ≠ "#" := by
            constructor
            · rintro rfl
              rw [system] at first
              revert first
              decide
            · rintro rfl
              rw [system] at first
              revert first
              decide
          rw [Wildcard.matches_cons "+" "#" literal] at covers
          rw [covers.1, system] at first
          exact absurd first (by decide)
        · rintro ⟨other, -⟩
          rw [system] at other
          cases other
      · rw [if_neg system, Wildcard.matches_cons "+" "#" (by decide), head?_cons]
        have ordinary : dollar filter = false := by simpa using system
        constructor
        · rintro ⟨-, -, covers⟩
          exact ⟨ordinary, covers⟩
        · rintro ⟨-, covers⟩
          refine ⟨?_, rfl, covers⟩
          rintro shared
          rw [some.inj shared, ordinary] at first
          revert first
          decide

end Matchers

/-! ### The client that subscribed before -/

theorem copies_of (sessions : String → Option Session) (message : Message)
    (subscribers : Subscribers) (once : (subscribers.map Prod.fst).Nodup) (clientId : String) :
    ((sendNormal sessions message subscribers).filter fun copy => copy.1 = clientId).map Prod.snd =
      ((Dict.lookupEntries clientId subscribers).bind fun sub =>
        (subsSend sessions message clientId sub).2.map fun handed =>
          (message.topic, handed)).toList := by
  induction subscribers with
  | nil => rfl
  | cons entry rest ih =>
    rw [map_cons, nodup_cons] at once
    have later := ih once.2
    unfold sendNormal at later ⊢
    rw [filterMap_cons, Dict.lookupEntries]
    by_cases mine : entry.1 = clientId
    · have absent : Dict.lookupEntries clientId rest = none := by
        cases found : Dict.lookupEntries clientId rest with
        | none => rfl
        | some sub =>
          have among := mem_map_of_mem (f := Prod.fst) (mem_of_lookupEntries found)
          exact absurd (mine ▸ among) once.1
      rw [absent] at later
      rw [if_pos mine, bind_some, mine]
      cases (subsSend sessions message clientId entry.2).2 with
      | none => exact later
      | some handed =>
        dsimp only [map_some]
        rw [filter_cons_of_pos (by simp), map_cons, later]
        rfl
    · rw [if_neg mine]
      cases (subsSend sessions message entry.1 entry.2).2 with
      | none => exact later
      | some handed =>
        dsimp only [map_some]
        rw [filter_cons_of_neg (by simpa using mine)]
        exact later

/-- What `subs__send` hands over gets to a client with a session that wants it and is connected or
has a QoS that is queued. -/
theorem subsSend_arrives (sessions : String → Option Session) (message : Message)
    (clientId : String) (sub : Subscriber) :
    (∃ handed, (subsSend sessions message clientId sub).2 = some handed ∧ handed.arrives = true) ↔
    (∃ session, sessions clientId = some session ∧
      (session.connected = true ∨ 0 < message.qos ∧ 0 < sub.qos.toNat)) ∧
    ¬(noLocal sub.options = true ∧ clientId = message.clientId) := by
  unfold subsSend
  cases sessions clientId with
  | none => simp
  | some session =>
    dsimp only
    by_cases own : noLocal sub.options = true ∧ clientId = message.clientId
    · rw [if_pos own]
      simp [own, Handed.arrives]
    · rw [if_neg own]
      have lowest : (if message.qos > sub.qos.toNat then sub.qos.toNat else message.qos) = 0 ↔
          ¬(0 < message.qos ∧ 0 < sub.qos.toNat) := by
        split <;> omega
      cases up : session.connected with
      | true => simp [own, up, Handed.arrives]
      | false =>
        rw [if_pos (by decide)]
        by_cases zero : (if message.qos > sub.qos.toNat then sub.qos.toNat else message.qos) = 0
        · have nothing := lowest.1 zero
          rw [if_pos zero]
          simpa [Handed.arrives, own, up] using nothing
        · have both := not_not.1 fun neither => zero (lowest.2 neither)
          rw [if_neg zero]
          simpa [Handed.arrives, own, up] using both

theorem mergeSubscriber_first (info : SubInfo) :
    (mergeSubscriber none info.toJson).qos.toNat = info.qos.toNat ∧
      (mergeSubscriber none info.toJson).options = info.options.toNat := by
  have bound := info.options.toNat_lt
  constructor
  · simp [mergeSubscriber, infoField_qos, toInt_qos]
  · simp only [mergeSubscriber, infoField_options]
    exact toInt_of_lt (by omega)

theorem filterMap_single {α β : Type} [DecidableEq α] {paths : List α} (once : paths.Nodup)
    (path : α) (value : β) :
    (paths.filterMap fun other => if other = path then some value else none) =
      if path ∈ paths then [value] else [] := by
  induction paths with
  | nil => rfl
  | cons first rest ih =>
    rw [nodup_cons] at once
    rw [filterMap_cons]
    by_cases here : first = path
    · have absent : path ∉ rest := here ▸ once.1
      rw [if_pos here, ih once.2, if_neg absent, here, if_pos mem_cons_self]
    · rw [if_neg here, ih once.2]
      have ne : path ≠ first := Ne.symm here
      simp [mem_cons, ne]

theorem lookedPaths_nodup (accepted : mqttPubTopicCheck2 topic = 0)
    {levels : List String} {group : Option String}
    (split : topicTokenize topic = some (levels, group)) : (lookedPaths topic levels).Nodup := by
  have plain := tokens_plain accepted
  rcases topicTokenize_cases (toList_ne_nil accepted) with
    ⟨ordinary, same⟩ | ⟨name, rest, names, long, same⟩ | none
  · rw [split] at same
    cases same
    rw [lookedPaths_plain]
    exact topicPaths_nodup plain
  · rw [split] at same
    cases same
    rw [lookedPaths_shared names]
    rw [names] at plain
    refine (Wildcard.visited_nodup "+" "#" (by decide) ⟨fun among => plain.1 ?_,
      fun among => plain.2 ?_⟩).map fun _ _ same => (cons.inj same).2
    · exact mem_cons_of_mem _ (mem_cons_of_mem _ among)
    · exact mem_cons_of_mem _ (mem_cons_of_mem _ among)
  · rw [split] at none
    cases none

theorem Serving.Sound.added (sound : serving.Sound) (filter : Filter)
    {clientId : String} (clean : subsKey ∉ tokens filter.text) (named : clientId ≠ subsKey)
    (info : SubInfo) :
    Keeps (subAdd serving.routing.subs filter.text clientId info).2.normalSubs
      (serving.routing.live.set (tokens filter.text, clientId) info) ∧
    ∀ key ∈ (serving.routing.live.set (tokens filter.text, clientId) info).keys,
      key.2 ≠ subsKey := by
  constructor
  · rw [subAdd_normal]
    exact sound.keeps.add clean clientId info
  · intro key among
    rw [keys_set] at among
    split at among
    · exact sound.named key among
    · rcases mem_append.1 among with old | new
      · exact sound.named key old
      · rw [mem_singleton.1 new]
        exact named

theorem arrives_toList (copy : Option (String × Handed)) :
    Arrives copy.toList ↔ ∃ some_copy, copy = some some_copy ∧ some_copy.2.arrives = true := by
  unfold Arrives
  cases copy <;> simp

/-- The search for a client without subscriptions that subscribes finds it when it looks at the path
of the filter. -/
theorem Encounter.lookup_live (sound : serving.Sound)
    (encounter : Encounter serving) {levels : List String} {group : Option String}
    (split : topicTokenize encounter.published.topic = some (levels, group)) :
    Dict.lookupEntries encounter.clientId (searchTree (subAdd serving.routing.subs encounter.filter
        encounter.clientId encounter.info).2.normalSubs encounter.published.topic levels) =
      if (tokens encounter.filter).head? ≠ some "$share" ∧
          tokens encounter.filter ∈ lookedPaths encounter.published.topic levels then
        some (mergeSubscriber none encounter.info.toJson)
      else none := by
  rw [searchTree_looked]
  rcases topicTokenize_unshared encounter.acceptedFilter encounter.unshared with
    ⟨plain, -⟩ | ⟨shared, refused⟩
  · have added := sound.added ⟨encounter.filter, encounter.acceptedFilter, plain⟩ encounter.clean
      encounter.named encounter.info
    have held (path : List String) :
        (serving.routing.live.set (tokens encounter.filter, encounter.clientId)
          encounter.info).get? (path, encounter.clientId) =
        if path = tokens encounter.filter then some encounter.info else none := by
      rw [get?_set, encounter.fresh path]
      by_cases same : path = tokens encounter.filter
      · rw [if_pos (congrArg (·, encounter.clientId) same), if_pos same]
      · rw [if_neg fun is => same (congrArg Prod.fst is), if_neg same]
    have once := lookedPaths_nodup encounter.acceptedTopic split
    rw [added.1.looked fun _ _ before _ key => added.2 _ key rfl]
    simp only [held]
    rw [filterMap_single once]
    by_cases among : tokens encounter.filter ∈ lookedPaths encounter.published.topic levels
    · rw [if_pos among, if_pos ⟨plain, among⟩]
      rfl
    · rw [if_neg among, if_neg fun both => among both.2]
      rfl
  · have same : subAdd serving.routing.subs encounter.filter encounter.clientId encounter.info =
        (-1, serving.routing.subs) := by
      unfold subAdd
      rw [refused]
    rw [same, if_neg fun both => both.1 shared,
      sound.keeps.looked fun _ _ before _ key => sound.named _ key rfl]
    simp only [encounter.fresh]
    rw [filterMap_none]
    rfl

/-- The message gets to the client that subscribed before when it is delivered at all, the client
wants it and the search looks at its filter. -/
theorem Encounter.arrives_live (sound : serving.Sound)
    (encounter : Encounter serving) (maxBlock : Nat) :
    Arrives (encounter.liveCopies maxBlock) ↔ encounter.Deliverable ∧ encounter.Wanted ∧
      QueueMatches encounter.filter encounter.published.topic := by
  unfold liveCopies subMessagesQueueRetain
  dsimp only
  rw [collected_eq _ encounter.acceptedTopic]
  cases split : topicTokenize encounter.published.topic with
  | none =>
    constructor
    · rintro ⟨copy, among, -⟩
      cases among
    · rintro ⟨-, -, subLevels, _, levels, _, -, second, -⟩
      rw [split] at second
      cases second
  | some found =>
    have ⟨levels, group⟩ := found
    dsimp only [map_some]
    by_cases empty : encounter.published.payloadlen = 0
    · rw [if_pos ⟨encounter.retained, empty⟩]
      constructor
      · rintro ⟨copy, among, -⟩
        cases among
      · rintro ⟨deliverable, -⟩
        exact absurd empty deliverable.2
    · rw [if_neg fun both => empty both.2]
      have once : ((searchTree (subAdd serving.routing.subs encounter.filter encounter.clientId
          encounter.info).2.normalSubs encounter.published.topic levels).map Prod.fst).Nodup := by
        rw [searchTree_looked]
        exact nodup_collectPaths _ _ [] nodup_nil
      rw [copies_of _ _ _ once, encounter.lookup_live sound split, arrives_toList,
        queueMatches_iff encounter.acceptedFilter encounter.unshared split]
      have read := mergeSubscriber_first encounter.info
      by_cases looked : (tokens encounter.filter).head? ≠ some "$share" ∧
          tokens encounter.filter ∈ lookedPaths encounter.published.topic levels
      · have sent := subsSend_arrives encounter.sessions encounter.published.toMessage
          encounter.clientId (mergeSubscriber none encounter.info.toJson)
        rw [read.1, read.2] at sent
        rw [if_pos looked, bind_some]
        constructor
        · rintro ⟨copy, made, arrives⟩
          obtain ⟨handed, some_handed, rfl⟩ := map_eq_some_iff.1 made
          have both := sent.1 ⟨handed, some_handed, arrives⟩
          exact ⟨⟨both.1, empty⟩, both.2, looked⟩
        · rintro ⟨deliverable, wanted, -⟩
          have ⟨handed, some_handed, arrives⟩ := sent.2 ⟨deliverable.1, wanted⟩
          exact ⟨_, by rw [some_handed]; rfl, arrives⟩
      · rw [if_neg looked]
        constructor
        · rintro ⟨copy, made, -⟩
          cases made
        · rintro ⟨-, -, both⟩
          exact absurd both looked

theorem Encounter.named_live (encounter : Encounter serving) (maxBlock : Nat)
    (among : copy ∈ encounter.liveCopies maxBlock) :
    copy.1 = encounter.published.topic := by
  unfold liveCopies subMessagesQueueRetain at among
  obtain ⟨entry, kept, rfl⟩ := mem_map.1 among
  have sent := mem_of_mem_filter kept
  split at sent
  · cases sent
  · split at sent
    · cases sent
    · have ⟨subscriber, _, made⟩ := mem_filterMap.1 sent
      obtain ⟨handed, -, rfl⟩ := map_eq_some_iff.1 made
      rfl

/-! ### The client that subscribes afterwards -/

theorem Routing.named_step {routing : Routing} (named : ∀ key ∈ routing.live.keys, key.2 ≠ subsKey)
    (call : Call) (clean : (ServingCall.call call).Clean) :
    ∀ key ∈ (routing.step call).live.keys, key.2 ≠ subsKey := by
  intro key among
  cases call with
  | add filter clientId info =>
    rw [Routing.step, keys_set] at among
    split at among
    · exact named key among
    · rcases mem_append.1 among with old | new
      · exact named key old
      · rw [mem_singleton.1 new]
        exact clean.2
  | remove filter clientId =>
    rw [Routing.step, Dict.mem_keys, Dict.get?_erase] at among
    split at among
    · cases among
    · exact named key ((mem_keys _ _).2 among)
  | removeClient clientId =>
    rw [Routing.step, Dict.mem_keys, Live.get?_removeClient] at among
    split at among
    · cases among
    · exact named key ((mem_keys _ _).2 among)

theorem updateRetainNode_get? (retained : Retained) (node : RetainNode) (key : List UInt8) :
    (updateRetainNode retained node).get? key =
      if key = primaryKey node.id ∧ ((isValidKeyName node.id && validStringKey node.id) = true ∨
          (retained.get? (primaryKey node.id)).isSome = true) then some node
      else retained.get? key := by
  unfold updateRetainNode
  by_cases here : key = primaryKey node.id
  · cases found : retained.get? (primaryKey node.id) with
    | none =>
      by_cases valid : (isValidKeyName node.id && validStringKey node.id) = true
      · rw [if_pos valid, get?_set, if_pos here, if_pos ⟨here, .inl valid⟩]
      · rw [if_neg valid, if_neg]
        rintro ⟨-, is | is⟩
        · exact valid is
        · cases is
    | some old =>
      rw [get?_set, if_pos here, if_pos ⟨here, .inr rfl⟩]
  · refine Eq.trans ?_ (if_neg fun both => here both.1).symm
    split
    · split
      · rw [get?_set, if_neg here]
      · rfl
    · rw [get?_set, if_neg here]

theorem retainStore_get? (maxBlock : Nat) (retained : Retained) (published : Published)
    (key : List UInt8) :
    (∀ node, (retainStore maxBlock retained published).get? key = some node →
      retained.get? key = some node ∨
        node.id = topic2disk published.topic ∧ key = primaryKey node.id) ∧
    (key ≠ primaryKey (topic2disk published.topic) →
      (retainStore maxBlock retained published).get? key = retained.get? key) := by
  unfold retainStore
  split
  · exact ⟨fun node found => .inl found, fun _ => rfl⟩
  · split
    · constructor
      · intro node found
        rw [get?_erase] at found
        split at found
        · cases found
        · exact .inl found
      · intro other
        rw [get?_erase, if_neg other]
    · split
      · exact ⟨fun node found => .inl found, fun _ => rfl⟩
      · constructor
        · intro node found
          rw [updateRetainNode_get?] at found
          split at found
          · rename_i stored
            cases found
            exact .inr ⟨rfl, stored.1⟩
          · exact .inl found
        · intro other
          rw [updateRetainNode_get?, if_neg fun both => other both.1]

theorem subMessagesQueue_retained (maxBlock : Nat) (sessions : String → Option Session)
    (subs : Subs) (retained : Retained) (published : Published) :
    (subMessagesQueueRetain maxBlock sessions subs retained published).retained =
      if published.retain = true ∧ (collected subs published.topic).isSome = true then
        retainStore maxBlock retained published
      else retained := by
  unfold subMessagesQueueRetain
  cases collected subs published.topic with
  | none => simp
  | some both =>
    by_cases asked : published.retain = true
    · by_cases empty : published.payloadlen = 0
      · simp [asked, empty]
      · simp [asked, empty]
    · simp [asked]

theorem Serving.Sound.step (sound : serving.Sound) (maxBlock : Nat)
    (call : ServingCall) (clean : call.Clean) : (serving.step maxBlock call).Sound := by
  cases call with
  | call call =>
    refine ⟨?_, Routing.named_step sound.named call clean, sound.filed⟩
    cases call with
    | add filter clientId info => exact (sound.added filter clean.1 clean.2 info).1
    | remove filter clientId =>
      have removed := @Keeps.remove _ _ sound.keeps (tokens filter.text) clean clientId
      rw [← subRemove_normal] at removed
      exact removed
    | removeClient clientId => exact sound.keeps.removeClient clientId
  | publish sessions published =>
    refine ⟨sound.keeps, sound.named, fun key node found => ?_⟩
    rw [Serving.step, subMessagesQueue_retained] at found
    split at found
    · rcases (retainStore_get? maxBlock serving.retained published key).1 node found with old | new
      · exact sound.filed key node old
      · exact new.2
    · exact sound.filed key node found

theorem sound_fresh : Serving.fresh.Sound where
  keeps := keeps_empty
  named := fun _ among => absurd among not_mem_nil
  filed := fun _ _ found => by cases found

theorem leaves_run (maxBlock : Nat) {key : List UInt8} (calls : List ServingCall)
    (leaves : ∀ call ∈ calls, call.Leaves key) (serving : Serving) :
    (run (Serving.step maxBlock) serving calls).retained.get? key = serving.retained.get? key := by
  induction calls generalizing serving with
  | nil => rfl
  | cons call rest ih =>
    have later := ih (fun other among => leaves other (mem_cons_of_mem _ among))
      (serving.step maxBlock call)
    refine later.trans ?_
    cases call with
    | call call => rfl
    | publish sessions published =>
      rw [Serving.step, subMessagesQueue_retained]
      split
      · rename_i stored
        have other := leaves _ mem_cons_self stored.1
        exact (retainStore_get? maxBlock serving.retained published key).2 (Ne.symm other)
      · rfl

/-- One turn of the loop sends the node of a topic when the filter matches it, it has not expired,
its payload can be read back and the session gets it. -/
theorem retainQueueOne_arrives {maxBlock : Nat} {session : Session} {now : Int}
    {subLevels : List String} {subQos : Nat} {node : RetainNode}
    (plain : '#' ∉ topic.toList) (id : node.id = topic2disk topic) {levels : List String}
    {group : Option String} (split : topicTokenize topic = some (levels, group)) :
    (∃ copy, retainQueueOne maxBlock session now subLevels subQos node = some copy ∧
      copy.2.arrives = true) ↔
    topicMatchesSub subLevels levels = true ∧ node.expired now = false ∧
      (gbufferDeserialize maxBlock node.payload).isSome = true ∧
      (session.connected = true ∨ 0 < node.qos ∧ 0 < subQos) := by
  have lowest : (if node.qos > subQos then subQos else node.qos) > 0 ↔
      0 < node.qos ∧ 0 < subQos := by
    split <;> omega
  unfold retainQueueOne
  dsimp only
  rw [id, changeChar_topic2disk plain, split]
  dsimp only
  by_cases covers : topicMatchesSub subLevels levels = true
  · rw [if_neg (not_not.2 covers)]
    cases node.expired now with
    | true => simp
    | false =>
      rw [if_neg (by decide)]
      cases gbufferDeserialize maxBlock node.payload with
      | none => simp
      | some gbuf =>
        cases up : session.connected with
        | true => simp [covers, Handed.arrives]
        | false =>
          rw [if_neg (by decide)]
          by_cases some_qos : (if node.qos > subQos then subQos else node.qos) > 0
          · rw [if_pos some_qos]
            simp [covers, Handed.arrives, lowest.1 some_qos]
          · have nothing := fun both => some_qos (lowest.2 both)
            rw [if_neg some_qos]
            simpa [covers, Handed.arrives] using nothing
  · rw [if_pos covers]
    simp [covers]

theorem retainQueueOne_named {maxBlock : Nat} {session : Session} {now : Int}
    {subLevels : List String} {subQos : Nat} {node : RetainNode}
    (sent : retainQueueOne maxBlock session now subLevels subQos node = some copy) :
    copy.1 = changeChar node.id '#' '/' ∧ topicTokenize (changeChar node.id '#' '/') ≠ none := by
  unfold retainQueueOne at sent
  generalize (if node.qos > subQos then subQos else node.qos) = msgQos at sent
  dsimp only at sent
  split at sent
  · cases sent
  · rename_i split
    refine ⟨?_, by rw [split]; exact some_ne_none _⟩
    split at sent
    · cases sent
    · split at sent
      · cases sent
      · split at sent
        · cases sent
        · split at sent
          · cases sent
            rfl
          · split at sent
            · cases sent
              rfl
            · cases sent
              rfl

/-- The copies of the client that subscribed afterwards are those of the node of the topic. -/
theorem Encounter.mem_retainedCopies (sound : serving.Sound)
    (encounter : Encounter serving) (maxBlock : Nat) (copy : String × Handed) :
    copy ∈ encounter.retainedCopies maxBlock ↔ (tokens encounter.filter).head? ≠ some "$share" ∧
      ∃ session node, encounter.sessions encounter.clientId = some session ∧
        (encounter.afterwards maxBlock).retained.get?
          (primaryKey (topic2disk encounter.published.topic)) = some node ∧
        node.id = topic2disk encounter.published.topic ∧
        retainQueueOne maxBlock session encounter.now (ownLevels (tokens encounter.filter))
          encounter.info.qos.toNat node = some copy := by
  have after : (encounter.afterwards maxBlock).Sound := by
    have published := sound.step maxBlock (.publish encounter.sessions encounter.published) trivial
    exact ((AllSteps.of_mem (Serving.step maxBlock) encounter.laterClean _).invariant
      (Serving.step maxBlock) (fun state call held clean => held.step maxBlock call clean)
      published).last
  unfold retainedCopies subscribeRetained retainQueue
  dsimp only
  rw [encounter.unshared]
  rcases topicTokenize_unshared encounter.acceptedFilter encounter.unshared with
    ⟨plain, own⟩ | ⟨shared, refused⟩
  · have added : ¬(subAdd (encounter.afterwards maxBlock).routing.subs encounter.filter
        encounter.clientId encounter.info).1 < 0 := by
      unfold subAdd
      rw [own]
      dsimp only
      rw [ownLevels_tokens, nodePath_plain, (treeAdd_held after.keeps.shaped _ encounter.clean _ _).1]
      split <;> decide
    rw [if_neg added, own, if_neg (by decide)]
    constructor
    · intro among
      obtain ⟨pair, kept, rfl⟩ := mem_map.1 among
      have id := (mem_filter.1 kept).2
      have sent := mem_of_mem_filter kept
      cases known : encounter.sessions encounter.clientId with
      | none =>
        rw [known] at sent
        cases sent
      | some session =>
        rw [known] at sent
        have ⟨entry, filed, made⟩ := mem_filterMap.1 sent
        obtain ⟨copy, some_copy, rfl⟩ := map_eq_some_iff.1 made
        rw [decide_eq_true_eq] at id
        have stored := get?_of_mem _ filed
        rw [after.filed _ _ stored, id] at stored
        exact ⟨plain, session, entry.2, rfl, stored, id, some_copy⟩
    · rintro ⟨-, session, node, known, stored, id, sent⟩
      rw [known]
      refine mem_map.2 ⟨(node, copy), mem_filter.2 ⟨?_, by simpa using id⟩, rfl⟩
      exact mem_filterMap.2 ⟨_, mem_of_lookupEntries stored, by rw [sent]; rfl⟩
  · have failed : (subAdd (encounter.afterwards maxBlock).routing.subs encounter.filter
        encounter.clientId encounter.info).1 < 0 := by
      unfold subAdd
      rw [refused]
      show (-1 : Int) < 0
      decide
    rw [if_pos failed]
    constructor
    · intro among
      cases among
    · rintro ⟨plain, -⟩
      exact absurd shared plain

/-- The node of the topic when the client subscribes afterwards is that of the message, where its
name can be stored. -/
theorem Encounter.stored (encounter : Encounter serving) (maxBlock : Nat)
    (taken : topicTokenize encounter.published.topic ≠ none) (node : RetainNode) :
    (encounter.afterwards maxBlock).retained.get?
        (primaryKey (topic2disk encounter.published.topic)) = some node ↔
      encounter.published.payloadlen ≠ 0 ∧
      ((isValidKeyName (topic2disk encounter.published.topic) &&
          validStringKey (topic2disk encounter.published.topic)) = true ∨
        (serving.retained.get? (primaryKey (topic2disk encounter.published.topic))).isSome = true) ∧
      ∃ gbuf, encounter.published.payload = some gbuf ∧
        node = encounter.published.node maxBlock gbuf := by
  have collects : (collected serving.routing.subs encounter.published.topic).isSome = true := by
    rw [collected_eq _ encounter.acceptedTopic, isSome_map]
    exact isSome_iff_ne_none.2 taken
  unfold afterwards
  rw [leaves_run maxBlock encounter.later encounter.laterLeaves, Serving.step,
    subMessagesQueue_retained, if_pos ⟨encounter.retained, collects⟩]
  unfold retainStore
  rw [encounter.ordinary, if_neg (by decide)]
  by_cases empty : encounter.published.payloadlen = 0
  · rw [if_pos empty, get?_erase, if_pos rfl]
    simp [empty]
  · rw [if_neg empty]
    cases payload : encounter.published.payload with
    | none =>
      unfold Published.payloadlen at empty
      rw [payload] at empty
      exact absurd rfl empty
    | some gbuf =>
      rw [updateRetainNode_get?]
      have id : (encounter.published.node maxBlock gbuf).id =
          topic2disk encounter.published.topic := rfl
      rw [id]
      by_cases room : (isValidKeyName (topic2disk encounter.published.topic) &&
          validStringKey (topic2disk encounter.published.topic)) = true ∨
          (serving.retained.get? (primaryKey (topic2disk encounter.published.topic))).isSome = true
      · rw [if_pos ⟨rfl, room⟩, some.injEq]
        constructor
        · rintro rfl
          exact ⟨empty, room, gbuf, rfl, rfl⟩
        · rintro ⟨-, -, other, same, rfl⟩
          cases same
          rfl
      · rw [if_neg fun both => room both.2]
        have absent : serving.retained.get?
            (primaryKey (topic2disk encounter.published.topic)) = none := by
          rw [not_or, not_isSome_iff_eq_none] at room
          exact room.2
        constructor
        · intro is
          rw [absent] at is
          cases is
        · rintro ⟨-, either, -⟩
          exact absurd either room

section

variable (sound : serving.Sound) (encounter : Encounter serving) (maxBlock : Nat)
include sound encounter maxBlock

theorem Encounter.named_retained (among : copy ∈ encounter.retainedCopies maxBlock) :
    copy.1 = encounter.published.topic ∧ topicTokenize encounter.published.topic ≠ none := by
  have plain := (publishable_of_accepted encounter.acceptedTopic).2.2
  have ⟨_, session, node, _, _, id, sent⟩ :=
    (encounter.mem_retainedCopies sound maxBlock copy).1 among
  have named := retainQueueOne_named sent
  rwa [id, changeChar_topic2disk plain] at named

/-- The message gets to the client that subscribes afterwards when it is delivered at all, is kept
and the loop matches its filter. -/
theorem Encounter.arrives_retained :
    Arrives (encounter.retainedCopies maxBlock) ↔ encounter.Deliverable ∧
      encounter.Kept maxBlock ∧ RetainMatches encounter.filter encounter.published.topic := by
  have plain := (publishable_of_accepted encounter.acceptedTopic).2.2
  cases split : topicTokenize encounter.published.topic with
  | none =>
    constructor
    · rintro ⟨copy, among, -⟩
      exact absurd split (encounter.named_retained sound maxBlock among).2
    · rintro ⟨-, -, -, subLevels, _, levels, _, -, second, -⟩
      rw [split] at second
      cases second
  | some found =>
    have ⟨levels, group⟩ := found
    have taken : topicTokenize encounter.published.topic ≠ none := by
      rw [split]
      exact some_ne_none _
    have last := last_ownLevels (accepted_last encounter.acceptedFilter)
    rw [retainMatches_iff encounter.acceptedFilter encounter.unshared split]
    have covers : topicMatchesSub (ownLevels (tokens encounter.filter)) levels = true ↔
        Wildcard.Matches "+" "#" (ownLevels (tokens encounter.filter)) levels := by
      rw [topicMatchesSub_iff, upToHash_of_last last]
    constructor
    · rintro ⟨copy, among, arrives⟩
      have ⟨head, session, node, known, stored, id, sent⟩ :=
        (encounter.mem_retainedCopies sound maxBlock copy).1 among
      obtain ⟨some_payload, room, gbuf, payload, rfl⟩ :=
        (encounter.stored maxBlock taken node).1 stored
      have ⟨matched, waiting, read, gets⟩ :=
        (retainQueueOne_arrives plain id split).1 ⟨copy, sent, arrives⟩
      exact ⟨⟨⟨session, known, gets⟩, some_payload⟩, ⟨room, gbuf, payload, waiting, read⟩, head,
        covers.1 matched⟩
    · rintro ⟨⟨⟨session, known, gets⟩, some_payload⟩, ⟨room, gbuf, payload, waiting, read⟩, head,
        matched⟩
      have stored := (encounter.stored maxBlock taken _).2 ⟨some_payload, room, gbuf, payload, rfl⟩
      have ⟨copy, sent, arrives⟩ := (retainQueueOne_arrives plain rfl split).2
        ⟨covers.2 matched, waiting, read, gets⟩
      exact ⟨copy, (encounter.mem_retainedCopies sound maxBlock copy).2
        ⟨head, session, _, known, stored, rfl, sent⟩, arrives⟩

theorem Encounter.agree_iff :
    Agree encounter.published.topic (encounter.liveCopies maxBlock)
      (encounter.retainedCopies maxBlock) ↔ encounter.Fair maxBlock := by
  have named : ∀ copy ∈ encounter.liveCopies maxBlock ++ encounter.retainedCopies maxBlock,
      copy.1 = encounter.published.topic := by
    intro copy among
    rcases mem_append.1 among with live | retained
    · exact encounter.named_live maxBlock live
    · exact (encounter.named_retained sound maxBlock retained).1
  have alike : Agree encounter.published.topic (encounter.liveCopies maxBlock)
      (encounter.retainedCopies maxBlock) ↔
      (Arrives (encounter.liveCopies maxBlock) ↔ Arrives (encounter.retainedCopies maxBlock)) :=
    ⟨fun agree => agree.alike, fun same => ⟨same, named⟩⟩
  rw [alike, encounter.arrives_live sound, encounter.arrives_retained sound, and_congr_right_iff]
  unfold Fair
  rcases topicTokenize_cases (toList_ne_nil encounter.acceptedTopic) with
    ⟨plain, split⟩ | ⟨group, rest, names, long, split⟩ | refused
  · have ⟨queue, retain⟩ := matchers_plain encounter.acceptedFilter encounter.unshared
      encounter.acceptedTopic plain
    rw [split, queue, retain]
    exact imp_congr_right fun _ => and_congr_left_iff
  · have ⟨queue, retain⟩ := matchers_shared encounter.acceptedFilter encounter.unshared names long
    rw [split, queue, retain]
    exact imp_congr_right fun _ => iff_congr and_comm and_comm
  · have neither : ¬QueueMatches encounter.filter encounter.published.topic ∧
        ¬RetainMatches encounter.filter encounter.published.topic := by
      constructor
      · rintro ⟨_, _, _, _, _, second, _⟩
        rw [refused] at second
        cases second
      · rintro ⟨_, _, _, _, _, _, second, _⟩
        rw [refused] at second
        cases second
    rw [refused]
    simp [neither]

end

/-- In every state of a run of subscriptions, removals and publications without a level or a client
`SUBS_KEY`, a client that subscribes to a filter before a message is published and one that does so
afterwards get it alike, and under its topic, exactly where the conditions of the search and of the
loop agree. -/
theorem retained_agrees_iff (maxBlock : Nat) (calls : List ServingCall)
    (clean : ∀ call ∈ calls, call.Clean) :
    AllStates (Serving.step maxBlock) (fun serving => ∀ encounter : Encounter serving,
      Agree encounter.published.topic (encounter.liveCopies maxBlock)
        (encounter.retainedCopies maxBlock) ↔ encounter.Fair maxBlock)
      Serving.fresh calls := by
  have sound : AllStates (Serving.step maxBlock) Serving.Sound Serving.fresh calls :=
    (AllSteps.of_mem (Serving.step maxBlock) clean Serving.fresh).invariant
      (Serving.step maxBlock) (fun serving call held clean => held.step maxBlock call clean)
      sound_fresh
  exact AllStates.mono (Serving.step maxBlock)
    (fun _ sound encounter => encounter.agree_iff sound maxBlock) sound

/-- One client subscribes and unsubscribes, another one publishes. -/
theorem retained_agrees_published :
    AllStates (Serving.step 8192) (fun serving => ∀ encounter : Encounter serving,
      Agree encounter.published.topic (encounter.liveCopies 8192)
        (encounter.retainedCopies 8192) ↔ encounter.Fair 8192)
      Serving.fresh
      [.call (.add ⟨"a/+", by decide, by decide⟩ "one" ⟨1, 0, 0⟩),
        .publish (fun _ => some ⟨true⟩) ⟨⟨"a/b", 1, "two"⟩, true, 0, 0, none⟩,
        .call (.removeClient "one")] :=
  retained_agrees_iff 8192 _ (by
    intro call among
    simp only [List.mem_cons, List.not_mem_nil, or_false] at among
    rcases among with rfl | rfl | rfl
    · exact ⟨by decide, by decide⟩
    · trivial
    · trivial)

/-- A payload of one byte. -/
def onePayload : Gobj.Gbuffer where
  data := [120]
  dataSize := 1
  maxMemorySize := 1
  written := by decide
  fits := by decide

/-- A client `one` and a message with QoS 0 of another client, in a broker without subscriptions. -/
def meet (filter topic : String) (acceptedFilter : mqttSubTopicCheck2 filter = 0)
    (unshared : namesShare filter = false) (clean : subsKey ∉ tokens filter)
    (acceptedTopic : mqttPubTopicCheck2 topic = 0) (ordinary : startsSys topic = false) :
    Encounter Serving.fresh where
  filter := filter
  acceptedFilter := acceptedFilter
  unshared := unshared
  clean := clean
  clientId := "one"
  named := by decide
  fresh := fun _ => rfl
  info := ⟨0, 0, 0⟩
  published := ⟨⟨topic, 0, "two"⟩, true, 0, 0, some onePayload⟩
  acceptedTopic := acceptedTopic
  ordinary := ordinary
  retained := rfl
  sessions := fun _ => some ⟨true⟩
  now := 0
  later := []
  laterClean := fun _ among => absurd among List.not_mem_nil
  laterLeaves := fun _ among => absurd among List.not_mem_nil

instance (copies : List (String × Handed)) : Decidable (Arrives copies) :=
  inferInstanceAs (Decidable (∃ copy ∈ copies, copy.2.arrives = true))

theorem not_agree {live retained : List (String × Handed)}
    (apart : ¬(Arrives live ↔ Arrives retained)) : ¬Agree topic live retained :=
  fun agree => apart agree.alike

/-- A topic that is read as a shared subscription reaches the holder of `/a` when it is published and
that of `a` afterwards, and a topic that starts with a dot is not kept. -/
theorem retained_astray :
    ¬Agree "$share/g/a"
      ((meet "a" "$share/g/a" (by decide) (by decide) (by decide) (by decide)
        (by decide)).liveCopies 8192)
      ((meet "a" "$share/g/a" (by decide) (by decide) (by decide) (by decide)
        (by decide)).retainedCopies 8192) ∧
    ¬Agree "$share/g/a"
      ((meet "/a" "$share/g/a" (by decide) (by decide) (by decide) (by decide)
        (by decide)).liveCopies 8192)
      ((meet "/a" "$share/g/a" (by decide) (by decide) (by decide) (by decide)
        (by decide)).retainedCopies 8192) ∧
    ¬Agree ".a"
      ((meet ".a" ".a" (by decide) (by decide) (by decide) (by decide) (by decide)).liveCopies 8192)
      ((meet ".a" ".a" (by decide) (by decide) (by decide) (by decide)
        (by decide)).retainedCopies 8192) := by
  refine ⟨not_agree ?_, not_agree ?_, not_agree ?_⟩
  · decide
  · decide
  · decide

end Yunetas.Mqtt
