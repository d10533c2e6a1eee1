import Yunetas.Mqtt.Live
import Yunetas.Mqtt.Publish
import Yunetas.Lib.Run
import Mathlib.Data.List.Dedup

/-!
# Share groups

Shared subscriptions `$share/<group>/<filter>` are made and removed in any order. All groups are kept
in one tree, by filter and client alone, and one loop delivers for all of them, so a published topic
reaches one member of every group only while no more than one group asks for it.
-/

namespace Yunetas.Mqtt

open List Option Dict

/-- A shared topic filter that the broker accepts. -/
structure SharedFilter where
  text : String
  levels : List String
  group : String
  /-- `mqtt_sub_topic_check2` accepts it. -/
  accepted : mqttSubTopicCheck2 text = 0
  /-- `topic_tokenize` finds the group. -/
  shared : topicTokenize text = some (levels, some group)

/-- The levels a topic is matched with. -/
def SharedFilter.path (filter : SharedFilter) : List String := nodePath filter.levels

/-- The live shared subscriptions, by group, levels of the filter and client. -/
abbrev SharedLive := Dict (String × List String × String) SubInfo

/-- The subscription trees, and the shared subscriptions made and not removed. -/
structure Shares where
  subs : Subs
  live : SharedLive

/-- What clients do. -/
inductive ShareCall
  | add (filter : SharedFilter) (clientId : String) (info : SubInfo)
  | remove (filter : SharedFilter) (clientId : String)
  | removeClient (clientId : String)

/-- No shared subscription of a client. -/
def SharedLive.removeClient (live : SharedLive) (clientId : String) : SharedLive where
  entries := live.entries.filter fun entry => entry.1.2.2 ≠ clientId
  nodup := live.nodup.sublist (List.filter_sublist.map Prod.fst)

/-- A call changes the trees as the code does and the live subscriptions as it ought to. -/
def Shares.step (shares : Shares) : ShareCall → Shares
  | .add filter clientId info =>
    { subs := (subAdd shares.subs filter.text clientId info).2
      live := shares.live.set (filter.group, filter.path, clientId) info }
  | .remove filter clientId =>
    { subs := (subRemove shares.subs filter.text clientId).2.2
      live := shares.live.erase (filter.group, filter.path, clientId) }
  | .removeClient clientId =>
    { subs := (subRemoveClient shares.subs clientId).2
      live := shares.live.removeClient clientId }

/-- No subscription. -/
def Shares.fresh : Shares := ⟨noSubs, Dict.empty⟩

/-- No other group has the same client with the same filter. -/
def OnlyGroup (live : SharedLive) (group : String) (key : List String × String) : Prop :=
  ∀ other, (other, key) ∈ live.keys → other = group

instance (live : SharedLive) (group : String) (key : List String × String) :
    Decidable (OnlyGroup live group key) :=
  decidable_of_iff (∀ entry ∈ live.keys, entry.2 = key → entry.1 = group)
    ⟨fun all other among => all (other, key) among rfl,
      fun only entry among same => only entry.1 (by rw [← same]; exact among)⟩

/-- The filter has no level `SUBS_KEY`, its client has it in no other group, and the option noLocal,
which the protocol forbids on shared subscriptions, is not set. -/
def ShareCall.Apart (shares : Shares) : ShareCall → Prop
  | .add filter clientId info =>
    subsKey ∉ filter.path ∧ OnlyGroup shares.live filter.group (filter.path, clientId) ∧
      info.options.toNat.testBit 2 = false
  | .remove filter clientId =>
    subsKey ∉ filter.path ∧ OnlyGroup shares.live filter.group (filter.path, clientId)
  | .removeClient _ => True

instance (shares : Shares) (call : ShareCall) : Decidable (call.Apart shares) :=
  match call with
  | .add _ _ _ => inferInstanceAs (Decidable (_ ∧ _ ∧ _))
  | .remove _ _ => inferInstanceAs (Decidable (_ ∧ _))
  | .removeClient _ => inferInstanceAs (Decidable True)

/-- The groups with a live filter that matches the levels of a topic. -/
def matchingGroups (live : SharedLive) (topic : List String) : List String :=
  ((live.entries.filter fun entry => MqttMatches entry.1.2.1 topic).map fun entry =>
    entry.1.1).dedup

/-- A client of a group with a live filter that matches. -/
def Member (live : SharedLive) (topic : List String) (group clientId : String) : Prop :=
  ∃ path, (group, path, clientId) ∈ live.keys ∧ MqttMatches path topic

/-- Every group with a matching filter has the message handed to one of its members, and nobody else
gets it. The loss of a message of QoS 0 for a session that is not connected is the lot of that member,
which `subs__send` answers like a delivery. -/
def OneEach (live : SharedLive) (topic : List String) (deliveries : List (String × Handed)) :
    Prop :=
  ∃ chosen : String → String,
    (∀ group ∈ matchingGroups live topic, Member live topic group (chosen group)) ∧
    (deliveries.map Prod.fst).Perm ((matchingGroups live topic).map chosen) ∧
    ∀ delivery ∈ deliveries, delivery.2 ≠ .skipped

/-- The tree has every live subscription of every group as it was made. -/
def AsMade (shares : Shares) : Prop :=
  ∀ group path clientId info, shares.live.get? (group, path, clientId) = some info →
    held shares.subs.sharedSubs path clientId = some info.toJson

/-- The topic is not read as a shared subscription, meets no subscriber dict as a node, and at most
one group has a matching filter. -/
structure OneGroup (live : SharedLive) (topic : String) : Prop where
  plain : (tokens topic).head? = some "$share" → topicTokenize topic = none ∧
    ∀ key ∈ live.keys, key.2.1.head? ≠ some "$share"
  alone : ∀ group path, (group, path, subsKey) ∈ live.keys →
    ¬MqttMatches (path ++ [subsKey]) (tokens topic)
  single : ∀ group ∈ matchingGroups live (tokens topic),
    ∀ other ∈ matchingGroups live (tokens topic), group = other

/-- The tree of shared subscriptions holds, by filter and client, what some group has live. -/
structure Joined (shares : Shares) (live : Live) : Prop where
  keeps : Keeps shares.subs.sharedSubs live
  groups : ∀ key info, live.get? key = some info ↔
    ∃ group, shares.live.get? (group, key) = some info

/-- Joined subscriptions, none with the option noLocal. -/
structure TracksShares (shares : Shares) : Prop where
  joined : ∃ live, Joined shares live
  loud : ∀ entry ∈ shares.live.entries, entry.2.options.toNat.testBit 2 = false

theorem subAdd_shared (subs : Subs) (filter : SharedFilter) (clientId : String) (info : SubInfo) :
    (subAdd subs filter.text clientId info).2.sharedSubs =
      (treeAdd subs.sharedSubs filter.path clientId info).2 := by
  unfold subAdd
  rw [filter.shared]
  rfl

theorem subRemove_shared (subs : Subs) (filter : SharedFilter) (clientId : String) :
    (subRemove subs filter.text clientId).2.2.sharedSubs =
      (treeRemove subs.sharedSubs filter.path clientId).2 := by
  unfold subRemove
  rw [filter.shared]
  rfl

theorem OnlyGroup.absent {live : SharedLive} {group : String} {key : List String × String}
    (only : OnlyGroup live group key) {other : String} (ne : other ≠ group) :
    live.get? (other, key) = none :=
  live.get?_eq_none fun among => ne (only other among)

theorem SharedLive.get?_removeClient (live : SharedLive) (clientId : String)
    (key : String × List String × String) :
    (live.removeClient clientId).get? key =
      if key.2.2 = clientId then none else live.get? key := by
  by_cases mine : key.2.2 = clientId
  · rw [if_pos mine]
    refine get?_eq_none _ fun among => ?_
    have ⟨entry, member, same⟩ := mem_map.1 among
    have stays := (mem_filter.1 member).2
    rw [decide_eq_true_eq, same] at stays
    exact stays mine
  · rw [if_neg mine]
    cases found : live.get? key with
    | none =>
      refine get?_eq_none _ fun among => ?_
      have ⟨entry, member, same⟩ := mem_map.1 among
      have old := live.get?_of_mem (mem_of_mem_filter member)
      rw [same, found] at old
      cases old
    | some info =>
      have member : (key, info) ∈ (live.removeClient clientId).entries :=
        mem_filter.2 ⟨mem_of_lookupEntries found, by simpa using mine⟩
      exact get?_of_mem _ member

theorem mem_sharedEntries_set {live : SharedLive} {key : String × List String × String}
    {info : SubInfo} {entry : (String × List String × String) × SubInfo}
    (among : entry ∈ (live.set key info).entries) :
    entry = (key, info) ∨ entry ∈ live.entries := by
  have found := (live.set key info).get?_of_mem among
  rw [get?_set] at found
  split at found
  · rename_i same
    exact .inl (Prod.ext same (some.inj found).symm)
  · exact .inr (mem_of_lookupEntries found)

theorem Joined.write {shares : Shares} {live other : Live} (joined : Joined shares live)
    {filter : SharedFilter} {clientId : String} {shared : SharedLive} {written : Option SubInfo}
    (only : OnlyGroup shares.live filter.group (filter.path, clientId))
    (sharedGet : ∀ key, shared.get? key =
      if key = (filter.group, filter.path, clientId) then written else shares.live.get? key)
    (otherGet : ∀ key, other.get? key =
      if key = (filter.path, clientId) then written else live.get? key)
    (key : List String × String) (info : SubInfo) :
    other.get? key = some info ↔ ∃ group, shared.get? (group, key) = some info := by
  rw [otherGet]
  simp only [sharedGet]
  by_cases same : key = (filter.path, clientId)
  · rw [if_pos same, same]
    constructor
    · exact fun read => ⟨filter.group, by rw [if_pos rfl]; exact read⟩
    · rintro ⟨group, read⟩
      by_cases mine : group = filter.group
      · rwa [mine, if_pos rfl] at read
      · rw [if_neg fun is => mine (congrArg Prod.fst is), only.absent mine] at read
        cases read
  · rw [if_neg same, joined.groups]
    refine exists_congr fun group => ?_
    rw [if_neg fun is => same (congrArg Prod.snd is)]

theorem Joined.add {shares : Shares} {live : Live} (joined : Joined shares live)
    (filter : SharedFilter) (clientId : String) (info : SubInfo) (clean : subsKey ∉ filter.path)
    (only : OnlyGroup shares.live filter.group (filter.path, clientId)) :
    Joined (shares.step (.add filter clientId info)) (live.set (filter.path, clientId) info) where
  keeps := by
    have added := joined.keeps.add clean clientId info
    rwa [← subAdd_shared] at added
  groups := joined.write only (fun _ => get?_set _ _ _ _) fun _ => get?_set _ _ _ _

theorem Joined.remove {shares : Shares} {live : Live} (joined : Joined shares live)
    (filter : SharedFilter) (clientId : String) (clean : subsKey ∉ filter.path)
    (only : OnlyGroup shares.live filter.group (filter.path, clientId)) :
    Joined (shares.step (.remove filter clientId)) (live.erase (filter.path, clientId)) where
  keeps := by
    have removed := joined.keeps.remove clean clientId
    rwa [← subRemove_shared] at removed
  groups := joined.write only (get?_erase _ _) (get?_erase _ _)

theorem Joined.removeClient {shares : Shares} {live : Live} (joined : Joined shares live)
    (clientId : String) :
    Joined (shares.step (.removeClient clientId)) (live.removeClient clientId) where
  keeps := joined.keeps.removeClient clientId
  groups := by
    intro key info
    have step : (shares.step (.removeClient clientId)).live =
      shares.live.removeClient clientId := rfl
    rw [step, Live.get?_removeClient]
    simp only [SharedLive.get?_removeClient]
    by_cases mine : key.2 = clientId
    · simp [mine]
    · simp only [if_neg mine]
      exact joined.groups key info

theorem TracksShares.step {shares : Shares} (tracks : TracksShares shares) (call : ShareCall)
    (apart : call.Apart shares) : TracksShares (shares.step call) := by
  have ⟨live, joined⟩ := tracks.joined
  cases call with
  | add filter clientId info =>
    refine ⟨⟨_, joined.add filter clientId info apart.1 apart.2.1⟩, fun entry among => ?_⟩
    rcases mem_sharedEntries_set among with rfl | old
    · exact apart.2.2
    · exact tracks.loud entry old
  | remove filter clientId =>
    exact ⟨⟨_, joined.remove filter clientId apart.1 apart.2⟩,
      fun entry among => tracks.loud entry (mem_of_mem_filter among)⟩
  | removeClient clientId =>
    exact ⟨⟨_, joined.removeClient clientId⟩,
      fun entry among => tracks.loud entry (mem_of_mem_filter among)⟩

theorem tracksShares_fresh : TracksShares Shares.fresh where
  joined := by
    refine ⟨Dict.empty, keeps_empty, fun key info => ?_⟩
    constructor
    · exact fun read => by cases read
    · rintro ⟨group, read⟩
      cases read
  loud := fun _ among => absurd among not_mem_nil

section

variable {shares : Shares} {live : Live} (joined : Joined shares live)
include joined

theorem Joined.asMade : AsMade shares := by
  intro group path clientId info found
  have read := (joined.groups (path, clientId) info).2 ⟨group, found⟩
  have clean : subsKey ∉ path :=
    joined.keeps.clean (path, clientId) ((live.mem_keys _).2 (by rw [read]; rfl))
  rw [joined.keeps.reads path clean, read, map_some]

theorem Joined.mem_keys (key : List String × String) :
    key ∈ live.keys ↔ ∃ group, (group, key) ∈ shares.live.keys := by
  rw [Dict.mem_keys, isSome_iff_exists]
  constructor
  · rintro ⟨info, read⟩
    have ⟨group, found⟩ := (joined.groups key info).1 read
    exact ⟨group, (Dict.mem_keys _ _).2 (by rw [found]; rfl)⟩
  · rintro ⟨group, among⟩
    rw [Dict.mem_keys, isSome_iff_exists] at among
    have ⟨info, found⟩ := among
    exact ⟨info, (joined.groups key info).2 ⟨group, found⟩⟩

theorem Joined.matching (topic : List String) (clientId : String) :
    matching live clientId topic ≠ [] ↔ ∃ group, Member shares.live topic group clientId := by
  rw [matching_ne_nil]
  constructor
  · rintro ⟨path, among, covers⟩
    have ⟨group, key⟩ := (joined.mem_keys (path, clientId)).1 among
    exact ⟨group, path, key, covers⟩
  · rintro ⟨group, path, key, covers⟩
    exact ⟨path, (joined.mem_keys (path, clientId)).2 ⟨group, key⟩, covers⟩

end

theorem mem_matchingGroups {live : SharedLive} {topic : List String} {group : String} :
    group ∈ matchingGroups live topic ↔ ∃ clientId, Member live topic group clientId := by
  unfold matchingGroups Member
  rw [List.mem_dedup, List.mem_map]
  constructor
  · rintro ⟨entry, among, rfl⟩
    have known := mem_filter.1 among
    exact ⟨entry.1.2.2, entry.1.2.1, mem_map_of_mem known.1, by simpa using known.2⟩
  · rintro ⟨clientId, path, key, covers⟩
    have ⟨entry, among, same⟩ := mem_map.1 key
    exact ⟨entry, mem_filter.2 ⟨among, by rw [same]; simpa using covers⟩, by rw [same]⟩

theorem sendShared_first (sessions : String → Option Session) (message : Message)
    (entry : String × Subscriber) (rest : Subscribers) (present : (sessions entry.1).isSome)
    (loud : noLocal entry.2.options = false) :
    ∃ handed, handed ≠ Handed.skipped ∧
      sendShared sessions message (entry :: rest) = [(entry.1, handed)] := by
  have ⟨session, found⟩ := isSome_iff_exists.1 present
  have answer : ∃ handed, handed ≠ Handed.skipped ∧
      subsSend sessions message entry.1 entry.2 = (0, some handed) := by
    unfold subsSend
    rw [found]
    dsimp only
    rw [if_neg (by rw [loud]; exact fun both => absurd both.1 Bool.false_ne_true)]
    by_cases connected : session.connected = true
    · rw [if_neg (not_not.2 connected)]
      exact ⟨_, Handed.noConfusion, rfl⟩
    · rw [if_pos connected]
      by_cases zero : (if message.qos > entry.2.qos.toNat then entry.2.qos.toNat
          else message.qos) = 0
      · rw [if_pos zero]
        exact ⟨.lost, by decide, rfl⟩
      · rw [if_neg zero]
        exact ⟨_, Handed.noConfusion, rfl⟩
  have ⟨handed, sent, same⟩ := answer
  refine ⟨handed, sent, ?_⟩
  rw [sendShared, same]
  rfl

theorem matchingGroups_one {live : SharedLive} {topic : List String}
    (single : ∀ group ∈ matchingGroups live topic, ∀ other ∈ matchingGroups live topic,
      group = other) {group : String} (among : group ∈ matchingGroups live topic) :
    matchingGroups live topic = [group] := by
  have distinct : (matchingGroups live topic).Nodup := nodup_dedup _
  cases groups : matchingGroups live topic with
  | nil =>
    rw [groups] at among
    cases among
  | cons first rest =>
    rw [groups] at single distinct among
    have none : rest = [] := by
      refine eq_nil_iff_forall_not_mem.2 fun other later => ?_
      have same := single first mem_cons_self other (mem_cons_of_mem _ later)
      exact (nodup_cons.1 distinct).1 (same ▸ later)
    rw [none, single group among first mem_cons_self]

/-- The clients with a matching shared subscription have their sessions. -/
def Present (live : SharedLive) (topic : List String) (sessions : String → Option Session) : Prop :=
  ∀ group clientId, Member live topic group clientId → (sessions clientId).isSome

theorem oneEach_nobody {live : SharedLive} {topic : List String}
    (nobody : matchingGroups live topic = []) : OneEach live topic [] := by
  refine ⟨fun _ => "", ?_, ?_, fun _ among => absurd among not_mem_nil⟩
  · rw [nobody]
    exact fun _ among => absurd among not_mem_nil
  · rw [nobody]
    exact List.Perm.nil

theorem TracksShares.oneEach {shares : Shares} (tracks : TracksShares shares) {message : Message}
    (accepted : mqttPubTopicCheck2 message.topic = 0) (one : OneGroup shares.live message.topic)
    {sessions : String → Option Session}
    (present : Present shares.live (tokens message.topic) sessions) :
    OneEach shares.live (tokens message.topic) (sharedDeliveries shares.subs sessions message) := by
  obtain ⟨live, joined⟩ := tracks.joined
  unfold sharedDeliveries sharedSubscribers
  rw [collected_eq shares.subs accepted]
  by_cases shared : (tokens message.topic).head? = some "$share"
  · obtain ⟨refused, normal⟩ := one.plain shared
    rw [refused]
    refine oneEach_nobody (eq_nil_iff_forall_not_mem.2 fun group among => ?_)
    obtain ⟨clientId, path, key, covers⟩ := mem_matchingGroups.1 among
    exact not_mqttMatches_share shared (normal _ key) covers
  · rw [topicTokenize_plain (toList_ne_nil accepted) shared, map_some, map_some, getD_some]
    dsimp only
    rw [searchTree_eq]
    have some_level := tokens_ne_nil message.topic
    have alone : Alone live (tokens message.topic) := by
      intro path key
      obtain ⟨group, among⟩ := (joined.mem_keys _).1 key
      exact one.alone group path among
    have clients (clientId : String) := (joined.keeps.clients some_level (tokens_plain accepted)
      alone clientId).trans (joined.matching (tokens message.topic) clientId)
    cases found : collectPaths shares.subs.sharedSubs (topicPaths (tokens message.topic)) [] with
    | nil =>
      refine oneEach_nobody (eq_nil_iff_forall_not_mem.2 fun group among => ?_)
      obtain ⟨clientId, member⟩ := mem_matchingGroups.1 among
      have there := (clients clientId).2 ⟨group, member⟩
      rw [found] at there
      cases there
    | cons entry rest =>
      obtain ⟨group, member⟩ : ∃ group, Member shares.live (tokens message.topic) group entry.1 := by
        refine (clients entry.1).1 ?_
        rw [found]
        exact mem_cons_self
      have loud : noLocal entry.2.options = false := by
        have read := joined.keeps.collected some_level alone entry.1
        rw [found, Dict.lookupEntries, if_pos rfl] at read
        obtain ⟨info, among, same⟩ := options_fold read.symm
        obtain ⟨path, _, at_path⟩ := mem_filterMap.1 among
        obtain ⟨owner, known⟩ := (joined.groups _ _).1 at_path
        have quiet := tracks.loud _ (mem_of_lookupEntries known)
        rw [same]
        exact quiet
      obtain ⟨handed, sent, served⟩ := sendShared_first sessions message entry rest
        (present group entry.1 member) loud
      have groups := matchingGroups_one one.single (mem_matchingGroups.2 ⟨entry.1, member⟩)
      rw [served]
      refine ⟨fun _ => entry.1, ?_, ?_, ?_⟩
      · rw [groups]
        intro other among
        rw [mem_singleton.1 among]
        exact member
      · rw [groups]
        exact List.Perm.refl _
      · intro delivery among
        rw [mem_singleton.1 among]
        exact sent

/-- In every state of a run whose calls stay apart, the subscriptions of every group are in the tree
as they were made, and a topic that one group at most asks for is handed to one of its members. -/
theorem one_member_along (calls : List ShareCall)
    (apart : AllSteps Shares.step (fun shares call => call.Apart shares) Shares.fresh calls) :
    AllStates Shares.step (fun shares => AsMade shares ∧
      ∀ (message : Message) (sessions : String → Option Session),
        mqttPubTopicCheck2 message.topic = 0 → OneGroup shares.live message.topic →
        Present shares.live (tokens message.topic) sessions →
        OneEach shares.live (tokens message.topic)
          (sharedDeliveries shares.subs sessions message)) Shares.fresh calls := by
  have tracked : AllStates Shares.step TracksShares Shares.fresh calls := apart.invariant Shares.step
    (fun shares call tracks apart => tracks.step call apart) tracksShares_fresh
  refine AllStates.mono Shares.step (fun shares tracks => ?_) tracked
  have ⟨live, joined⟩ := tracks.joined
  exact ⟨joined.asMade, fun _ _ accepted one present => tracks.oneEach accepted one present⟩

/-- Two members of one group, of which one leaves. -/
theorem one_member_along_two :
    AllStates Shares.step (fun shares => AsMade shares ∧
      ∀ (message : Message) (sessions : String → Option Session),
        mqttPubTopicCheck2 message.topic = 0 → OneGroup shares.live message.topic →
        Present shares.live (tokens message.topic) sessions →
        OneEach shares.live (tokens message.topic)
          (sharedDeliveries shares.subs sessions message)) Shares.fresh
      [.add ⟨"$share/g/a/+", ["", "a", "+"], "g", by decide, by decide⟩ "one" ⟨1, 0, 0⟩,
        .add ⟨"$share/g/a/#", ["", "a", "#"], "g", by decide, by decide⟩ "two" ⟨1, 0, 0⟩,
        .remove ⟨"$share/g/a/+", ["", "a", "+"], "g", by decide, by decide⟩ "one"] :=
  one_member_along _ ⟨by decide, by decide, by decide, trivial⟩

theorem OneEach.length_eq {live : SharedLive} {topic : List String}
    {deliveries : List (String × Handed)} (each : OneEach live topic deliveries) :
    deliveries.length = (matchingGroups live topic).length := by
  have ⟨chosen, _, same, _⟩ := each
  have lengths := same.length_eq
  rwa [length_map, length_map] at lengths

/-- The shared filter `a` in the group `g`. -/
def groupG : SharedFilter := ⟨"$share/g/a", ["", "a"], "g", by decide, by decide⟩

/-- The same filter in the group `h`. -/
def groupH : SharedFilter := ⟨"$share/h/a", ["", "a"], "h", by decide, by decide⟩

/-- After the calls, with a session for every client, the groups do not get one delivery each. -/
def Unserved (calls : List ShareCall) (topic : String) : Prop :=
  mqttPubTopicCheck2 topic = 0 ∧
  ¬OneEach (run Shares.step Shares.fresh calls).live (tokens topic)
    (sharedDeliveries (run Shares.step Shares.fresh calls).subs (fun _ => some ⟨true⟩)
      ⟨topic, 1, "publisher"⟩)

/-- Of two groups one is not served; a client that leaves a group leaves the other; and a filter with
a level `SUBS_KEY` and a topic that is read as a shared subscription are served without a group. -/
theorem groups_mixed :
    Unserved [.add groupG "one" ⟨1, 0, 0⟩, .add groupH "two" ⟨1, 0, 0⟩] "a" ∧
    ¬AsMade (run Shares.step Shares.fresh
      [.add groupG "one" ⟨1, 0, 0⟩, .add groupH "one" ⟨1, 0, 0⟩, .remove groupG "one"]) ∧
    Unserved [.add ⟨"$share/g/@subs", ["", "@subs"], "g", by decide, by decide⟩ "one" ⟨1, 0, 0⟩,
      .removeClient "one"] "@subs" ∧
    Unserved [.add ⟨"$share/g//a", ["", "", "a"], "g", by decide, by decide⟩ "one" ⟨1, 0, 0⟩]
      "$share/x/a" := by
  refine ⟨⟨by decide, fun each => ?_⟩, fun made => ?_, ⟨by decide, fun each => ?_⟩,
    ⟨by decide, fun each => ?_⟩⟩
  · exact absurd each.length_eq (by decide)
  · have gone := made "h" ["a"] "one" ⟨1, 0, 0⟩ (by decide)
    have nothing : held (run Shares.step Shares.fresh
      [.add groupG "one" ⟨1, 0, 0⟩, .add groupH "one" ⟨1, 0, 0⟩,
        .remove groupG "one"]).subs.sharedSubs ["a"] "one" = none := rfl
    rw [nothing] at gone
    cases gone
  · exact absurd each.length_eq (by decide)
  · exact absurd each.length_eq (by decide)

end Yunetas.Mqtt
