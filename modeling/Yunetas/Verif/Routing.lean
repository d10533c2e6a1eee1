import Yunetas.Mqtt.Live
import Yunetas.Mqtt.Publish
import Yunetas.Lib.Run

/-!
# Exact routing

Subscriptions are made and removed in any order. The subscribers that a publication collects are the
clients with a live filter that matches the topic, as long as level names and client ids keep clear
of the key that the tree uses for its subscribers and the topic is not read as a shared subscription.
-/

namespace Yunetas.Mqtt

open List Option Dict

/-- A topic filter that the broker accepts and that names no share group. -/
structure Filter where
  text : String
  /-- `mqtt_sub_topic_check2` accepts it. -/
  accepted : mqttSubTopicCheck2 text = 0
  /-- It is not `$share`. -/
  normal : (tokens text).head? ≠ some "$share"

/-- The subscription trees, and the subscriptions made and not removed. -/
structure Routing where
  subs : Subs
  live : Live

/-- What clients do. -/
inductive Call
  | add (filter : Filter) (clientId : String) (info : SubInfo)
  | remove (filter : Filter) (clientId : String)
  | removeClient (clientId : String)

/-- A call changes the trees as the code does and the live subscriptions as it ought to. -/
def Routing.step (routing : Routing) : Call → Routing
  | .add filter clientId info =>
    { subs := (subAdd routing.subs filter.text clientId info).2
      live := routing.live.set (tokens filter.text, clientId) info }
  | .remove filter clientId =>
    { subs := (subRemove routing.subs filter.text clientId).2.2
      live := routing.live.erase (tokens filter.text, clientId) }
  | .removeClient clientId =>
    { subs := (subRemoveClient routing.subs clientId).2
      live := routing.live.removeClient clientId }

/-- No subscription. -/
def Routing.fresh : Routing := ⟨noSubs, Dict.empty⟩

/-- The filter has no level `SUBS_KEY`, and the identifier is an `int`. -/
def Call.Clean : Call → Prop
  | .add filter _ info => subsKey ∉ tokens filter.text ∧ info.id.toNat < 2 ^ 31
  | .remove filter _ => subsKey ∉ tokens filter.text
  | .removeClient _ => True

/-- The topic is not read as a shared subscription, and no client named `SUBS_KEY` has a filter that
would match it with one more level of that name. -/
def Clear (live : Live) (topic : String) : Prop :=
  ((tokens topic).head? = some "$share" → topicTokenize topic = none) ∧
  Alone live (tokens topic)

/-- The normal tree holds the live subscriptions, whose identifiers are small and whose filters name
no share group. -/
structure Tracks (routing : Routing) : Prop where
  keeps : Keeps routing.subs.normalSubs routing.live
  small : ∀ entry ∈ routing.live.entries, entry.2.id.toNat < 2 ^ 31
  normal : ∀ entry ∈ routing.live.entries, entry.1.1.head? ≠ some "$share"

theorem Filter.toList_ne_nil (filter : Filter) : filter.text.toList ≠ [] := by
  intro empty
  have blank : filter.text = "" := String.toList_inj.1 empty
  have accepted := filter.accepted
  rw [blank] at accepted
  revert accepted
  decide

theorem Filter.tokenized (filter : Filter) :
    topicTokenize filter.text =
      some (if dollar filter.text then tokens filter.text else "" :: tokens filter.text, none) :=
  topicTokenize_plain filter.toList_ne_nil filter.normal

theorem subAdd_normal (subs : Subs) (filter : Filter) (clientId : String) (info : SubInfo) :
    (subAdd subs filter.text clientId info).2.normalSubs =
      (treeAdd subs.normalSubs (tokens filter.text) clientId info).2 := by
  unfold subAdd
  rw [filter.tokenized]
  dsimp only
  rw [nodePath_plain]

theorem subRemove_normal (subs : Subs) (filter : Filter) (clientId : String) :
    (subRemove subs filter.text clientId).2.2.normalSubs =
      (treeRemove subs.normalSubs (tokens filter.text) clientId).2 := by
  unfold subRemove
  rw [filter.tokenized]
  dsimp only
  rw [nodePath_plain]

theorem mem_entries_set {live : Live} {key : List String × String} {info : SubInfo}
    {entry : (List String × String) × SubInfo} (among : entry ∈ (live.set key info).entries) :
    entry = (key, info) ∨ entry ∈ live.entries := by
  have found := (live.set key info).get?_of_mem among
  rw [get?_set] at found
  split at found
  · rename_i same
    exact .inl (Prod.ext same (some.inj found).symm)
  · exact .inr (mem_of_lookupEntries found)

theorem Tracks.step {routing : Routing} (tracks : Tracks routing) (call : Call)
    (clean : call.Clean) : Tracks (routing.step call) := by
  cases call with
  | add filter clientId info =>
    have added := tracks.keeps.add clean.1 clientId info
    rw [← subAdd_normal] at added
    refine ⟨added, fun entry among => ?_, fun entry among => ?_⟩
    · rcases mem_entries_set among with rfl | old
      · exact clean.2
      · exact tracks.small entry old
    · rcases mem_entries_set among with rfl | old
      · exact filter.normal
      · exact tracks.normal entry old
  | remove filter clientId =>
    have removed := @Keeps.remove _ _ tracks.keeps (tokens filter.text) clean clientId
    rw [← subRemove_normal] at removed
    exact ⟨removed, fun entry among => tracks.small entry (mem_of_mem_filter among),
      fun entry among => tracks.normal entry (mem_of_mem_filter among)⟩
  | removeClient clientId =>
    exact ⟨tracks.keeps.removeClient clientId,
      fun entry among => tracks.small entry (mem_of_mem_filter among),
      fun entry among => tracks.normal entry (mem_of_mem_filter among)⟩

theorem tracks_fresh : Tracks Routing.fresh :=
  ⟨keeps_empty, fun _ among => absurd among not_mem_nil,
    fun _ among => absurd among not_mem_nil⟩

theorem exact_refused {live : Live} {topic : List String} (shared : topic.head? = some "$share")
    (normal : ∀ entry ∈ live.entries, entry.1.1.head? ≠ some "$share") : Exact live topic [] := by
  have nothing (clientId : String) : matching live clientId topic = [] := by
    unfold matching
    rw [map_eq_nil_iff, filter_eq_nil_iff]
    intro entry among
    simp [not_mqttMatches_share shared (normal entry among)]
  refine ⟨nodup_nil, fun clientId => ?_, fun clientId entry read => by cases read⟩
  rw [nothing]
  exact ⟨fun among => absurd among not_mem_nil, fun some_info => absurd rfl some_info⟩

theorem Tracks.exact {routing : Routing} (tracks : Tracks routing) {topic : String}
    (accepted : mqttPubTopicCheck2 topic = 0) (clear : Clear routing.live topic) :
    Exact routing.live (tokens topic) (normalSubscribers routing.subs topic) := by
  unfold normalSubscribers
  rw [collected_eq routing.subs accepted]
  by_cases shared : (tokens topic).head? = some "$share"
  · rw [clear.1 shared]
    exact exact_refused shared tracks.normal
  · rw [topicTokenize_plain (toList_ne_nil accepted) shared, map_some, map_some,
      getD_some, searchTree_eq]
    exact tracks.keeps.exact tracks.small (tokens_ne_nil topic) (tokens_plain accepted) clear.2

/-- Publish routing is exact in every state of a run whose filters have no level `SUBS_KEY` and whose
identifiers are `int`s, for every topic that is clear. -/
theorem routing_exact_along (calls : List Call) (clean : ∀ call ∈ calls, call.Clean) :
    AllStates Routing.step (fun routing => ∀ topic, mqttPubTopicCheck2 topic = 0 →
      Clear routing.live topic →
      Exact routing.live (tokens topic) (normalSubscribers routing.subs topic))
      Routing.fresh calls := by
  have tracked : AllStates Routing.step Tracks Routing.fresh calls :=
    (AllSteps.of_mem Routing.step clean Routing.fresh).invariant Routing.step
      (fun routing call tracks clean => tracks.step call clean) tracks_fresh
  exact AllStates.mono Routing.step (fun _ tracks _ => tracks.exact) tracked

/-- A filter with a wildcard beside a plain one. -/
theorem routing_exact_along_two :
    AllStates Routing.step (fun routing => ∀ topic, mqttPubTopicCheck2 topic = 0 →
      Clear routing.live topic →
      Exact routing.live (tokens topic) (normalSubscribers routing.subs topic))
      Routing.fresh
      [.add ⟨"a/+", by decide, by decide⟩ "one" ⟨1, 5, 0⟩,
        .add ⟨"a/b", by decide, by decide⟩ "one" ⟨2, 0, 0⟩,
        .remove ⟨"a/b", by decide, by decide⟩ "one"] :=
  routing_exact_along _ (by
    intro call among
    simp only [List.mem_cons, List.not_mem_nil, or_false] at among
    rcases among with rfl | rfl | rfl
    · exact ⟨by decide, by decide⟩
    · exact ⟨by decide, by decide⟩
    · show subsKey ∉ tokens "a/b"
      decide)

theorem not_exact {live : Live} {topic : List String} {subscribers : Subscribers}
    (clientId : String) (there : clientId ∈ subscribers.map Prod.fst)
    (nothing : matching live clientId topic = []) : ¬Exact live topic subscribers :=
  fun exact => (exact.clients clientId).1 there nothing

/-- After the calls the broker accepts the topic and does not route it exactly. -/
def Astray (calls : List Call) (topic : String) : Prop :=
  mqttPubTopicCheck2 topic = 0 ∧
  ¬Exact (run Routing.step Routing.fresh calls).live (tokens topic)
    (normalSubscribers (run Routing.step Routing.fresh calls).subs topic)

/-- A filter with a level `SUBS_KEY` makes a client of that name appear at its parent, and at the
root it outlives the removal of its client; a client of that name makes clients appear that do not
exist; a topic that is read as a shared subscription reaches the filters of another topic; and an
identifier that is no `int` is lost. -/
theorem routing_astray :
    Astray [.add ⟨"a/@subs", by decide, by decide⟩ "one" ⟨0, 0, 0⟩] "a" ∧
    Astray [.add ⟨"@subs", by decide, by decide⟩ "one" ⟨0, 0, 0⟩, .removeClient "one"] "@subs" ∧
    Astray [.add ⟨"a", by decide, by decide⟩ "@subs" ⟨0, 0, 0⟩] "a/@subs" ∧
    Astray [.add ⟨"/a", by decide, by decide⟩ "one" ⟨0, 0, 0⟩] "$share/g/a" ∧
    Astray [.add ⟨"a", by decide, by decide⟩ "one" ⟨0, 2147483648, 0⟩] "a" := by
  refine ⟨⟨by decide, ?_⟩, ⟨by decide, ?_⟩, ⟨by decide, ?_⟩, ⟨by decide, ?_⟩, ⟨by decide, ?_⟩⟩
  · exact not_exact "@subs" (by decide) (by decide)
  · exact not_exact "one" (by decide) (by decide)
  · exact not_exact "qos" (by decide) (by decide)
  · exact not_exact "one" (by decide) (by decide)
  · intro exact
    have lost := (exact.sums "one" ⟨0, 0, []⟩ (by decide)).ids.length_eq
    revert lost
    decide

end Yunetas.Mqtt
