import Yunetas.Mqtt.Search

/-!
# Live subscriptions

What a tree ought to hold: the subscriptions made and not removed, by the levels of the filter and
the client. A tree that holds them has its searches collect every client with a matching filter once,
with the highest QoS and the identifiers of its matching filters.
-/

namespace Yunetas.Mqtt

open List Option Dict Int

open Json

/-- The live subscriptions, by the levels of the filter and the client. -/
abbrev Live := Dict (List String × String) SubInfo

/-- No subscription of a client. -/
def Live.removeClient (live : Live) (clientId : String) : Live where
  entries := live.entries.filter fun entry => entry.1.2 ≠ clientId
  nodup := live.nodup.sublist (List.filter_sublist.map Prod.fst)

theorem Live.get?_removeClient (live : Live) (clientId : String) (key : List String × String) :
    (live.removeClient clientId).get? key = if key.2 = clientId then none else live.get? key := by
  show Dict.lookupEntries key (live.entries.filter fun entry => entry.1.2 ≠ clientId) =
    if key.2 = clientId then none else Dict.lookupEntries key live.entries
  induction live.entries with
  | nil => simp [Dict.lookupEntries]
  | cons entry rest ih =>
    by_cases gone : entry.1.2 = clientId
    · rw [filter_cons_of_neg (by simpa using gone), ih, Dict.lookupEntries]
      by_cases mine : key.2 = clientId
      · rw [if_pos mine, if_pos mine]
      · rw [if_neg mine, if_neg mine, if_neg]
        exact fun same => mine (same ▸ gone)
    · rw [filter_cons_of_pos (by simpa using gone), Dict.lookupEntries, Dict.lookupEntries, ih]
      by_cases here : entry.1 = key
      · rw [if_pos here, if_pos here, if_neg (here ▸ gone)]
      · rw [if_neg here, if_neg here]

/-- A tree holds the live subscriptions, none of which has a level `SUBS_KEY`. -/
structure Keeps (root : Json) (live : Live) : Prop where
  shaped : Shaped root
  clean : ∀ key ∈ live.keys, subsKey ∉ key.1
  reads : ∀ path, subsKey ∉ path → ∀ clientId,
    held root path clientId = (live.get? (path, clientId)).map SubInfo.toJson

theorem keeps_empty : Keeps (.object []) Dict.empty where
  shaped := shaped_empty
  clean := fun _ among => absurd among not_mem_nil
  reads := fun path _ clientId => held_empty path clientId

variable {root : Json} {live : Live} {entry : Subscriber}

theorem Keeps.add (keeps : Keeps root live) {path : List String}
    (clean : subsKey ∉ path) (clientId : String) (info : SubInfo) :
    Keeps (treeAdd root path clientId info).2 (live.set (path, clientId) info) where
  shaped := (treeAdd_held keeps.shaped path clean clientId info).2.1
  clean := by
    intro key among
    rw [keys_set] at among
    split at among
    · exact keeps.clean key among
    · rcases mem_append.1 among with old | new
      · exact keeps.clean key old
      · rw [mem_singleton.1 new]
        exact clean
  reads := by
    intro other below client
    rw [(treeAdd_held keeps.shaped path clean clientId info).2.2 other below client, get?_set,
      keeps.reads other below client]
    by_cases here : other = path ∧ client = clientId
    · rw [if_pos here, if_pos (Prod.ext here.1 here.2), map_some]
    · rw [if_neg here, if_neg fun same => here ⟨congrArg Prod.fst same, congrArg Prod.snd same⟩]

theorem Keeps.remove {root : Json} {live : Live} (keeps : Keeps root live) {path : List String}
    (clean : subsKey ∉ path) (clientId : String) :
    Keeps (treeRemove root path clientId).2 (live.erase (path, clientId)) where
  shaped := (treeRemove_held keeps.shaped path clean clientId).2.1
  clean := by
    intro key among
    refine keeps.clean key ?_
    rw [Dict.mem_keys, Dict.get?_erase] at among
    rw [Dict.mem_keys]
    split at among
    · cases among
    · exact among
  reads := by
    intro other below client
    rw [(treeRemove_held keeps.shaped path clean clientId).2.2 other below client, get?_erase,
      keeps.reads other below client]
    by_cases here : other = path ∧ client = clientId
    · rw [if_pos here, if_pos (Prod.ext here.1 here.2), map_none]
    · rw [if_neg here, if_neg fun same => here ⟨congrArg Prod.fst same, congrArg Prod.snd same⟩]

theorem Keeps.removeClient (keeps : Keeps root live) (clientId : String) :
    Keeps (removeClientRecursive clientId root).1 (live.removeClient clientId) where
  shaped := removeClientRecursive_shaped clientId root keeps.shaped
  clean := by
    intro key among
    refine keeps.clean key ?_
    rw [Dict.mem_keys, Live.get?_removeClient] at among
    rw [Dict.mem_keys]
    split at among
    · cases among
    · exact among
  reads := by
    intro other below client
    rw [removeClientRecursive_held clientId keeps.shaped other below client,
      Live.get?_removeClient, keeps.reads other below client]
    by_cases here : client = clientId
    · rw [if_pos here, if_pos here, map_none]
    · rw [if_neg here, if_neg here]

/-- Matching can be decided: the walk visits the filters that match. -/
instance (filter topic : List String) : Decidable (Wildcard.Matches "+" "#" filter topic) :=
  decidable_of_iff _ (Wildcard.mem_visited "+" "#")

instance (filter topic : List String) : Decidable (MqttMatches filter topic) :=
  inferInstanceAs (Decidable (_ ∧ _))

/-- The subscriptions of a client whose filters match the levels of a topic. -/
def matching (live : Live) (clientId : String) (topic : List String) : List SubInfo :=
  (live.entries.filter fun entry => entry.1.2 = clientId ∧ MqttMatches entry.1.1 topic).map Prod.snd

/-- A collected entry sums up subscriptions: the highest QoS, and every identifier but zero. -/
structure Sums (infos : List SubInfo) (entry : Subscriber) : Prop where
  reached : ∃ info ∈ infos, entry.qos = info.qos.toNat
  highest : ∀ info ∈ infos, (info.qos.toNat : Int) ≤ entry.qos
  ids : entry.ids.Perm ((infos.map fun info => (info.id.toNat : Int)).filter (· ≠ 0))

/-- What was collected is exactly what the live subscriptions ask for. -/
structure Exact (live : Live) (topic : List String) (subscribers : Subscribers) : Prop where
  once : (subscribers.map Prod.fst).Nodup
  clients : ∀ clientId, clientId ∈ subscribers.map Prod.fst ↔ matching live clientId topic ≠ []
  sums : ∀ clientId entry, Dict.lookupEntries clientId subscribers = some entry →
    Sums (matching live clientId topic) entry

theorem toInt_of_lt {value : Nat} (small : value < 2 ^ 31) : toInt value = value := by
  unfold toInt
  rw [bmod_def]
  split <;> omega

section

variable (info : SubInfo)
include info

@[simp] theorem infoField_qos : infoField info.toJson "qos" = info.qos.toNat := rfl
@[simp] theorem infoField_id : infoField info.toJson "id" = info.id.toNat := rfl
@[simp] theorem infoField_options :
    infoField info.toJson "options" = info.options.toNat := rfl

theorem toInt_qos : toInt info.qos.toNat = info.qos.toNat := by
  have bound := info.qos.toNat_lt
  exact toInt_of_lt (by omega)

theorem sums_first (small : info.id.toNat < 2 ^ 31) :
    Sums [info] (mergeSubscriber none info.toJson) := by
  have read : (mergeSubscriber none info.toJson).qos = info.qos.toNat := by
    simp [mergeSubscriber, infoField_qos, toInt_qos]
  refine ⟨⟨info, mem_singleton_self info, read⟩, ?_, ?_⟩
  · intro other among
    have same : other = info := mem_singleton.1 among
    exact le_of_eq (by rw [same, read])
  · have id : (mergeSubscriber none info.toJson).ids =
        if (info.id.toNat : Int) > 0 then [(info.id.toNat : Int)] else [] := by
      simp [mergeSubscriber, infoField_id, toInt_of_lt small]
    rw [id, map_singleton]
    by_cases zero : info.id.toNat = 0
    · simp [zero]
    · have positive : (info.id.toNat : Int) > 0 := by omega
      rw [if_pos positive, filter_cons_of_pos (by simpa using zero), filter_nil]

end

theorem Sums.next {infos : List SubInfo} (sums : Sums infos entry)
    (info : SubInfo) : Sums (infos ++ [info]) (mergeSubscriber (some entry) info.toJson) := by
  have qos : (mergeSubscriber (some entry) info.toJson).qos =
      if (info.qos.toNat : Int) > entry.qos then (info.qos.toNat : Int) else entry.qos := by
    simp [mergeSubscriber, infoField_qos, toInt_qos]
  have ids : (mergeSubscriber (some entry) info.toJson).ids =
      if (info.id.toNat : Int) > 0 then entry.ids ++ [(info.id.toNat : Int)] else entry.ids := by
    rfl
  have ⟨top, among, same⟩ := sums.reached
  refine ⟨?_, ?_, ?_⟩
  · rw [qos]
    split
    · exact ⟨info, mem_append_right _ (mem_singleton_self info), rfl⟩
    · exact ⟨top, mem_append_left _ among, same⟩
  · intro other member
    rw [qos]
    rcases mem_append.1 member with old | new
    · have bound := sums.highest other old
      split <;> omega
    · rw [mem_singleton.1 new]
      split <;> omega
  · rw [ids, map_append, filter_append, map_singleton]
    by_cases zero : info.id.toNat = 0
    · rw [if_neg (by omega), filter_cons_of_neg (by simpa using zero), filter_nil, append_nil]
      exact sums.ids
    · rw [if_pos (by omega), filter_cons_of_pos (by simpa using zero), filter_nil]
      exact sums.ids.append_right _

theorem sums_fold {infos : List SubInfo} (small : ∀ info ∈ infos, info.id.toNat < 2 ^ 31)
    (made : (infos.map SubInfo.toJson).foldl mergeNext none = some entry) :
    Sums infos entry := by
  have onwards : ∀ (later before : List SubInfo) (start : Subscriber), Sums before start →
      (later.map SubInfo.toJson).foldl mergeNext (some start) = some entry →
      Sums (before ++ later) entry := by
    intro later
    induction later with
    | nil =>
      intro before start sums same
      rw [append_nil]
      rwa [← some.inj same]
    | cons info rest ih =>
      intro before start sums same
      rw [map_cons, foldl_cons, mergeNext] at same
      have step := ih (before ++ [info]) _ (sums.next info) same
      rwa [append_assoc] at step
  cases infos with
  | nil => cases made
  | cons info rest =>
    rw [map_cons, foldl_cons, mergeNext] at made
    exact onwards rest [info] _ (sums_first info (small info mem_cons_self)) made

theorem options_fold {infos : List SubInfo}
    (made : (infos.map SubInfo.toJson).foldl mergeNext none = some entry) :
    ∃ info ∈ infos, entry.options = info.options.toNat := by
  have stays : ∀ (later : List Json) (start : Subscriber),
      later.foldl mergeNext (some start) = some entry → entry.options = start.options := by
    intro later
    induction later with
    | nil =>
      intro start same
      rw [← some.inj same]
    | cons info rest ih =>
      intro start same
      rw [foldl_cons, mergeNext] at same
      have kept := ih (mergeSubscriber (some start) info) same
      rwa [mergeSubscriber] at kept
  cases infos with
  | nil => cases made
  | cons info rest =>
    rw [map_cons, foldl_cons, mergeNext] at made
    refine ⟨info, mem_cons_self, ?_⟩
    have bound := info.options.toNat_lt
    have read : (mergeSubscriber none info.toJson).options = toInt info.options.toNat := by
      rw [mergeSubscriber, infoField_options]
    rw [stays _ _ made, read, toInt_of_lt (by omega)]

theorem fold_isSome (infos : List SubInfo) :
    ((infos.map SubInfo.toJson).foldl mergeNext none).isSome ↔ infos ≠ [] := by
  have stays : ∀ (later : List Json) (entry : Option Subscriber), entry.isSome →
      (later.foldl mergeNext entry).isSome := by
    intro later
    induction later with
    | nil => exact fun _ known => known
    | cons info rest ih => exact fun entry _ => ih _ rfl
  cases infos with
  | nil => simp
  | cons info rest =>
    rw [map_cons, foldl_cons]
    exact ⟨fun _ => cons_ne_nil _ _, fun _ => stays _ _ rfl⟩

theorem Sums.perm {infos others : List SubInfo} (sums : Sums infos entry)
    (same : infos.Perm others) : Sums others entry where
  reached := by
    have ⟨info, among, qos⟩ := sums.reached
    exact ⟨info, same.mem_iff.1 among, qos⟩
  highest := fun info among => sums.highest info (same.mem_iff.2 among)
  ids := sums.ids.trans ((same.map _).filter _)

theorem matching_ne_nil {clientId : String} {topic : List String} :
    matching live clientId topic ≠ [] ↔
      ∃ path, (path, clientId) ∈ live.keys ∧ MqttMatches path topic := by
  unfold matching
  rw [Ne, map_eq_nil_iff, filter_eq_nil_iff]
  constructor
  · intro some_entry
    by_contra absent
    refine some_entry fun entry among => ?_
    rw [decide_eq_true_eq]
    intro both
    refine absent ⟨entry.1.1, ?_, both.2⟩
    rw [← both.1]
    exact mem_map_of_mem among
  · rintro ⟨path, key, covers⟩ none
    have ⟨entry, among, same⟩ := mem_map.1 key
    have unmatched := none entry among
    rw [same, decide_eq_true_eq] at unmatched
    exact unmatched ⟨rfl, covers⟩

theorem not_mqttMatches_share {filter topic : List String} (shared : topic.head? = some "$share")
    (normal : filter.head? ≠ some "$share") : ¬MqttMatches filter topic := by
  intro both
  have wild := both.1 (by rw [shared]; decide)
  cases topic with
  | nil => cases shared
  | cons first rest =>
    rw [head?_cons, some.injEq] at shared
    cases both.2 with
    | rest => exact wild.2 rfl
    | one _ later => exact wild.1 rfl
    | level _ later => exact normal (congrArg some shared)

theorem perm_matching (live : Live) (clientId : String) {paths : List (List String)}
    {topic : List String} (distinct : paths.Nodup)
    (exact : ∀ path, path ∈ paths ↔ MqttMatches path topic) :
    (paths.filterMap fun path => live.get? (path, clientId)).Perm
      (matching live clientId topic) := by
  have looked : paths.filterMap (fun path => live.get? (path, clientId)) =
      (paths.filterMap fun path =>
        (live.get? (path, clientId)).map fun info => ((path, clientId), info)).map Prod.snd := by
    rw [map_filterMap]
    refine filterMap_congr fun path _ => ?_
    cases live.get? (path, clientId) <;> rfl
  rw [looked]
  refine List.Perm.map _ ((perm_ext_iff_of_nodup ?_ ?_).2 ?_)
  · refine distinct.filterMap ?_
    intro left right entry first second
    obtain ⟨_, _, rfl⟩ := map_eq_some_iff.1 (mem_def.1 first)
    have ⟨_, _, same⟩ := map_eq_some_iff.1 (mem_def.1 second)
    exact (congrArg (fun entry => entry.1.1) same).symm
  · exact (List.Nodup.of_map Prod.fst live.nodup).filter _
  · intro entry
    rw [mem_filterMap, mem_filter]
    constructor
    · rintro ⟨path, among, read⟩
      obtain ⟨info, found, rfl⟩ := map_eq_some_iff.1 read
      refine ⟨mem_of_lookupEntries found, ?_⟩
      simpa using (exact path).1 among
    · rintro ⟨among, both⟩
      have known : entry.1.2 = clientId ∧ MqttMatches entry.1.1 topic := by simpa using both
      refine ⟨entry.1.1, (exact _).2 known.2, ?_⟩
      have found := live.get?_of_mem among
      rw [← known.1, show (entry.1.1, entry.1.2) = entry.1 from rfl, found]
      rfl

/-- No live filter of a client named `SUBS_KEY` matches with one more level of that name: the search
takes no subscriber dict for a node. -/
def Alone (live : Live) (levels : List String) : Prop :=
  ∀ path, (path, subsKey) ∈ live.keys → ¬MqttMatches (path ++ [subsKey]) levels

section

variable (keeps : Keeps root live)
include keeps

theorem Keeps.behind {path : List String}
    (alone : ∀ before, path = before ++ [subsKey] → (before, subsKey) ∉ live.keys)
    (through : subsKey ∈ path) : dictAt root path = [] := by
  refine dictAt_behind keeps.shaped through fun before clean split => ?_
  rw [keeps.reads before clean, live.get?_eq_none (alone before split)]
  rfl

/-- What is collected for a client at a list of paths is the merge of what it holds of them. -/
theorem Keeps.looked {paths : List (List String)}
    (alone : ∀ path ∈ paths, ∀ before, path = before ++ [subsKey] → (before, subsKey) ∉ live.keys)
    (clientId : String) :
    Dict.lookupEntries clientId (collectPaths root paths []) =
      ((paths.filterMap fun path => live.get? (path, clientId)).map
        SubInfo.toJson).foldl mergeNext none := by
  have dicts : ∀ path ∈ paths, ((dictAt root path).map Prod.fst).Nodup := by
    intro path among
    by_cases through : subsKey ∈ path
    · rw [keeps.behind (alone path among) through]
      exact nodup_nil
    · unfold dictAt
      cases found : getNode root path with
      | none => exact nodup_nil
      | some node =>
        rw [bind_some]
        cases present : objectGet node subsKey with
        | none => exact nodup_nil
        | some dict =>
          obtain ⟨fields, rfl, once, -⟩ := (keeps.shaped.node through found).subscribers present
          exact once
  have reads : paths.filterMap (held root · clientId) =
      (paths.filterMap fun path => live.get? (path, clientId)).map SubInfo.toJson := by
    rw [map_filterMap]
    refine filterMap_congr fun path among => ?_
    by_cases through : subsKey ∈ path
    · have absent : live.get? (path, clientId) = none :=
        live.get?_eq_none fun key => keeps.clean _ key through
      rw [absent, ← get?_dictAt, keeps.behind (alone path among) through]
      rfl
    · exact keeps.reads path through clientId
  rw [lookup_collectPaths root _ dicts, reads]
  rfl

theorem Keeps.collected
    {levels : List String} (some_level : levels ≠ []) (alone : Alone live levels)
    (clientId : String) :
    Dict.lookupEntries clientId (collectPaths root (topicPaths levels) []) =
      (((topicPaths levels).filterMap fun path => live.get? (path, clientId)).map
        SubInfo.toJson).foldl mergeNext none := by
  apply keeps.looked
  intro path among before split key
  exact alone before key (split ▸ (mem_topicPaths some_level).1 among)

theorem Keeps.clients {levels : List String}
    (some_level : levels ≠ []) (plain : "+" ∉ levels ∧ "#" ∉ levels) (alone : Alone live levels)
    (clientId : String) :
    clientId ∈ (collectPaths root (topicPaths levels) []).map Prod.fst ↔
      matching live clientId levels ≠ [] := by
  have same := perm_matching live clientId (topicPaths_nodup plain) fun path =>
    mem_topicPaths some_level
  rw [← lookupEntries_isSome, keeps.collected some_level alone, fold_isSome, Ne, Ne,
    ← length_eq_zero_iff, same.length_eq, length_eq_zero_iff]

theorem Keeps.exact
    (small : ∀ entry ∈ live.entries, entry.2.id.toNat < 2 ^ 31) {levels : List String}
    (some_level : levels ≠ []) (plain : "+" ∉ levels ∧ "#" ∉ levels)
    (alone : Alone live levels) :
    Exact live levels (collectPaths root (topicPaths levels) []) where
  once := nodup_collectPaths root _ [] nodup_nil
  clients := keeps.clients some_level plain alone
  sums := by
    intro clientId entry read
    rw [keeps.collected some_level alone] at read
    refine (sums_fold (fun info among => ?_) read).perm
      (perm_matching live clientId (topicPaths_nodup plain) fun path => mem_topicPaths some_level)
    have ⟨path, _, at_path⟩ := mem_filterMap.1 among
    exact small _ (mem_of_lookupEntries at_path)

end

end Yunetas.Mqtt
