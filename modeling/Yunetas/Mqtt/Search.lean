import Yunetas.Mqtt.Held

/-!
# What a search collects

`search_recursive` collects the subscriber dicts of the nodes at the paths that match the topic, one
path after another. What it has collected for a client is the merge of what the client holds at those
paths, so it depends on the tree through `held` alone.
-/

namespace Yunetas.Mqtt

open List Option Dict

open Json

/-- The subscribers at the node of a path. -/
def dictAt (root : Json) (path : List String) : Fields :=
  (((getNode root path).bind (objectGet · subsKey)).map objectEntries).getD []

/-- The collection of one path after another. -/
def collectPaths (root : Json) (paths : List (List String)) (subscribers : Subscribers) :
    Subscribers :=
  paths.foldl (fun subscribers path => (dictAt root path).foldl collectOne subscribers) subscribers

theorem collectSubscribers_eq (node : Json) (subscribers : Subscribers) :
    collectSubscribers node subscribers = (dictAt node []).foldl collectOne subscribers := by
  unfold collectSubscribers dictAt
  rw [getNode, bind_some]
  cases objectGet node subsKey <;> rfl

variable (root : Json)

theorem dictAt_cons (level : String) (path : List String) :
    dictAt root (level :: path) = ((objectGet root level).map (dictAt · path)).getD [] := by
  unfold dictAt
  rw [getNode]
  cases objectGet root level <;> rfl

theorem collectPaths_map {root child : Json} {level : String}
    (found : objectGet root level = some child) (paths : List (List String))
    (subscribers : Subscribers) :
    collectPaths root (paths.map (level :: ·)) subscribers =
      collectPaths child paths subscribers := by
  unfold collectPaths
  rw [foldl_map]
  simp [dictAt_cons, found]

theorem collectPaths_map_none {root : Json} {level : String} (found : objectGet root level = none)
    (paths : List (List String)) (subscribers : Subscribers) :
    collectPaths root (paths.map (level :: ·)) subscribers = subscribers := by
  unfold collectPaths
  rw [foldl_map]
  simp only [dictAt_cons, found, map_none, getD_none, foldl_nil]
  exact foldl_fixed _

theorem collectPaths_append (before after : List (List String)) (subscribers : Subscribers) :
    collectPaths root (before ++ after) subscribers =
      collectPaths root after (collectPaths root before subscribers) := foldl_append

theorem collectPaths_cons (path : List String) (paths : List (List String))
    (subscribers : Subscribers) :
    collectPaths root (path :: paths) subscribers =
      collectPaths root paths ((dictAt root path).foldl collectOne subscribers) := rfl

theorem collectMultiWildcard_eq (node : Json) (subscribers : Subscribers) :
    collectMultiWildcard node subscribers = (dictAt node ["#"]).foldl collectOne subscribers := by
  rw [dictAt_cons, collectMultiWildcard]
  cases objectGet node "#" with
  | none => rfl
  | some child => exact collectSubscribers_eq child subscribers

theorem searchRecursive_eq (node : Json) (levels : List String) (subscribers : Subscribers) :
    searchRecursive node levels subscribers =
      collectPaths node (Wildcard.visited "+" "#" levels) subscribers := by
  induction levels generalizing node subscribers with
  | nil =>
    rw [searchRecursive, collectMultiWildcard_eq, collectSubscribers_eq]
    rfl
  | cons level rest ih =>
    have below (key : String) (subscribers : Subscribers) :
        collectPaths node ((Wildcard.visited "+" "#" rest).map (key :: ·)) subscribers =
          (objectGet node key).elim subscribers fun child =>
            searchRecursive child rest subscribers := by
      cases found : objectGet node key with
      | none => exact collectPaths_map_none found _ _
      | some child => rw [elim_some, ih, collectPaths_map found]
    cases plus : objectGet node "+" <;> cases exact : objectGet node level <;>
      simp [searchRecursive, collectMultiWildcard_eq, Wildcard.visited, collectPaths_cons,
        collectPaths_append, below, plus, exact]

/-- The paths that `sub__messages_queue` looks at for the levels of a topic. -/
def topicPaths (levels : List String) : List (List String) :=
  match levels with
  | [] => []
  | first :: rest =>
    if dollar first then (Wildcard.visited "+" "#" rest).map (first :: ·)
    else Wildcard.visited "+" "#" levels

/-- The paths of the tree that `sub__messages_queue` looks at for a topic with these levels. -/
def lookedPaths (topic : String) (levels : List String) : List (List String) :=
  if dollar topic then
    match levels with
    | [] => []
    | first :: rest => (Wildcard.visited "+" "#" rest).map (first :: ·)
  else Wildcard.visited "+" "#" levels.tail

theorem searchTree_looked (topic : String) (levels : List String) :
    searchTree root topic levels = collectPaths root (lookedPaths topic levels) [] := by
  unfold searchTree lookedPaths
  by_cases system : dollar topic = true
  · rw [if_pos system, if_pos system]
    cases levels with
    | nil => rfl
    | cons first rest =>
      dsimp only
      cases found : objectGet root first with
      | none => exact (collectPaths_map_none found _ _).symm
      | some child =>
        dsimp only
        rw [searchRecursive_eq, collectPaths_map found]
  · rw [if_neg system, if_neg system, searchRecursive_eq]

theorem lookedPaths_plain (topic : String) :
    lookedPaths topic (if dollar topic then tokens topic else "" :: tokens topic) =
      topicPaths (tokens topic) := by
  have first := tokens_dollar topic
  unfold lookedPaths topicPaths
  cases split : tokens topic with
  | nil => exact absurd split (tokens_ne_nil topic)
  | cons level rest =>
    rw [split, head?_cons, map_some, some.injEq] at first
    dsimp only
    by_cases system : dollar topic = true
    · rw [if_pos system, if_pos system, first, if_pos system]
    · rw [if_neg system, if_neg system, first, if_neg system, tail_cons]

theorem searchTree_eq (topic : String) :
    searchTree root topic (if dollar topic then tokens topic else "" :: tokens topic) =
      collectPaths root (topicPaths (tokens topic)) [] := by
  rw [searchTree_looked, lookedPaths_plain]

theorem mem_topicPaths {levels path : List String} (some_level : levels ≠ []) :
    path ∈ topicPaths levels ↔ MqttMatches path levels := by
  unfold topicPaths MqttMatches
  cases levels with
  | nil => exact absurd rfl some_level
  | cons first rest =>
    dsimp only
    rw [head?_cons, map_some, some.injEq]
    by_cases system : dollar first = true
    · rw [if_pos system, List.mem_map]
      constructor
      · rintro ⟨tail, among, rfl⟩
        refine ⟨fun _ => ?_, .level first ((Wildcard.mem_visited "+" "#").1 among)⟩
        rw [head?_cons, Ne, Ne, some.injEq, some.injEq]
        constructor
        · rintro rfl
          revert system
          decide
        · rintro rfl
          revert system
          decide
      · intro both
        have plain := both.1 system
        cases both.2 with
        | rest => exact absurd rfl plain.2
        | one _ later => exact absurd rfl plain.1
        | level _ later => exact ⟨_, (Wildcard.mem_visited "+" "#").2 later, rfl⟩
    · rw [if_neg system, Wildcard.mem_visited]
      exact ⟨fun covers => ⟨fun is => absurd is system, covers⟩, fun both => both.2⟩

theorem topicPaths_nodup {levels : List String} (plain : "+" ∉ levels ∧ "#" ∉ levels) :
    (topicPaths levels).Nodup := by
  unfold topicPaths
  cases levels with
  | nil => exact nodup_nil
  | cons first rest =>
    dsimp only
    by_cases system : dollar first = true
    · rw [if_pos system]
      refine (Wildcard.visited_nodup "+" "#" (by decide)
        ⟨fun among => plain.1 (mem_cons_of_mem _ among),
          fun among => plain.2 (mem_cons_of_mem _ among)⟩).map ?_
      exact fun _ _ same => (cons.inj same).2
    · rw [if_neg system]
      exact Wildcard.visited_nodup "+" "#" (by decide) plain

/-- One more subscription for a client. -/
def mergeNext (entry : Option Subscriber) (info : Json) : Option Subscriber :=
  some (mergeSubscriber entry info)

theorem lookup_collect (entries : Fields) (distinct : (entries.map Prod.fst).Nodup)
    (subscribers : Subscribers) (clientId : String) :
    Dict.lookupEntries clientId (entries.foldl collectOne subscribers) =
      (Fields.get? entries clientId).toList.foldl mergeNext
        (Dict.lookupEntries clientId subscribers) := by
  induction entries generalizing subscribers with
  | nil => rfl
  | cons entry rest ih =>
    rw [map_cons, nodup_cons] at distinct
    rw [foldl_cons, ih distinct.2, collectOne, lookupEntries_set]
    unfold Fields.get?
    rw [Dict.lookupEntries]
    by_cases same : clientId = entry.1
    · have absent : Dict.lookupEntries clientId rest = none := by
        cases found : Dict.lookupEntries clientId rest with
        | none => rfl
        | some value =>
          have among := mem_map_of_mem (f := Prod.fst) (mem_of_lookupEntries found)
          exact absurd (same ▸ among) distinct.1
      rw [if_pos same, if_pos same.symm, absent, ← same]
      rfl
    · rw [if_neg same, if_neg fun is => same is.symm]

theorem nodup_collect (entries : Fields) (subscribers : Subscribers)
    (distinct : (subscribers.map Prod.fst).Nodup) :
    ((entries.foldl collectOne subscribers).map Prod.fst).Nodup := by
  induction entries generalizing subscribers with
  | nil => exact distinct
  | cons entry rest ih =>
    refine ih _ ?_
    exact (Dict.set ⟨subscribers, distinct⟩ entry.1 _).nodup

theorem nodup_collectPaths (paths : List (List String)) (subscribers : Subscribers)
    (distinct : (subscribers.map Prod.fst).Nodup) :
    ((collectPaths root paths subscribers).map Prod.fst).Nodup := by
  induction paths generalizing subscribers with
  | nil => exact distinct
  | cons path rest ih => exact ih _ (nodup_collect _ _ distinct)

theorem get?_dictAt (path : List String) (clientId : String) :
    Fields.get? (dictAt root path) clientId = held root path clientId := by
  unfold dictAt held
  cases (getNode root path).bind (objectGet · subsKey) with
  | none => rfl
  | some dict => cases dict <;> rfl

theorem lookup_collectPaths (paths : List (List String))
    (distinct : ∀ path ∈ paths, ((dictAt root path).map Prod.fst).Nodup)
    (subscribers : Subscribers) (clientId : String) :
    Dict.lookupEntries clientId (collectPaths root paths subscribers) =
      (paths.filterMap (held root · clientId)).foldl mergeNext
        (Dict.lookupEntries clientId subscribers) := by
  induction paths generalizing subscribers with
  | nil => rfl
  | cons path rest ih =>
    rw [collectPaths_cons, ih fun other among => distinct other (mem_cons_of_mem _ among),
      lookup_collect _ (distinct path mem_cons_self), get?_dictAt, filterMap_cons]
    cases held root path clientId <;> rfl

theorem Shaped.node {root : Json} (shaped : Shaped root) {path : List String}
    (clean : subsKey ∉ path) {node : Json} (found : getNode root path = some node) :
    Shaped node := by
  induction path generalizing root with
  | nil =>
    rw [getNode, some.injEq] at found
    exact found ▸ shaped
  | cons level rest ih =>
    rw [mem_cons, not_or] at clean
    rw [getNode] at found
    cases child : objectGet root level with
    | none =>
      rw [child] at found
      cases found
    | some next =>
      rw [child, bind_some] at found
      exact ih (shaped.child child (Ne.symm clean.1)) clean.2 found

theorem getNode_info (info : SubInfo) (path : List String) :
    (getNode info.toJson path).bind (objectGet · subsKey) = none := by
  cases path with
  | nil => rfl
  | cons level rest =>
    rw [getNode]
    cases found : objectGet info.toJson level with
    | none => rfl
    | some value =>
      have integer : ∃ number, value = .integer number := by
        have among := mem_of_lookupEntries (show Dict.lookupEntries level
          [("qos", Json.integer info.qos.toNat), ("id", .integer info.id.toNat),
            ("options", .integer info.options.toNat)] = some value from found)
        simp only [mem_cons, Prod.mk.injEq, not_mem_nil, or_false] at among
        rcases among with ⟨-, rfl⟩ | ⟨-, rfl⟩ | ⟨-, rfl⟩ <;> exact ⟨_, rfl⟩
      obtain ⟨number, rfl⟩ := integer
      rw [bind_some]
      cases rest <;> rfl

theorem getNode_append (before after : List String) :
    getNode root (before ++ after) = (getNode root before).bind (getNode · after) := by
  induction before generalizing root with
  | nil => rfl
  | cons level rest ih =>
    rw [cons_append, getNode, getNode]
    cases objectGet root level with
    | none => rfl
    | some child => exact ih child

/-- A path with the level of the subscribers leads to no subscribers, except right behind a node at
which a client of that name holds a filter. -/
theorem dictAt_behind {root : Json} (shaped : Shaped root) {path : List String}
    (through : subsKey ∈ path)
    (alone : ∀ before, subsKey ∉ before → path = before ++ [subsKey] →
      held root before subsKey = none) : dictAt root path = [] := by
  obtain ⟨before, after, clean, rfl⟩ : ∃ before after, subsKey ∉ before ∧
      path = before ++ subsKey :: after := by
    obtain ⟨before, after, split, first⟩ := eq_append_cons_of_mem through
    exact ⟨before, after, first, split⟩
  unfold dictAt
  rw [getNode_append]
  cases found : getNode root before with
  | none => rfl
  | some node =>
    have nodeShaped := shaped.node clean found
    rw [bind_some, getNode]
    cases present : objectGet node subsKey with
    | none => rfl
    | some dict =>
      rw [bind_some]
      cases after with
      | nil =>
        have nothing := alone before clean rfl
        rw [held, found, bind_some, present, bind_some] at nothing
        rw [getNode, bind_some, nothing]
        rfl
      | cons client rest =>
        rw [getNode]
        cases entry : objectGet dict client with
        | none => rfl
        | some value =>
          obtain ⟨fields, rfl, -, infos⟩ := nodeShaped.subscribers present
          obtain ⟨info, is⟩ := infos _ (mem_of_lookupEntries entry)
          rw [bind_some, show value = info.toJson from is, getNode_info]
          rfl

end Yunetas.Mqtt
