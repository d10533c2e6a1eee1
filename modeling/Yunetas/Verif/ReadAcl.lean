import Yunetas.Mqtt.Acl

/-!
# What a granted subscription delivers

`mqtt_acl_check` takes a filter for a topic when it asks whether a pattern grants it. The topics that
the filter gets are then all granted exactly when the patterns also cover the filter with its final
`#` taken as any number of single levels, in the place where its topics are looked up.
-/

namespace Yunetas.Mqtt

open List Option

/-- A topic filter that the protocol accepts. -/
structure TopicFilter where
  text : String
  /-- `mqtt_sub_topic_check2` accepts it. -/
  accepted : mqttSubTopicCheck2 text = 0

/-- The levels that the tree walks for a filter; none when it is refused. -/
def filterPath (filter : String) : List String :=
  match topicTokenize filter with
  | none => []
  | some (levels, _) => nodePath levels

/-- The levels of the topics that a path leads to: in front of a first level without `$` stands an
empty one. -/
def ownLevels (path : List String) : List String :=
  if path.head?.map dollar = some true then path else "" :: path

/-- A topic is granted by one of the patterns. -/
def Granted (patterns : List String) (topic : String) : Prop :=
  ∃ levels group, topicTokenize topic = some (levels, group) ∧
    ∃ pattern ∈ patterns, PatternMatches pattern levels

instance (pattern : String) (levels : List String) : Decidable (PatternMatches pattern levels) :=
  match split : topicTokenize pattern with
  | none => isFalse fun ⟨_, _, same, _⟩ => by rw [split] at same; cases same
  | some (subLevels, group) =>
    if covers : topicMatchesSub subLevels levels = true then isTrue ⟨subLevels, group, split, covers⟩
    else isFalse fun ⟨_, _, same, found⟩ => by
      rw [split] at same
      cases same
      exact covers found

instance (patterns : List String) (topic : String) : Decidable (Granted patterns topic) :=
  match split : topicTokenize topic with
  | none => isFalse fun ⟨_, _, same, _⟩ => by rw [split] at same; cases same
  | some (levels, group) =>
    if covers : ∃ pattern ∈ patterns, PatternMatches pattern levels then
      isTrue ⟨levels, group, split, covers⟩
    else isFalse fun ⟨_, _, same, found⟩ => by
      rw [split] at same
      cases same
      exact covers found

/-- The patterns cover a filter. -/
structure Covered (patterns : List String) (filter : String) : Prop where
  /-- As the topics that reach its node, for every number of levels in the place of a final `#`. -/
  spread : (filterPath filter).head? ≠ some "$share" → ∀ count,
    Wildcard.spread "+" "#" count (ownLevels (filterPath filter)) ≠ [""] →
    Wildcard.spread "+" "#" count (ownLevels (filterPath filter)) ≠ ["", ""] →
    ∃ pattern ∈ patterns,
      PatternMatches pattern (Wildcard.spread "+" "#" count (ownLevels (filterPath filter)))
  /-- And without an empty first level, as the topics `$share/<group>/<rest>` that reach it. -/
  behind : ∀ path, filterPath filter = "" :: path → ∀ count,
    Wildcard.spread "+" "#" count path ≠ [] → Wildcard.spread "+" "#" count path ≠ [""] →
    ∃ pattern ∈ patterns, PatternMatches pattern ("" :: Wildcard.spread "+" "#" count path)

/-- What is known of the levels of an accepted filter that is tokenized. -/
structure Parsed (filter : String) (levels : List String) : Prop where
  split : ∃ group, topicTokenize filter = some (levels, group)
  some_level : nodePath levels ≠ []
  tokens : ∀ level ∈ nodePath levels, level ∈ tokens filter
  /-- `#` stands in the last place only. -/
  last : "#" ∉ (nodePath levels).dropLast
  own : namesShare filter = false →
    levels = ownLevels (nodePath levels) ∧ (nodePath levels).head? ≠ some "$share"

variable {filter : String} {levels : List String} {path : List String} {patterns : List String}
  {fresh : String}

theorem filterPath_eq {group : Option String}
    (split : topicTokenize filter = some (levels, group)) : filterPath filter = nodePath levels := by
  unfold filterPath
  rw [split]

theorem namesShare_of_tokens {filter group : String} {rest : List String}
    (split : tokens filter = "$share" :: group :: rest) : namesShare filter = true := by
  have text : filter.toList = "$share/".toList ++ (['/'].intercalate
      ((group :: rest).map String.toList)) := by
    conv => lhs; rw [← textOf_tokens filter, split]
    unfold textOf
    rw [String.toList_ofList, map_cons, map_cons, intercalate_cons_cons]
    rfl
  unfold namesShare
  rw [text, take_append_of_le_length (by decide)]
  decide

theorem parsed (accepted : mqttSubTopicCheck2 filter = 0)
    {group : Option String} (split : topicTokenize filter = some (levels, group)) :
    Parsed filter levels := by
  have some_text : filter.toList ≠ [] := by
    intro empty
    unfold topicTokenize at split
    rw [if_pos empty] at split
    cases split
  have last := accepted_last accepted
  rcases topicTokenize_cases some_text with ⟨plain, same⟩ | ⟨name, rest, shared, long, same⟩ | none
  · rw [split] at same
    obtain ⟨rfl, rfl⟩ := Prod.mk.inj (some.inj same)
    have path := nodePath_plain filter
    refine ⟨⟨_, split⟩, ?_, ?_, ?_, fun _ => ⟨?_, ?_⟩⟩
    · rw [path]
      exact tokens_ne_nil filter
    · rw [path]
      exact fun level among => among
    · rwa [path]
    · rw [path]
      unfold ownLevels
      rw [tokens_dollar]
      by_cases system : dollar filter = true
      · rw [if_pos system, if_pos (congrArg some system)]
      · rw [if_neg system, if_neg fun is => system (some.inj is)]
    · rwa [path]
  · rw [split] at same
    obtain ⟨rfl, rfl⟩ := Prod.mk.inj (some.inj same)
    have path : nodePath ("" :: rest) = rest := rfl
    refine ⟨⟨_, split⟩, ?_, ?_, ?_, fun unnamed => ?_⟩
    · rw [path]
      exact long.1
    · rw [path, shared]
      exact fun level among => mem_cons_of_mem _ (mem_cons_of_mem _ among)
    · rw [path]
      rw [shared] at last
      cases rest with
      | nil => exact absurd rfl long.1
      | cons first others =>
        rw [dropLast_cons_cons, dropLast_cons_cons, mem_cons, mem_cons, not_or, not_or] at last
        exact last.2.2
    · rw [namesShare_of_tokens shared] at unnamed
      cases unnamed
  · rw [split] at none
    cases none

theorem plus_ne_hash : "+" ≠ "#" := by decide

theorem last_ownLevels (last : "#" ∉ path.dropLast) : "#" ∉ (ownLevels path).dropLast := by
  unfold ownLevels
  split
  · exact last
  · cases path with
    | nil => exact not_mem_nil
    | cons first rest =>
      rw [dropLast_cons_cons, mem_cons, not_or]
      exact ⟨by decide, last⟩

theorem spread_ownLevels (count : Nat) (plain : ¬path.head?.map dollar = some true) :
    Wildcard.spread "+" "#" count (ownLevels path) = "" :: Wildcard.spread "+" "#" count path := by
  unfold ownLevels
  rw [if_neg plain, Wildcard.spread_cons (by decide)]

theorem PatternMatches.trans {pattern : String} {levels topic : List String}
    (covers : PatternMatches pattern levels) (bounded : "#" ∉ levels)
    (inside : Wildcard.Matches "+" "#" levels topic) : PatternMatches pattern topic := by
  have ⟨subLevels, group, split, found⟩ := covers
  refine ⟨subLevels, group, split, (topicMatchesSub_iff _ _).2 ?_⟩
  exact ((topicMatchesSub_iff _ _).1 found).trans bounded inside

theorem ownLevels_tokens (topic : String) :
    ownLevels (tokens topic) =
      if dollar topic then tokens topic else "" :: tokens topic := by
  unfold ownLevels
  rw [tokens_dollar]
  by_cases system : dollar topic = true
  · rw [if_pos system, if_pos (congrArg some system)]
  · rw [if_neg system, if_neg fun is => system (some.inj is)]

/-- A filter that matches a topic matches it by its own levels too, and does not start with `$share`
when the topic does not. -/
theorem MqttMatches.own {path topic : List String} (some_level : path ≠ [])
    (both : MqttMatches path topic) :
    Wildcard.Matches "+" "#" (ownLevels path) (ownLevels topic) ∧
      (topic.head? ≠ some "$share" → path.head? ≠ some "$share") := by
  have ⟨wild, covers⟩ := both
  unfold ownLevels
  cases covers with
  | rest =>
    have plain : ¬topic.head?.map dollar = some true := fun is => (wild is).2 rfl
    rw [if_neg plain, if_neg (by decide)]
    exact ⟨.level "" (.rest topic), fun _ => by decide⟩
  | done => exact absurd rfl some_level
  | one level later =>
    have plain : ¬(level :: _).head?.map dollar = some true := fun is => (wild is).1 rfl
    rw [if_neg plain, if_neg (by rw [head?_cons, map_some]; decide)]
    exact ⟨.level "" (.one level later), fun _ => by rw [head?_cons]; decide⟩
  | level level later =>
    rw [head?_cons, head?_cons, map_some]
    by_cases system : some (dollar level) = some true
    · rw [if_pos system, if_pos system]
      exact ⟨.level level later, fun other => other⟩
    · rw [if_neg system, if_neg system]
      exact ⟨.level "" (.level level later), fun other => other⟩

theorem eq_of_matches_blank {levels topic : List String} (blank : ∀ level ∈ levels, level = "")
    (covers : Wildcard.Matches "+" "#" levels topic) : topic = levels := by
  induction covers with
  | rest =>
    have hash := blank "#" (mem_singleton_self _)
    exact absurd hash (by decide)
  | done => rfl
  | one _ _ _ =>
    have plus := blank "+" mem_cons_self
    exact absurd plus (by decide)
  | level level _ ih => rw [ih fun other among => blank other (mem_cons_of_mem _ among)]

theorem ownLevels_tokens_ne {topic : String} (some_text : topic.toList ≠ []) :
    ownLevels (tokens topic) ≠ [""] ∧ ownLevels (tokens topic) ≠ ["", ""] := by
  have blank : tokens topic ≠ [""] := by
    intro same
    have text := textOf_tokens topic
    rw [same] at text
    exact some_text (by rw [← text]; rfl)
  rw [ownLevels_tokens]
  by_cases system : dollar topic = true
  · rw [if_pos system]
    refine ⟨blank, fun same => ?_⟩
    have first := tokens_dollar topic
    rw [same, system] at first
    revert first
    decide
  · rw [if_neg system]
    exact ⟨fun same => tokens_ne_nil topic (cons.inj same).2,
      fun same => blank (cons.inj same).2⟩

theorem covered_own {patterns path topic : List String} (last : "#" ∉ path.dropLast)
    (covered : ∀ count, Wildcard.spread "+" "#" count (ownLevels path) ≠ [""] →
      Wildcard.spread "+" "#" count (ownLevels path) ≠ ["", ""] →
      ∃ pattern ∈ patterns, PatternMatches pattern (Wildcard.spread "+" "#" count (ownLevels path)))
    (long : topic ≠ [""] ∧ topic ≠ ["", ""])
    (covers : Wildcard.Matches "+" "#" (ownLevels path) topic) :
    ∃ pattern ∈ patterns, PatternMatches pattern topic := by
  have ⟨count, inside⟩ := Wildcard.exists_spread covers
  have bounded := Wildcard.rest_not_mem_spread plus_ne_hash (last_ownLevels last) count
  have one : Wildcard.spread "+" "#" count (ownLevels path) ≠ [""] := by
    intro same
    rw [same] at inside
    exact long.1 (eq_of_matches_blank (by simp) inside)
  have two : Wildcard.spread "+" "#" count (ownLevels path) ≠ ["", ""] := by
    intro same
    rw [same] at inside
    exact long.2 (eq_of_matches_blank (by simp) inside)
  have ⟨pattern, among, found⟩ := covered count one two
  exact ⟨pattern, among, found.trans bounded inside⟩

theorem lookedPaths_shared {topic group : String} {rest : List String}
    (split : tokens topic = "$share" :: group :: rest) :
    lookedPaths topic ("" :: rest) = (Wildcard.visited "+" "#" rest).map ("" :: ·) := by
  unfold lookedPaths
  rw [if_pos (dollar_of_share (by rw [split]; rfl))]

theorem Covered.granted
    (covered : Covered patterns filter) (known : Parsed filter levels) {topic : String}
    (publishable : Publishable topic)
    (gets : QueueMatches filter topic ∨ RetainMatches filter topic) : Granted patterns topic := by
  have ⟨group, split⟩ := known.split
  have path := filterPath_eq split
  have cover := covered.spread
  have behind := covered.behind
  rw [path] at cover behind
  -- what the filter's own levels match is covered, whichever way the topic came
  have by_own (topicLevels : List String) (long : topicLevels ≠ [""] ∧ topicLevels ≠ ["", ""])
      (head : (nodePath levels).head? ≠ some "$share")
      (covers : Wildcard.Matches "+" "#" (ownLevels (nodePath levels)) topicLevels) :
      ∃ pattern ∈ patterns, PatternMatches pattern topicLevels :=
    covered_own known.last (cover head) long covers
  have by_retain (topicLevels : List String) (long : topicLevels ≠ [""] ∧ topicLevels ≠ ["", ""])
      (unnamed : namesShare filter = false) (covers : topicMatchesSub levels topicLevels = true) :
      ∃ pattern ∈ patterns, PatternMatches pattern topicLevels := by
    have ⟨own, head⟩ := known.own unnamed
    refine by_own topicLevels long head ?_
    rw [topicMatchesSub_iff, own, upToHash_of_last (last_ownLevels known.last)] at covers
    exact covers
  rcases topicTokenize_cases publishable.1 with ⟨plain, same⟩ | ⟨name, rest, shared, long, same⟩ | none
  · have lengths := ownLevels_tokens_ne publishable.1
    rw [← ownLevels_tokens] at same
    refine ⟨_, _, same, ?_⟩
    rcases gets with ⟨subLevels, _, topicLevels, _, first, second, among⟩ |
      ⟨unnamed, subLevels, _, topicLevels, _, first, second, covers⟩
    · rw [split] at first
      cases first
      rw [same] at second
      cases second
      rw [ownLevels_tokens, lookedPaths_plain, mem_topicPaths (tokens_ne_nil topic)] at among
      have ⟨covers, head⟩ := among.own known.some_level
      exact by_own _ lengths (head plain) covers
    · rw [split] at first
      cases first
      rw [same] at second
      cases second
      exact by_retain _ lengths unnamed covers
  · have lengths : "" :: rest ≠ [""] ∧ "" :: rest ≠ ["", ""] :=
      ⟨fun is => long.1 (List.cons.inj is).2, fun is => long.2 (List.cons.inj is).2⟩
    refine ⟨_, _, same, ?_⟩
    rcases gets with ⟨subLevels, _, topicLevels, _, first, second, among⟩ |
      ⟨unnamed, subLevels, _, topicLevels, _, first, second, covers⟩
    · rw [split] at first
      cases first
      rw [same] at second
      cases second
      rw [lookedPaths_shared shared, List.mem_map] at among
      have ⟨tail, visit, behind_blank⟩ := among
      have covers := (Wildcard.mem_visited "+" "#").1 visit
      have last : "#" ∉ tail.dropLast := by
        have whole := known.last
        rw [← behind_blank] at whole
        cases tail with
        | nil => exact List.not_mem_nil
        | cons next more =>
          rw [List.dropLast_cons_cons, List.mem_cons, not_or] at whole
          exact whole.2
      have ⟨count, inside⟩ := Wildcard.exists_spread covers
      have bounded := Wildcard.rest_not_mem_spread plus_ne_hash last count
      have ⟨pattern, member, found⟩ := behind tail behind_blank.symm count (fun is => by
          rw [is] at inside
          exact long.1 (eq_of_matches_blank (by simp) inside))
        (fun is => by
          rw [is] at inside
          exact long.2 (eq_of_matches_blank (by simp) inside))
      refine ⟨pattern, member, found.trans ?_ (.level "" inside)⟩
      rw [List.mem_cons, not_or]
      exact ⟨by decide, bounded⟩
    · rw [split] at first
      cases first
      rw [same] at second
      cases second
      exact by_retain _ lengths unnamed covers
  · rcases gets with ⟨_, _, _, _, _, second, _⟩ | ⟨_, _, _, _, _, _, second, _⟩
    · rw [none] at second
      cases second
    · rw [none] at second
      cases second

theorem exists_longer (levels : List String) :
    ∃ size, ∀ level ∈ levels, level.toList.length < size := by
  induction levels with
  | nil => exact ⟨0, fun _ among => absurd among not_mem_nil⟩
  | cons first rest ih =>
    have ⟨size, below⟩ := ih
    refine ⟨max size (first.toList.length + 1), fun level among => ?_⟩
    rcases mem_cons.1 among with rfl | later
    · omega
    · have small := below level later
      omega

theorem exists_fresh (levels : List String) :
    ∃ fresh : String, fresh ∉ levels ∧ fresh ≠ "" ∧ ∀ ch ∈ fresh.toList, ch = 'x' := by
  have ⟨size, below⟩ := exists_longer levels
  refine ⟨String.ofList (List.replicate (size + 1) 'x'), fun among => ?_, fun empty => ?_,
    fun ch inside => ?_⟩
  · have small := below _ among
    rw [String.toList_ofList, length_replicate] at small
    omega
  · have chars := congrArg String.toList empty
    rw [String.toList_ofList, replicate_succ] at chars
    cases chars
  · rw [String.toList_ofList] at inside
    exact eq_of_mem_replicate inside

/-- The levels at which the patterns are looked at. -/
def patternLevels (patterns : List String) : List String :=
  patterns.flatMap fun pattern =>
    match topicTokenize pattern with
    | none => []
    | some (levels, _) => upToHash levels

theorem PatternMatches.unfill
    (unknown : fresh ∉ patternLevels patterns) {pattern : String} (among : pattern ∈ patterns)
    (covers : PatternMatches pattern (Wildcard.fill "+" fresh levels)) :
    PatternMatches pattern levels := by
  have ⟨subLevels, group, split, found⟩ := covers
  refine ⟨subLevels, group, split, (topicMatchesSub_iff _ _).2 ?_⟩
  refine Wildcard.matches_of_fill (fun member => unknown ?_) ((topicMatchesSub_iff _ _).1 found)
  refine mem_flatMap.2 ⟨pattern, among, ?_⟩
  rw [split]
  exact member

theorem mem_spread {count : Nat} {level : String}
    (among : level ∈ Wildcard.spread "+" "#" count path) : level = "+" ∨ level ∈ path := by
  induction path with
  | nil => cases among
  | cons first rest ih =>
    cases rest with
    | nil =>
      rw [Wildcard.spread] at among
      split at among
      · exact .inl (eq_of_mem_replicate among)
      · exact .inr among
    | cons next more =>
      rw [Wildcard.spread] at among
      rcases mem_cons.1 among with rfl | later
      · exact .inr mem_cons_self
      · exact (ih later).imp_right (mem_cons_of_mem _)

theorem fill_spread_plain (accepted : mqttSubTopicCheck2 filter = 0)
    (letters : ∀ ch ∈ fresh.toList, ch = 'x')
    (known : ∀ level ∈ path, level ∈ tokens filter) (last : "#" ∉ path.dropLast) (count : Nat)
    {level : String}
    (among : level ∈ Wildcard.fill "+" fresh (Wildcard.spread "+" "#" count path)) :
    IsLevel level ∧ '+' ∉ level.toList ∧ '#' ∉ level.toList := by
  have ⟨old, member, same⟩ := mem_map.1 among
  by_cases plus : old = "+"
  · rw [if_pos plus] at same
    rw [← same]
    exact ⟨fun inside => absurd (letters _ inside) (by decide),
      fun inside => absurd (letters _ inside) (by decide),
      fun inside => absurd (letters _ inside) (by decide)⟩
  · rw [if_neg plus] at same
    rw [← same]
    have there := (mem_spread member).resolve_left plus
    have plain := (accepted_level accepted (known old there)).resolve_left plus
    have bounded := Wildcard.rest_not_mem_spread plus_ne_hash last count
    exact ⟨isLevel_of_mem (known old there), plain.resolve_left fun hash => bounded (hash ▸ member)⟩

theorem publishable_textOf (some_level : levels ≠ []) (filled : levels ≠ [""])
    (plain : ∀ level ∈ levels, IsLevel level ∧ '+' ∉ level.toList ∧ '#' ∉ level.toList) :
    Publishable (textOf levels) := by
  refine ⟨fun empty => ?_, fun inside => ?_, fun inside => ?_⟩
  · have back := tokens_textOf some_level fun level among => (plain level among).1
    have blank : textOf levels = "" := String.toList_inj.1 empty
    rw [blank] at back
    exact filled back.symm
  · rcases mem_textOf inside with slash | ⟨level, among, there⟩
    · revert slash
      decide
    · exact (plain level among).2.1 there
  · rcases mem_textOf inside with slash | ⟨level, among, there⟩
    · revert slash
      decide
    · exact (plain level among).2.2 there

theorem fill_ne (some_char : fresh ≠ "") (some_level : levels ≠ []) (filled : levels ≠ [""]) :
    Wildcard.fill "+" fresh levels ≠ [] ∧ Wildcard.fill "+" fresh levels ≠ [""] := by
  cases levels with
  | nil => exact absurd rfl some_level
  | cons first rest =>
    rw [Wildcard.fill, map_cons]
    refine ⟨cons_ne_nil _ _, fun same => ?_⟩
    obtain ⟨head, tail⟩ := List.cons.inj same
    rw [map_eq_nil_iff] at tail
    by_cases plus : first = "+"
    · rw [if_pos plus] at head
      exact some_char head
    · rw [if_neg plus] at head
      exact filled (by rw [head, tail])

theorem fill_dollar (letters : ∀ ch ∈ fresh.toList, ch = 'x')
    (system : (Wildcard.fill "+" fresh levels).head?.map dollar = some true) :
    (Wildcard.fill "+" fresh levels).head? = levels.head? ∧
      levels.head?.map dollar = some true := by
  cases levels with
  | nil => cases system
  | cons first rest =>
    rw [Wildcard.fill, map_cons, head?_cons, map_some, some.injEq] at *
    by_cases plus : first = "+"
    · rw [if_pos plus] at system
      unfold dollar at system
      rw [decide_eq_true_eq] at system
      have inside : '$' ∈ fresh.toList := mem_of_mem_head? (by rw [system]; rfl)
      exact absurd (letters '$' inside) (by decide)
    · rw [if_neg plus] at system ⊢
      exact ⟨rfl, by rw [head?_cons, map_some, system]⟩

theorem head_of_dollar (system : path.head?.map dollar = some true) (count : Nat) (fresh : String) :
    (Wildcard.spread "+" "#" count path).head? = path.head? ∧
      (Wildcard.fill "+" fresh (Wildcard.spread "+" "#" count path)).head? = path.head? := by
  cases path with
  | nil => cases system
  | cons first rest =>
    rw [head?_cons, map_some, some.injEq] at system
    have hash : first ≠ "#" := by
      rintro rfl
      revert system
      decide
    have plus : first ≠ "+" := by
      rintro rfl
      revert system
      decide
    rw [Wildcard.spread_cons hash, Wildcard.fill, map_cons, if_neg plus]
    exact ⟨rfl, rfl⟩

theorem dollar_of_fill (letters : ∀ ch ∈ fresh.toList, ch = 'x') {count : Nat}
    (system : (Wildcard.fill "+" fresh (Wildcard.spread "+" "#" count path)).head?.map dollar =
      some true) : path.head?.map dollar = some true := by
  have ⟨_, spread⟩ := fill_dollar letters system
  cases path with
  | nil => cases spread
  | cons first rest =>
    by_cases hash : first = "#"
    · cases rest with
      | nil =>
        rw [Wildcard.spread, if_pos hash] at spread
        cases count with
        | zero => cases spread
        | succ count =>
          rw [replicate_succ, head?_cons, map_some] at spread
          exact absurd spread (by decide)
      | cons next more =>
        rw [Wildcard.spread] at spread
        exact spread
    · rw [Wildcard.spread_cons hash] at spread
      exact spread

theorem ownLevels_fill (letters : ∀ ch ∈ fresh.toList, ch = 'x') (count : Nat)
    (path : List String) :
    ownLevels (Wildcard.fill "+" fresh (Wildcard.spread "+" "#" count path)) =
      Wildcard.fill "+" fresh (Wildcard.spread "+" "#" count (ownLevels path)) := by
  by_cases system : path.head?.map dollar = some true
  · have head := (head_of_dollar system count fresh).2
    unfold ownLevels
    rw [head, if_pos system, if_pos system]
  · have plain : ¬(Wildcard.fill "+" fresh (Wildcard.spread "+" "#" count path)).head?.map dollar =
        some true := fun is => system (dollar_of_fill letters is)
    rw [spread_ownLevels count system, ownLevels, if_neg plain]
    rfl

theorem covered_of_granted (accepted : mqttSubTopicCheck2 filter = 0) (known : Parsed filter levels)
    (all : ∀ topic, Publishable topic → QueueMatches filter topic ∨ RetainMatches filter topic →
      Granted patterns topic) : Covered patterns filter := by
  have ⟨group, split⟩ := known.split
  have ⟨fresh, unknown, some_char, letters⟩ := exists_fresh (patternLevels patterns)
  have path := filterPath_eq split
  refine ⟨?_, ?_⟩
  · rw [path]
    intro head count one two
    have some_level : Wildcard.spread "+" "#" count (nodePath levels) ≠ [] ∧
        Wildcard.spread "+" "#" count (nodePath levels) ≠ [""] := by
      by_cases system : (nodePath levels).head?.map dollar = some true
      · have first := (head_of_dollar system count fresh).1
        constructor
        · intro empty
          rw [empty] at first
          rw [← first] at system
          cases system
        · intro blank
          rw [blank] at first
          rw [← first] at system
          revert system
          decide
      · rw [spread_ownLevels count system] at one two
        exact ⟨fun empty => one (by rw [empty]), fun blank => two (by rw [blank])⟩
    have plain (level : String) (among : level ∈ Wildcard.fill "+" fresh
        (Wildcard.spread "+" "#" count (nodePath levels))) :=
      fill_spread_plain accepted letters known.tokens known.last count among
    have ⟨not_nil, not_blank⟩ := fill_ne some_char some_level.1 some_level.2
    generalize made : Wildcard.fill "+" fresh
      (Wildcard.spread "+" "#" count (nodePath levels)) = topic at plain not_nil not_blank
    have back := tokens_textOf not_nil fun level among => (plain level among).1
    have publishable := publishable_textOf not_nil not_blank plain
    have unshared : (tokens (textOf topic)).head? ≠ some "$share" := by
      rw [back]
      intro shared
      have system : topic.head?.map dollar = some true := by
        rw [shared]
        decide
      rw [← made] at system shared
      have origin := dollar_of_fill letters system
      rw [(head_of_dollar origin count fresh).2] at shared
      exact head shared
    have same := topicTokenize_plain publishable.1 unshared
    rw [← ownLevels_tokens] at same
    have covers : MqttMatches (nodePath levels) topic := by
      refine ⟨fun system => ?_, ?_⟩
      · rw [← made] at system
        have origin := dollar_of_fill letters system
        constructor
        · intro plus
          rw [plus] at origin
          revert origin
          decide
        · intro hash
          rw [hash] at origin
          revert origin
          decide
      · rw [← made]
        exact Wildcard.matches_of_spread known.last (Wildcard.matches_fill _ fresh)
    have queue : QueueMatches filter (textOf topic) := by
      refine ⟨levels, group, _, _, split, same, ?_⟩
      rw [ownLevels_tokens, lookedPaths_plain, mem_topicPaths (tokens_ne_nil _), back]
      exact covers
    have ⟨topicLevels, _, again, pattern, among, found⟩ := all _ publishable (.inl queue)
    rw [same, back] at again
    cases again
    rw [← made, ownLevels_fill letters] at found
    exact ⟨pattern, among, found.unfill unknown among⟩
  · rw [path]
    intro tail behind_blank count some_level filled
    have inside (level : String) (among : level ∈ tail) : level ∈ tokens filter :=
      known.tokens level (by rw [behind_blank]; exact mem_cons_of_mem _ among)
    have last : "#" ∉ tail.dropLast := by
      have whole := known.last
      rw [behind_blank] at whole
      cases tail with
      | nil => exact not_mem_nil
      | cons next more =>
        rw [dropLast_cons_cons, mem_cons, not_or] at whole
        exact whole.2
    have plain (level : String) (among : level ∈ Wildcard.fill "+" fresh
        (Wildcard.spread "+" "#" count tail)) :=
      fill_spread_plain accepted letters inside last count among
    have ⟨not_nil, not_blank⟩ := fill_ne some_char some_level filled
    have covers : Wildcard.Matches "+" "#" tail (Wildcard.fill "+" fresh
        (Wildcard.spread "+" "#" count tail)) :=
      Wildcard.matches_of_spread last (Wildcard.matches_fill _ fresh)
    generalize made : Wildcard.fill "+" fresh (Wildcard.spread "+" "#" count tail) = rest
      at plain not_nil not_blank covers
    have each : ∀ level ∈ "$share" :: "g" :: rest,
        IsLevel level ∧ '+' ∉ level.toList ∧ '#' ∉ level.toList := by
      intro level among
      rcases mem_cons.1 among with rfl | later
      · exact ⟨by unfold IsLevel; decide, by decide, by decide⟩
      · rcases mem_cons.1 later with rfl | inner
        · exact ⟨by unfold IsLevel; decide, by decide, by decide⟩
        · exact plain level inner
    have back := tokens_textOf (cons_ne_nil _ _) fun level among => (each level among).1
    have publishable : Publishable (textOf ("$share" :: "g" :: rest)) :=
      publishable_textOf (cons_ne_nil _ _) (by simp) each
    have same := topicTokenize_shared back ⟨not_nil, not_blank⟩
    have queue : QueueMatches filter (textOf ("$share" :: "g" :: rest)) := by
      refine ⟨levels, group, _, _, split, same, ?_⟩
      rw [lookedPaths_shared back, behind_blank]
      exact mem_map_of_mem ((Wildcard.mem_visited "+" "#").2 covers)
    have ⟨topicLevels, _, again, pattern, among, found⟩ := all _ publishable (.inl queue)
    rw [same] at again
    cases again
    have filling : "" :: rest =
        Wildcard.fill "+" fresh ("" :: Wildcard.spread "+" "#" count tail) := by
      rw [← made]
      rfl
    rw [filling] at found
    exact ⟨pattern, among, found.unfill unknown among⟩

/-- A granted subscription delivers only granted topics exactly when no pattern grants the filter as
it stands or the patterns cover it. -/
theorem granted_topics_iff (store : AclStore) (clientId : String) (filter : TopicFilter) :
    (store.enableAcl = true → subscribePatterns store clientId ≠ [] →
      mqttAclCheck store clientId filter.text "read" = true →
      ∀ topic, Publishable topic →
        QueueMatches filter.text topic ∨ RetainMatches filter.text topic →
        Granted (subscribePatterns store clientId) topic) ↔
    (store.enableAcl = true → Granted (subscribePatterns store clientId) filter.text →
      Covered (subscribePatterns store clientId) filter.text) := by
  constructor
  · rintro sound enabled ⟨levels, group, split, pattern, among, found⟩
    have known := parsed filter.accepted split
    have some_pattern := List.ne_nil_of_mem among
    have allowed := (mqttAclCheck_read store clientId filter.text enabled some_pattern).2
      ⟨levels, group, split, pattern, among, found⟩
    exact covered_of_granted filter.accepted known (sound enabled some_pattern allowed)
  · intro covers enabled some_pattern allowed topic publishable gets
    have ⟨levels, group, split, granted⟩ :=
      (mqttAclCheck_read store clientId filter.text enabled some_pattern).1 allowed
    exact (covers enabled ⟨levels, group, split, granted⟩).granted
      (parsed filter.accepted split) publishable gets

/-- One group with one pattern, of which every client is. -/
def onePattern (pattern : String) : AclStore where
  enableAcl := true
  clients := fun _ => some [.string "users"]
  clientGroups := fun _ => some ⟨[], [.string pattern]⟩

/-- With this pattern the filter may be subscribed to, gets the topic, and the topic is not granted. -/
def TooWide (pattern filter topic : String) : Prop :=
  mqttSubTopicCheck2 filter = 0 ∧
  subscribePatterns (onePattern pattern) "client" = [pattern] ∧
  mqttAclCheck (onePattern pattern) "client" filter "read" = true ∧
  Publishable topic ∧ QueueMatches filter topic ∧ ¬Granted [pattern] topic

/-- A final `+` grants `#`; `#` grants a shared filter whose topics start with `$`; and a pattern with
an empty first level grants a filter that gets topics of the form `$share/<group>/<rest>`. -/
theorem grants_too_wide :
    TooWide "a/+" "a/#" "a/b/c" ∧ TooWide "#" "$share/g/$SYS/x" "$SYS/x" ∧
    TooWide "/a" "/a" "$share/g/a" := by
  refine ⟨⟨by decide, by decide, by decide, ?_, ?_, by decide⟩,
    ⟨by decide, by decide, by decide, ?_, ?_, by decide⟩,
    ⟨by decide, by decide, by decide, ?_, ?_, by decide⟩⟩
  · exact ⟨by decide, by decide, by decide⟩
  · exact ⟨["", "a", "#"], none, ["", "a", "b", "c"], none, by decide, by decide, by decide⟩
  · exact ⟨by decide, by decide, by decide⟩
  · exact ⟨["", "$SYS", "x"], some "g", ["$SYS", "x"], none, by decide, by decide, by decide⟩
  · exact ⟨by decide, by decide, by decide⟩
  · exact ⟨["", "", "a"], none, ["", "a"], some "g", by decide, by decide, by decide⟩

end Yunetas.Mqtt
