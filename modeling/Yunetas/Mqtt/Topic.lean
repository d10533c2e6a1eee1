import Yunetas.Lib.Wildcard
import Mathlib.Data.List.Basic

/-!
# MQTT topics

Topics and topic filters of `c_mqtt_broker.c` and `mqtt_util.c`: what is accepted, how
`topic_tokenize` splits a text into levels, how `topic_matches_sub` compares two lists of levels, and
what the MQTT rules say a filter matches.
-/

namespace Yunetas.Mqtt

open List String

/-- `TOPIC_HIERARCHY_LIMIT`. -/
def topicHierarchyLimit : Nat := 200

/-- The loop of `mqtt_pub_topic_check2` and its limit. -/
def mqttPubTopicCheck2 (str : String) : Int :=
  if str.utf8ByteSize = 0 ∨ str.utf8ByteSize > 65535 then -1
  else if str.toList.any fun ch => ch = '+' ∨ ch = '#' then -1
  else if str.toList.count '/' > topicHierarchyLimit then -1
  else 0

/-- The wildcard tests of the loop of `mqtt_sub_topic_check2`; `previous` is `c`. -/
def wildcardsPlaced (previous : Option Char) : List Char → Bool
  | [] => true
  | ch :: rest =>
    let opens := previous = none ∨ previous = some '/'
    if ch = '+' then
      if ¬opens ∨ (rest ≠ [] ∧ rest.head? ≠ some '/') then false
      else wildcardsPlaced (some ch) rest
    else if ch = '#' then
      if ¬opens ∨ rest ≠ [] then false else wildcardsPlaced (some ch) rest
    else wildcardsPlaced (some ch) rest

/-- `mqtt_sub_topic_check2`. -/
def mqttSubTopicCheck2 (str : String) : Int :=
  if str.utf8ByteSize = 0 ∨ str.utf8ByteSize > 65535 then -1
  else if ¬wildcardsPlaced none str.toList then -1
  else if str.toList.count '/' > topicHierarchyLimit then -1
  else 0

/-- The tokens of a topic, as repeated calls of `strtok_hier` give them. -/
def tokens (topic : String) : List String := (topic.toList.splitOn '/').map String.ofList

/-- The text starts with `$`. -/
def dollar (text : String) : Bool := text.toList.head? = some '$'

/-- `topic_tokenize`: the levels, and the group of a shared subscription. -/
def topicTokenize (topic : String) : Option (List String × Option String) :=
  if topic.toList = [] then none
  else
    -- the search for a delimiter starts behind the first character
    let count := (topic.toList.drop 1).count '/' + 1
    let levels := if dollar topic then tokens topic else "" :: tokens topic
    if levels.head? = some "$share" then
      if count < 3 ∨ (count = 3 ∧ levels[2]? = some "") then none
      else some ("" :: levels.drop 2, levels[1]?)
    else some (levels, none)

/-- The levels that `get_or_create_node`, `get_node` and `prune_empty_branches` walk. -/
def nodePath (levels : List String) : List String :=
  if (levels.head?.map dollar) = some true then levels else levels.tail

/-- The loop of `topic_matches_sub`. -/
def topicMatchesSub : List String → List String → Bool
  | [], topicLevels => topicLevels.isEmpty
  | subLevel :: subLevels, topicLevels =>
    if subLevel = "#" then true
    else
      match topicLevels with
      | [] => false
      | level :: rest =>
        if subLevel = "+" then topicMatchesSub subLevels rest
        else if subLevel ≠ level then false
        else topicMatchesSub subLevels rest

/-- The levels of a filter match those of a topic by the MQTT rules: `+` stands for one level, `#`
for the rest with the parent level, and no wildcard for a first level that starts with `$`. -/
def MqttMatches (filter topic : List String) : Prop :=
  (topic.head?.map dollar = some true → filter.head? ≠ some "+" ∧ filter.head? ≠ some "#") ∧
  Wildcard.Matches "+" "#" filter topic

theorem tokens_ne_nil (topic : String) : tokens topic ≠ [] := by
  unfold tokens
  rw [Ne, map_eq_nil_iff]
  exact splitOn_ne_nil _ _

theorem tokens_dollar (topic : String) : (tokens topic).head?.map dollar = some (dollar topic) := by
  unfold tokens dollar
  cases chars : topic.toList with
  | nil => rfl
  | cons ch rest =>
    rw [splitOn_cons_eq_if_modifyHead]
    by_cases slash : ch = '/'
    · rw [slash]
      rfl
    · rw [if_neg (by simpa using slash)]
      cases split : rest.splitOn '/' with
      | nil => exact absurd split (splitOn_ne_nil _ _)
      | cons first others => simp [List.modifyHead, toList_ofList]

theorem mem_splitOn {text piece : List Char} (split : piece ∈ text.splitOn '/') {ch : Char}
    (inside : ch ∈ piece) : ch ∈ text ∧ ch ≠ '/' := by
  induction text generalizing piece with
  | nil =>
    rw [splitOn_nil, mem_singleton] at split
    rw [split] at inside
    cases inside
  | cons first rest ih =>
    rw [splitOn_cons_eq_if_modifyHead] at split
    have later {other : List Char} (among : other ∈ rest.splitOn '/') (here : ch ∈ other) :
        ch ∈ first :: rest ∧ ch ≠ '/' :=
      (ih among here).imp_left (mem_cons_of_mem first)
    by_cases slash : (first == '/') = true
    · rw [if_pos slash] at split
      rcases mem_cons.1 split with rfl | among
      · cases inside
      · exact later among inside
    · rw [if_neg slash] at split
      cases pieces : rest.splitOn '/' with
      | nil => exact absurd pieces (splitOn_ne_nil _ _)
      | cons head others =>
        rw [pieces, modifyHead_cons] at split
        rcases mem_cons.1 split with rfl | among
        · rcases mem_cons.1 inside with rfl | behind
          · exact ⟨mem_cons_self, fun same => slash (by simp [same])⟩
          · exact later (pieces ▸ mem_cons_self) behind
        · exact later (pieces ▸ mem_cons_of_mem _ among) inside

section

variable {topic : String} (accepted : mqttPubTopicCheck2 topic = 0)
include accepted

theorem tokens_plain :
    "+" ∉ tokens topic ∧ "#" ∉ tokens topic := by
  have plain : ∀ ch ∈ topic.toList, ¬(ch = '+' ∨ ch = '#') := by
    unfold mqttPubTopicCheck2 at accepted
    split at accepted
    · cases accepted
    · split at accepted
      · cases accepted
      · rename_i none
        simpa using none
  constructor
  · intro among
    have ⟨chars, split, text⟩ := mem_map.1 among
    have char : '+' ∈ chars := by
      rw [← toList_ofList (l := chars), text]
      decide
    exact plain '+' (mem_splitOn split char).1 (.inl rfl)
  · intro among
    have ⟨chars, split, text⟩ := mem_map.1 among
    have char : '#' ∈ chars := by
      rw [← toList_ofList (l := chars), text]
      decide
    exact plain '#' (mem_splitOn split char).1 (.inr rfl)

theorem toList_ne_nil :
    topic.toList ≠ [] := by
  intro empty
  have blank : topic = "" := toList_inj.1 empty
  rw [blank] at accepted
  revert accepted
  decide

end

theorem topicTokenize_plain {topic : String} (some_text : topic.toList ≠ [])
    (plain : (tokens topic).head? ≠ some "$share") :
    topicTokenize topic =
      some (if dollar topic then tokens topic else "" :: tokens topic, none) := by
  unfold topicTokenize
  rw [if_neg some_text]
  by_cases system : dollar topic = true
  · rw [if_pos system, if_neg plain]
  · rw [if_neg system, if_neg]
    rw [head?_cons]
    decide

theorem nodePath_plain (topic : String) :
    nodePath (if dollar topic then tokens topic else "" :: tokens topic) = tokens topic := by
  unfold nodePath
  by_cases system : dollar topic = true
  · rw [if_pos system, tokens_dollar, system, if_pos rfl]
  · rw [if_neg system, if_neg]
    · rfl
    · simp only [head?_cons, Option.map_some]
      decide

end Yunetas.Mqtt
