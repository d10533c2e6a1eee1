import Yunetas.Mqtt.Levels
import Yunetas.Mqtt.Search
import Yunetas.Mqtt.Publish

/-!
# Access by topic

`mqtt_acl_check` with the patterns of the groups of a client, and the two ways in which a filter gets
messages of a topic: the search of `sub__messages_queue` and the loop of `retain__queue` over the
retained messages.
-/

namespace Yunetas.Mqtt

open List Option Bool

open Json

/-- A node of the topic `client_groups`. -/
structure ClientGroup where
  publishAcl : List Json
  subscribeAcl : List Json

/-- What `mqtt_acl_check` reads of the broker. -/
structure AclStore where
  enableAcl : Bool
  /-- `client_groups` of the nodes of the topic `clients`. -/
  clients : String → Option (List Json)
  /-- The nodes of the topic `client_groups`. -/
  clientGroups : String → Option ClientGroup

/-- The text of an item, when it is one and not empty. -/
def itemText (item : Json) : Option String :=
  match item.stringValue with
  | none => none
  | some text => if text = "" then none else some text

/-- The loop over the patterns of a group: whether there is one, and whether one matches. -/
def checkPatterns (topicLevels : List String) : List Json → Bool × Bool
  | [] => (false, false)
  | item :: rest =>
    match itemText item with
    | none => checkPatterns topicLevels rest
    | some pattern =>
      match topicTokenize pattern with
      | none => (true, (checkPatterns topicLevels rest).2)
      | some (subLevels, _) =>
        if topicMatchesSub subLevels topicLevels then (true, true)
        else (true, (checkPatterns topicLevels rest).2)

/-- The loop over the groups of a client: `any_pattern` and `allowed`. -/
def checkGroups (store : AclStore) (column : ClientGroup → List Json) (topicLevels : List String) :
    List Json → Bool × Bool
  | [] => (false, false)
  | item :: rest =>
    match (itemText item).bind store.clientGroups with
    | none => checkGroups store column topicLevels rest
    | some group =>
      match checkPatterns topicLevels (column group) with
      | (any, true) => (any, true)
      | (any, false) =>
        let others := checkGroups store column topicLevels rest
        (any || others.1, others.2)

/-- `mqtt_acl_check`. -/
def mqttAclCheck (store : AclStore) (clientId topic access : String) : Bool :=
  if ¬store.enableAcl then true
  else if topic = "" then false
  else
    let column := if access = "read" then ClientGroup.subscribeAcl else ClientGroup.publishAcl
    match store.clients clientId with
    | none => false
    | some groups =>
      match topicTokenize topic with
      | none => false
      | some (topicLevels, _) =>
        let (anyPattern, allowed) := checkGroups store column topicLevels groups
        if ¬anyPattern then true else allowed

/-- A topic that `sub__messages_queue` takes. -/
def Publishable (topic : String) : Prop :=
  topic.toList ≠ [] ∧ '+' ∉ topic.toList ∧ '#' ∉ topic.toList

/-- A filter gets a topic from `sub__messages_queue`: its node is among those looked at, in the tree
that its kind of subscription is kept in. -/
def QueueMatches (filter topic : String) : Prop :=
  ∃ subLevels group levels other, topicTokenize filter = some (subLevels, group) ∧
    topicTokenize topic = some (levels, other) ∧
    nodePath subLevels ∈ lookedPaths topic levels

/-- The text starts with `$share/`. -/
def namesShare (text : String) : Bool := text.toList.take 7 = "$share/".toList

/-- A filter gets a retained topic from `retain__queue`. -/
def RetainMatches (filter topic : String) : Prop :=
  namesShare filter = false ∧
  ∃ subLevels group levels other, topicTokenize filter = some (subLevels, group) ∧
    topicTokenize topic = some (levels, other) ∧ topicMatchesSub subLevels levels = true

/-- The `subscribe_acl` patterns of the groups of a client. -/
def subscribePatterns (store : AclStore) (clientId : String) : List String :=
  (((store.clients clientId).getD []).filterMap fun item =>
    (itemText item).bind store.clientGroups).flatMap fun group => group.subscribeAcl.filterMap itemText

/-- A pattern matches the levels of a topic. -/
def PatternMatches (pattern : String) (levels : List String) : Prop :=
  ∃ subLevels group, topicTokenize pattern = some (subLevels, group) ∧
    topicMatchesSub subLevels levels = true

theorem checkPatterns_eq (levels : List String) (items : List Json) :
    ((checkPatterns levels items).1 = true ↔ items.filterMap itemText ≠ []) ∧
    ((checkPatterns levels items).2 = true ↔
      ∃ pattern ∈ items.filterMap itemText, PatternMatches pattern levels) := by
  induction items with
  | nil => simp [checkPatterns]
  | cons item rest ih =>
    rw [checkPatterns, filterMap_cons]
    cases text : itemText item with
    | none => exact ih
    | some pattern =>
      dsimp only
      rw [exists_mem_cons_iff]
      unfold PatternMatches at ih ⊢
      cases split : topicTokenize pattern with
      | none => simp [ih.2]
      | some found =>
        have ⟨subLevels, group⟩ := found
        by_cases covers : topicMatchesSub subLevels levels = true
        · simp [covers]
        · simp [covers, ih.2]

theorem checkGroups_eq (store : AclStore) (column : ClientGroup → List Json)
    (levels : List String) (items : List Json) :
    ((checkGroups store column levels items).2 = false →
      ((checkGroups store column levels items).1 = true ↔
        ((items.filterMap fun item => (itemText item).bind store.clientGroups).flatMap fun group =>
          (column group).filterMap itemText) ≠ [])) ∧
    ((checkGroups store column levels items).2 = true ↔ ∃ pattern ∈ (items.filterMap fun item =>
        (itemText item).bind store.clientGroups).flatMap fun group =>
          (column group).filterMap itemText, PatternMatches pattern levels) := by
  induction items with
  | nil => simp [checkGroups]
  | cons item rest ih =>
    rw [checkGroups, filterMap_cons]
    cases node : (itemText item).bind store.clientGroups with
    | none => exact ih
    | some group =>
      dsimp only
      have ⟨some_pattern, one_matches⟩ := checkPatterns_eq levels (column group)
      rw [flatMap_cons]
      cases found : checkPatterns levels (column group) with
      | mk any allowed =>
        rw [found] at some_pattern one_matches
        cases allowed with
        | true =>
          refine ⟨fun is => (by cases is), fun _ => ?_, fun _ => rfl⟩
          have ⟨pattern, among, covers⟩ := one_matches.1 rfl
          exact ⟨pattern, mem_append_left _ among, covers⟩
        | false =>
          constructor
          · intro denied
            rw [or_eq_true, ih.1 denied, some_pattern, Ne, Ne, Ne, append_eq_nil_iff]
            tauto
          · rw [ih.2]
            constructor
            · rintro ⟨pattern, among, covers⟩
              exact ⟨pattern, mem_append_right _ among, covers⟩
            · rintro ⟨pattern, among, covers⟩
              rcases mem_append.1 among with here | later
              · exact absurd (one_matches.2 ⟨pattern, here, covers⟩) false_ne_true
              · exact ⟨pattern, later, covers⟩

/-- With patterns to go by, a filter may be subscribed to when one of them matches its levels. -/
theorem mqttAclCheck_read (store : AclStore) (clientId filter : String)
    (enabled : store.enableAcl = true) (some_pattern : subscribePatterns store clientId ≠ []) :
    mqttAclCheck store clientId filter "read" = true ↔
      ∃ levels group, topicTokenize filter = some (levels, group) ∧
        ∃ pattern ∈ subscribePatterns store clientId, PatternMatches pattern levels := by
  unfold mqttAclCheck
  rw [if_neg (not_not.2 enabled)]
  by_cases empty : filter = ""
  · rw [if_pos empty, empty]
    refine ⟨fun is => (by cases is), ?_⟩
    rintro ⟨levels, group, split, -⟩
    cases split
  · rw [if_neg empty]
    rw [if_pos rfl]
    unfold subscribePatterns at some_pattern ⊢
    cases known : store.clients clientId with
    | none =>
      rw [known] at some_pattern
      exact absurd rfl some_pattern
    | some groups =>
      rw [known, getD_some] at some_pattern
      rw [getD_some]
      cases split : topicTokenize filter with
      | none =>
        refine ⟨fun is => (by cases is), ?_⟩
        rintro ⟨levels, group, same, -⟩
        cases same
      | some found =>
        have ⟨levels, group⟩ := found
        have ⟨any, matching⟩ := checkGroups_eq store ClientGroup.subscribeAcl levels groups
        have answer : (if ¬(checkGroups store ClientGroup.subscribeAcl levels groups).1 = true
            then true else (checkGroups store ClientGroup.subscribeAcl levels groups).2) = true ↔
            (checkGroups store ClientGroup.subscribeAcl levels groups).2 = true := by
          by_cases allowed : (checkGroups store ClientGroup.subscribeAcl levels groups).2 = true
          · simp [allowed]
          · have denied := eq_false_iff.2 allowed
            rw [if_neg (not_not.2 ((any denied).2 some_pattern))]
        rw [answer, matching]
        constructor
        · exact fun covers => ⟨levels, group, rfl, covers⟩
        · rintro ⟨_, _, same, covers⟩
          cases same
          exact covers

end Yunetas.Mqtt
