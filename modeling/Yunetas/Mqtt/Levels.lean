import Yunetas.Mqtt.Topic

/-!
# Levels and texts

Which lists of levels are the tokens of a text, what `topic_tokenize` makes of a text that starts with
`$share`, where the wildcards of an accepted filter stand, and `topic_matches_sub` as a match of
patterns.
-/

namespace Yunetas.Mqtt

open List

/-- The levels of a pattern up to its first `#`, which are those `topic_matches_sub` looks at. -/
def upToHash : List String → List String
  | [] => []
  | level :: rest => if level = "#" then ["#"] else level :: upToHash rest

theorem topicMatchesSub_iff (subLevels topicLevels : List String) :
    topicMatchesSub subLevels topicLevels = true ↔
      Wildcard.Matches "+" "#" (upToHash subLevels) topicLevels := by
  induction subLevels generalizing topicLevels with
  | nil =>
    cases topicLevels with
    | nil => exact ⟨fun _ => .done, fun _ => rfl⟩
    | cons level rest => exact ⟨fun is => (by cases is), fun covers => (by cases covers)⟩
  | cons subLevel subLevels ih =>
    unfold topicMatchesSub upToHash
    by_cases hash : subLevel = "#"
    · rw [if_pos hash, if_pos hash]
      exact ⟨fun _ => .rest _, fun _ => rfl⟩
    · rw [if_neg hash, if_neg hash]
      cases topicLevels with
      | nil =>
        refine ⟨fun is => (by cases is), fun covers => ?_⟩
        generalize upToHash subLevels = levels at covers
        cases covers
        exact absurd rfl hash
      | cons level rest =>
        dsimp only
        by_cases plus : subLevel = "+"
        · rw [if_pos plus, ih]
          refine ⟨fun covers => by rw [plus]; exact .one level covers, fun covers => ?_⟩
          generalize upToHash subLevels = levels at covers ⊢
          cases covers with
          | rest => exact absurd rfl hash
          | one _ later => exact later
          | level _ later => exact later
        · rw [if_neg plus]
          by_cases same : subLevel = level
          · rw [if_neg (not_not.2 same), ih, same]
            refine ⟨fun covers => .level level covers, fun covers => ?_⟩
            rw [same] at hash plus
            generalize upToHash subLevels = levels at covers ⊢
            cases covers with
            | rest => exact absurd rfl hash
            | one _ later => exact absurd rfl plus
            | level _ later => exact later
          · rw [if_pos same]
            refine ⟨fun is => (by cases is), fun covers => ?_⟩
            generalize upToHash subLevels = levels at covers
            cases covers with
            | rest => exact absurd rfl hash
            | one _ later => exact absurd rfl plus
            | level _ later => exact absurd rfl same

theorem upToHash_of_last {levels : List String} (last : "#" ∉ levels.dropLast) :
    upToHash levels = levels := by
  induction levels with
  | nil => rfl
  | cons level rest ih =>
    cases rest with
    | nil =>
      rw [upToHash]
      split
      · rename_i hash
        rw [hash]
      · rfl
    | cons next rest =>
      rw [dropLast_cons_cons, mem_cons, not_or] at last
      rw [upToHash, if_neg (Ne.symm last.1), ih last.2]

/-- A level that can stand in a text. -/
def IsLevel (level : String) : Prop := '/' ∉ level.toList

/-- The text of levels. -/
def textOf (levels : List String) : String :=
  String.ofList (['/'].intercalate (levels.map String.toList))

theorem tokens_textOf {levels : List String} (some_level : levels ≠ [])
    (each : ∀ level ∈ levels, IsLevel level) : tokens (textOf levels) = levels := by
  unfold tokens textOf
  rw [String.toList_ofList, splitOn_intercalate]
  · rw [map_map]
    conv => rhs; rw [← map_id levels]
    exact map_congr_left fun level _ => String.ofList_toList
  · intro chars among
    obtain ⟨level, member, rfl⟩ := mem_map.1 among
    exact each level member
  · rwa [Ne, map_eq_nil_iff]

theorem textOf_tokens (topic : String) : textOf (tokens topic) = topic := by
  unfold tokens textOf
  rw [map_map]
  have same : (topic.toList.splitOn '/').map (String.toList ∘ String.ofList) =
      topic.toList.splitOn '/' := by
    conv => rhs; rw [← map_id (topic.toList.splitOn '/')]
    exact map_congr_left fun chars _ => String.toList_ofList
  rw [same, intercalate_splitOn, String.ofList_toList]

theorem mem_textOf {levels : List String} {ch : Char} (inside : ch ∈ (textOf levels).toList) :
    ch = '/' ∨ ∃ level ∈ levels, ch ∈ level.toList := by
  unfold textOf at inside
  rw [String.toList_ofList] at inside
  induction levels with
  | nil => cases inside
  | cons level rest ih =>
    rw [map_cons] at inside
    cases rest with
    | nil =>
      rw [map_nil, intercalate_singleton] at inside
      exact .inr ⟨level, mem_cons_self, inside⟩
    | cons next rest =>
      rw [map_cons, intercalate_cons_cons, mem_append, mem_append] at inside
      rcases inside with (here | slash) | later
      · exact .inr ⟨level, mem_cons_self, here⟩
      · exact .inl (mem_singleton.1 slash)
      · rcases ih later with slash | ⟨other, among, inner⟩
        · exact .inl slash
        · exact .inr ⟨other, mem_cons_of_mem _ among, inner⟩

theorem isLevel_of_mem {topic level : String} (among : level ∈ tokens topic) : IsLevel level := by
  obtain ⟨chars, split, rfl⟩ := mem_map.1 among
  unfold IsLevel
  rw [String.toList_ofList]
  exact fun slash => (mem_splitOn split slash).2 rfl

theorem length_splitOn (text : List Char) : (text.splitOn '/').length = text.count '/' + 1 := by
  induction text with
  | nil => rfl
  | cons first rest ih =>
    rw [splitOn_cons_eq_if_modifyHead, count_cons]
    by_cases slash : (first == '/') = true
    · rw [if_pos slash, if_pos slash, length_cons, ih]
    · rw [if_neg slash, if_neg slash, length_modifyHead, ih]

variable {topic : String}

theorem count_eq (system : dollar topic = true) :
    (topic.toList.drop 1).count '/' + 1 = (tokens topic).length := by
  unfold dollar at system
  unfold tokens
  rw [length_map, length_splitOn]
  cases chars : topic.toList with
  | nil => rfl
  | cons first rest =>
    rw [chars] at system
    have is : first = '$' := by simpa using system
    rw [drop_one, tail_cons, is, count_cons]
    rfl

theorem dollar_of_share (shared : (tokens topic).head? = some "$share") : dollar topic = true := by
  have first := tokens_dollar topic
  rw [shared, Option.map_some, Option.some.injEq] at first
  rw [← first]
  decide

theorem topicTokenize_shared {topic group : String} {rest : List String}
    (split : tokens topic = "$share" :: group :: rest) (some_rest : rest ≠ [] ∧ rest ≠ [""]) :
    topicTokenize topic = some ("" :: rest, some group) := by
  have system : dollar topic = true := dollar_of_share (by rw [split]; rfl)
  have nonempty : topic.toList ≠ [] := by
    intro empty
    unfold dollar at system
    rw [empty] at system
    cases system
  unfold topicTokenize
  dsimp only
  rw [if_neg nonempty, if_pos system, count_eq system, split, head?_cons, if_pos rfl, if_neg]
  · rfl
  · cases rest with
    | nil => exact absurd rfl some_rest.1
    | cons first others =>
      rintro (few | ⟨three, blank⟩)
      · simp only [length_cons] at few
        omega
      · have alone : others = [] := by
          simp only [length_cons] at three
          exact eq_nil_of_length_eq_zero (by omega)
        have empty : first = "" := by simpa using blank
        rw [alone, empty] at some_rest
        exact some_rest.2 rfl

theorem topicTokenize_refused (shared : (tokens topic).head? = some "$share")
    (short : ∀ group rest, tokens topic = "$share" :: group :: rest → rest = [] ∨ rest = [""]) :
    topicTokenize topic = none := by
  have system := dollar_of_share shared
  unfold topicTokenize
  by_cases empty : topic.toList = []
  · rw [if_pos empty]
  · rw [if_neg empty, if_pos system, if_pos shared, count_eq system, if_pos]
    cases split : tokens topic with
    | nil => exact absurd split (tokens_ne_nil topic)
    | cons first others =>
      rw [split, head?_cons, Option.some.injEq] at shared
      cases others with
      | nil => exact .inl (by simp)
      | cons group rest =>
        rcases short group rest (by rw [split, shared]) with rfl | rfl
        · exact .inl (by simp)
        · exact .inr ⟨rfl, rfl⟩

theorem topicTokenize_cases (some_text : topic.toList ≠ []) :
    ((tokens topic).head? ≠ some "$share" ∧ topicTokenize topic =
        some (if dollar topic then tokens topic else "" :: tokens topic, none)) ∨
    (∃ group rest, tokens topic = "$share" :: group :: rest ∧ (rest ≠ [] ∧ rest ≠ [""]) ∧
      topicTokenize topic = some ("" :: rest, some group)) ∨
    topicTokenize topic = none := by
  by_cases shared : (tokens topic).head? = some "$share"
  · by_cases long : ∃ group rest, tokens topic = "$share" :: group :: rest ∧
        (rest ≠ [] ∧ rest ≠ [""])
    · have ⟨group, rest, split, some_rest⟩ := long
      exact .inr (.inl ⟨group, rest, split, some_rest, topicTokenize_shared split some_rest⟩)
    · refine .inr (.inr (topicTokenize_refused shared fun group rest split => ?_))
      by_contra neither
      rw [not_or] at neither
      exact long ⟨group, rest, split, neither⟩
  · exact .inl ⟨shared, topicTokenize_plain some_text shared⟩

/-- A piece without wildcards. -/
def NoWildcard (piece : List Char) : Prop := '+' ∉ piece ∧ '#' ∉ piece

/-- A piece that is a wildcard or has none. -/
def PlainPiece (piece : List Char) : Prop := piece = ['+'] ∨ piece = ['#'] ∨ NoWildcard piece

/-- What the wildcard tests say of the pieces of a text, whose first one continues a level unless a
level opens before it. -/
structure PlacedPieces (opens : Prop) (pieces : List (List Char)) : Prop where
  opened : opens → ∀ first ∈ pieces.head?, PlainPiece first
  goes_on : ¬opens → ∀ first ∈ pieces.head?, NoWildcard first
  others : ∀ piece ∈ pieces.tail, PlainPiece piece
  /-- `#` stands in the last place only. -/
  last : ['#'] ∉ pieces.dropLast

theorem last_cons {first : List Char} {pieces : List (List Char)} (plain : first ≠ ['#'])
    (last : ['#'] ∉ pieces.dropLast) : ['#'] ∉ (first :: pieces).dropLast := by
  cases pieces with
  | nil => exact not_mem_nil
  | cons next rest =>
    rw [dropLast_cons_cons, mem_cons, not_or]
    exact ⟨plain.symm, last⟩

theorem placedPieces (previous : Option Char) (text : List Char)
    (placed : wildcardsPlaced previous text = true) :
    PlacedPieces (previous = none ∨ previous = some '/') (text.splitOn '/') := by
  have blank : NoWildcard [] := ⟨not_mem_nil, not_mem_nil⟩
  induction text generalizing previous with
  | nil =>
    rw [splitOn_nil]
    refine ⟨fun _ first among => ?_, fun _ first among => ?_, fun _ among => ?_, not_mem_nil⟩
    · rw [← Option.some.inj among]
      exact .inr (.inr blank)
    · rw [← Option.some.inj among]
      exact blank
    · cases among
  | cons ch rest ih =>
    unfold wildcardsPlaced at placed
    rw [splitOn_cons_eq_if_modifyHead]
    by_cases plus : ch = '+'
    · rw [if_pos plus] at placed
      split at placed
      · cases placed
      · rename_i alone
        rw [not_or, not_not] at alone
        have tests := ih (some ch) placed
        have end_or_slash : ∃ others, rest.splitOn '/' = [] :: others := by
          cases rest with
          | nil => exact ⟨[], splitOn_nil _⟩
          | cons next more =>
            have slash : next = '/' := by
              have not_both := alone.2
              simpa using not_both
            rw [splitOn_cons_eq_if_modifyHead, if_pos (by simpa using slash)]
            exact ⟨_, rfl⟩
        have ⟨others, split⟩ := end_or_slash
        rw [split] at tests ⊢
        rw [if_neg (by rw [plus]; decide), modifyHead_cons, plus]
        refine ⟨fun _ first among => ?_, fun closed => absurd alone.1 closed, tests.others, ?_⟩
        · rw [← Option.some.inj among]
          exact .inl rfl
        · cases others with
          | nil => exact not_mem_nil
          | cons next more =>
            have last := tests.last
            rw [dropLast_cons_cons, mem_cons, not_or] at last ⊢
            exact ⟨by decide, last.2⟩
    · rw [if_neg plus] at placed
      by_cases hash : ch = '#'
      · rw [if_pos hash] at placed
        split at placed
        · cases placed
        · rename_i alone
          rw [not_or, not_not, not_not] at alone
          rw [alone.2, splitOn_nil, if_neg (by rw [hash]; decide), modifyHead_cons, hash]
          refine ⟨fun _ first among => ?_, fun closed => absurd alone.1 closed, fun _ among => ?_,
            not_mem_nil⟩
          · rw [← Option.some.inj among]
            exact .inr (.inl rfl)
          · cases among
      · rw [if_neg hash] at placed
        have tests := ih (some ch) placed
        by_cases slash : ch = '/'
        · rw [if_pos (by simpa using slash)]
          have opens : some ch = none ∨ some ch = some '/' := .inr (congrArg some slash)
          refine ⟨fun _ first among => ?_, fun _ first among => ?_, fun piece among => ?_,
            last_cons (by decide) tests.last⟩
          · rw [← Option.some.inj among]
            exact .inr (.inr blank)
          · rw [← Option.some.inj among]
            exact blank
          · rw [tail_cons] at among
            cases pieces : rest.splitOn '/' with
            | nil => exact absurd pieces (splitOn_ne_nil _ _)
            | cons head others =>
              rw [pieces] at among
              rcases mem_cons.1 among with rfl | later
              · exact tests.opened opens piece (by rw [pieces]; rfl)
              · exact tests.others piece (by rw [pieces]; exact later)
        · rw [if_neg (by simpa using slash)]
          have closed : ¬(some ch = none ∨ some ch = some '/') := by simp [slash]
          cases pieces : rest.splitOn '/' with
          | nil => exact absurd pieces (splitOn_ne_nil _ _)
          | cons head others =>
            rw [pieces] at tests
            have plain : NoWildcard (ch :: head) := by
              have behind := tests.goes_on closed head rfl
              exact ⟨by simp [Ne.symm plus, behind.1], by simp [Ne.symm hash, behind.2]⟩
            rw [modifyHead_cons]
            refine ⟨fun _ first among => ?_, fun _ first among => ?_, tests.others, ?_⟩
            · rw [← Option.some.inj among]
              exact .inr (.inr plain)
            · rw [← Option.some.inj among]
              exact plain
            · cases others with
              | nil => exact not_mem_nil
              | cons next more =>
                have last := tests.last
                rw [dropLast_cons_cons, mem_cons, not_or] at last ⊢
                refine ⟨fun same => hash ?_, last.2⟩
                exact (cons.inj same).1.symm

section

variable {filter : String} (accepted : mqttSubTopicCheck2 filter = 0)
include accepted

theorem wildcardsPlaced_of_accepted : wildcardsPlaced none filter.toList = true := by
  by_contra misplaced
  unfold mqttSubTopicCheck2 at accepted
  rw [if_pos misplaced] at accepted
  split at accepted <;> cases accepted

theorem accepted_level {level : String} (among : level ∈ tokens filter) :
    level = "+" ∨ level = "#" ∨ NoWildcard level.toList := by
  have tests := placedPieces none filter.toList (wildcardsPlaced_of_accepted accepted)
  obtain ⟨chars, split, rfl⟩ := mem_map.1 among
  rw [String.toList_ofList]
  have plain : PlainPiece chars := by
    cases pieces : filter.toList.splitOn '/' with
    | nil => exact absurd pieces (splitOn_ne_nil _ _)
    | cons head others =>
      rw [pieces] at split tests
      rcases mem_cons.1 split with rfl | later
      · exact tests.opened (.inl rfl) chars rfl
      · exact tests.others chars later
  rcases plain with rfl | rfl | none
  · exact .inl rfl
  · exact .inr (.inl rfl)
  · exact .inr (.inr none)

theorem accepted_last : "#" ∉ (tokens filter).dropLast := by
  have last := (placedPieces none filter.toList (wildcardsPlaced_of_accepted accepted)).last
  unfold tokens
  rw [← map_dropLast, mem_map]
  rintro ⟨chars, among, same⟩
  have is : chars = ['#'] := by
    rw [← String.toList_ofList (l := chars), same]
    rfl
  exact last (is ▸ among)

end

end Yunetas.Mqtt
