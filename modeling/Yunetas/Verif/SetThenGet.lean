import Yunetas.Gobj.DictPath

/-!
# Setting a path and reading it

`kw_find_path` cuts a segment before the last to 255 bytes, reads a list by the number a segment
begins with, and stops after 64 segments, while `kw_set_dict_value` takes every segment whole. A
value that is stored is read back, and every other path reads as before, exactly when none of this
meets the path: the walk of the setter passes dicts only, and no segment on it is as long as the cut.
Where nothing is stored, because something is there already or a value on the way is no container,
the call still returns 0.
-/

namespace Yunetas.Gobj

open List Option

open Json

attribute [local irreducible] atoi

section Reading

theorem kwFindPathDepth_leaf {json : Json} (leaf : json.isContainer = false) (depth : Nat)
    (path : List (List Char)) : kwFindPathDepth depth json path = none := by
  have child (segment : List Char) : pathChild json segment = none := by
    cases json with
    | array items => cases leaf
    | object fields => cases leaf
    | null => rfl
    | boolean value => rfl
    | integer value => rfl
    | real bits => rfl
    | string value => rfl
  unfold kwFindPathDepth
  split
  · rfl
  · rw [child, ite_self]
  · rw [child, ite_self]

theorem kwFindPathDepth_empty (depth : Nat) (path : List (List Char)) :
    kwFindPathDepth depth (.object []) path = none := by
  unfold kwFindPathDepth
  split
  · rfl
  · rw [pathChild_empty, ite_self]
  · rw [pathChild_empty, ite_self]

section

variable {depth : Nat} (shallow : depth < 64) (json : Json)
include shallow json

theorem kwFindPathDepth_last
    (last : List Char) : kwFindPathDepth depth json [last] = pathChild json last := by
  unfold kwFindPathDepth kwMaxPathDepth
  rw [if_neg (by omega)]

theorem kwFindPathDepth_cons (segment : List Char) {rest : List (List Char)} (more : rest ≠ []) :
    kwFindPathDepth depth json (segment :: rest) =
      (pathChild json (segment.take 255)).bind fun next =>
        kwFindPathDepth (depth + 1) next rest := by
  cases rest with
  | nil => exact absurd rfl more
  | cons first others =>
    have deep : ¬ depth ≥ kwMaxPathDepth := by
      unfold kwMaxPathDepth
      omega
    rw [show kwFindPathDepth depth json (segment :: first :: others) = _ from if_neg deep]
    split
    · rename_i none
      rw [none, bind_none]
    · rename_i null
      rw [null, bind_some, kwFindPathDepth_leaf rfl]
    · rename_i next _ found
      rw [found, bind_some]

theorem kwFindPathDepth_child
    {token segment : List Char} (cut : token.take 255 = segment) {rest : List (List Char)}
    (more : rest ≠ []) : kwFindPathDepth depth json (token :: rest) =
      kwFindPathDepth (depth + 1) (childOrDict json segment) rest := by
  rw [kwFindPathDepth_cons shallow json token more, cut]
  unfold childOrDict
  cases pathChild json segment with
  | none => rw [bind_none, getD_none, kwFindPathDepth_empty]
  | some next => rw [bind_some, getD_some]

end

theorem kwFindPathDepth_deep {depth : Nat} {path : List (List Char)}
    (deep : 64 < depth + path.length) (json : Json) : kwFindPathDepth depth json path = none := by
  induction path generalizing depth json with
  | nil => rfl
  | cons segment rest ih =>
    rw [length_cons] at deep
    by_cases shallow : depth < 64
    · have more : rest ≠ [] := by
        intro none
        rw [none, length_nil] at deep
        omega
      rw [kwFindPathDepth_cons shallow json segment more]
      cases pathChild json (segment.take 255) with
      | none => rfl
      | some next => exact ih (by omega) next
    · unfold kwFindPathDepth kwMaxPathDepth
      split
      · rfl
      · rw [if_pos (by omega)]
      · rw [if_pos (by omega)]

end Reading

/-- No path but its extensions reads what is stored at a path: the walk passes dicts only, and no
segment is exactly as long as the cut, unless it is the last and the value has nothing to read.
Behind a longer segment nothing is read at all. -/
def Unhindered (value : Json) : Nat → List (List Char) → Json → Prop
  | _, [], _ => True
  | depth, [last], _ => last.length = 255 →
    ∀ inside, kwFindPathDepth (depth + 1) value (segments inside) = none
  | depth, segment :: next :: rest, json => isDict json = true ∧ (255 < segment.length ∨
    segment.length < 255 ∧ Unhindered value (depth + 1) (next :: rest) (childOrDict json segment))

/-- What the setter promises of a path. -/
structure SetThenGet (kw : Fields) (path : List Char) (value : Json) : Prop where
  read : (kwSetDictPath (.object kw) path value).2 = 0 →
    kwFindPathText (kwSetDictPath (.object kw) path value).1 path = some value
  others : (kwSetDictPath (.object kw) path value).2 = 0 → ∀ other,
    ¬ segments other <+: segments path → ¬ segments path <+: segments other →
    kwFindPathText (kwSetDictPath (.object kw) path value).1 other =
      kwFindPathText (.object kw) other
  refused : (kwSetDictPath (.object kw) path value).2 ≠ 0 →
    (kwSetDictPath (.object kw) path value).1 = .object kw

section Stored

variable {path : List (List Char)} {json : Json} {depth : Nat} {segment : List Char}
  {rest : List (List Char)}

variable (value : Json)

theorem stored_read
    (opened : opens path json = true) (whole : ∀ segment ∈ path.dropLast, segment.length ≤ 255)
    (shallow : depth + path.length ≤ 64) :
    kwFindPathDepth depth (setSegments value path json) path = some value := by
  induction path generalizing json depth with
  | nil => cases opened
  | cons segment rest ih =>
    rw [length_cons] at shallow
    have child := pathChild_opens value opened
    cases rest with
    | nil =>
      rw [kwFindPathDepth_last (by omega), child]
      rfl
    | cons next others =>
      have more : next :: others ≠ [] := cons_ne_nil _ _
      rw [dropLast_cons_of_ne_nil more] at whole
      have fits : segment.take 255 = segment := take_of_length_le (whole segment mem_cons_self)
      have deeper : depth + 1 + (next :: others).length ≤ 64 := by omega
      have later := ih (opens_child opened more)
        (fun other among => whole other (mem_cons_of_mem _ among)) deeper
      rw [kwFindPathDepth_child (by omega) _ fits more]
      unfold childOrDict at later ⊢
      rw [child, getD_some]
      exact later

theorem childOrDict_opens (opened : opens (segment :: rest) json = true) :
    childOrDict (setSegments value (segment :: rest) json) segment =
      openedChild value json segment rest := by
  unfold childOrDict
  rw [pathChild_opens value opened, getD_some]

theorem pathChild_opens_ne {segment token : List Char}
    (opened : opens (segment :: rest) json = true) (dict : isDict json = true)
    (ne : token ≠ segment) :
    pathChild (setSegments value (segment :: rest) json) token = pathChild json token := by
  cases json with
  | object fields => rw [setSegments_opens value opened, pathChild_set_object, if_neg ne]
  | array items => cases dict
  | null => cases dict
  | boolean value => cases dict
  | integer value => cases dict
  | real bits => cases dict
  | string value => cases dict

theorem cut_read (opened : opens path json = true) (clear : Unhindered value depth path json)
    (cut : ∃ segment ∈ path.dropLast, 255 < segment.length) (shallow : depth + path.length ≤ 64) :
    kwFindPathDepth depth (setSegments value path json) path = kwFindPathDepth depth json path := by
  induction path generalizing json depth with
  | nil => cases opened
  | cons segment rest ih =>
    rw [length_cons] at shallow
    cases rest with
    | nil =>
      have ⟨_, among, _⟩ := cut
      cases among
    | cons next others =>
      have more : next :: others ≠ [] := cons_ne_nil _ _
      rcases clear.2 with long | ⟨short, inner⟩
      · have other : segment.take 255 ≠ segment := by
          intro same
          have length := congrArg List.length same
          rw [length_take] at length
          omega
        rw [kwFindPathDepth_cons (by omega) _ _ more, kwFindPathDepth_cons (by omega) _ _ more,
          pathChild_opens_ne value opened clear.1 other]
      · have fits : segment.take 255 = segment := take_of_length_le (by omega)
        have inside : ∃ segment ∈ (next :: others).dropLast, 255 < segment.length := by
          have ⟨other, among, long⟩ := cut
          rw [dropLast_cons_of_ne_nil more] at among
          rcases mem_cons.1 among with rfl | among
          · omega
          · exact ⟨other, among, long⟩
        rw [kwFindPathDepth_child (by omega) _ fits more,
          kwFindPathDepth_child (by omega) _ fits more, childOrDict_opens value opened]
        exact ih (opens_child opened more) inner inside (by omega)

theorem eq_of_take_lt {token segment : List Char} (cut : token.take 255 = segment)
    (short : segment.length < 255) : token = segment := by
  have length := congrArg List.length cut
  rw [length_take] at length
  rw [← cut, take_of_length_le (by omega)]

theorem kwFindPathDepth_limit (deep : ¬ depth < 64) (json : Json)
    (some : path ≠ []) : kwFindPathDepth depth json path = none := by
  have long : 0 < path.length := length_pos_iff.2 some
  exact kwFindPathDepth_deep (by omega) json

theorem segments_intercalate (some : path ≠ [])
    (plain : ∀ segment ∈ path, pathDelimiter ∉ segment) :
    segments ([pathDelimiter].intercalate path) = path :=
  splitOn_intercalate pathDelimiter plain some

theorem Unhindered.dict {value : Json} (clear : Unhindered value depth (segment :: rest) json)
    (opened : opens (segment :: rest) json = true) : isDict json = true := by
  cases rest with
  | nil =>
    obtain ⟨fields, rfl⟩ := (opens_last opened).2
    rfl
  | cons next others => exact clear.1

theorem others_read (opened : opens path json = true) (clear : Unhindered value depth path json)
    {other : List (List Char)} (plain : ∀ segment ∈ other, pathDelimiter ∉ segment)
    (before : ¬ other <+: path) (behind : ¬ path <+: other) :
    kwFindPathDepth depth (setSegments value path json) other =
      kwFindPathDepth depth json other := by
  induction path generalizing json depth other with
  | nil => cases opened
  | cons segment rest ih =>
    have dict := clear.dict opened
    cases other with
    | nil => exact absurd nil_prefix before
    | cons token more =>
      by_cases shallow : depth < 64
      swap
      · rw [kwFindPathDepth_limit shallow _ (cons_ne_nil _ _),
          kwFindPathDepth_limit shallow _ (cons_ne_nil _ _)]
      · cases more with
        | nil =>
          have ne : token ≠ segment := by
            rintro rfl
            exact before (prefix_append [token] rest)
          rw [kwFindPathDepth_last shallow, kwFindPathDepth_last shallow,
            pathChild_opens_ne value opened dict ne]
        | cons following more =>
          have deeper : following :: more ≠ [] := cons_ne_nil _ _
          by_cases cut : token.take 255 = segment
          swap
          · rw [kwFindPathDepth_cons shallow _ _ deeper, kwFindPathDepth_cons shallow _ _ deeper,
              pathChild_opens_ne value opened dict cut]
          · rw [kwFindPathDepth_child shallow _ cut deeper,
              kwFindPathDepth_child shallow _ cut deeper, childOrDict_opens value opened]
            have others : ∀ segment ∈ following :: more, pathDelimiter ∉ segment :=
              fun segment among => plain segment (mem_cons_of_mem _ among)
            cases rest with
            | nil =>
              have ne : token ≠ segment := by
                rintro rfl
                exact behind (prefix_append [token] _)
              have exact_ : segment.length = 255 := by
                have length := congrArg List.length cut
                rw [length_take] at length
                by_contra short
                exact ne (eq_of_take_lt cut (by omega))
              have inside := clear exact_ ([pathDelimiter].intercalate (following :: more))
              rw [segments_intercalate deeper others] at inside
              have absent : childOrDict json segment = .object [] := by
                unfold childOrDict
                rw [(opens_last opened).1, getD_none]
              rw [absent, kwFindPathDepth_empty]
              exact inside
            | cons next rest =>
              rcases clear.2 with long | ⟨short, inner⟩
              · have length := congrArg List.length cut
                rw [length_take] at length
                omega
              · have same := eq_of_take_lt cut short
                subst same
                apply ih (opens_child opened (cons_ne_nil _ _)) inner others
                · exact fun front => before (cons_prefix_cons.2 ⟨rfl, front⟩)
                · exact fun front => behind (cons_prefix_cons.2 ⟨rfl, front⟩)

theorem segments_plain (path : List Char) :
    segments path ≠ [] ∧ ∀ segment ∈ segments path, pathDelimiter ∉ segment := by
  refine ⟨splitOn_ne_nil _ _, fun segment among inside => ?_⟩
  have other := plain_of_mem_splitOnP among pathDelimiter inside
  simp at other

/-- Another path that reads what a walk has stored. -/
structure Alias (value : Json) (depth : Nat) (path : List (List Char)) (json : Json)
    (other : List (List Char)) : Prop where
  some : other ≠ []
  plain : ∀ segment ∈ other, pathDelimiter ∉ segment
  before : ¬ other <+: path
  behind : ¬ path <+: other
  reads : kwFindPathDepth depth (setSegments value path json) other ≠
    kwFindPathDepth depth json other

theorem longer_ne (segment : List Char) : segment ++ ['z'] ≠ segment := by
  intro same
  have lengths := congrArg List.length same
  rw [length_append, length_singleton] at lengths
  omega

theorem longer_plain (plain : pathDelimiter ∉ segment) : pathDelimiter ∉ segment ++ ['z'] := by
  intro inside
  rcases mem_append.1 inside with inside | inside
  · exact plain inside
  · exact absurd (mem_singleton.1 inside) (by decide)

theorem longer_cut (exactly : segment.length = 255) : (segment ++ ['z']).take 255 = segment := by
  rw [← exactly]
  exact take_left' rfl

/-- A value with something to read, stored under a last segment as long as the cut, is read behind
a longer segment too. -/
theorem alias_last {value : Json} {last : List Char}
    (opened : opens [last] json = true) (plain : pathDelimiter ∉ last) (shallow : depth < 64)
    (exactly : last.length = 255) {inside : List Char}
    (reads : kwFindPathDepth (depth + 1) value (segments inside) ≠ none) :
    Alias value depth [last] json ((last ++ ['z']) :: segments inside) := by
  have parts := segments_plain inside
  refine ⟨cons_ne_nil _ _, ?_, ?_, ?_, ?_⟩
  · intro segment among
    rcases mem_cons.1 among with rfl | among
    · exact longer_plain plain
    · exact parts.2 segment among
  · exact fun front => longer_ne last (cons_prefix_cons.1 front).1
  · exact fun front => longer_ne last (cons_prefix_cons.1 front).1.symm
  · have absent : childOrDict json last = .object [] := by
      unfold childOrDict
      rw [(opens_last opened).1, getD_none]
    rw [kwFindPathDepth_child shallow _ (longer_cut exactly) parts.1,
      kwFindPathDepth_child shallow _ (longer_cut exactly) parts.1, childOrDict_opens value opened,
      absent, kwFindPathDepth_empty]
    exact reads

section

variable {value : Json} {segment next : List Char}
  (opened : opens (segment :: next :: rest) json = true)
include opened

theorem alias_cut (plain : pathDelimiter ∉ segment)
    (plainNext : pathDelimiter ∉ next) (shallow : depth + 1 < 64)
    (exactly : segment.length = 255) :
    Alias value depth (segment :: next :: rest) json [segment ++ ['z'], next] := by
  have more : [next] ≠ [] := cons_ne_nil _ _
  refine ⟨cons_ne_nil _ _, ?_, ?_, ?_, ?_⟩
  · intro part among
    rcases mem_cons.1 among with rfl | among
    · exact longer_plain plain
    · rw [mem_singleton.1 among]
      exact plainNext
  · exact fun front => longer_ne segment (cons_prefix_cons.1 front).1
  · exact fun front => longer_ne segment (cons_prefix_cons.1 front).1.symm
  · rw [kwFindPathDepth_child (by omega) _ (longer_cut exactly) more,
      kwFindPathDepth_child (by omega) _ (longer_cut exactly) more, childOrDict_opens value opened,
      kwFindPathDepth_last shallow, kwFindPathDepth_last shallow]
    exact setSegments_changes value (opens_child opened (cons_ne_nil _ _))

theorem alias_index (list : isDict json = false) (shallow : depth < 64) :
    ∃ other, Alias value depth (segment :: next :: rest) json other := by
  rcases opens_cons opened with ⟨child, found, later⟩ | ⟨_, fields, rfl⟩
  swap
  · cases list
  cases json with
  | object fields => cases list
  | array items =>
    have item := pathChild_array found
    have ⟨text, ne, same, digits⟩ := atoi_other_text segment item.1
    have before : pathChild (.array items) text = some child := by
      unfold pathChild
      dsimp only
      rw [same, if_neg (by omega)]
      exact item.2
    have put := setSegments_opens value opened
    have after : pathChild (setSegments value (segment :: next :: rest) (.array items)) text =
        some (openedChild value (.array items) segment (next :: rest)) := by
      rw [put]
      exact pathChild_set_array found _ same
    have changed : openedChild value (.array items) segment (next :: rest) ≠ child := by
      have changes := setSegments_changes value later
      have put : openedChild value (.array items) segment (next :: rest) =
          setSegments value (next :: rest) child := by
        unfold openedChild childOrDict
        rw [found, getD_some]
        rfl
      rw [put]
      intro equal
      rw [equal] at changes
      exact changes rfl
    refine ⟨[text], cons_ne_nil _ _, ?_, ?_, ?_, ?_⟩
    · intro part among inside
      rw [mem_singleton.1 among] at inside
      exact absurd (digits pathDelimiter inside) (by decide)
    · exact fun front => ne (cons_prefix_cons.1 front).1
    · exact fun front => ne (cons_prefix_cons.1 front).1.symm
    · rw [kwFindPathDepth_last shallow, kwFindPathDepth_last shallow, before, after]
      exact fun equal => changed (Option.some.inj equal)
  | null => cases found
  | boolean value => cases found
  | integer value => cases found
  | real bits => cases found
  | string value => cases found

end

theorem other_reads (opened : opens path json = true) (unclear : ¬ Unhindered value depth path json)
    (plain : ∀ segment ∈ path, pathDelimiter ∉ segment) (shallow : depth + path.length ≤ 64) :
    ∃ other, Alias value depth path json other := by
  induction path generalizing json depth with
  | nil => cases opened
  | cons segment rest ih =>
    rw [length_cons] at shallow
    have here := plain segment mem_cons_self
    cases rest with
    | nil =>
      unfold Unhindered at unclear
      rw [Classical.not_imp, not_forall] at unclear
      have ⟨exactly, inside, reads⟩ := unclear
      exact ⟨_, alias_last opened here (by omega) exactly reads⟩
    | cons next others =>
      rw [length_cons] at shallow
      cases dict : isDict json with
      | false => exact alias_index opened dict (by omega)
      | true =>
        have cases_ : ¬ 255 < segment.length ∧ ¬ (segment.length < 255 ∧
            Unhindered value (depth + 1) (next :: others) (childOrDict json segment)) := by
          refine ⟨fun long => unclear ⟨dict, .inl long⟩, fun short => unclear ⟨dict, .inr short⟩⟩
        by_cases exactly : segment.length = 255
        · have following := plain next (mem_cons_of_mem _ mem_cons_self)
          exact ⟨_, alias_cut opened here following (by omega) exactly⟩
        · have short : segment.length < 255 := by omega
          have inner : ¬ Unhindered value (depth + 1) (next :: others) (childOrDict json segment) :=
            fun clear => cases_.2 ⟨short, clear⟩
          have fits : segment.take 255 = segment := take_of_length_le (by omega)
          have ⟨other, found⟩ := ih (opens_child opened (cons_ne_nil _ _)) inner
            (fun part among => plain part (mem_cons_of_mem _ among))
            (by rw [length_cons]; omega)
          refine ⟨segment :: other, cons_ne_nil _ _, ?_, ?_, ?_, ?_⟩
          · intro part among
            rcases mem_cons.1 among with rfl | among
            · exact here
            · exact found.plain part among
          · exact fun front => found.before (cons_prefix_cons.1 front).2
          · exact fun front => found.behind (cons_prefix_cons.1 front).2
          · rw [kwFindPathDepth_child (by omega) _ fits found.some,
              kwFindPathDepth_child (by omega) _ fits found.some, childOrDict_opens value opened]
            exact found.reads

end Stored

/-- The path of segments. -/
def pathOf (parts : List (List Char)) : List Char := [pathDelimiter].intercalate parts

theorem split2_pathOf {parts : List (List Char)} (some : parts ≠ [])
    (good : ∀ part ∈ parts, part ≠ [] ∧ pathDelimiter ∉ part) :
    split2 (pathOf parts) [pathDelimiter] = parts := by
  have split := segments_intercalate some fun part among => (good part among).2
  have kept : parts.filter (fun part => !part.isEmpty) = parts := by
    rw [filter_eq_self]
    intro part among
    simpa using (good part among).1
  have same : (fun char => [pathDelimiter].contains char) = (· == pathDelimiter) := by
    funext char
    show (char == pathDelimiter || false) = _
    rw [Bool.or_false]
  unfold split2 tokens
  rw [same]
  show (segments (pathOf parts)).filter _ = parts
  unfold pathOf
  rw [split, kept]

end Yunetas.Gobj
