import Mathlib.Data.List.Nodup

/-!
# Hierarchical names with wildcards

A pattern is a list of levels in which `one` stands for any single level and a final `rest` for any
number of levels, none included. The names a pattern matches are given twice: by a relation, and by
the list of the patterns that match a name, which is what a tree walk visits.
-/

namespace Yunetas.Wildcard

open List

variable {α : Type} (one rest : α)

/-- The levels of a pattern match the levels of a name. -/
inductive Matches : List α → List α → Prop
  | rest (name : List α) : Matches [rest] name
  | done : Matches [] []
  | one {pattern name : List α} (level : α) :
    Matches pattern name → Matches (one :: pattern) (level :: name)
  | level {pattern name : List α} (level : α) :
    Matches pattern name → Matches (level :: pattern) (level :: name)

/-- The patterns that match a name, in the order a walk visits them. -/
def visited : List α → List (List α)
  | [] => [[rest], []]
  | level :: name =>
    [rest] :: ((visited name).map (one :: ·) ++ (visited name).map (level :: ·))

theorem mem_visited {pattern name : List α} :
    pattern ∈ visited one rest name ↔ Matches one rest pattern name := by
  constructor
  · intro among
    induction name generalizing pattern with
    | nil =>
      rcases mem_pair.1 among with rfl | rfl
      · exact .rest []
      · exact .done
    | cons level name ih =>
      rw [visited, mem_cons, mem_append, mem_map, mem_map] at among
      rcases among with rfl | ⟨tail, under, rfl⟩ | ⟨tail, under, rfl⟩
      · exact .rest _
      · exact .one level (ih under)
      · exact .level level (ih under)
  · intro covers
    induction covers with
    | rest name =>
      cases name with
      | nil => exact mem_cons_self
      | cons level name => exact mem_cons_self
    | done => exact mem_cons_of_mem _ mem_cons_self
    | one level _ ih =>
      exact mem_cons_of_mem _ (mem_append_left _ (mem_map_of_mem ih))
    | level level _ ih =>
      exact mem_cons_of_mem _ (mem_append_right _ (mem_map_of_mem ih))

theorem visited_nodup (apart : one ≠ rest) {name : List α} (plain : one ∉ name ∧ rest ∉ name) :
    (visited one rest name).Nodup := by
  induction name with
  | nil => simp [visited]
  | cons level name ih =>
    have here : one ≠ level ∧ rest ≠ level :=
      ⟨fun same => plain.1 (same ▸ mem_cons_self),
        fun same => plain.2 (same ▸ mem_cons_self)⟩
    have later := ih ⟨fun among => plain.1 (mem_cons_of_mem _ among),
      fun among => plain.2 (mem_cons_of_mem _ among)⟩
    have inj (first : α) : Function.Injective (first :: · : List α → List α) :=
      fun _ _ same => (cons.inj same).2
    refine nodup_cons.2 ⟨?_, nodup_append.2 ⟨later.map (inj one), later.map (inj level), ?_⟩⟩
    · rw [mem_append, mem_map, mem_map]
      rintro (⟨tail, -, same⟩ | ⟨tail, -, same⟩)
      · exact apart (cons.inj same).1
      · exact here.2 (cons.inj same).1.symm
    · intro left among right under same
      obtain ⟨_, _, rfl⟩ := mem_map.1 among
      obtain ⟨_, _, rfl⟩ := mem_map.1 under
      exact here.1 (cons.inj same).1

theorem matches_cons {level other : α} (plain : level ≠ one ∧ level ≠ rest)
    {pattern name : List α} :
    Matches one rest (level :: pattern) (other :: name) ↔
      level = other ∧ Matches one rest pattern name := by
  constructor
  · intro covers
    cases covers with
    | rest => exact absurd rfl plain.2
    | one _ later => exact absurd rfl plain.1
    | level _ later => exact ⟨rfl, later⟩
  · rintro ⟨rfl, later⟩
    exact .level level later

section Inclusion

variable {one rest}

/-- A pattern that matches another one taken as a name matches what that one matches, when the other
does not end in `rest`. -/
theorem Matches.trans {pattern other name : List α} (covers : Matches one rest pattern other)
    (bounded : rest ∉ other) (inside : Matches one rest other name) :
    Matches one rest pattern name := by
  induction covers generalizing name with
  | rest other => exact .rest name
  | done =>
    cases inside
    exact .done
  | one level _ ih =>
    cases inside with
    | rest => exact absurd mem_cons_self bounded
    | one next later => exact .one next (ih (fun among => bounded (mem_cons_of_mem _ among)) later)
    | level _ later => exact .one level (ih (fun among => bounded (mem_cons_of_mem _ among)) later)
  | level level _ ih =>
    cases inside with
    | rest => exact absurd mem_cons_self bounded
    | one next later => exact .one next (ih (fun among => bounded (mem_cons_of_mem _ among)) later)
    | level _ later =>
      exact .level level (ih (fun among => bounded (mem_cons_of_mem _ among)) later)

variable [DecidableEq α]

/-- The pattern with a final `rest` spread over a number of single levels. -/
def spread (one rest : α) (count : Nat) : List α → List α
  | [] => []
  | [last] => if last = rest then List.replicate count one else [last]
  | level :: next :: pattern => level :: spread one rest count (next :: pattern)

theorem spread_cons {level : α} (plain : level ≠ rest) (count : Nat) (pattern : List α) :
    spread one rest count (level :: pattern) = level :: spread one rest count pattern := by
  cases pattern with
  | nil => simp [spread, if_neg plain]
  | cons next pattern => rw [spread]

theorem rest_not_mem_spread (apart : one ≠ rest) {pattern : List α}
    (last : rest ∉ pattern.dropLast) (count : Nat) : rest ∉ spread one rest count pattern := by
  induction pattern with
  | nil => exact not_mem_nil
  | cons level pattern ih =>
    cases pattern with
    | nil =>
      rw [spread]
      split
      · exact fun among => apart (eq_of_mem_replicate among).symm
      · rename_i other
        exact fun among => other (mem_singleton.1 among).symm
    | cons next pattern =>
      rw [dropLast_cons_cons, mem_cons, not_or] at last
      rw [spread, mem_cons, not_or]
      exact ⟨last.1, ih last.2⟩

omit [DecidableEq α] in
theorem matches_replicate (name : List α) :
    Matches one rest (List.replicate name.length one) name := by
  induction name with
  | nil => exact .done
  | cons level name ih =>
    rw [length_cons, replicate_succ]
    exact .one level ih

theorem exists_spread {pattern name : List α} (covers : Matches one rest pattern name) :
    ∃ count, Matches one rest (spread one rest count pattern) name := by
  induction covers with
  | rest name =>
    refine ⟨name.length, ?_⟩
    rw [spread, if_pos rfl]
    exact matches_replicate name
  | done => exact ⟨0, .done⟩
  | @one pattern name level _ ih =>
    have ⟨count, inside⟩ := ih
    by_cases same : one = rest
    · cases pattern with
      | nil =>
        refine ⟨1, ?_⟩
        rw [spread, if_pos same]
        cases inside
        exact .one level .done
      | cons next pattern =>
        refine ⟨count, ?_⟩
        rw [spread]
        exact .one level inside
    · refine ⟨count, ?_⟩
      rw [spread_cons same]
      exact .one level inside
  | @level pattern name level inner ih =>
    have ⟨count, inside⟩ := ih
    by_cases same : level = rest
    · cases pattern with
      | nil =>
        refine ⟨1, ?_⟩
        rw [spread, if_pos same]
        cases inner
        exact .one level .done
      | cons next pattern =>
        refine ⟨count, ?_⟩
        rw [spread]
        exact .level level inside
    · refine ⟨count, ?_⟩
      rw [spread_cons same]
      exact .level level inside

theorem matches_of_spread {pattern name : List α} (last : rest ∉ pattern.dropLast) {count : Nat}
    (inside : Matches one rest (spread one rest count pattern) name) :
    Matches one rest pattern name := by
  induction pattern generalizing name with
  | nil => exact inside
  | cons level pattern ih =>
    cases pattern with
    | nil =>
      by_cases same : level = rest
      · rw [same]
        exact .rest name
      · rwa [spread, if_neg same] at inside
    | cons next pattern =>
      rw [dropLast_cons_cons, mem_cons, not_or] at last
      rw [spread] at inside
      generalize tail : spread one rest count (next :: pattern) = levels at inside
      cases inside with
      | rest => exact absurd rfl last.1
      | one other later => exact .one other (ih last.2 (tail ▸ later))
      | level _ later => exact .level level (ih last.2 (tail ▸ later))

/-- The single levels of a pattern filled with a name. -/
def fill (one fresh : α) (pattern : List α) : List α :=
  pattern.map fun level => if level = one then fresh else level

theorem matches_fill (pattern : List α) (fresh : α) :
    Matches one rest pattern (fill one fresh pattern) := by
  induction pattern with
  | nil => exact .done
  | cons level pattern ih =>
    rw [fill, map_cons]
    by_cases single : level = one
    · rw [if_pos single, single]
      exact .one fresh ih
    · rw [if_neg single]
      exact .level level ih

theorem matches_of_fill {pattern other : List α} {fresh : α} (unknown : fresh ∉ pattern)
    (covers : Matches one rest pattern (fill one fresh other)) :
    Matches one rest pattern other := by
  induction other generalizing pattern with
  | nil =>
    cases covers with
    | rest => exact .rest []
    | done => exact .done
  | cons level other ih =>
    rw [fill, map_cons] at covers
    cases covers with
    | rest => exact .rest _
    | one _ later =>
      exact .one level (ih (fun among => unknown (mem_cons_of_mem _ among)) later)
    | level _ later =>
      by_cases single : level = one
      · rw [if_pos single] at unknown
        exact absurd mem_cons_self unknown
      · rw [if_neg single]
        exact .level level (ih (fun among => unknown (mem_cons_of_mem _ among)) later)

end Inclusion

end Yunetas.Wildcard
