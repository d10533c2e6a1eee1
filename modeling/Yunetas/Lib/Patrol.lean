import Mathlib.Algebra.Group.Nat.Even
import Mathlib.Data.List.DropRight
import Mathlib.Logic.Function.Iterate

/-!
# Rounds of a cursor

A cursor goes over a list again and again. It visits an element that is good, and behind one that is not
it passes over the next one too. An end of the list is marked, and the cursor begins again. Every good
element is visited in every round where the others stand before a good one in pairs.
-/

namespace Yunetas.Patrol

open List Function

variable {α : Type} (good : α → Bool)

/-- What is visited of a list, where the first element may be passed over. -/
def survey : Bool → List α → List α
  | _, [] => []
  | true, _ :: rest => survey false rest
  | false, first :: rest => if good first then first :: survey false rest else survey true rest

/-- The elements that are not good and stand directly before a good one are even in number. -/
def EvenGaps (list : List α) : Prop :=
  ∀ front first back, list = front ++ first :: back → good first = true →
    Even (front.rtakeWhile fun other => !good other).length

theorem survey_sublist (skip : Bool) (list : List α) :
    (survey good skip list).Sublist (list.filter good) := by
  induction list generalizing skip with
  | nil =>
    rw [show survey good skip [] = [] by cases skip <;> rfl]
    exact nil_sublist _
  | cons first rest ih =>
    cases skip with
    | true =>
      have later := ih false
      rw [filter_cons]
      split
      · exact later.trans (sublist_cons_self ..)
      · exact later
    | false =>
      rw [survey, filter_cons]
      split
      · exact (ih false).cons_cons first
      · exact ih true

theorem survey_iff_evenGaps (list seen : List α) :
    survey good (decide (¬ Even (seen.rtakeWhile fun other => !good other).length)) list =
        list.filter good ↔
      ∀ front first back, list = front ++ first :: back → good first = true →
        Even ((seen ++ front).rtakeWhile fun other => !good other).length := by
  induction list generalizing seen with
  | nil =>
    have here : survey good (decide (¬ Even (seen.rtakeWhile fun other => !good other).length)) [] =
        [] := by
      cases decide (¬ Even (seen.rtakeWhile fun other => !good other).length) <;> rfl
    rw [here]
    exact ⟨fun _ front _ _ split => by simp at split, fun _ => rfl⟩
  | cons element rest ih =>
    have later := ih (seen ++ [element])
    -- A gap behind the first element is a gap of the rest, behind what was seen and this element.
    have splits : (∀ front first back, element :: rest = front ++ first :: back → good first = true →
          Even ((seen ++ front).rtakeWhile fun other => !good other).length) ↔
        (good element = true → Even (seen.rtakeWhile fun other => !good other).length) ∧
          ∀ front first back, rest = front ++ first :: back → good first = true →
            Even ((seen ++ [element] ++ front).rtakeWhile fun other => !good other).length := by
      constructor
      · intro gaps
        have first := gaps [] element rest rfl
        rw [append_nil] at first
        refine ⟨first, fun front next back split fine => ?_⟩
        have there := gaps (element :: front) next back (by rw [split]; rfl) fine
        rw [append_assoc]
        exact there
      · intro gaps front first back split fine
        cases front with
        | nil =>
          rw [nil_append, List.cons.injEq] at split
          rw [append_nil]
          exact gaps.1 (by rw [split.1]; exact fine)
        | cons next front =>
          rw [cons_append, List.cons.injEq] at split
          have there := gaps.2 front first back split.2 fine
          rw [append_assoc, split.1] at there
          exact there
    rw [splits, ← later]
    cases fine : good element with
    | true =>
      rw [rtakeWhile_concat_neg _ _ _ (by simp [fine])]
      by_cases even : Even (seen.rtakeWhile fun other => !good other).length
      · rw [decide_eq_false (by simpa using even), survey, if_pos fine, filter_cons, if_pos fine,
          List.cons.injEq]
        simp [even]
      · rw [decide_eq_true even, survey, filter_cons, if_pos fine]
        have shorter := (survey_sublist good false rest).length_le
        constructor
        · intro same
          rw [same, length_cons] at shorter
          omega
        · intro gaps
          exact absurd (gaps.1 rfl) even
    | false =>
      rw [rtakeWhile_concat_pos _ _ _ (by simp [fine]), filter_cons,
        if_neg (by simp [fine]), length_append, length_singleton]
      by_cases even : Even (seen.rtakeWhile fun other => !good other).length
      · rw [decide_eq_false (by simpa using even), survey, if_neg (by simp [fine]),
          decide_eq_true (by simpa [Nat.even_add_one] using even)]
        simp
      · rw [decide_eq_true even, survey, decide_eq_false (by simpa [Nat.even_add_one] using even)]
        simp

theorem survey_eq_filter_iff (list : List α) :
    survey good false list = list.filter good ↔ EvenGaps good list := by
  have here := survey_iff_evenGaps good list []
  rw [rtakeWhile_nil, length_nil, decide_eq_false (by simp)] at here
  exact here

/-! ## The rounds -/

/-- A cursor: what was visited, with a mark at each end of the list, and what is ahead. -/
abbrev Cursor (α : Type) := List (Option α) × List α

/-- A move of the cursor. -/
def move (all : List α) (cursor : Cursor α) : Cursor α :=
  match cursor.2 with
  | [] => (cursor.1 ++ [none], all)
  | first :: rest =>
    if good first then (cursor.1 ++ [some first], rest)
    else
      match rest with
      | [] => (cursor.1 ++ [none], all)
      | _ :: rest => (cursor.1, rest)

/-- Between two marks that follow one another these are visited. -/
def VisitsEachRound (log : List (Option α)) (visits : List α) : Prop :=
  ∀ before round after, log = before ++ none :: round.map some ++ none :: after → round = visits

/-- The visits behind the last mark, and those ahead, are those of a round. -/
structure OnRound (all : List α) (cursor : Cursor α) : Prop where
  current : ∀ before seen, cursor.1 = before ++ none :: seen.map some →
    seen ++ survey good false cursor.2 = survey good false all
  visits : VisitsEachRound cursor.1 (survey good false all)

variable {good} {all : List α}

theorem OnRound.mark {cursor : Cursor α} (round : OnRound good all cursor)
    (last : survey good false cursor.2 = []) : OnRound good all (cursor.1 ++ [none], all) := by
  constructor
  · intro before seen ends
    cases seen using List.reverseRecOn with
    | nil => rfl
    | append_singleton seen element =>
      rw [map_append, ← cons_append, ← append_assoc] at ends
      exact absurd (append_inj_right' ends rfl) (by simp)
  · intro before visited after split
    cases after using List.reverseRecOn with
    | nil =>
      have whole := append_inj_left' split rfl
      have visits := round.current before visited whole
      rw [last, append_nil] at visits
      exact visits
    | append_singleton after element =>
      rw [← cons_append, ← append_assoc] at split
      have whole := append_inj_left' split rfl
      exact round.visits before visited after whole

theorem OnRound.visit {cursor : Cursor α} {first : α} {rest : List α}
    (round : OnRound good all cursor)
    (visits : survey good false cursor.2 = first :: survey good false rest) :
    OnRound good all (cursor.1 ++ [some first], rest) := by
  constructor
  · intro before seen ends
    cases seen using List.reverseRecOn with
    | nil =>
      exact absurd (append_inj_right' ends rfl) (by simp)
    | append_singleton seen element =>
      rw [map_append, ← cons_append, ← append_assoc] at ends
      have whole := append_inj_left' ends rfl
      have same : first = element := by simpa using append_inj_right' ends rfl
      have current := round.current before seen whole
      rw [visits] at current
      rw [← same, append_assoc]
      exact current
  · intro before visited after split
    cases after using List.reverseRecOn with
    | nil =>
      exact absurd (append_inj_right' split rfl) (by simp)
    | append_singleton after element =>
      rw [← cons_append, ← append_assoc] at split
      have whole := append_inj_left' split rfl
      exact round.visits before visited after whole

theorem OnRound.move {cursor : Cursor α} (round : OnRound good all cursor) :
    OnRound good all (Patrol.move good all cursor) := by
  have log := round.current
  unfold Patrol.move
  split
  · rename_i ends
    exact round.mark (by rw [ends]; rfl)
  · rename_i first rest ahead
    split
    · rename_i fine
      apply round.visit
      rw [ahead, survey, if_pos fine]
    · rename_i bad
      have skips : survey good false cursor.2 = survey good true rest := by
        rw [ahead, survey, if_neg bad]
      split
      · exact round.mark (by rw [skips]; rfl)
      · exact ⟨fun before seen ends => by rw [← log before seen ends, skips]; rfl, round.visits⟩

theorem moves_visit (count : Nat) :
    VisitsEachRound ((Patrol.move good all)^[count] ([], all)).1 (survey good false all) := by
  have start : OnRound good all ([], all) := by
    constructor
    · intro before seen ends
      simp at ends
    · intro before round after split
      simp at split
  have every : OnRound good all ((Patrol.move good all)^[count] ([], all)) := by
    induction count with
    | zero => exact start
    | succ count ih =>
      rw [iterate_succ_apply']
      exact ih.move
  exact every.visits

theorem moves_end (ahead : List α) (log : List (Option α)) :
    ∃ count, (Patrol.move good all)^[count] (log, ahead) =
      (log ++ (survey good false ahead).map some ++ [none], all) := by
  have bounded : ∀ size (ahead : List α) (log : List (Option α)), ahead.length ≤ size →
      ∃ count, (Patrol.move good all)^[count] (log, ahead) =
        (log ++ (survey good false ahead).map some ++ [none], all) := by
    intro size
    induction size with
    | zero =>
      intro ahead log short
      rw [eq_nil_of_length_eq_zero (Nat.le_zero.1 short)]
      exact ⟨1, by simp [Patrol.move, survey]⟩
    | succ size ih =>
      intro ahead log short
      cases ahead with
      | nil => exact ⟨1, by simp [Patrol.move, survey]⟩
      | cons first rest =>
        rw [length_cons] at short
        by_cases fine : good first = true
        · have ⟨count, ends⟩ := ih rest (log ++ [some first]) (by omega)
          refine ⟨count + 1, ?_⟩
          rw [iterate_succ_apply]
          simp only [Patrol.move, survey, if_pos fine]
          rw [ends]
          simp
        · cases rest with
          | nil => exact ⟨1, by simp [Patrol.move, survey, fine]⟩
          | cons next rest =>
            rw [length_cons] at short
            have ⟨count, ends⟩ := ih rest log (by omega)
            refine ⟨count + 1, ?_⟩
            rw [iterate_succ_apply]
            simp only [Patrol.move, survey, if_neg fine]
            exact ends
  exact bounded ahead.length ahead log (Nat.le_refl _)

theorem moves_round : ∃ count before, ((Patrol.move good all)^[count] ([], all)).1 =
    before ++ none :: (survey good false all).map some ++ [none] := by
  have ⟨first, one⟩ := @moves_end α good all all []
  have ⟨second, two⟩ := @moves_end α good all all ([] ++ (survey good false all).map some ++ [none])
  refine ⟨second + first, (survey good false all).map some, ?_⟩
  rw [iterate_add_apply, one, two]
  simp

theorem visitsEachRound_iff :
    (∀ count, VisitsEachRound ((Patrol.move good all)^[count] ([], all)).1 (all.filter good)) ↔
      EvenGaps good all := by
  rw [← survey_eq_filter_iff]
  constructor
  · intro every
    have ⟨count, before, ends⟩ := @moves_round α good all
    exact every count before _ [] ends
  · intro same count
    rw [← same]
    exact moves_visit count

end Yunetas.Patrol
