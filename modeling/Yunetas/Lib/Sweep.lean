import Yunetas.Lib.Dict

/-!
# Sweeps over a dictionary

A sweep goes once through the entries of a dictionary, as they were when it began, and works on
the state for each of them. When the work for an entry touches nothing that is seen of another key,
what a sweep does to a key is what the work for its own entry does.
-/

namespace Yunetas

open List

namespace Dict

variable {σ κ ν ω : Type} [DecidableEq κ] (work : σ → κ × ν → σ)

/-- The work for every entry, in order. -/
def sweep (dict : Dict κ ν) (state : σ) : σ := dict.entries.foldl work state

omit [DecidableEq κ] in
theorem foldl_other {view : σ → ω} {key : κ}
    (others : ∀ state entry, entry.1 ≠ key → view (work state entry) = view state)
    {entries : List (κ × ν)} (absent : key ∉ entries.map Prod.fst) (state : σ) :
    view (entries.foldl work state) = view state := by
  induction entries generalizing state with
  | nil => rfl
  | cons entry rest ih =>
    rw [map_cons, mem_cons, not_or] at absent
    rw [foldl_cons, ih absent.2, others state entry (Ne.symm absent.1)]

omit [DecidableEq κ] in
/-- What the work for every other entry keeps, once the own entry has brought it about, holds at the
end. -/
theorem foldl_own {good : σ → Prop} {key : κ}
    (others : ∀ state entry, entry.1 ≠ key → good state → good (work state entry))
    {entries : List (κ × ν)} (absent : key ∉ entries.map Prod.fst) {state : σ} (start : good state) :
    good (entries.foldl work state) := by
  induction entries generalizing state with
  | nil => exact start
  | cons entry rest ih =>
    rw [map_cons, mem_cons, not_or] at absent
    exact ih absent.2 (others state entry (Ne.symm absent.1) start)

variable (dict : Dict κ ν)

theorem sweep_split {key : κ} {value : ν} (found : dict.get? key = some value) :
    ∃ before after, dict.entries = before ++ (key, value) :: after ∧
      key ∉ before.map Prod.fst ∧ key ∉ after.map Prod.fst := by
  have among : (key, value) ∈ dict.entries := mem_of_lookupEntries found
  have ⟨before, after, split⟩ := append_of_mem among
  have distinct := dict.nodup
  rw [split, map_append, map_cons, nodup_append, nodup_cons] at distinct
  refine ⟨before, after, split, fun earlier => ?_, distinct.2.1.1⟩
  exact distinct.2.2 key earlier key mem_cons_self rfl

theorem sweep_own {view : σ → ω} {key : κ} {value : ν}
    (others : ∀ state entry, entry.1 ≠ key → view (work state entry) = view state)
    (found : dict.get? key = some value) (state : σ) :
    ∃ reached, view reached = view state ∧
      view (dict.sweep work state) = view (work reached (key, value)) := by
  have ⟨before, after, split, earlier, later⟩ := dict.sweep_split found
  refine ⟨before.foldl work state, foldl_other work others earlier state, ?_⟩
  rw [sweep, split, foldl_append, foldl_cons]
  exact foldl_other work others later _

theorem sweep_absent {view : σ → ω} {key : κ}
    (others : ∀ state entry, entry.1 ≠ key → view (work state entry) = view state)
    (absent : dict.get? key = none) (state : σ) :
    view (dict.sweep work state) = view state := by
  refine foldl_other work others (fun among => ?_) state
  have present := (lookupEntries_isSome key dict.entries).2 among
  have none : lookupEntries key dict.entries = none := absent
  rw [none] at present
  cases present

/-- What the work for the own entry brings about in any state, and the work for other entries keeps,
holds after a sweep. -/
theorem sweep_brings (good reaches : σ → Prop) {key : κ} {value : ν}
    (others : ∀ state entry, entry.1 ≠ key → good state → good (work state entry))
    (keeps : ∀ state entry, entry.1 ≠ key → reaches state → reaches (work state entry))
    (brings : ∀ state, reaches state → good (work state (key, value)))
    (found : dict.get? key = some value) {state : σ} (start : reaches state) :
    good (dict.sweep work state) := by
  have ⟨before, after, split, earlier, later⟩ := dict.sweep_split found
  rw [sweep, split, foldl_append, foldl_cons]
  refine foldl_own work others later (brings _ ?_)
  exact foldl_own work keeps earlier start

omit [DecidableEq κ] in
theorem sweep_keeps (good : σ → Prop)
    (keeps : ∀ state entry, entry ∈ dict.entries → good state → good (work state entry))
    {state : σ} (start : good state) : good (dict.sweep work state) :=
  List.foldlRecOn dict.entries work start fun state holds entry among =>
    keeps state entry among holds

end Dict

end Yunetas
