import Mathlib.Data.List.Basic

/-!
# Runs of a deterministic machine

A run applies a list of operations to a state. `AllStates` says that a property holds in every
state of a run, `AllSteps` that a condition on the state before a step and the operation holds
at every step. An invariant kept by the steps that meet the condition holds along every such
run; when a step that breaks the condition also breaks the property, the two are equivalent.
-/

namespace Yunetas

open List

variable {σ α : Type} (step : σ → α → σ)

/-- The state at the end of a run. -/
def run (state : σ) (ops : List α) : σ := ops.foldl step state

/-- The property holds in the first state of a run and after each of its steps. -/
def AllStates (good : σ → Prop) : σ → List α → Prop
  | state, [] => good state
  | state, op :: rest => good state ∧ AllStates good (step state op) rest

/-- The condition holds at every step of a run. -/
def AllSteps (ok : σ → α → Prop) : σ → List α → Prop
  | _, [] => True
  | state, op :: rest => ok state op ∧ AllSteps ok (step state op) rest

@[simp] theorem run_nil (state : σ) : run step state [] = state := rfl

@[simp] theorem run_cons (state : σ) (op : α) (rest : List α) :
    run step state (op :: rest) = run step (step state op) rest := rfl

theorem run_append (state : σ) (before after : List α) :
    run step state (before ++ after) = run step (run step state before) after :=
  foldl_append

theorem AllStates.first {good : σ → Prop} {state : σ} {ops : List α}
    (all : AllStates step good state ops) : good state := by
  cases ops with
  | nil => exact all
  | cons op rest => exact all.1

variable {state : σ} {ops : List α} {inv : σ → Prop}

theorem AllStates.last {good : σ → Prop}
    (all : AllStates step good state ops) : good (run step state ops) := by
  induction ops generalizing state with
  | nil => exact all
  | cons op rest ih => exact ih all.2

theorem allStates_iff {good : σ → Prop} :
    AllStates step good state ops ↔ ∀ before after, ops = before ++ after →
      good (run step state before) := by
  induction ops generalizing state with
  | nil =>
    constructor
    · intro here before after split
      obtain ⟨rfl, rfl⟩ := append_eq_nil_iff.1 split.symm
      exact here
    · intro prefixes
      exact prefixes [] [] rfl
  | cons op rest ih =>
    constructor
    · rintro ⟨here, later⟩ before after split
      cases before with
      | nil => exact here
      | cons first before =>
        obtain ⟨rfl, rfl⟩ := List.cons.inj split
        exact ih.1 later before after rfl
    · intro prefixes
      refine ⟨prefixes [] (op :: rest) rfl, ih.2 fun before after split => ?_⟩
      exact prefixes (op :: before) after (by rw [split, cons_append])

theorem AllSteps.of_mem {ok : α → Prop} (all : ∀ op ∈ ops, ok op) (state : σ) :
    AllSteps step (fun _ op => ok op) state ops := by
  induction ops generalizing state with
  | nil => trivial
  | cons op rest ih =>
    exact ⟨all op mem_cons_self, ih (fun other among =>
      all other (mem_cons_of_mem op among)) _⟩

theorem AllSteps.and {one two : σ → α → Prop}
    (first : AllSteps step one state ops) (second : AllSteps step two state ops) :
    AllSteps step (fun state op => one state op ∧ two state op) state ops := by
  induction ops generalizing state with
  | nil => trivial
  | cons op rest ih => exact ⟨⟨first.1, second.1⟩, ih first.2 second.2⟩

theorem AllSteps.invariant {ok : σ → α → Prop}
    (keeps : ∀ state op, inv state → ok state op → inv (step state op))
    (start : inv state) (all : AllSteps step ok state ops) :
    AllStates step inv state ops := by
  induction ops generalizing state with
  | nil => exact start
  | cons op rest ih => exact ⟨start, ih (keeps state op start all.1) all.2⟩

/-- Along a run of steps that meet a condition, what an invariant and the condition imply of a step
holds at every step. -/
theorem AllSteps.strengthen {ok good : σ → α → Prop}
    (keeps : ∀ state op, inv state → ok state op → inv (step state op))
    (implies : ∀ state op, inv state → ok state op → good state op)
    (start : inv state) (all : AllSteps step ok state ops) : AllSteps step good state ops := by
  induction ops generalizing state with
  | nil => trivial
  | cons op rest ih =>
    exact ⟨implies state op start all.1, ih (keeps state op start all.1) all.2⟩

theorem allSteps_of_invariant {good : σ → α → Prop}
    (keeps : ∀ state op, inv state → inv (step state op))
    (implies : ∀ state op, inv state → good state op) (start : inv state)
    (ops : List α) : AllSteps step good state ops := by
  induction ops generalizing state with
  | nil => trivial
  | cons op rest ih => exact ⟨implies state op start, ih (keeps state op start)⟩

theorem allSteps_congr {good ok : σ → α → Prop}
    (keeps : ∀ state, ∀ op ∈ ops, inv state → ok state op → inv (step state op))
    (same : ∀ state, ∀ op ∈ ops, inv state → (good state op ↔ ok state op))
    (start : inv state) : AllSteps step good state ops ↔ AllSteps step ok state ops := by
  induction ops generalizing state with
  | nil => exact Iff.rfl
  | cons op rest ih =>
    have here := same state op mem_cons_self start
    have later (next : σ) (holds : inv next) :=
      ih (fun state other among => keeps state other (mem_cons_of_mem op among))
        (fun state other among => same state other (mem_cons_of_mem op among)) holds
    constructor
    · intro all
      have met := here.1 all.1
      exact ⟨met, (later _ (keeps state op mem_cons_self start met)).1 all.2⟩
    · intro all
      exact ⟨here.2 all.1, (later _ (keeps state op mem_cons_self start all.1)).2 all.2⟩

theorem run_invariant (inv : σ → Prop) (keeps : ∀ state op, inv state → inv (step state op))
    (start : inv state) (ops : List α) : inv (run step state ops) := by
  induction ops generalizing state with
  | nil => exact start
  | cons op rest ih => exact ih (keeps state op start)

theorem AllStates.mono {good better : σ → Prop} (weaker : ∀ state, better state → good state)
    {state : σ} {ops : List α} (all : AllStates step better state ops) :
    AllStates step good state ops := by
  induction ops generalizing state with
  | nil => exact weaker state all
  | cons op rest ih => exact ⟨weaker state all.1, ih all.2⟩

/-- When a step that breaks the condition breaks the property, the property holds along a run
exactly when every step meets the condition. -/
theorem allStates_iff_allSteps {ok : σ → α → Prop} {inv good : σ → Prop}
    (keeps : ∀ state op, inv state → ok state op → inv (step state op))
    (enough : ∀ state, inv state → good state)
    (breaks : ∀ state op, inv state → good (step state op) → ok state op)
    {state : σ} (start : inv state) (ops : List α) :
    AllStates step good state ops ↔ AllSteps step ok state ops := by
  constructor
  · intro all
    induction ops generalizing state with
    | nil => trivial
    | cons op rest ih =>
      have next : good (step state op) := by
        cases rest with
        | nil => exact all.2
        | cons op' rest' => exact all.2.1
      have met := breaks state op start next
      exact ⟨met, ih (keeps state op start met) all.2⟩
  · intro all
    exact (all.invariant step keeps start).mono step enough

end Yunetas
