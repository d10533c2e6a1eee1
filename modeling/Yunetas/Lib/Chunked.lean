import Mathlib.Data.List.Basic

/-!
# Streams that arrive in chunks

A machine takes a chunk by actions. Each action handles some of its elements and leaves the others for
the next one. Where the actions over a chunk and over its two parts agree, the machine cannot tell how
a stream was cut. They agree in a machine that gathers elements, a number of them for each state.
-/

namespace Yunetas.Chunked

open List

variable {σ β : Type} (action : σ → List β → σ × List β)

/-- Actions over the elements of a chunk until none is left. -/
def rounds : Nat → σ → List β → σ
  | fuel + 1, state, first :: rest =>
    rounds fuel (action state (first :: rest)).1 (action state (first :: rest)).2
  | _, state, _ => state

/-- A chunk is handled: an action for each of its elements is enough. -/
def drain (state : σ) (chunk : List β) : σ := rounds action chunk.length state chunk

/-- The actions over a chunk and over its parts agree in the states of the invariant: an action ends
inside the first part, or it takes the first part whole and goes on with the second. -/
structure Seamless (inv : σ → Prop) : Prop where
  keeps : ∀ state chunk, inv state → chunk ≠ [] → inv (action state chunk).1
  shrinks : ∀ state chunk, inv state → chunk ≠ [] →
    (action state chunk).2.length < chunk.length
  splits : ∀ state front back, inv state → front ≠ [] → back ≠ [] →
    action state (front ++ back) = ((action state front).1, (action state front).2 ++ back) ∨
      (action state front).2 = [] ∧
        action state (front ++ back) = action (action state front).1 back

variable {action} {inv : σ → Prop}

@[simp] theorem drain_nil (state : σ) : drain action state [] = state := rfl

variable {state : σ}

theorem drain_invariant (inv : σ → Prop)
    (keeps : ∀ state chunk, inv state → inv (action state chunk).1) (holds : inv state)
    (chunk : List β) : inv (drain action state chunk) := by
  suffices every : ∀ fuel state chunk, inv state → inv (rounds action fuel state chunk) from
    every chunk.length state chunk holds
  intro fuel
  induction fuel with
  | zero =>
    intro state chunk holds
    cases chunk <;> exact holds
  | succ fuel ih =>
    intro state chunk holds
    cases chunk with
    | nil => exact holds
    | cons first rest => exact ih _ _ (keeps state (first :: rest) holds)

theorem rounds_enough {inv : σ → Prop}
    (keeps : ∀ state chunk, inv state → chunk ≠ [] → inv (action state chunk).1)
    (shrinks : ∀ state chunk, inv state → chunk ≠ [] → (action state chunk).2.length < chunk.length)
    (fuel : Nat) (state : σ) (chunk : List β) (holds : inv state) (enough : chunk.length ≤ fuel) :
    rounds action fuel state chunk = drain action state chunk := by
  suffices same : ∀ few many state chunk, inv state → chunk.length ≤ few → chunk.length ≤ many →
      rounds action few state chunk = rounds action many state chunk from
    same fuel chunk.length state chunk holds enough (Nat.le_refl _)
  intro few
  induction few with
  | zero =>
    intro many state chunk _ none _
    rw [eq_nil_of_length_eq_zero (Nat.le_zero.1 none)]
    cases many <;> rfl
  | succ few ih =>
    intro many state chunk holds short long
    cases chunk with
    | nil => cases many <;> rfl
    | cons first rest =>
      have some_elements := cons_ne_nil first rest
      have fewer := shrinks state (first :: rest) holds some_elements
      have kept := keeps state (first :: rest) holds some_elements
      cases many with
      | zero => exact absurd long (by rw [length_cons]; omega)
      | succ many =>
        rw [length_cons] at short long fewer
        exact ih many _ _ kept (by omega) (by omega)

theorem drain_action (inv : σ → Prop)
    (keeps : ∀ state chunk, inv state → chunk ≠ [] → inv (action state chunk).1)
    (shrinks : ∀ state chunk, inv state → chunk ≠ [] → (action state chunk).2.length < chunk.length)
    {chunk : List β} (holds : inv state) (some_elements : chunk ≠ []) :
    drain action state chunk = drain action (action state chunk).1 (action state chunk).2 := by
  have fewer := shrinks state chunk holds some_elements
  have kept := keeps state chunk holds some_elements
  cases chunk with
  | nil => exact absurd rfl some_elements
  | cons first rest =>
    rw [length_cons] at fewer
    exact rounds_enough keeps shrinks rest.length _ _ kept (by omega)

section

variable (seamless : Seamless action inv)
include seamless

theorem Seamless.drain_action {chunk : List β} (holds : inv state) (some_elements : chunk ≠ []) :
    drain action state chunk = drain action (action state chunk).1 (action state chunk).2 :=
  Chunked.drain_action inv seamless.keeps seamless.shrinks holds some_elements

theorem Seamless.drain_keeps (count : Nat)
    {chunk : List β} (holds : inv state) (short : chunk.length ≤ count) :
    inv (drain action state chunk) := by
  induction count generalizing state chunk with
  | zero =>
    rw [eq_nil_of_length_eq_zero (Nat.le_zero.1 short)]
    exact holds
  | succ count ih =>
    by_cases empty : chunk = []
    · rw [empty]
      exact holds
    · have fewer := seamless.shrinks state chunk holds empty
      rw [seamless.drain_action holds empty]
      exact ih (seamless.keeps state chunk holds empty) (by omega)

theorem Seamless.drain_append (count : Nat)
    (front back : List β) (holds : inv state) (short : front.length ≤ count) :
    drain action state (front ++ back) = drain action (drain action state front) back := by
  induction count generalizing state front with
  | zero =>
    rw [eq_nil_of_length_eq_zero (Nat.le_zero.1 short)]
    rfl
  | succ count ih =>
    by_cases noFront : front = []
    · rw [noFront]
      rfl
    by_cases noBack : back = []
    · rw [noBack, append_nil]
      rfl
    have kept := seamless.keeps state front holds noFront
    have fewer := seamless.shrinks state front holds noFront
    have both : front ++ back ≠ [] := fun none => noFront (append_eq_nil_iff.1 none).1
    rw [seamless.drain_action holds both, seamless.drain_action holds noFront]
    rcases seamless.splits state front back holds noFront noBack with inside | ⟨taken, goesOn⟩
    · rw [inside]
      exact ih (action state front).2 kept (by omega)
    · rw [goesOn, taken, drain_nil, ← seamless.drain_action kept noBack]

theorem Seamless.foldl_drain (chunks : List (List β)) (holds : inv state) :
    chunks.foldl (drain action) state = drain action state chunks.flatten := by
  induction chunks generalizing state with
  | nil => rfl
  | cons chunk rest ih =>
    have kept := seamless.drain_keeps chunk.length holds (Nat.le_refl _)
    rw [foldl_cons, ih kept, flatten_cons,
      seamless.drain_append chunk.length chunk rest.flatten holds (Nat.le_refl _)]

end

/-! ## Machines that gather -/

/-- What a machine does with the elements it gathered: the next state, and whether it goes on with the
rest of the chunk. -/
abbrev Completion (σ β : Type) := List β → σ × Bool

/-- The next state, and the rest of the chunk for it. -/
def goOn (after : σ × Bool) (rest : List β) : σ × List β := (after.1, if after.2 then rest else [])

/-- No action does anything with a chunk. -/
def Idle (action : σ → List β → σ × List β) (state : σ) : Prop :=
  ∀ chunk, action state chunk = (state, [])

/-- In the states of `gathers` some elements are there, of as many as are gathered. -/
structure Gathering (action : σ → List β → σ × List β)
    (gathers : σ → Nat → List β → Completion σ β → Prop) : Prop where
  less : ∀ state size seen complete, gathers state size seen complete → seen.length < size
  part : ∀ state size seen complete chunk, gathers state size seen complete → chunk ≠ [] →
    seen.length + chunk.length < size →
      (action state chunk).2 = [] ∧ gathers (action state chunk).1 size (seen ++ chunk) complete
  joins : ∀ state size seen complete front back, gathers state size seen complete →
    front ≠ [] → back ≠ [] → seen.length + (front ++ back).length < size →
      (action state (front ++ back)).1 = (action (action state front).1 back).1
  whole : ∀ state size seen complete chunk, gathers state size seen complete →
    size ≤ seen.length + chunk.length →
      action state chunk = goOn (complete (seen ++ chunk.take (size - seen.length)))
        (chunk.drop (size - seen.length))
  goesOn : ∀ state size seen complete data, gathers state size seen complete →
    data.length = size → (complete data).2 = true →
      ∃ next seen after, gathers (complete data).1 next seen after
  stops : ∀ state size seen complete data, gathers state size seen complete →
    (complete data).2 = false → Idle action (complete data).1

/-- The states of a machine that gathers, and those behind the end of the stream. -/
def Waits (action : σ → List β → σ × List β)
    (gathers : σ → Nat → List β → Completion σ β → Prop) (state : σ) : Prop :=
  Idle action state ∨ ∃ size seen complete, gathers state size seen complete

theorem split_missing {size : Nat} {seen front back : List β}
    (short : seen.length + front.length < size) :
    seen ++ (front ++ back).take (size - seen.length) =
        (seen ++ front) ++ back.take (size - (seen ++ front).length) ∧
      (front ++ back).drop (size - seen.length) = back.drop (size - (seen ++ front).length) := by
  have more : size - seen.length = front.length + (size - (seen ++ front).length) := by
    rw [length_append]
    omega
  rw [more, take_length_add_append, drop_length_add_append, append_assoc]
  exact ⟨rfl, rfl⟩

variable {gathers : σ → Nat → List β → Completion σ β → Prop}

section

variable (gathering : Gathering action gathers)
include gathering

theorem Gathering.keeps (state : σ) (chunk : List β)
    (waits : Waits action gathers state) (some_elements : chunk ≠ []) :
    Waits action gathers (action state chunk).1 := by
  rcases waits with idle | ⟨size, seen, complete, held⟩
  · rw [idle chunk]
    exact .inl idle
  · have less := gathering.less state size seen complete held
    by_cases short : seen.length + chunk.length < size
    · exact .inr ⟨size, _, complete,
        (gathering.part state size seen complete chunk held some_elements short).2⟩
    · have taken : (seen ++ chunk.take (size - seen.length)).length = size := by
        rw [length_append, length_take]
        omega
      rw [gathering.whole state size seen complete chunk held (by omega)]
      cases goes : (complete (seen ++ chunk.take (size - seen.length))).2 with
      | true => exact .inr (gathering.goesOn state size seen complete _ held taken goes)
      | false => exact .inl (gathering.stops state size seen complete _ held goes)

theorem Gathering.shrinks (state : σ) (chunk : List β)
    (waits : Waits action gathers state) (some_elements : chunk ≠ []) :
    (action state chunk).2.length < chunk.length := by
  have positive := length_pos_of_ne_nil some_elements
  rcases waits with idle | ⟨size, seen, complete, held⟩
  · rw [idle chunk]
    exact positive
  · have less := gathering.less state size seen complete held
    by_cases short : seen.length + chunk.length < size
    · rw [(gathering.part state size seen complete chunk held some_elements short).1]
      exact positive
    · rw [gathering.whole state size seen complete chunk held (by omega)]
      unfold goOn
      split
      · rw [length_drop]
        omega
      · exact positive

theorem Gathering.splits (state : σ) (front back : List β)
    (waits : Waits action gathers state) (noFront : front ≠ []) (noBack : back ≠ []) :
    action state (front ++ back) = ((action state front).1, (action state front).2 ++ back) ∨
      (action state front).2 = [] ∧
        action state (front ++ back) = action (action state front).1 back := by
  rcases waits with idle | ⟨size, seen, complete, held⟩
  · rw [idle front, idle (front ++ back)]
    exact .inr ⟨rfl, (idle back).symm⟩
  have length := @length_append β front back
  by_cases short : seen.length + front.length < size
  · have part := gathering.part state size seen complete front held noFront short
    have both : front ++ back ≠ [] := fun none => noFront (append_eq_nil_iff.1 none).1
    refine .inr ⟨part.1, ?_⟩
    by_cases few : (seen ++ front).length + back.length < size
    · have few' : seen.length + (front ++ back).length < size := by
        rw [length_append] at few
        omega
      have all := gathering.part state size seen complete (front ++ back) held both few'
      have last := gathering.part _ size _ complete back part.2 noBack few
      exact Prod.ext (gathering.joins state size seen complete front back held noFront noBack few')
        (all.1.trans last.1.symm)
    · have enough : size ≤ seen.length + (front ++ back).length := by
        rw [length_append] at few
        omega
      have missing := @split_missing β size seen front back short
      rw [gathering.whole state size seen complete (front ++ back) held enough,
        gathering.whole _ size _ complete back part.2 (by omega), missing.1, missing.2]
  · have front' := gathering.whole state size seen complete front held (by omega)
    have both := gathering.whole state size seen complete (front ++ back) held (by omega)
    have few : size - seen.length ≤ front.length := by omega
    rw [take_append_of_le_length few, drop_append_of_le_length few] at both
    rw [both, front']
    unfold goOn
    cases goes : (complete (seen ++ front.take (size - seen.length))).2 with
    | true => exact .inl rfl
    | false =>
      have idle := gathering.stops state size seen complete _ held goes
      exact .inr ⟨rfl, (idle back).symm⟩

theorem Gathering.seamless : Seamless action (Waits action gathers) :=
  ⟨gathering.keeps, gathering.shrinks, gathering.splits⟩

end

theorem Idle.drain (idle : Idle action state) (chunk : List β) :
    Chunked.drain action state chunk = state := by
  cases chunk with
  | nil => rfl
  | cons first rest =>
    show rounds action rest.length _ _ = state
    rw [idle (first :: rest)]
    cases rest <;> rfl

theorem Gathering.drain_gathered (gathering : Gathering action gathers) {size : Nat}
    {complete : Completion σ β} (held : gathers state size [] complete) {data : List β}
    (length : data.length = size) (rest : List β) :
    drain action state (data ++ rest) =
      drain action (complete data).1 (if (complete data).2 then rest else []) := by
  have positive := gathering.less state size [] complete held
  have some_elements : data ++ rest ≠ [] := by
    apply ne_nil_of_length_pos
    rw [length_append, length]
    exact Nat.lt_of_lt_of_le positive (Nat.le_add_right size rest.length)
  have whole := gathering.whole state size [] complete (data ++ rest) held
    (by rw [length_append, length]; omega)
  rw [nil_append, length_nil, Nat.sub_zero, take_left' length, drop_left' length] at whole
  rw [gathering.seamless.drain_action (.inr ⟨size, [], complete, held⟩) some_elements, whole]
  rfl

end Yunetas.Chunked
