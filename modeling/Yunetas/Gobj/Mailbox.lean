import Mathlib.Data.List.Nodup
import Yunetas.Gobj.PostedEvents

/-!
# Posted events and their fates

What becomes of a posted event, read off what happened: it waits, as long as no later cycle is over; it
is dropped, because its destination is destroyed; or it is delivered, in the first cycle that begins later.
A mailbox is the queue with what happened. It stays in order when an event is posted, when a gobj is
destroyed, and when a cycle begins, delivers or ends.
-/

namespace Yunetas.Gobj

open List Function Bool

section

variable {γ κ : Type}

/-! ## What happens -/

/-- A cycle begins here. -/
def Happening.begins : Happening γ κ → Bool
  | .begun => true
  | _ => false

/-- The events that were posted. -/
def posts (log : List (Happening γ κ)) : List (PostedEvent γ κ) :=
  log.filterMap fun happening =>
    match happening with
    | .posted msg => some msg
    | _ => none

/-- The events that were delivered. -/
def deliveries (log : List (Happening γ κ)) : List (PostedEvent γ κ) :=
  log.filterMap fun happening =>
    match happening with
    | .delivered msg => some msg
    | _ => none

/-- A cycle that began here is over. -/
def Over (log : List (Happening γ κ)) : Prop :=
  ∃ front back, log = front ++ .ended :: back ∧ .begun ∈ front

/-- An event is not delivered here, and its destination is not destroyed. -/
structure Quiet (msg : PostedEvent γ κ) (log : List (Happening γ κ)) : Prop where
  undelivered : ∀ other ∈ deliveries log, other.id ≠ msg.id
  living : .destroyed msg.dst ∉ log

section Concat

variable {log before after : List (Happening γ κ)} {happening : Happening γ κ}
  {msg : PostedEvent γ κ}

theorem split_concat {x : Happening γ κ} (split : log ++ [happening] = before ++ x :: after) :
    (after = [] ∧ x = happening ∧ before = log) ∨
      ∃ between, after = between ++ [happening] ∧ log = before ++ x :: between := by
  rcases eq_nil_or_concat after with rfl | ⟨between, last, rfl⟩
  · have ⟨same, here⟩ := append_inj' split rfl
    exact .inl ⟨rfl, (cons.inj here).1.symm, same.symm⟩
  · rw [concat_eq_append, ← cons_append, ← append_assoc] at split
    have ⟨same, here⟩ := append_inj' split rfl
    exact .inr ⟨between, by rw [concat_eq_append, (cons.inj here).1], same⟩

theorem posts_concat : posts (log ++ [happening]) = posts log ++ posts [happening] :=
  filterMap_append

theorem deliveries_concat :
    deliveries (log ++ [happening]) = deliveries log ++ deliveries [happening] :=
  filterMap_append

theorem mem_posts : msg ∈ posts log ↔ .posted msg ∈ log := by
  unfold posts
  rw [mem_filterMap]
  constructor
  · intro ⟨happening, among, here⟩
    cases happening with
    | posted other => exact Option.some.inj here ▸ among
    | _ => cases here
  · intro among
    exact ⟨_, among, rfl⟩

theorem Over.of_concat (passed : Over (log ++ [happening])) :
    Over log ∨ happening = .ended ∧ .begun ∈ log := by
  have ⟨front, back, split, begun⟩ := passed
  rcases split_concat split with ⟨-, same, rfl⟩ | ⟨between, -, split⟩
  · exact .inr ⟨same.symm, begun⟩
  · exact .inl ⟨front, between, split, begun⟩

theorem Quiet.concat (quiet : Quiet msg after)
    (other : ∀ delivered ∈ deliveries [happening], delivered.id ≠ msg.id)
    (living : happening ≠ .destroyed msg.dst) : Quiet msg (after ++ [happening]) where
  undelivered := by
    rw [deliveries_concat]
    intro delivered among
    rcases mem_append.1 among with among | here
    · exact quiet.undelivered delivered among
    · exact other delivered here
  living := by
    intro among
    rcases mem_append.1 among with among | here
    · exact quiet.living among
    · exact living (mem_singleton.1 here).symm

end Concat

/-! ## Fates -/

variable [DecidableEq γ]

/-- A gobj is destroyed here. -/
def Happening.destroys (gobj : γ) : Happening γ κ → Bool
  | .destroyed other => decide (other = gobj)
  | _ => false

/-- The `src` of an event at its delivery: none if it was destroyed. -/
def srcAfter (log : List (Happening γ κ)) (src : Option γ) : Option γ :=
  src.filter fun gobj => !log.any (Happening.destroys gobj)

/-- An event met its fate, behind what happened before it was posted. -/
inductive Settled (before : List (Happening γ κ)) (msg : PostedEvent γ κ) :
    List (Happening γ κ) → Prop
  | dropped (between after : List (Happening γ κ)) (quiet : Quiet msg between) (soon : ¬Over between)
    (never : ∀ other ∈ deliveries after, other.id ≠ msg.id) :
    Settled before msg (between ++ .destroyed msg.dst :: after)
  /-- It is delivered once, in the first cycle that begins later, and with its `src` if that is living. -/
  | delivered (between after : List (Happening γ κ)) (quiet : Quiet msg between)
    (soon : ¬Over between) (first : between.countP Happening.begins = 1)
    (once : ∀ other ∈ deliveries after, other.id ≠ msg.id) :
    Settled before msg
      (between ++ .delivered { msg with src := srcAfter (before ++ between) msg.src } :: after)

/-- What becomes of an event: it waits, and no cycle that began later is over, or it met its fate. -/
def Fate (before : List (Happening γ κ)) (msg : PostedEvent γ κ) (after : List (Happening γ κ)) : Prop :=
  (Quiet msg after ∧ ¬Over after) ∨ Settled before msg after

/-- Events are delivered in the order of posting, and each meets its fate. -/
structure Orderly (log : List (Happening γ κ)) : Prop where
  posted : (posts log).Pairwise (·.id < ·.id)
  ordered : (deliveries log).Pairwise (·.id < ·.id)
  known : ∀ other ∈ deliveries log, ∃ msg ∈ posts log, msg.id = other.id
  fates : ∀ before msg after, log = before ++ .posted msg :: after → Fate before msg after

/-! ## Mailboxes -/

/-- The queue, and what it depends on. -/
structure Mailbox (γ κ : Type) where
  destroying : γ → Bool
  queue : List (PostedEvent γ κ)
  lastId : Nat
  snapshot : Option Nat
  log : List (Happening γ κ)

/-! ## The invariant -/

/-- The event is among those of the cycle that is not over. -/
def Mailbox.covers (box : Mailbox γ κ) (id : Nat) : Bool := box.snapshot.any (id ≤ ·)

/-- An event waits. -/
structure Pending (box : Mailbox γ κ) (msg : PostedEvent γ κ) (after : List (Happening γ κ)) :
    Prop where
  quiet : Quiet msg after
  soon : ¬Over after
  /-- It is in the queue, without a `src` that was destroyed. -/
  queued : { msg with src := srcAfter box.log msg.src } ∈ box.queue
  first : after.countP Happening.begins = if box.covers msg.id then 1 else 0

/-- The ids of the events in the queue, of those that were posted and of those that were delivered. -/
structure Numbered (queued : List Nat) (lastId : Nat) (posted delivered : List Nat) : Prop where
  queue : queued.Pairwise (· < ·)
  posts : posted.Pairwise (· < ·)
  deliveries : delivered.Pairwise (· < ·)
  behind : ∀ id ∈ delivered, ∀ other ∈ queued, id < other
  source : ∀ id ∈ queued, id ∈ posted
  known : ∀ id ∈ delivered, id ∈ posted
  given : ∀ id ∈ posted, id ≤ lastId

/-- What holds of a mailbox. -/
structure Tidy (box : Mailbox γ κ) : Prop where
  numbered : Numbered (box.queue.map (·.id)) box.lastId ((posts box.log).map (·.id))
    ((deliveries box.log).map (·.id))
  living : ∀ msg ∈ box.queue, box.destroying msg.dst = false
  cycle : ∀ lastId ∈ box.snapshot, lastId ≤ box.lastId
  flagged : ∀ gobj, box.destroying gobj = true ↔ .destroyed gobj ∈ box.log
  fates : ∀ before msg after, box.log = before ++ .posted msg :: after →
    Pending box msg after ∨
      Settled before msg after ∧ ∀ other ∈ box.queue, other.id ≠ msg.id

theorem Tidy.orderly {box : Mailbox γ κ} (tidy : Tidy box) : Orderly box.log where
  posted := pairwise_map.1 tidy.numbered.posts
  ordered := pairwise_map.1 tidy.numbered.deliveries
  known := by
    intro other among
    exact mem_map.1 (tidy.numbered.known other.id (mem_map_of_mem among))
  fates := by
    intro before msg after split
    rcases tidy.fates before msg after split with pending | ⟨settled, -⟩
    · exact .inl ⟨pending.quiet, pending.soon⟩
    · exact .inr settled

/-! ## One more thing that happens -/

section Concat

variable {log before after : List (Happening γ κ)} {happening : Happening γ κ}
  {msg : PostedEvent γ κ}

theorem Settled.concat (settled : Settled before msg after)
    (other : ∀ delivered ∈ deliveries [happening], delivered.id ≠ msg.id) :
    Settled before msg (after ++ [happening]) := by
  cases settled with
  | dropped between after quiet soon never =>
    rw [append_assoc, cons_append]
    refine .dropped between _ quiet soon fun delivered among => ?_
    rw [deliveries_concat] at among
    rcases mem_append.1 among with among | here
    · exact never delivered among
    · exact other delivered here
  | delivered between after quiet soon first once =>
    rw [append_assoc, cons_append]
    refine .delivered between _ quiet soon first fun delivered among => ?_
    rw [deliveries_concat] at among
    rcases mem_append.1 among with among | here
    · exact once delivered among
    · exact other delivered here

theorem any_destroys {gobj : γ} :
    log.any (Happening.destroys gobj) = true ↔ .destroyed gobj ∈ log := by
  rw [List.any_eq_true]
  constructor
  · intro ⟨happening, among, here⟩
    cases happening with
    | destroyed other => exact of_decide_eq_true here ▸ among
    | _ => cases here
  · intro among
    exact ⟨_, among, decide_eq_true rfl⟩

theorem srcAfter_concat (other : ∀ gobj, happening ≠ .destroyed gobj) (src : Option γ) :
    srcAfter (log ++ [happening]) src = srcAfter log src := by
  have none_here : ∀ gobj, happening.destroys gobj = false := by
    intro gobj
    cases happening with
    | destroyed this => exact absurd rfl (other this)
    | _ => rfl
  unfold srcAfter
  congr 1
  funext gobj
  rw [any_append, any_cons, any_nil, none_here, Bool.or_false, Bool.or_false]

theorem srcAfter_destroyed (gobj : γ) (src : Option γ) :
    srcAfter (log ++ [.destroyed gobj]) src =
      if srcAfter log src = some gobj then none else srcAfter log src := by
  unfold srcAfter
  cases src with
  | none => rfl
  | some other =>
    rw [Option.filter_some, Option.filter_some, any_append, any_cons, any_nil,
      Bool.or_false, Happening.destroys]
    cases gone : log.any (Happening.destroys other) with
    | true => rfl
    | false =>
      by_cases same : gobj = other
      · simp [same]
      · simp [same, Ne.symm same]

theorem srcAfter_living {src : Option γ} (living : ∀ gobj ∈ src, .destroyed gobj ∉ log) :
    srcAfter log src = src := by
  cases src with
  | none => rfl
  | some gobj =>
    have kept := living gobj rfl
    rw [← any_destroys] at kept
    unfold srcAfter
    rw [Option.filter_some, eq_false_iff.2 kept]
    rfl

end Concat

/-! ## Queues -/

omit [DecidableEq γ] in
theorem eq_of_id {queue : List (PostedEvent γ κ)} (ordered : (queue.map (·.id)).Pairwise (· < ·))
    {msg other : PostedEvent γ κ} (among : msg ∈ queue) (otherAmong : other ∈ queue)
    (same : msg.id = other.id) : msg = other :=
  inj_on_of_nodup_map (ordered.imp Nat.ne_of_lt) among otherAmong same

/-- An event after a gobj was destroyed. -/
def withoutSrc (gobj : γ) (msg : PostedEvent γ κ) : PostedEvent γ κ :=
  if msg.src = some gobj then { msg with src := none } else msg

@[simp] theorem withoutSrc_id (gobj : γ) (msg : PostedEvent γ κ) : (withoutSrc gobj msg).id = msg.id := by
  unfold withoutSrc
  split <;> rfl

@[simp] theorem withoutSrc_dst (gobj : γ) (msg : PostedEvent γ κ) :
    (withoutSrc gobj msg).dst = msg.dst := by
  unfold withoutSrc
  split <;> rfl

theorem purgePostedEvents_eq (queue : List (PostedEvent γ κ)) (gobj : γ) :
    purgePostedEvents queue gobj = (queue.map (withoutSrc gobj)).filter (·.dst ≠ gobj) := rfl

theorem mem_purgePostedEvents {queue : List (PostedEvent γ κ)} {gobj : γ} {msg : PostedEvent γ κ} :
    msg ∈ purgePostedEvents queue gobj ↔
      ∃ other ∈ queue, other.dst ≠ gobj ∧ withoutSrc gobj other = msg := by
  rw [purgePostedEvents_eq, mem_filter, mem_map]
  constructor
  · intro ⟨⟨other, among, here⟩, kept⟩
    have dst : msg.dst ≠ gobj := by simpa using kept
    rw [← here, withoutSrc_dst] at dst
    exact ⟨other, among, dst, here⟩
  · intro ⟨other, among, kept, here⟩
    refine ⟨⟨other, among, here⟩, ?_⟩
    rw [← here]
    simpa using kept

theorem purgePostedEvents_ids (queue : List (PostedEvent γ κ)) (gobj : γ) :
    ((purgePostedEvents queue gobj).map (·.id)).Sublist (queue.map (·.id)) := by
  have same : (queue.map (withoutSrc gobj)).map (·.id) = queue.map (·.id) := by
    rw [map_map]
    exact map_congr_left fun msg _ => withoutSrc_id gobj msg
  rw [purgePostedEvents_eq, ← same]
  exact filter_sublist.map _

/-! ## Numbers -/

section Numbers

variable {queued posted delivered : List Nat} {lastId : Nat}

theorem Numbered.post (numbered : Numbered queued lastId posted delivered) :
    Numbered (queued ++ [lastId + 1]) (lastId + 1) (posted ++ [lastId + 1]) delivered where
  queue := by
    rw [pairwise_append]
    refine ⟨numbered.queue, pairwise_singleton _ _, fun id among other here => ?_⟩
    rw [mem_singleton.1 here]
    exact Nat.lt_succ_of_le (numbered.given id (numbered.source id among))
  posts := by
    rw [pairwise_append]
    refine ⟨numbered.posts, pairwise_singleton _ _, fun id among other here => ?_⟩
    rw [mem_singleton.1 here]
    exact Nat.lt_succ_of_le (numbered.given id among)
  deliveries := numbered.deliveries
  behind := by
    intro id among other here
    rcases mem_append.1 here with here | here
    · exact numbered.behind id among other here
    · rw [mem_singleton.1 here]
      exact Nat.lt_succ_of_le (numbered.given id (numbered.known id among))
  source := by
    intro id among
    rcases mem_append.1 among with among | here
    · exact mem_append_left _ (numbered.source id among)
    · exact mem_append_right _ here
  known := fun id among => mem_append_left _ (numbered.known id among)
  given := by
    intro id among
    rcases mem_append.1 among with among | here
    · exact Nat.le_succ_of_le (numbered.given id among)
    · exact Nat.le_of_eq (mem_singleton.1 here)

theorem Numbered.sublist (numbered : Numbered queued lastId posted delivered) {left : List Nat}
    (sub : left.Sublist queued) : Numbered left lastId posted delivered where
  queue := numbered.queue.sublist sub
  posts := numbered.posts
  deliveries := numbered.deliveries
  behind := fun id among other here => numbered.behind id among other (sub.subset here)
  source := fun id among => numbered.source id (sub.subset among)
  known := numbered.known
  given := numbered.given

theorem Numbered.deliver {id : Nat} (numbered : Numbered (id :: queued) lastId posted delivered) :
    Numbered queued lastId posted (delivered ++ [id]) where
  queue := (pairwise_cons.1 numbered.queue).2
  posts := numbered.posts
  deliveries := by
    rw [pairwise_append]
    refine ⟨numbered.deliveries, pairwise_singleton _ _, fun other among last here => ?_⟩
    rw [mem_singleton.1 here]
    exact numbered.behind other among id mem_cons_self
  behind := by
    intro other among last here
    rcases mem_append.1 among with among | first
    · exact numbered.behind other among last (mem_cons_of_mem id here)
    · rw [mem_singleton.1 first]
      exact (pairwise_cons.1 numbered.queue).1 last here
  source := fun other among => numbered.source other (mem_cons_of_mem id among)
  known := by
    intro other among
    rcases mem_append.1 among with among | here
    · exact numbered.known other among
    · rw [mem_singleton.1 here]
      exact numbered.source id mem_cons_self
  given := numbered.given

end Numbers

/-! ## Changes -/

section Changes

variable {box : Mailbox γ κ}

variable {msg : PostedEvent γ κ}

section

variable (tidy : Tidy box)
include tidy

theorem Tidy.given {before after : List (Happening γ κ)}
    (split : box.log = before ++ .posted msg :: after) : msg.id ≤ box.lastId := by
  have known : msg ∈ posts box.log := by
    rw [mem_posts, split]
    exact mem_append_right _ mem_cons_self
  exact tidy.numbered.given msg.id (mem_map_of_mem known)

theorem Tidy.queued (among : msg ∈ box.queue) : msg.id ≤ box.lastId :=
  tidy.numbered.given _ (tidy.numbered.source _ (mem_map_of_mem among))

theorem Tidy.post (next : msg.id = box.lastId + 1)
    (dst : box.destroying msg.dst = false) (src : ∀ gobj ∈ msg.src, box.destroying gobj = false) :
    Tidy { box with
      queue := box.queue ++ [msg], lastId := box.lastId + 1, log := box.log ++ [.posted msg] } where
  numbered := by
    rw [posts_concat, deliveries_concat, map_append, map_append, map_append]
    have numbered := tidy.numbered.post
    rw [← next] at numbered
    simpa [posts, deliveries, next] using numbered
  living := by
    intro other among
    rcases mem_append.1 among with among | here
    · exact tidy.living other among
    · rw [mem_singleton.1 here]
      exact dst
  cycle := fun lastId here => Nat.le_succ_of_le (tidy.cycle lastId here)
  flagged := by
    intro gobj
    have old := tidy.flagged gobj
    simpa using old
  fates := by
    intro before other after split
    rcases split_concat split with ⟨rfl, same, rfl⟩ | ⟨between, rfl, older⟩
    · obtain rfl := Happening.posted.inj same
      have source : srcAfter (box.log ++ [.posted other]) other.src = other.src := by
        rw [srcAfter_concat nofun]
        refine srcAfter_living fun gobj here => ?_
        rw [← tidy.flagged, src gobj here]
        exact false_ne_true
      have early : box.covers other.id = false := by
        unfold Mailbox.covers
        cases snapshot : box.snapshot with
        | none => rfl
        | some lastId =>
          have old := tidy.cycle lastId snapshot
          exact decide_eq_false (by omega)
      refine .inl ⟨⟨nofun, nofun⟩, fun ⟨front, back, empty, _⟩ => ?_, ?_, ?_⟩
      · exact append_ne_nil_of_right_ne_nil front (cons_ne_nil .ended back) empty.symm
      · rw [source]
        exact mem_append_right _ mem_cons_self
      · show 0 = if box.covers other.id then 1 else 0
        rw [early]
        rfl
    · rcases tidy.fates before other between older with pending | ⟨settled, gone⟩
      · refine .inl ⟨pending.quiet.concat nofun nofun, fun passed => ?_, ?_, ?_⟩
        · rcases passed.of_concat with passed | ⟨same, -⟩
          · exact pending.soon passed
          · cases same
        · rw [srcAfter_concat nofun]
          exact mem_append_left _ pending.queued
        · rw [countP_append]
          exact pending.first
      · refine .inr ⟨settled.concat nofun, fun last here => ?_⟩
        rcases mem_append.1 here with here | here
        · exact gone last here
        · have given := tidy.given older
          rw [mem_singleton.1 here, next]
          omega

theorem Tidy.destroy (gobj : γ) :
    Tidy { box with
      destroying := Function.update box.destroying gobj true
      queue := purgePostedEvents box.queue gobj
      log := box.log ++ [.destroyed gobj] } where
  numbered := by
    have numbered := tidy.numbered.sublist (purgePostedEvents_ids box.queue gobj)
    rw [posts_concat, deliveries_concat]
    simpa [posts, deliveries] using numbered
  living := by
    intro msg among
    obtain ⟨other, known, kept, rfl⟩ := mem_purgePostedEvents.1 among
    have living := tidy.living other known
    dsimp only
    rw [withoutSrc_dst, update_of_ne kept]
    exact living
  cycle := tidy.cycle
  flagged := by
    intro other
    have old := tidy.flagged other
    dsimp only
    rw [mem_append, ← old, mem_singleton]
    by_cases same : other = gobj
    · rw [same, update_self]
      exact ⟨fun _ => .inr rfl, fun _ => rfl⟩
    · rw [update_of_ne same]
      exact ⟨.inl, fun either => either.resolve_right fun here => same (Happening.destroyed.inj here)⟩
  fates := by
    intro before msg after split
    rcases split_concat split with ⟨rfl, same, rfl⟩ | ⟨between, rfl, older⟩
    · cases same
    rcases tidy.fates before msg between older with pending | ⟨settled, gone⟩
    · by_cases dst : msg.dst = gobj
      · rw [← dst]
        refine .inr ⟨.dropped between [] pending.quiet pending.soon nofun, fun last here same => ?_⟩
        obtain ⟨other, known, kept, rfl⟩ := mem_purgePostedEvents.1 here
        rw [withoutSrc_id] at same
        have only := eq_of_id tidy.numbered.queue known pending.queued same
        exact kept (by rw [only])
      · refine .inl ⟨pending.quiet.concat nofun fun same => dst (Happening.destroyed.inj same).symm,
          fun passed => ?_, ?_, ?_⟩
        · rcases passed.of_concat with passed | ⟨same, -⟩
          · exact pending.soon passed
          · cases same
        · rw [srcAfter_destroyed]
          refine mem_purgePostedEvents.2 ⟨_, pending.queued, dst, ?_⟩
          unfold withoutSrc
          split <;> rfl
        · rw [countP_append]
          exact pending.first
    · refine .inr ⟨settled.concat nofun, fun last here => ?_⟩
      obtain ⟨other, known, kept, rfl⟩ := mem_purgePostedEvents.1 here
      rw [withoutSrc_id]
      exact gone other known

theorem Tidy.begin {lastId : Nat} (idle : box.snapshot = none)
    (given : lastId ≤ box.lastId) (all : ∀ msg ∈ box.queue, msg.id ≤ lastId) :
    Tidy { box with snapshot := some lastId, log := box.log ++ [.begun] } where
  numbered := by
    rw [posts_concat, deliveries_concat]
    simpa [posts, deliveries] using tidy.numbered
  living := tidy.living
  cycle := by
    intro other here
    rw [← Option.some.inj here]
    exact given
  flagged := by
    intro gobj
    have old := tidy.flagged gobj
    simpa using old
  fates := by
    intro before msg after split
    rcases split_concat split with ⟨rfl, same, rfl⟩ | ⟨between, rfl, older⟩
    · cases same
    rcases tidy.fates before msg between older with pending | ⟨settled, gone⟩
    · refine .inl ⟨pending.quiet.concat nofun nofun, fun passed => ?_, ?_, ?_⟩
      · rcases passed.of_concat with passed | ⟨same, -⟩
        · exact pending.soon passed
        · cases same
      · rw [srcAfter_concat nofun]
        exact pending.queued
      · have before : box.covers msg.id = false := by
          unfold Mailbox.covers
          rw [idle]
          rfl
        have now := all _ pending.queued
        have first := pending.first
        rw [before] at first
        rw [countP_append, first]
        show 0 + 1 = if decide (msg.id ≤ lastId) = true then 1 else 0
        rw [if_pos (decide_eq_true now)]
    · exact .inr ⟨settled.concat nofun, gone⟩

theorem Tidy.deliver {lastId : Nat}
    {rest : List (PostedEvent γ κ)} (cycle : box.snapshot = some lastId)
    (first : box.queue = msg :: rest) (due : msg.id ≤ lastId) :
    Tidy { box with queue := rest, log := box.log ++ [.delivered msg] } where
  numbered := by
    have numbered := tidy.numbered
    rw [first, map_cons] at numbered
    rw [posts_concat, deliveries_concat, map_append, map_append]
    simpa [posts, deliveries] using numbered.deliver
  living := by
    intro other among
    exact tidy.living other (by rw [first]; exact mem_cons_of_mem msg among)
  cycle := tidy.cycle
  flagged := by
    intro gobj
    have old := tidy.flagged gobj
    simpa using old
  fates := by
    intro before other after split
    have here : msg ∈ box.queue := by
      rw [first]
      exact mem_cons_self
    rcases split_concat split with ⟨rfl, same, rfl⟩ | ⟨between, rfl, older⟩
    · cases same
    rcases tidy.fates before other between older with pending | ⟨settled, gone⟩
    · by_cases same : msg.id = other.id
      · have only := eq_of_id tidy.numbered.queue here pending.queued same
        have source : srcAfter box.log other.src = srcAfter (before ++ between) other.src := by
          rw [older]
          unfold srcAfter
          congr 1
          funext gobj
          rw [any_append, any_append, any_cons]
          rfl
        have covers : box.covers other.id = true := by
          unfold Mailbox.covers
          rw [cycle]
          exact decide_eq_true (by rw [← same]; exact due)
        have one := pending.first
        rw [covers] at one
        rw [only, source]
        refine .inr ⟨.delivered between [] pending.quiet pending.soon one nofun, ?_⟩
        intro last among
        have numbered := tidy.numbered.queue
        rw [first, map_cons, pairwise_cons] at numbered
        have less := numbered.1 last.id (mem_map_of_mem among)
        omega
      · refine .inl ⟨pending.quiet.concat ?_ nofun, fun passed => ?_, ?_, ?_⟩
        · intro last among
          rw [mem_singleton.1 among]
          exact same
        · rcases passed.of_concat with passed | ⟨same, -⟩
          · exact pending.soon passed
          · cases same
        · have queued := pending.queued
          rw [first] at queued
          rw [srcAfter_concat nofun]
          rcases mem_cons.1 queued with here | among
          · exact absurd (congrArg PostedEvent.id here).symm same
          · exact among
        · rw [countP_append]
          exact pending.first
    · refine .inr ⟨settled.concat fun last among => ?_, fun last among => ?_⟩
      · rw [mem_singleton.1 among]
        exact gone msg here
      · exact gone last (by rw [first]; exact mem_cons_of_mem msg among)

theorem Tidy.finish {lastId : Nat} (cycle : box.snapshot = some lastId)
    (none_due : ∀ msg ∈ box.queue.head?, lastId < msg.id) :
    Tidy { box with snapshot := none, log := box.log ++ [.ended] } where
  numbered := by
    rw [posts_concat, deliveries_concat]
    simpa [posts, deliveries] using tidy.numbered
  living := tidy.living
  cycle := nofun
  flagged := by
    intro gobj
    have old := tidy.flagged gobj
    simpa using old
  fates := by
    have later : ∀ msg ∈ box.queue, lastId < msg.id := by
      intro msg among
      have numbered := tidy.numbered.queue
      cases queue : box.queue with
      | nil =>
        rw [queue] at among
        cases among
      | cons first rest =>
        have head := none_due first (by rw [queue]; rfl)
        rw [queue] at among numbered
        rw [map_cons, pairwise_cons] at numbered
        rcases mem_cons.1 among with rfl | among
        · exact head
        · exact Nat.lt_trans head (numbered.1 msg.id (mem_map_of_mem among))
    intro before msg after split
    rcases split_concat split with ⟨rfl, same, rfl⟩ | ⟨between, rfl, older⟩
    · cases same
    rcases tidy.fates before msg between older with pending | ⟨settled, gone⟩
    · have after := later _ pending.queued
      have uncovered : box.covers msg.id = false := by
        unfold Mailbox.covers
        rw [cycle]
        exact decide_eq_false (Nat.not_le_of_lt after)
      have first := pending.first
      rw [uncovered] at first
      refine .inl ⟨pending.quiet.concat nofun nofun, fun passed => ?_, ?_, ?_⟩
      · rcases passed.of_concat with passed | ⟨-, begun⟩
        · exact pending.soon passed
        · exact absurd rfl (countP_eq_zero.1 first _ begun)
      · rw [srcAfter_concat nofun]
        exact pending.queued
      · rw [countP_append]
        exact first
    · exact .inr ⟨settled.concat nofun, gone⟩

end

end Changes

end

end Yunetas.Gobj
