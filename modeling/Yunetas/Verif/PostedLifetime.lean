import Yunetas.Gobj.Mailbox
import Yunetas.Lib.Run

/-!
# The lifetime of posted events

Posted events are delivered once, in order and in the next cycle, to the destinations that are living, as
long as no event is posted with a `src` that is already taken out of the queue: `gobj_destroy` does that
before it calls the methods of the parent, of the children and of the gobj itself.
-/

namespace Yunetas.Gobj

open List Function Bool Option

variable {γ κ : Type} [DecidableEq γ]

/-- The last id of the cycle that is not over. -/
def snapshotOf : List (Frame γ) → Option Nat
  | [] => none
  | .delivering lastId :: _ => some lastId
  | _ :: rest => snapshotOf rest

/-- The mailbox of a yuno. -/
def Gobjs.mailbox (gobjs : Gobjs γ κ) : Mailbox γ κ where
  destroying := gobjs.destroying
  queue := gobjs.queue
  lastId := gobjs.lastId
  snapshot := snapshotOf gobjs.stack
  log := gobjs.log

/-- Cycles do not nest. -/
def Bottom : List (Frame γ) → Prop
  | [] => True
  | .delivering _ :: rest => rest = []
  | _ :: rest => Bottom rest

/-- The gobj that is taken out of the queue already. -/
def Frame.dying : Frame γ → Option γ
  | .removing gobj => some gobj
  | .children gobj _ => some gobj
  | .destroying gobj => some gobj
  | _ => none

/-- What holds of a yuno. -/
structure Sane (gobjs : Gobjs γ κ) : Prop where
  tidy : Tidy gobjs.mailbox
  freed : ∀ gobj, gobjs.destroyed gobj = true → gobjs.destroying gobj = true
  frames : ∀ frame ∈ gobjs.stack, ∀ gobj ∈ frame.dying, gobjs.destroying gobj = true
  bottom : Bottom gobjs.stack

variable {gobjs : Gobjs γ κ}

/-! ## Posting -/

section

variable (sane : Sane gobjs)
include sane

theorem Sane.gobjPostEvent {hasEvent : γ → String → Bool} {memory : Bool}
    {dst : Option γ} {event : String} {kw : κ} {src : Option γ}
    (living : ∀ gobj ∈ src, gobjs.destroying gobj = false) :
    Sane (gobjPostEvent hasEvent memory gobjs dst event kw src).1 := by
  unfold Gobj.gobjPostEvent
  cases dst with
  | none => exact sane
  | some gobj =>
    dsimp only
    split
    · exact sane
    rename_i there
    have alive : gobjs.destroying gobj = false := by
      simpa using (or_eq_false_iff.1 (eq_false_iff.2 there)).2
    split
    · exact sane
    split
    · exact sane
    split
    · exact sane
    split
    · exact sane
    · exact ⟨sane.tidy.post rfl alive living, sane.freed, sane.frames, sane.bottom⟩

/-! ## Destroying -/

theorem Sane.push {frame : Frame γ} (idle : ∀ lastId, frame ≠ .delivering lastId)
    (dying : ∀ gobj ∈ frame.dying, gobjs.destroying gobj = true) : Sane (gobjs.push frame) := by
  have snapshot : snapshotOf (frame :: gobjs.stack) = snapshotOf gobjs.stack := by
    cases frame with
    | delivering lastId => exact absurd rfl (idle lastId)
    | _ => rfl
  have bottom : Bottom (frame :: gobjs.stack) := by
    cases frame with
    | delivering lastId => exact absurd rfl (idle lastId)
    | _ => exact sane.bottom
  refine ⟨?_, sane.freed, fun other among => ?_, bottom⟩
  · have tidy := sane.tidy
    unfold Gobjs.mailbox at tidy ⊢
    unfold Gobjs.push
    rw [snapshot]
    exact tidy
  · rcases mem_cons.1 among with rfl | among
    · exact dying
    · exact sane.frames other among

theorem Sane.destroyStopped (gobj : γ) : Sane (destroyStopped gobjs gobj) := by
  have stays : ∀ other, gobjs.destroying other = true →
      Function.update gobjs.destroying gobj true other = true := by
    intro other dying
    by_cases same : other = gobj
    · rw [same, update_self]
    · rw [update_of_ne same]
      exact dying
  have purged : Sane { gobjs with
      destroying := Function.update gobjs.destroying gobj true
      queue := purgePostedEvents gobjs.queue gobj
      log := gobjs.log ++ [.destroyed gobj] } :=
    ⟨sane.tidy.destroy gobj, fun other freed => stays other (sane.freed other freed),
      fun frame among other dying => stays other (sane.frames frame among other dying), sane.bottom⟩
  refine purged.push nofun fun other same => ?_
  rw [← some.inj same]
  exact update_self ..

theorem Sane.destroyPaused (gobj : γ) : Sane (destroyPaused gobjs gobj) := by
  unfold Gobj.destroyPaused
  split
  · have stopped : Sane { gobjs with running := Function.update gobjs.running gobj false } :=
      ⟨sane.tidy, sane.freed, sane.frames, sane.bottom⟩
    exact stopped.push nofun nofun
  · exact sane.destroyStopped gobj

theorem Sane.gobjDestroy (gobj : γ) : Sane (gobjDestroy gobjs gobj) := by
  unfold Gobj.gobjDestroy
  split
  · exact sane
  split
  · have paused : Sane { gobjs with playing := Function.update gobjs.playing gobj false } :=
      ⟨sane.tidy, sane.freed, sane.frames, sane.bottom⟩
    exact paused.push nofun nofun
  · exact sane.destroyPaused gobj

theorem Sane.gobjDestroyChildren {gobj : γ}
    (dying : gobjs.destroying gobj = true) (children : List γ) :
    Sane (gobjDestroyChildren gobjs gobj children) := by
  have named : ∀ frame : Frame γ, frame.dying = some gobj →
      ∀ other ∈ frame.dying, gobjs.destroying other = true := by
    intro frame same other here
    rw [same] at here
    rw [← some.inj here]
    exact dying
  induction children with
  | nil =>
    have idle : ∀ lastId, Frame.destroying gobj ≠ .delivering lastId := nofun
    exact sane.push idle (named (.destroying gobj) rfl)
  | cons child rest ih =>
    unfold Gobj.gobjDestroyChildren
    split
    · exact ih
    · have idle : ∀ lastId, Frame.children gobj rest.head? ≠ .delivering lastId := nofun
      exact (sane.push idle (named (.children gobj rest.head?) rfl)).gobjDestroy child

theorem Sane.destroyRemoved {gobj : γ} (dying : gobjs.destroying gobj = true) :
    Sane (destroyRemoved gobjs gobj) := by
  unfold Gobj.destroyRemoved
  cases gobjs.parent gobj with
  | none => exact sane.gobjDestroyChildren dying _
  | some parent =>
    have left : Sane { gobjs with
        children := Function.update gobjs.children parent ((gobjs.children parent).erase gobj) } :=
      ⟨sane.tidy, sane.freed, sane.frames, sane.bottom⟩
    exact left.gobjDestroyChildren dying _

end

theorem Sane.pop {frame : Frame γ} {rest : List (Frame γ)} (sane : Sane gobjs)
    (stack : gobjs.stack = frame :: rest) (idle : ∀ lastId, frame ≠ .delivering lastId) :
    Sane { gobjs with stack := rest } := by
  have tidy := sane.tidy
  have bottom := sane.bottom
  have frames := sane.frames
  unfold Gobjs.mailbox at tidy
  rw [stack] at tidy bottom frames
  refine ⟨?_, sane.freed, fun other among => frames other (mem_cons_of_mem frame among), ?_⟩
  · cases frame with
    | delivering lastId => exact absurd rfl (idle lastId)
    | _ => exact tidy
  · cases frame with
    | delivering lastId => exact absurd rfl (idle lastId)
    | _ => exact bottom

theorem Sane.destroyDone (sane : Sane gobjs) {gobj : γ} (dying : gobjs.destroying gobj = true) :
    Sane (destroyDone gobjs gobj) := by
  have freed : Sane { gobjs with destroyed := Function.update gobjs.destroyed gobj true } := by
    refine ⟨sane.tidy, fun other gone => ?_, sane.frames, sane.bottom⟩
    by_cases same : other = gobj
    · rw [same]
      exact dying
    · dsimp only at gone
      rw [update_of_ne same] at gone
      exact sane.freed other gone
  unfold Gobj.destroyDone
  dsimp only
  split
  · rename_i parent next rest stack
    have waits := sane.frames (.children parent next) (by rw [stack]; exact mem_cons_self) parent rfl
    exact (freed.pop stack nofun).gobjDestroyChildren waits _
  · exact freed

/-! ## Delivering -/

theorem deliverNext_sane {lastId : Nat} (tidy : Tidy { gobjs.mailbox with snapshot := some lastId })
    (freed : ∀ gobj, gobjs.destroyed gobj = true → gobjs.destroying gobj = true)
    (outer : gobjs.stack = []) : Sane (deliverNext lastId gobjs gobjs.queue) := by
  have none_waits : ∀ frame ∈ gobjs.stack, ∀ gobj ∈ frame.dying, gobjs.destroying gobj = true := by
    rw [outer]
    exact nofun
  have passed : (∀ msg ∈ gobjs.queue.head?, lastId < msg.id) →
      Sane { gobjs with log := gobjs.log ++ [.ended] } := by
    intro none_due
    have finished := tidy.finish rfl none_due
    refine ⟨?_, freed, none_waits, by rw [show Bottom gobjs.stack ↔ _ from Iff.rfl, outer]; trivial⟩
    unfold Gobjs.mailbox
    rw [outer]
    exact finished
  cases queue : gobjs.queue with
  | nil =>
    have ended := passed (by rw [queue]; exact nofun)
    unfold deliverNext
    rw [← queue]
    exact ended
  | cons msg rest =>
    unfold deliverNext
    split
    · rename_i late
      have ended := passed (by rw [queue]; intro other same; rw [← some.inj same]; exact late)
      rw [← queue]
      exact ended
    · rename_i due
      have among : msg ∈ gobjs.queue := by
        rw [queue]
        exact mem_cons_self
      have living : gobjs.destroying msg.dst = false := tidy.living msg among
      have there : gobjs.gone msg.dst = false := by
        unfold Gobjs.gone
        rw [living, Bool.or_false]
        apply eq_false_iff.2
        intro gone
        rw [freed msg.dst gone] at living
        cases living
      rw [there, if_neg Bool.false_ne_true]
      have delivered := tidy.deliver rfl queue (Nat.le_of_not_lt due)
      refine ⟨delivered, freed, fun frame among => ?_, outer⟩
      rcases mem_cons.1 among with rfl | among
      · exact nofun
      · exact none_waits frame among

theorem Sane.gobjDeliverPostedEvents (sane : Sane gobjs) (outer : gobjs.stack = []) :
    Sane (gobjDeliverPostedEvents gobjs) := by
  have idle : gobjs.mailbox.snapshot = none := by
    unfold Gobjs.mailbox
    rw [outer]
    rfl
  unfold Gobj.gobjDeliverPostedEvents
  dsimp only
  cases queue : gobjs.queue.getLast? with
  | none =>
    have empty : gobjs.queue = [] := getLast?_eq_none_iff.1 queue
    have begun := sane.tidy.begin idle (Nat.zero_le _)
      (by intro msg among; rw [show gobjs.mailbox.queue = gobjs.queue from rfl, empty] at among; cases among)
    have none_due : ∀ msg ∈ gobjs.queue.head?, 0 < msg.id := by
      rw [empty]
      exact nofun
    have finished := begun.finish rfl none_due
    refine ⟨?_, sane.freed, sane.frames, sane.bottom⟩
    rw [outer]
    exact finished
  | some last =>
    have among := mem_of_getLast? queue
    have begun := sane.tidy.begin idle (sane.tidy.queued among) (fun msg here => ?_)
    · exact @deliverNext_sane γ κ _ { gobjs with log := gobjs.log ++ [.begun] } last.id begun sane.freed
        outer
    · have ⟨front, split⟩ := getLast?_eq_some_iff.1 queue
      have numbered := sane.tidy.numbered.queue
      rw [show gobjs.mailbox.queue = gobjs.queue from rfl] at here numbered
      rw [split] at here
      rw [split, map_append, pairwise_append] at numbered
      rcases mem_append.1 here with here | here
      · exact Nat.le_of_lt (numbered.2.2 msg.id (mem_map_of_mem here) last.id mem_cons_self)
      · exact Nat.le_of_eq (congrArg _ (mem_singleton.1 here))

/-! ## Steps -/

theorem Sane.ret (sane : Sane gobjs) : Sane gobjs.ret := by
  unfold Gobjs.ret
  cases stack : gobjs.stack with
  | nil => exact sane
  | cons frame rest =>
    have waits := sane.frames frame (by rw [stack]; exact mem_cons_self)
    cases frame with
    | delivering lastId =>
      have bottom := sane.bottom
      have tidy := sane.tidy
      unfold Gobjs.mailbox at tidy
      rw [stack] at bottom tidy
      exact @deliverNext_sane γ κ _ { gobjs with stack := rest } lastId tidy sane.freed bottom
    | pausing gobj => exact (sane.pop stack nofun).destroyPaused gobj
    | stopping gobj => exact (sane.pop stack nofun).destroyStopped gobj
    | removing gobj => exact (sane.pop stack nofun).destroyRemoved (waits gobj rfl)
    | children gobj next => exact sane
    | destroying gobj => exact (sane.pop stack nofun).destroyDone (waits gobj rfl)

/-- No event is posted with a `src` that is being destroyed, or was. -/
def SrcLives (gobjs : Gobjs γ κ) : PostOp γ κ → Prop
  | .post _ _ _ src _ => ∀ gobj ∈ src, gobjs.destroying gobj = false
  | _ => True

theorem Sane.step (sane : Sane gobjs) {hasEvent : γ → String → Bool} {op : PostOp γ κ}
    (living : SrcLives gobjs op) : Sane (gobjs.step hasEvent op) := by
  unfold Gobjs.step
  cases op with
  | post dst event kw src memory => exact sane.gobjPostEvent living
  | destroy gobj =>
    cases gobj with
    | none => exact sane
    | some gobj => exact sane.gobjDestroy gobj
  | ret => exact sane.ret
  | deliver =>
    dsimp only
    split
    · rename_i outer
      exact sane.gobjDeliverPostedEvents outer
    · exact sane

theorem start_sane (playing running : γ → Bool) (parent : γ → Option γ) (children : γ → List γ) :
    Sane (Gobjs.start playing running parent children : Gobjs γ κ) where
  tidy := by
    refine ⟨⟨.nil, .nil, .nil, nofun, nofun, nofun, nofun⟩, nofun, nofun, fun gobj => ?_, ?_⟩
    · exact ⟨nofun, nofun⟩
    · intro before msg after empty
      exact absurd empty.symm (append_ne_nil_of_right_ne_nil before (cons_ne_nil _ after))
  freed := nofun
  frames := nofun
  bottom := trivial

/-- In every run in which no event is posted with a `src` that is being destroyed or was, posted events are
delivered once, in the order of posting, in the first cycle that begins later, and with their `src` if it is
living, unless their destination is destroyed first; those are never delivered. -/
theorem posted_events_orderly (hasEvent : γ → String → Bool) (playing running : γ → Bool)
    (parent : γ → Option γ) (children : γ → List γ) (ops : List (PostOp γ κ))
    (living : AllSteps (Gobjs.step hasEvent) SrcLives (.start playing running parent children) ops) :
    AllStates (Gobjs.step hasEvent) (fun gobjs => Orderly gobjs.log)
      (.start playing running parent children) ops := by
  have all : AllStates (Gobjs.step hasEvent) Sane (.start playing running parent children) ops :=
    living.invariant _ (fun _ _ sane lives => sane.step lives)
      (start_sane playing running parent children)
  exact all.mono _ fun _ sane => sane.tidy.orderly

/-- Two gobjs of which the first is the parent of the second. -/
def twoGobjs : Gobjs Nat Unit :=
  .start (fun _ => false) (fun _ => false) (fun gobj => if gobj = 1 then some 0 else none)
    (fun gobj => if gobj = 0 then [1] else [])

/-- An event is posted and its `src` destroyed before the cycle. -/
theorem posted_events_orderly_two :
    Orderly (run (Gobjs.step fun _ _ => true) twoGobjs
      [.post (some 0) "EV_TIMEOUT" () (some 1) true, .destroy (some 1), .ret, .ret, .deliver,
        .ret]).log := by
  have all := posted_events_orderly (fun _ _ => true) (fun _ => false) (fun _ => false)
    (fun gobj => if gobj = 1 then some 0 else none) (fun gobj => if gobj = 0 then [1] else [])
    [.post (some 0) "EV_TIMEOUT" () (some 1) true, .destroy (some 1), .ret, .ret, .deliver, .ret] ?_
  · exact all.last
  · refine ⟨fun gobj here => ?_, trivial, trivial, trivial, trivial, trivial, trivial⟩
    rfl

/-- The method of the parent posts an event for the gobj that is being destroyed. -/
theorem dead_src_delivered :
    ¬∀ (hasEvent : Nat → String → Bool) (playing running : Nat → Bool) (parent : Nat → Option Nat)
      (children : Nat → List Nat) (ops : List (PostOp Nat Unit)),
      AllStates (Gobjs.step hasEvent) (fun gobjs => Orderly gobjs.log)
        (.start playing running parent children) ops := by
  intro all
  have orderly := (all (fun _ _ => true) (fun _ => false) (fun _ => false)
    (fun gobj => if gobj = 1 then some 0 else none) (fun gobj => if gobj = 0 then [1] else [])
    [.destroy (some 1), .post (some 0) "EV_TIMEOUT" () (some 1) true, .ret, .ret, .deliver]).last
  have fate := orderly.fates [.destroyed 1] ⟨1, 0, some 1, "EV_TIMEOUT", ()⟩
    [.begun, .delivered ⟨1, 0, some 1, "EV_TIMEOUT", ()⟩] rfl
  rcases fate with ⟨quiet, -⟩ | settled
  · exact quiet.undelivered ⟨1, 0, some 1, "EV_TIMEOUT", ()⟩ (by decide) rfl
  · generalize same : [Happening.begun, .delivered ⟨1, 0, some 1, "EV_TIMEOUT", ()⟩] = after at settled
    cases settled with
    | dropped between after quiet soon never =>
      have among : Happening.destroyed 0 ∈
          [Happening.begun, .delivered (⟨1, 0, some 1, "EV_TIMEOUT", ()⟩ : PostedEvent Nat Unit)] := by
        rw [same]
        exact List.mem_append_right _ List.mem_cons_self
      exact absurd among (by decide)
    | delivered between after quiet soon first once =>
      have gone : srcAfter ([Happening.destroyed 1] ++ between) (some 1) = none := rfl
      have among : Happening.delivered (⟨1, 0, none, "EV_TIMEOUT", ()⟩ : PostedEvent Nat Unit) ∈
          [Happening.begun, .delivered ⟨1, 0, some 1, "EV_TIMEOUT", ()⟩] := by
        rw [same]
        rw [gone]
        exact List.mem_append_right _ List.mem_cons_self
      exact absurd among (by decide)

end Yunetas.Gobj
