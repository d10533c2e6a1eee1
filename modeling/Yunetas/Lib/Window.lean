import Mathlib.Data.List.Basic
import Mathlib.Data.List.Nodup

/-!
# Windowed senders

A sender keeps the messages that were sent and not yet acknowledged before the ones that wait.
Filling the window sends waiting messages, oldest first, while the number of unacknowledged ones
stays under a limit; an acknowledgement drops one message from wherever it is; a disconnection
makes every message wait again. `Window.Ordered` relates a window to the log of what was sent on
the current connection: along any order on the messages that the queue respects, the log only
grows upwards.
-/

namespace Yunetas

open List

/-- Messages of a sender, oldest first. -/
structure Window (α : Type) where
  sent : List α
  waiting : List α

namespace Window

variable {α : Type}

/-- Messages held, in order. -/
def queue (window : Window α) : List α := window.sent ++ window.waiting

/-- A new message waits behind the others. -/
def push (window : Window α) (message : α) : Window α :=
  { window with waiting := window.waiting ++ [message] }

/-- How many waiting messages a window with an optional limit takes. -/
def room (limit : Option Nat) (window : Window α) : Nat :=
  match limit with
  | none => window.waiting.length
  | some most => min (most - window.sent.length) window.waiting.length

/-- Messages sent when the window is filled. -/
def batch (limit : Option Nat) (window : Window α) : List α :=
  window.waiting.take (window.room limit)

/-- Send as many waiting messages as there is room for. -/
def fill (limit : Option Nat) (window : Window α) : Window α :=
  ⟨window.sent ++ window.batch limit, window.waiting.drop (window.room limit)⟩

/-- Drop an acknowledged message. -/
def acknowledge [DecidableEq α] (window : Window α) (message : α) : Window α :=
  if message ∈ window.sent then { window with sent := window.sent.erase message }
  else { window with waiting := window.waiting.erase message }

/-- A disconnection: nothing counts as sent any more. -/
def reset (window : Window α) : Window α := ⟨[], window.queue⟩

/-- No message waits while there is room for it. -/
def Full (limit : Option Nat) (window : Window α) : Prop :=
  window.waiting = [] ∨ ∃ most, limit = some most ∧ most ≤ window.sent.length

/-- The number of unacknowledged messages keeps to the limit. -/
def Within (limit : Option Nat) (window : Window α) : Prop :=
  ∀ most, limit = some most → window.sent.length ≤ most

@[simp] theorem queue_push (window : Window α) (message : α) :
    (window.push message).queue = window.queue ++ [message] := by
  simp [push, queue]

@[simp] theorem queue_fill (limit : Option Nat) (window : Window α) :
    (window.fill limit).queue = window.queue := by
  simp [fill, batch, queue, append_assoc]

@[simp] theorem queue_reset (window : Window α) : window.reset.queue = window.queue := by
  simp [reset, queue]

theorem room_le (limit : Option Nat) (window : Window α) :
    window.room limit ≤ window.waiting.length := by
  cases limit with
  | none => exact Nat.le_refl _
  | some most => exact Nat.min_le_right _ _

theorem queue_acknowledge [DecidableEq α] (window : Window α) (message : α) :
    (window.acknowledge message).queue = window.queue.erase message := by
  unfold acknowledge
  by_cases among : message ∈ window.sent
  · rw [if_pos among]
    exact (erase_append_left _ among).symm
  · rw [if_neg among]
    exact (erase_append_right _ among).symm

theorem fill_of_no_room {limit : Option Nat} {window : Window α} (noRoom : window.room limit = 0) :
    window.fill limit = window ∧ window.batch limit = [] := by
  have batch : window.batch limit = [] := by rw [Window.batch, noRoom, take_zero]
  refine ⟨?_, batch⟩
  rw [fill, batch, noRoom, append_nil, drop_zero]

theorem fill_full (limit : Option Nat) (window : Window α) : (window.fill limit).Full limit := by
  cases limit with
  | none =>
    left
    simp [fill, room]
  | some most =>
    by_cases short : window.waiting.length ≤ most - window.sent.length
    · left
      simp [fill, room, Nat.min_eq_right short]
    · right
      refine ⟨most, rfl, ?_⟩
      have taken : (window.fill (some most)).sent.length =
          window.sent.length + (most - window.sent.length) := by
        simp only [fill, batch, room, length_append, length_take]
        omega
      omega

theorem fill_within {limit : Option Nat} {window : Window α} (within : window.Within limit) :
    (window.fill limit).Within limit := by
  intro most limited
  have before := within most limited
  subst limited
  simp only [fill, batch, room, length_append, length_take]
  omega

theorem acknowledge_within [DecidableEq α] {limit : Option Nat} {window : Window α}
    (within : window.Within limit) (message : α) :
    (window.acknowledge message).Within limit := by
  intro most limited
  have before := within most limited
  unfold acknowledge
  split
  · exact Nat.le_trans length_erase_le before
  · exact before

/-! ## The log of a connection -/

/-- The queue and the log are in order, the log holds what is sent, and nothing that waits comes
before something already sent. -/
structure Ordered (before : α → α → Prop) (log : List α) (window : Window α) : Prop where
  queued : window.queue.Pairwise before
  logged : log.Pairwise before
  later : ∀ message ∈ log, ∀ other ∈ window.waiting, before message other
  sent : ∀ message ∈ window.sent, message ∈ log

namespace Ordered

variable {before : α → α → Prop} {log : List α} {window : Window α}

theorem push (ordered : window.Ordered before log) {message : α}
    (last : ∀ other ∈ window.queue, before other message)
    (afterLog : ∀ other ∈ log, before other message) :
    (window.push message).Ordered before log where
  queued := by
    rw [queue_push]
    exact pairwise_append.2 ⟨ordered.queued, pairwise_singleton _ _,
      fun other among found new => by rw [mem_singleton.1 new]; exact last other among⟩
  logged := ordered.logged
  later other among found new := by
    rcases mem_append.1 new with old | new
    · exact ordered.later other among found old
    · rw [mem_singleton.1 new]
      exact afterLog other among
  sent := ordered.sent

theorem fill (ordered : window.Ordered before log) (limit : Option Nat) :
    (window.fill limit).Ordered before (log ++ window.batch limit) where
  queued := by
    rw [queue_fill]
    exact ordered.queued
  logged := by
    have waiting := (pairwise_append.1 ordered.queued).2.1
    exact pairwise_append.2 ⟨ordered.logged, waiting.sublist (take_sublist _ _),
      fun message among other taken =>
        ordered.later message among other (mem_of_mem_take taken)⟩
  later message among other left := by
    have waiting := (pairwise_append.1 ordered.queued).2.1
    rcases mem_append.1 among with old | new
    · exact ordered.later message old other (mem_of_mem_drop left)
    · rw [← take_append_drop (window.room limit) window.waiting] at waiting
      exact (pairwise_append.1 waiting).2.2 message new other left
  sent message among := by
    rcases mem_append.1 among with old | new
    · exact mem_append_left _ (ordered.sent message old)
    · exact mem_append_right _ new

theorem acknowledge [DecidableEq α] (ordered : window.Ordered before log) (message : α) :
    (window.acknowledge message).Ordered before log where
  queued := by
    rw [queue_acknowledge]
    exact ordered.queued.sublist (erase_sublist)
  logged := ordered.logged
  later other among found left := by
    refine ordered.later other among found ?_
    unfold Window.acknowledge at left
    split at left
    · exact left
    · exact mem_of_mem_erase left
  sent other among := by
    refine ordered.sent other ?_
    unfold Window.acknowledge at among
    split at among
    · exact mem_of_mem_erase among
    · exact among

theorem reset (ordered : window.Ordered before log) : window.reset.Ordered before [] where
  queued := by
    rw [queue_reset]
    exact ordered.queued
  logged := List.Pairwise.nil
  later _ among := absurd among not_mem_nil
  sent _ among := absurd among not_mem_nil

end Ordered

end Window

end Yunetas
