import Mathlib.Data.List.TakeWhile
import Yunetas.Lib.Window
import Yunetas.Qiogate.Gate

/-!
# The gate is a windowed sender

The marked messages of the queue are the first ones, the cursor points at one of them and the
counter counts them: the gate is a `Window` of issues, where an issue is a rowid within one life
of the queue topic, and sending a batch fills the window.
-/

namespace Yunetas.Qiogate

open List Option

/-- A message of the gate: its rowid and how many times the topic was backed up before. -/
structure Issue where
  generation : Nat
  rowid : Nat
  deriving DecidableEq, Repr

namespace Issue

/-- Stored before: in an earlier topic, or under a lower rowid of the same one. -/
def before (earlier later : Issue) : Prop :=
  earlier.generation < later.generation ∨
    (earlier.generation = later.generation ∧ earlier.rowid < later.rowid)

instance : DecidableRel before := fun _ _ => inferInstanceAs (Decidable (_ ∨ _))

/-- The message sent and awaiting its acknowledgement. -/
def sentMsg (issue : Issue) : QMsg := ⟨issue.rowid, true⟩

/-- The message not sent on this connection. -/
def waitingMsg (issue : Issue) : QMsg := ⟨issue.rowid, false⟩

variable {generation : Nat}

theorem mk_rowids {issues : List Issue} (same : ∀ issue ∈ issues, issue.generation = generation) :
    (issues.map Issue.rowid).map (Issue.mk generation) = issues := by
  rw [List.map_map]
  conv_rhs => rw [← map_id issues]
  apply map_congr_left
  intro issue among
  cases issue
  simp only [Function.comp_apply, id_eq, Issue.mk.injEq, and_true]
  exact (same _ among).symm

theorem rowid_iff {issue : Issue} (topic : issue.generation = generation) (rowid : Nat) :
    issue.rowid = rowid ↔ issue = ⟨generation, rowid⟩ := by
  constructor
  · intro named
    rw [← topic, ← named]
  · intro same
    rw [same]

section

variable {issues : List Issue} (toMsg : Issue → QMsg)
  (kept : ∀ issue, (toMsg issue).rowid = issue.rowid)
  (topic : ∀ issue ∈ issues, issue.generation = generation) (rowid : Nat)
include toMsg kept topic rowid

theorem eraseP_rowid :
    (issues.map toMsg).eraseP (·.rowid = rowid) = (issues.erase ⟨generation, rowid⟩).map toMsg := by
  induction issues with
  | nil => rfl
  | cons issue rest ih =>
    have here := rowid_iff (topic issue (mem_cons_self ..)) rowid
    have later := ih fun other among => topic other (mem_cons_of_mem _ among)
    rw [map_cons]
    by_cases named : issue = ⟨generation, rowid⟩
    · rw [eraseP_cons_of_pos (by simpa [kept] using here.2 named), named, erase_cons_head]
    · rw [eraseP_cons_of_neg (by simpa [kept] using mt here.1 named), later,
        erase_cons_tail (by simpa using named), map_cons]

theorem find?_rowid :
    (issues.map toMsg).find? (·.rowid = rowid) =
      if ⟨generation, rowid⟩ ∈ issues then some (toMsg ⟨generation, rowid⟩) else none := by
  induction issues with
  | nil => rfl
  | cons issue rest ih =>
    have here := rowid_iff (topic issue (mem_cons_self ..)) rowid
    have later := ih fun other among => topic other (mem_cons_of_mem _ among)
    rw [map_cons]
    by_cases named : issue = ⟨generation, rowid⟩
    · rw [find?_cons_of_pos (by simpa [kept] using here.2 named), named,
        if_pos (mem_cons_self ..)]
    · rw [find?_cons_of_neg (by simpa [kept] using mt here.1 named), later]
      simp [Ne.symm named]

end

end Issue

/-- The limit of the window: none when `max_pending_acks` is zero. -/
def Config.limit (config : Config) : Option Nat :=
  if config.maxPendingAcks = 0 then none else some config.maxPendingAcks

/-! ## The loop -/

theorem sendFrom_marked (config : Config) (pendingAcks : Nat) (lastMsgSent : Option Nat)
    (marked rest : List QMsg) (all : ∀ msg ∈ marked, msg.pending = true) :
    sendFrom config pendingAcks lastMsgSent (marked ++ rest) =
      { sendFrom config pendingAcks lastMsgSent rest with
        msgs := marked ++ (sendFrom config pendingAcks lastMsgSent rest).msgs } := by
  induction marked with
  | nil => rfl
  | cons msg marked ih =>
    have here : msg.pending = true := all msg (mem_cons_self ..)
    have later := ih fun other among => all other (mem_cons_of_mem _ among)
    rw [cons_append, sendFrom, if_pos here, later]
    rfl

/-- How many of `count` waiting messages are sent with `awaited` acknowledgements pending. -/
def roomFor (limit : Option Nat) (awaited count : Nat) : Nat :=
  match limit with
  | none => count
  | some most => min (most - awaited) count

theorem sendFrom_waiting (config : Config) (pendingAcks awaited : Nat)
    (lastMsgSent : Option Nat) (issues : List Issue)
    (counted : config.maxPendingAcks ≠ 0 → pendingAcks = awaited) :
    let count := roomFor config.limit awaited issues.length
    let batch := sendFrom config pendingAcks lastMsgSent (issues.map Issue.waitingMsg)
    batch.msgs = (issues.take count).map Issue.sentMsg ++ (issues.drop count).map Issue.waitingMsg ∧
      batch.sent = (issues.take count).map Issue.rowid ∧
      (batch.lastMsgSent = lastMsgSent ∨
        ∃ issue ∈ issues.take count, batch.lastMsgSent = some issue.rowid) ∧
      (pendingAcks + count < 2 ^ 32 → batch.pendingAcks = pendingAcks + count) := by
  induction issues generalizing pendingAcks awaited lastMsgSent with
  | nil =>
    simp only [map_nil, sendFrom, take_nil, drop_nil, append_nil,
      not_mem_nil, false_and, exists_false, or_false, true_and, length_nil]
    intro _
    unfold roomFor
    split <;> simp
  | cons issue rest ih =>
    by_cases room : hasRoom config pendingAcks = true
    · have grown : roomFor config.limit awaited (issue :: rest).length =
          roomFor config.limit (awaited + 1) rest.length + 1 := by
        unfold roomFor Config.limit
        by_cases unlimited : config.maxPendingAcks = 0
        · simp [unlimited]
        · have below : pendingAcks < config.maxPendingAcks := by
            simpa [hasRoom, unlimited] using room
          simp only [if_neg unlimited, length_cons]
          omega
      have next : config.maxPendingAcks ≠ 0 → (pendingAcks + 1) % 2 ^ 32 = awaited + 1 := by
        intro limited
        have below : pendingAcks < config.maxPendingAcks := by
          simpa [hasRoom, limited] using room
        have fits := config.fits
        rw [Nat.mod_eq_of_lt (by omega), counted limited]
      have ⟨msgs, sent, last, awaits⟩ :=
        ih ((pendingAcks + 1) % 2 ^ 32) (awaited + 1) (some issue.rowid) next
      simp only [map_cons, sendFrom, Issue.waitingMsg, Bool.false_eq_true, ↓reduceIte, room,
        grown, take_succ_cons, drop_succ_cons, cons_append]
      refine ⟨?_, ?_, ?_, ?_⟩
      · exact congrArg (_ :: ·) msgs
      · exact congrArg (_ :: ·) sent
      · right
        rcases last with kept | ⟨later, among, found⟩
        · exact ⟨issue, mem_cons_self .., kept⟩
        · exact ⟨later, mem_cons_of_mem _ among, found⟩
      · intro small
        have below : (pendingAcks + 1) % 2 ^ 32 = pendingAcks + 1 := Nat.mod_eq_of_lt (by omega)
        rw [below] at awaits
        have total := awaits (by omega)
        rw [below]
        exact total.trans (by omega)
    · have full : roomFor config.limit awaited (issue :: rest).length = 0 := by
        have limited : config.maxPendingAcks ≠ 0 := by
          intro unlimited
          exact room (by simp [hasRoom, unlimited])
        have reached : ¬ pendingAcks < config.maxPendingAcks := by
          simpa [hasRoom, limited] using room
        simp only [roomFor, Config.limit, if_neg limited]
        omega
      simp only [full, map_cons, sendFrom, Issue.waitingMsg, Bool.false_eq_true, ↓reduceIte,
        room, take_zero, drop_zero, map_nil, nil_append, not_mem_nil,
        false_and, exists_false, or_false, Nat.add_zero, implies_true, and_self]

/-! ## The relation -/

/-- The window a gate stands for. `exact` says that the counter cannot have wrapped around. -/
structure Represents (config : Config) (exact : Prop) (generation : Nat) (gate : Gate)
    (window : Window Issue) : Prop where
  msgs : gate.trqMsgs =
    window.sent.map Issue.sentMsg ++ window.waiting.map Issue.waitingMsg
  cursor : ∀ rowid, gate.lastMsgSent = some rowid →
    ∃ issue ∈ window.sent, issue.rowid = rowid
  count : exact → gate.pendingAcks = window.sent.length
  limited : config.maxPendingAcks ≠ 0 → exact
  rows : ∀ issue ∈ window.queue,
    issue.generation = generation ∧ issue.rowid ≤ gate.topicSize
  closed : gate.bottomSideOpened = false → window.sent = []

namespace Represents

variable {config : Config} {exact : Prop} {generation : Nat} {gate : Gate}
  {window : Window Issue}

section

variable (represents : Represents config exact generation gate window)
include represents

theorem length_eq : gate.trqMsgs.length = window.queue.length := by
  rw [represents.msgs]
  simp [Window.queue]

theorem counted (limited : config.maxPendingAcks ≠ 0) : gate.pendingAcks = window.sent.length :=
  represents.count (represents.limited limited)

theorem countP_pending : gate.trqMsgs.countP (·.pending) = window.sent.length := by
  rw [represents.msgs, countP_append, countP_map, countP_map]
  have sent : window.sent.countP ((fun msg : QMsg => msg.pending) ∘ Issue.sentMsg) =
      window.sent.length := countP_eq_length.2 fun _ _ => rfl
  have waiting : window.waiting.countP ((fun msg : QMsg => msg.pending) ∘ Issue.waitingMsg) = 0 :=
    countP_eq_zero.2 fun _ _ => by simp [Issue.waitingMsg]
  omega

end

theorem room_eq : roomFor config.limit window.sent.length window.waiting.length =
    window.room config.limit := rfl

section

variable (represents : Represents config exact generation gate window)
include represents

theorem from_cursor :
    ∃ skipped marked : List QMsg, (if gate.lastMsgSent.isSome then
        gate.trqMsgs.takeWhile (fun msg => !decide (gate.lastMsgSent = some msg.rowid))
        else []) = skipped ∧
      window.sent.map Issue.sentMsg = skipped ++ marked ∧
      gate.trqMsgs.drop skipped.length = marked ++ window.waiting.map Issue.waitingMsg := by
  cases last : gate.lastMsgSent with
  | none =>
    refine ⟨[], window.sent.map Issue.sentMsg, by simp, rfl, ?_⟩
    rw [represents.msgs]
    rfl
  | some rowid =>
    have ⟨issue, among, named⟩ := represents.cursor rowid last
    let passed := fun msg : QMsg => !decide (some rowid = some msg.rowid)
    let sent := window.sent.map Issue.sentMsg
    have stops : (sent.takeWhile passed).length ≠ sent.length := by
      intro whole
      have all : sent.takeWhile passed = sent := ( takeWhile_prefix passed).eq_of_length whole
      have holds := takeWhile_eq_self_iff.1 all issue.sentMsg (mem_map_of_mem among)
      simp [passed, Issue.sentMsg, named] at holds
    have taken : gate.trqMsgs.takeWhile passed = sent.takeWhile passed := by
      rw [represents.msgs, takeWhile_append, if_neg stops]
    refine ⟨sent.takeWhile passed, sent.dropWhile passed, ?_, takeWhile_append_dropWhile.symm, ?_⟩
    · exact taken
    · have split : gate.trqMsgs = sent.takeWhile passed ++
          (sent.dropWhile passed ++ window.waiting.map Issue.waitingMsg) := by
        rw [← append_assoc, takeWhile_append_dropWhile]
        exact represents.msgs
      rw [split, drop_left]

theorem sendBatchMessages (opened : gate.bottomSideOpened = true)
    (small : exact → config.maxPendingAcks = 0 → gate.trqMsgs.length < 2 ^ 32)
    (within : window.Within config.limit) :
    Represents config exact generation (gate.sendBatchMessages config).1
        (window.fill config.limit) ∧
      (gate.sendBatchMessages config).2 = (window.batch config.limit).map Issue.rowid ∧
      (gate.sendBatchMessages config).1.bottomSideOpened = true ∧
      (gate.sendBatchMessages config).1.topicSize = gate.topicSize := by
  have ⟨skipped, marked, skip, split, rest⟩ := represents.from_cursor
  have allMarked : ∀ msg ∈ marked, msg.pending = true := by
    intro msg among
    have sent : msg ∈ window.sent.map Issue.sentMsg := by
      rw [split]
      exact mem_append_right _ among
    obtain ⟨issue, -, rfl⟩ := mem_map.1 sent
    rfl
  have ⟨msgs, sent, last, awaits⟩ := sendFrom_waiting config gate.pendingAcks
    window.sent.length gate.lastMsgSent window.waiting represents.counted
  rw [room_eq] at msgs sent last awaits
  have batch := sendFrom_marked config gate.pendingAcks gate.lastMsgSent marked
    (window.waiting.map Issue.waitingMsg) allMarked
  have result : gate.sendBatchMessages config = ({ gate with
          trqMsgs := skipped ++ (marked ++ (sendFrom config gate.pendingAcks gate.lastMsgSent
            (window.waiting.map Issue.waitingMsg)).msgs)
          pendingAcks := (sendFrom config gate.pendingAcks gate.lastMsgSent
            (window.waiting.map Issue.waitingMsg)).pendingAcks
          lastMsgSent := (sendFrom config gate.pendingAcks gate.lastMsgSent
            (window.waiting.map Issue.waitingMsg)).lastMsgSent },
        (sendFrom config gate.pendingAcks gate.lastMsgSent
          (window.waiting.map Issue.waitingMsg)).sent) := by
    unfold Gate.sendBatchMessages
    simp [skip, rest, batch]
  rw [result]
  refine ⟨?_, sent, opened, rfl⟩
  constructor
  · rw [msgs, ← append_assoc, ← split, ← append_assoc, ← map_append]
    rfl
  · intro rowid cursor
    rcases last with kept | ⟨issue, among, found⟩
    · have ⟨issue, among, named⟩ := represents.cursor rowid (kept.symm.trans cursor)
      exact ⟨issue, mem_append_left _ among, named⟩
    · exact ⟨issue, mem_append_right _ among, some.inj (found.symm.trans cursor)⟩
  · intro exactly
    have counted := represents.count exactly
    have taken : (window.fill config.limit).sent.length =
        window.sent.length + window.room config.limit := by
      have most := window.room_le config.limit
      simp only [Window.fill, Window.batch, length_append, length_take]
      omega
    have fits : gate.pendingAcks + window.room config.limit < 2 ^ 32 := by
      have most := window.room_le config.limit
      by_cases unlimited : config.maxPendingAcks = 0
      · have short := small exactly unlimited
        rw [represents.length_eq, Window.queue, length_append] at short
        omega
      · have filled := Window.fill_within within config.maxPendingAcks
          (by simp [Config.limit, unlimited])
        have bound := config.fits
        omega
    exact (awaits fits).trans (by omega)
  · exact represents.limited
  · intro issue among
    rw [Window.queue_fill] at among
    exact represents.rows issue among
  · intro shut
    rw [opened] at shut
    cases shut

theorem enqueueMessage {next : Gate} (stored : gate.enqueueMessage true = some next) :
    Represents config exact generation next (window.push ⟨generation, gate.topicSize + 1⟩) ∧
      next.bottomSideOpened = gate.bottomSideOpened ∧
      next.topicSize = gate.topicSize + 1 := by
  unfold Gate.enqueueMessage at stored
  rw [if_pos rfl, some.injEq] at stored
  subst stored
  refine ⟨?_, rfl, rfl⟩
  constructor
  · rw [represents.msgs]
    simp [Window.push, Issue.waitingMsg]
  · exact represents.cursor
  · exact represents.count
  · exact represents.limited
  · intro issue among
    rw [Window.queue_push, mem_append, mem_singleton] at among
    rcases among with old | new
    · have row := represents.rows issue old
      exact ⟨row.1, Nat.le_succ_of_le row.2⟩
    · rw [new]
      exact ⟨rfl, Nat.le_refl _⟩
  · exact represents.closed

end

theorem sendOneMessage {issue : Issue}
    (represents : Represents config exact generation gate (window.push issue))
    (opened : gate.bottomSideOpened = true)
    (small : exact → config.maxPendingAcks = 0 → gate.trqMsgs.length < 2 ^ 32)
    (full : window.Full config.limit) :
    Represents config exact generation (gate.sendOneMessage config).1
        ((window.push issue).fill config.limit) ∧
      (gate.sendOneMessage config).2 = ((window.push issue).batch config.limit).map Issue.rowid ∧
      (gate.sendOneMessage config).1.bottomSideOpened = true ∧
      (gate.sendOneMessage config).1.topicSize = gate.topicSize := by
  rcases eq_nil_or_concat window.waiting with noneWaits | ⟨others, last, waits⟩
  · -- everything before it was sent, so only the room decides
    have msgs : gate.trqMsgs.reverse =
        issue.waitingMsg :: (window.sent.map Issue.sentMsg).reverse := by
      rw [represents.msgs]
      simp [Window.push, noneWaits]
    have sentBefore : previousSent (window.sent.map Issue.sentMsg).reverse = true := by
      cases found : (window.sent.map Issue.sentMsg).reverse with
      | nil => rfl
      | cons previous rest =>
        have among : previous ∈ window.sent.map Issue.sentMsg := by
          rw [← mem_reverse, found]
          exact mem_cons_self ..
        obtain ⟨issue, -, rfl⟩ := mem_map.1 among
        rfl
    by_cases room : hasRoom config gate.pendingAcks = true
    · have one : (window.push issue).room config.limit = 1 := by
        by_cases unlimited : config.maxPendingAcks = 0
        · simp [Window.room, Config.limit, unlimited, Window.push, noneWaits]
        · have below : gate.pendingAcks < config.maxPendingAcks := by
            simpa [hasRoom, unlimited] using room
          have counted := represents.counted unlimited
          simp only [Window.push] at counted
          simp only [Window.room, Config.limit, if_neg unlimited, Window.push, noneWaits,
            nil_append, length_singleton]
          omega
      have batch : (window.push issue).batch config.limit = [issue] := by
        rw [Window.batch, one]
        simp [Window.push, noneWaits]
      have filled : (window.push issue).fill config.limit = ⟨window.sent ++ [issue], []⟩ := by
        rw [Window.fill, batch, one]
        simp [Window.push, noneWaits]
      have result : gate.sendOneMessage config = ({ gate with
              trqMsgs := window.sent.map Issue.sentMsg ++ [issue.sentMsg]
              pendingAcks := (gate.pendingAcks + 1) % 2 ^ 32
              lastMsgSent := some issue.rowid },
            [issue.rowid]) := by
        unfold Gate.sendOneMessage
        rw [msgs]
        simp only [sentBefore, room, Bool.and_self, ↓reduceIte, reverse_reverse]
        rfl
      rw [result, filled, batch]
      refine ⟨?_, rfl, opened, rfl⟩
      constructor
      · simp
      · intro rowid cursor
        exact ⟨issue, mem_append_right _ (mem_singleton_self _), some.inj cursor⟩
      · intro exactly
        have counted := represents.count exactly
        have fits : gate.pendingAcks + 1 < 2 ^ 32 := by
          by_cases unlimited : config.maxPendingAcks = 0
          · have short := small exactly unlimited
            rw [represents.length_eq, Window.queue_push, Window.queue, length_append,
              length_append, length_singleton] at short
            simp only [Window.push] at counted
            omega
          · have below : gate.pendingAcks < config.maxPendingAcks := by
              simpa [hasRoom, unlimited] using room
            have bound := config.fits
            omega
        rw [Nat.mod_eq_of_lt fits, counted]
        simp [Window.push]
      · exact represents.limited
      · intro other among
        refine represents.rows other ?_
        rw [← Window.queue_fill config.limit, filled]
        exact among
      · intro shut
        rw [opened] at shut
        cases shut
    · have noRoom : (window.push issue).room config.limit = 0 := by
        have limited : config.maxPendingAcks ≠ 0 := by
          intro unlimited
          exact room (by simp [hasRoom, unlimited])
        have reached : ¬ gate.pendingAcks < config.maxPendingAcks := by
          simpa [hasRoom, limited] using room
        have counted := represents.counted limited
        simp only [Window.room, Config.limit, if_neg limited]
        omega
      have unchanged : gate.sendOneMessage config = (gate, []) := by
        unfold Gate.sendOneMessage
        rw [msgs]
        simp [room, ↓reduceIte]
      obtain ⟨filled, batch⟩ := Window.fill_of_no_room noRoom
      rw [unchanged, filled, batch]
      exact ⟨represents, rfl, opened, rfl⟩
  · -- the one before it was not sent: a full window has no room for this one either
    have msgs : gate.trqMsgs.reverse = issue.waitingMsg :: last.waitingMsg ::
        (window.sent.map Issue.sentMsg ++ others.map Issue.waitingMsg).reverse := by
      rw [represents.msgs]
      simp [Window.push, waits]
    have unchanged : gate.sendOneMessage config = (gate, []) := by
      unfold Gate.sendOneMessage
      rw [msgs]
      simp [previousSent, Issue.waitingMsg, ↓reduceIte]
    have noRoom : (window.push issue).room config.limit = 0 := by
      rcases full with empty | ⟨most, limit, reached⟩
      · rw [empty] at waits
        simp at waits
      · simp only [Window.room, limit, Window.push]
        omega
    obtain ⟨filled, batch⟩ := Window.fill_of_no_room noRoom
    rw [unchanged, filled, batch]
    exact ⟨represents, rfl, opened, rfl⟩

section

variable (represents : Represents config exact generation gate window)
include represents

theorem dequeueMsg (rowid : Nat) :
    Represents config exact generation (gate.dequeueMsg rowid)
        (window.acknowledge ⟨generation, rowid⟩) ∧
      (gate.dequeueMsg rowid).bottomSideOpened = gate.bottomSideOpened ∧
      (gate.dequeueMsg rowid).topicSize = gate.topicSize := by
  have sentTopic : ∀ issue ∈ window.sent, issue.generation = generation :=
    fun issue among => (represents.rows issue (mem_append_left _ among)).1
  have waitingTopic : ∀ issue ∈ window.waiting, issue.generation = generation :=
    fun issue among => (represents.rows issue (mem_append_right _ among)).1
  have findSent := Issue.find?_rowid Issue.sentMsg (fun _ => rfl) sentTopic rowid
  have findWaiting := Issue.find?_rowid Issue.waitingMsg (fun _ => rfl) waitingTopic rowid
  have dropSent := Issue.eraseP_rowid Issue.sentMsg (fun _ => rfl) sentTopic rowid
  have dropWaiting := Issue.eraseP_rowid Issue.waitingMsg (fun _ => rfl) waitingTopic rowid
  have rows : ∀ issue ∈ (window.acknowledge ⟨generation, rowid⟩).queue,
      issue.generation = generation ∧ issue.rowid ≤ gate.topicSize := by
    intro issue among
    rw [Window.queue_acknowledge] at among
    exact represents.rows issue (mem_of_mem_erase among)
  by_cases sent : ⟨generation, rowid⟩ ∈ window.sent
  · rw [if_pos sent] at findSent
    have found : gate.trqMsgs.find? (·.rowid = rowid) =
        some (Issue.sentMsg ⟨generation, rowid⟩) := by
      rw [represents.msgs, find?_append, findSent, some_or]
    have dropped : gate.trqMsgs.eraseP (·.rowid = rowid) =
        (window.sent.erase ⟨generation, rowid⟩).map Issue.sentMsg ++
          window.waiting.map Issue.waitingMsg := by
      rw [represents.msgs, eraseP_append_left (a := Issue.sentMsg ⟨generation, rowid⟩)
        (by simp [Issue.sentMsg]) _ (mem_map_of_mem sent), dropSent]
    unfold Gate.dequeueMsg
    rw [found]
    refine ⟨?_, rfl, rfl⟩
    have after : window.acknowledge ⟨generation, rowid⟩ =
        { window with sent := window.sent.erase ⟨generation, rowid⟩ } := if_pos sent
    constructor
    · rw [after]
      exact dropped
    · intro other cursor
      by_cases here : gate.lastMsgSent = some rowid
      · simp [Issue.sentMsg, here] at cursor
      · simp only [Issue.sentMsg, here, ↓reduceIte] at cursor
        have ⟨issue, among, named⟩ := represents.cursor other cursor
        have kept : issue ≠ ⟨generation, rowid⟩ := by
          rintro rfl
          exact here (cursor.trans (congrArg some named.symm))
        rw [after]
        exact ⟨issue, (mem_erase_of_ne kept).2 among, named⟩
    · intro exactly
      have counted := represents.count exactly
      have nonempty : 0 < window.sent.length := length_pos_of_mem sent
      rw [after]
      show (if (true && decide (0 < gate.pendingAcks)) = true then gate.pendingAcks - 1
        else gate.pendingAcks) = (window.sent.erase ⟨generation, rowid⟩).length
      rw [length_erase_of_mem sent, if_pos (by simpa [counted] using nonempty), counted]
    · exact represents.limited
    · exact rows
    · intro shut
      rw [represents.closed shut] at sent
      exact absurd sent not_mem_nil
  · have after : window.acknowledge ⟨generation, rowid⟩ =
        { window with waiting := window.waiting.erase ⟨generation, rowid⟩ } := if_neg sent
    have notCursor : gate.lastMsgSent ≠ some rowid := by
      intro cursor
      have ⟨issue, among, named⟩ := represents.cursor rowid cursor
      rw [(Issue.rowid_iff (sentTopic issue among) rowid).1 named] at among
      exact sent among
    rw [if_neg sent] at findSent
    by_cases waits : ⟨generation, rowid⟩ ∈ window.waiting
    · rw [if_pos waits] at findWaiting
      have found : gate.trqMsgs.find? (·.rowid = rowid) =
          some (Issue.waitingMsg ⟨generation, rowid⟩) := by
        rw [represents.msgs, find?_append, findSent, none_or, findWaiting]
      have dropped : gate.trqMsgs.eraseP (·.rowid = rowid) = window.sent.map Issue.sentMsg ++
            (window.waiting.erase ⟨generation, rowid⟩).map Issue.waitingMsg := by
        rw [represents.msgs, eraseP_append_right _ (find?_eq_none.1 findSent), dropWaiting]
      have result : gate.dequeueMsg rowid =
          { gate with trqMsgs := gate.trqMsgs.eraseP (·.rowid = rowid) } := by
        unfold Gate.dequeueMsg
        rw [found]
        simp [Issue.waitingMsg, notCursor]
      rw [result, dropped, after]
      refine ⟨⟨rfl, represents.cursor, represents.count, represents.limited, ?_,
        represents.closed⟩, rfl, rfl⟩
      rw [after] at rows
      exact rows
    · rw [if_neg waits] at findWaiting
      have found : gate.trqMsgs.find? (·.rowid = rowid) = none := by
        rw [represents.msgs, find?_append, findSent, none_or, findWaiting]
      have unchanged : gate.dequeueMsg rowid = gate := by
        unfold Gate.dequeueMsg
        rw [found]
      have kept : window.acknowledge ⟨generation, rowid⟩ = window := by
        rw [after, erase_of_not_mem waits]
      rw [unchanged, kept]
      exact ⟨represents, rfl, rfl⟩

theorem opened :
    Represents config exact generation { gate with bottomSideOpened := true } window where
  msgs := represents.msgs
  cursor := represents.cursor
  count := represents.count
  limited := represents.limited
  rows := represents.rows
  closed shut := absurd shut (by simp)

theorem acOnClose :
    Represents config exact generation gate.acOnClose.gate window.reset where
  msgs := by
    show gate.trqMsgs.map _ = _
    rw [represents.msgs]
    simp only [Window.reset, Window.queue, map_nil, nil_append, map_append,
      List.map_map]
    rfl
  cursor _ cursor := by
    cases cursor
  count _ := rfl
  limited := represents.limited
  rows issue among := by
    rw [Window.queue_reset] at among
    exact represents.rows issue among
  closed _ := rfl

theorem checkBackup
    (nothing : gate.trqMsgs = []) {next : Gate} (backup : gate.checkBackup config = some next) :
    Represents config exact (generation + 1) next window ∧ window.queue = [] ∧
      next.bottomSideOpened = gate.bottomSideOpened := by
  have empty : window.queue = [] := by
    have length := represents.length_eq
    rw [nothing] at length
    exact length_eq_zero_iff.1 length.symm
  unfold Gate.checkBackup at backup
  split at backup
  · rw [some.injEq] at backup
    subst backup
    refine ⟨⟨represents.msgs, represents.cursor, represents.count, represents.limited, ?_,
      represents.closed⟩, empty, rfl⟩
    intro issue among
    rw [empty] at among
    exact absurd among not_mem_nil
  · cases backup

end

end Represents

end Yunetas.Qiogate
