import Yunetas.Verif.OrderlyGate

/-!
# An acknowledgement and the message it answers

An acknowledgement carries the rowid and the time of the message it answers, and the gate finds the
message to unload by the rowid alone. Rowids start anew when a backup moves the queue topic away, so
an acknowledgement that comes late, or once more, of a message stored before a backup unloads the
message stored under the same rowid since. It unloads no other message exactly when there is none.
-/

namespace Yunetas.Qiogate

open List

/-- A gate with the messages of its queue and those it sent on any connection, each known by the
topic and the rowid it is stored under. -/
structure Ledger where
  gate : Gate
  generation : Nat
  queued : List Issue
  sent : List Issue

/-- What happens to the gate. -/
inductive Stimulus where
  | event (event : Event)
  | ack (issue : Issue)

/-- The event of the gate: `process_ack` unloads by the rowid, and a time is only looked at when no
message has it. -/
def Stimulus.toEvent : Stimulus → Event
  | .event occurred => occurred
  | .ack issue => .onMessage issue.rowid

namespace Ledger

/-- The messages of the queue after an event: a message stored comes last, in the topic of now, and
the first one with the rowid of an acknowledgement leaves. -/
def queuedAfter (ledger : Ledger) : Event → List Issue
  | .sendMessage true => ledger.queued ++ [⟨ledger.generation, ledger.gate.topicSize + 1⟩]
  | .onMessage rowid => ledger.queued.eraseP (·.rowid = rowid)
  | _ => ledger.queued

/-- The gate after `mt_start`. -/
def start (loaded : Loaded) : Ledger :=
  ⟨Gate.start loaded.topicSize loaded.rowids, 0, loaded.rowids.map (Issue.mk 0), []⟩

/-- One event. -/
def step (config : Config) (ledger : Ledger) (stimulus : Stimulus) : Ledger :=
  let event := stimulus.toEvent
  let outcome := ledger.gate.step config event
  { gate := outcome.gate
    generation := if outcome.backedUp then ledger.generation + 1 else ledger.generation
    queued := ledger.queuedAfter event
    sent := ledger.sent ++ outcome.sent.map (Issue.mk ledger.generation) }

end Ledger

/-- An acknowledgement of a message that was sent takes no other message out of the queue. -/
def RemovesOwn (config : Config) (ledger : Ledger) : Stimulus → Prop
  | .ack issue => issue ∈ ledger.sent →
    ∀ other ∈ ledger.queued, other ∉ (ledger.step config (.ack issue)).queued → other = issue
  | .event _ => True

/-- An acknowledgement answers a message of the topic of now, or none is queued under its rowid. -/
def AnswersCurrent (ledger : Ledger) : Stimulus → Prop
  | .ack issue => issue ∈ ledger.sent → issue.generation = ledger.generation ∨
    ∀ msg ∈ ledger.gate.trqMsgs, msg.rowid ≠ issue.rowid
  | .event _ => True

/-- The messages of the queue are those of the gate, stored in the topic of now one after
another. -/
structure Ledger.Kept (ledger : Ledger) : Prop where
  msgs : ledger.queued.map Issue.rowid = ledger.gate.trqMsgs.map QMsg.rowid
  current : ∀ issue ∈ ledger.queued, issue.generation = ledger.generation
  ascending : (ledger.queued.map Issue.rowid).Pairwise (· < ·)
  rows : ∀ issue ∈ ledger.queued, issue.rowid ≤ ledger.gate.topicSize

section Gate

variable (config : Config) (gate : Gate)

theorem sendIfOpened_topicSize : (gate.sendIfOpened config).1.topicSize = gate.topicSize := by
  unfold Gate.sendIfOpened Gate.sendBatchMessages
  split <;> rfl

theorem sendOneMessage_topicSize : (gate.sendOneMessage config).1.topicSize = gate.topicSize := by
  unfold Gate.sendOneMessage
  split
  · rfl
  · split <;> rfl

theorem dequeueMsg_topicSize (rowid : Nat) : (gate.dequeueMsg rowid).topicSize = gate.topicSize := by
  unfold Gate.dequeueMsg
  split <;> rfl

theorem dequeueMsg_trqMsgs (rowid : Nat) :
    (gate.dequeueMsg rowid).trqMsgs = gate.trqMsgs.eraseP (·.rowid = rowid) := by
  unfold Gate.dequeueMsg
  split
  · rename_i absent
    rw [eraseP_of_forall_not]
    intro msg among
    simpa using List.find?_eq_none.1 absent msg among
  · rfl

theorem acSendMessage_stored :
    (gate.acSendMessage config true).gate.trqMsgs.map QMsg.rowid =
        gate.trqMsgs.map QMsg.rowid ++ [gate.topicSize + 1] ∧
      (gate.acSendMessage config true).gate.topicSize = gate.topicSize + 1 := by
  let stored : Gate := { gate with
    trqMsgs := gate.trqMsgs ++ [{ rowid := gate.topicSize + 1 }]
    topicSize := gate.topicSize + 1 }
  have rowids : stored.trqMsgs.map QMsg.rowid =
      gate.trqMsgs.map QMsg.rowid ++ [gate.topicSize + 1] := by
    rw [map_append]
    rfl
  have result : (gate.acSendMessage config true).gate =
      if stored.bottomSideOpened then (stored.sendOneMessage config).1 else stored := by
    unfold Gate.acSendMessage Gate.enqueueMessage
    rw [if_pos rfl]
    dsimp only
    split <;> rfl
  rw [result]
  split
  · rw [Gate.sendOneMessage_rowids, sendOneMessage_topicSize]
    exact ⟨rowids, rfl⟩
  · exact ⟨rowids, rfl⟩

end Gate

namespace Ledger.Kept

variable {config : Config} {ledger : Ledger}

theorem start (loaded : Loaded) : (Ledger.start loaded).Kept where
  msgs := by
    show (loaded.rowids.map (Issue.mk 0)).map Issue.rowid =
      (loaded.rowids.map fun rowid => ({ rowid := rowid } : QMsg)).map QMsg.rowid
    rw [map_map, map_map]
    rfl
  current issue among := by
    have mapped : issue ∈ loaded.rowids.map (Issue.mk 0) := among
    rw [mem_map] at mapped
    obtain ⟨rowid, -, rfl⟩ := mapped
    rfl
  ascending := by
    show ((loaded.rowids.map (Issue.mk 0)).map Issue.rowid).Pairwise (· < ·)
    rw [map_map]
    exact (map_id loaded.rowids).symm ▸ loaded.ascending
  rows issue among := by
    have mapped : issue ∈ loaded.rowids.map (Issue.mk 0) := among
    rw [mem_map] at mapped
    obtain ⟨rowid, isRow, rfl⟩ := mapped
    exact loaded.rows rowid isRow

theorem of_gate (kept : ledger.Kept) {gate : Gate} (sent : List Issue)
    (msgs : gate.trqMsgs.map QMsg.rowid = ledger.gate.trqMsgs.map QMsg.rowid)
    (size : gate.topicSize = ledger.gate.topicSize) :
    Ledger.Kept ⟨gate, ledger.generation, ledger.queued, sent⟩ :=
  ⟨kept.msgs.trans msgs.symm, kept.current, kept.ascending, fun issue among =>
    size.symm ▸ kept.rows issue among⟩

theorem eraseP_msgs (kept : ledger.Kept) (rowid : Nat) :
    (ledger.queued.eraseP (·.rowid = rowid)).map Issue.rowid =
      (ledger.gate.trqMsgs.eraseP (·.rowid = rowid)).map QMsg.rowid := by
  have first : (ledger.queued.map Issue.rowid).eraseP (fun other => other = rowid) =
      (ledger.queued.eraseP (·.rowid = rowid)).map Issue.rowid := eraseP_map ..
  have second : (ledger.gate.trqMsgs.map QMsg.rowid).eraseP (fun other => other = rowid) =
      (ledger.gate.trqMsgs.eraseP (·.rowid = rowid)).map QMsg.rowid := eraseP_map ..
  rw [kept.msgs] at first
  exact first.symm.trans second

theorem step (kept : ledger.Kept) (stimulus : Stimulus) : (ledger.step config stimulus).Kept := by
  unfold Ledger.step
  generalize stimulus.toEvent = event
  dsimp only
  cases event with
  | sendMessage saved =>
    cases saved with
    | false => exact kept.of_gate _ rfl rfl
    | true =>
      have stored := acSendMessage_stored config ledger.gate
      have notMoved : (ledger.gate.acSendMessage config true).backedUp = false := by
        unfold Gate.acSendMessage Gate.enqueueMessage
        rw [if_pos rfl]
        dsimp only
        split <;> rfl
      have rowids : (ledger.queuedAfter (.sendMessage true)).map Issue.rowid =
          ledger.queued.map Issue.rowid ++ [ledger.gate.topicSize + 1] := by
        unfold Ledger.queuedAfter
        rw [map_append]
        rfl
      have cases_of : ∀ issue ∈ ledger.queuedAfter (.sendMessage true),
          issue ∈ ledger.queued ∨ issue = ⟨ledger.generation, ledger.gate.topicSize + 1⟩ := by
        intro issue among
        unfold Ledger.queuedAfter at among
        rw [mem_append, mem_singleton] at among
        exact among
      constructor
      · rw [rowids, kept.msgs]
        exact stored.1.symm
      · intro issue among
        show issue.generation = if (ledger.gate.acSendMessage config true).backedUp = true then _
          else _
        rw [notMoved, if_neg Bool.false_ne_true]
        rcases cases_of issue among with old | new
        · exact kept.current issue old
        · rw [new]
      · rw [rowids, pairwise_append]
        refine ⟨kept.ascending, pairwise_singleton _ _, ?_⟩
        intro first isFirst last isLast
        rw [mem_map] at isFirst
        obtain ⟨issue, among, rfl⟩ := isFirst
        rw [mem_singleton.1 isLast]
        exact Nat.lt_succ_of_le (kept.rows issue among)
      · intro issue among
        show issue.rowid ≤ (ledger.gate.acSendMessage config true).gate.topicSize
        rw [stored.2]
        rcases cases_of issue among with old | new
        · exact Nat.le_succ_of_le (kept.rows issue old)
        · rw [new]
  | onMessage rowid =>
    have left : ∀ issue ∈ ledger.queued.eraseP (·.rowid = rowid), issue ∈ ledger.queued :=
      fun issue among => mem_of_mem_eraseP among
    show Ledger.Kept ⟨((ledger.gate.dequeueMsg rowid).sendIfOpened config).1, ledger.generation,
      ledger.queued.eraseP (·.rowid = rowid), _⟩
    constructor
    · rw [Gate.sendIfOpened_rowids, dequeueMsg_trqMsgs]
      exact kept.eraseP_msgs rowid
    · exact fun issue among => kept.current issue (left issue among)
    · exact kept.ascending.sublist (eraseP_sublist.map Issue.rowid)
    · intro issue among
      rw [sendIfOpened_topicSize, dequeueMsg_topicSize]
      exact kept.rows issue (left issue among)
  | onOpen =>
    exact kept.of_gate _ (Gate.sendBatchMessages_rowids config _) rfl
  | onClose =>
    apply kept.of_gate
    · show (ledger.gate.trqMsgs.map fun msg => { msg with pending := false }).map QMsg.rowid = _
      rw [map_map]
      rfl
    · rfl
  | timeout backupDue =>
    have rowids := ledger.gate.sendIfOpened_rowids config
    have size := sendIfOpened_topicSize config ledger.gate
    rcases ledger.gate.acTimeout_cases config backupDue with same | ⟨next, empty, backup, moved⟩
    · have result : ledger.gate.step config (.timeout backupDue) = _ := same
      rw [result]
      exact kept.of_gate _ rowids size
    · have result : ledger.gate.step config (.timeout backupDue) = _ := moved
      have none : ledger.queued = [] := by
        have msgs := kept.msgs
        rw [← rowids, empty] at msgs
        exact map_eq_nil_iff.1 msgs
      have still : next.trqMsgs = [] := by
        unfold Gate.checkBackup at backup
        split at backup
        · rw [← Option.some.inj backup]
          exact empty
        · cases backup
      rw [result]
      show Ledger.Kept ⟨next, ledger.generation + 1, ledger.queued, _⟩
      rw [none]
      constructor
      · rw [still]
        rfl
      · exact fun issue among => absurd among not_mem_nil
      · exact List.Pairwise.nil
      · exact fun issue among => absurd among not_mem_nil
  | ignored => exact kept.of_gate _ rfl rfl

end Ledger.Kept

/-- An acknowledgement takes out no other message exactly when it answers one of the topic of now or
its rowid is not queued. -/
theorem removesOwn_iff {config : Config} {ledger : Ledger} (kept : ledger.Kept)
    (stimulus : Stimulus) :
    RemovesOwn config ledger stimulus ↔ AnswersCurrent ledger stimulus := by
  cases stimulus with
  | event event => exact Iff.rfl
  | ack issue =>
    apply imp_congr Iff.rfl
    have after : (ledger.step config (.ack issue)).queued =
        ledger.queued.eraseP (·.rowid = issue.rowid) := rfl
    have distinct : (ledger.queued.map Issue.rowid).Nodup :=
      kept.ascending.imp fun below => Nat.ne_of_lt below
    rw [after]
    constructor
    · intro own
      rw [or_iff_not_imp_left]
      rintro stale msg among same
      have isQueued : issue.rowid ∈ ledger.queued.map Issue.rowid := by
        rw [kept.msgs, ← same]
        exact mem_map_of_mem among
      rw [mem_map] at isQueued
      have ⟨other, queued, isRow⟩ := isQueued
      have left : other ∉ ledger.queued.eraseP (·.rowid = issue.rowid) := by
        intro still
        have rowids : (ledger.queued.eraseP (·.rowid = issue.rowid)).map Issue.rowid =
            (ledger.queued.map Issue.rowid).erase issue.rowid := by
          rw [erase_eq_eraseP', eraseP_map]
          rfl
        have there : other.rowid ∈ (ledger.queued.map Issue.rowid).erase issue.rowid :=
          rowids ▸ mem_map_of_mem still
        rw [isRow] at there
        exact distinct.not_mem_erase there
      have isOther := own other queued left
      apply stale
      rw [← isOther]
      exact kept.current other queued
    · rintro answers other among left
      have sameRow : other.rowid = issue.rowid := by
        by_contra apart
        exact left ((mem_eraseP_of_neg (by simpa using apart)).2 among)
      rcases answers with current | absent
      · have isCurrent := kept.current other among
        have one : other = ⟨ledger.generation, issue.rowid⟩ :=
          (Issue.rowid_iff isCurrent issue.rowid).1 sameRow
        have two : issue = ⟨ledger.generation, issue.rowid⟩ :=
          (Issue.rowid_iff current issue.rowid).1 rfl
        exact one.trans two.symm
      · have isMsg : other.rowid ∈ ledger.gate.trqMsgs.map QMsg.rowid := by
          rw [← kept.msgs]
          exact mem_map_of_mem among
        rw [mem_map] at isMsg
        have ⟨msg, isMsg, isRow⟩ := isMsg
        exact absurd (isRow.trans sameRow) (absent msg isMsg)

/-- Along any run, acknowledgements take out no other messages exactly when each answers a message
of the topic of now or one whose rowid is not queued. -/
theorem acks_remove_own_iff (config : Config) (loaded : Loaded) (stimuli : List Stimulus) :
    AllSteps (Ledger.step config) (RemovesOwn config) (Ledger.start loaded) stimuli ↔
      AllSteps (Ledger.step config) AnswersCurrent (Ledger.start loaded) stimuli := by
  have keeps : ∀ ledger : Ledger, ∀ stimulus ∈ stimuli, ledger.Kept →
      AnswersCurrent ledger stimulus → (ledger.step config stimulus).Kept :=
    fun _ stimulus _ kept _ => kept.step stimulus
  exact allSteps_congr (Ledger.step config) keeps
    (fun _ stimulus _ kept => removesOwn_iff kept stimulus) (Ledger.Kept.start loaded)

/-- A gate that moves its topic away as soon as it has a row. -/
def movingConfig : Config := .unlimited true 1

/-- A message is acknowledged, the topic moved away and another message stored; the acknowledgement
of the first one comes again and takes out the second. -/
theorem repeated_ack_unloads_another :
    let stimuli : List Stimulus := [.event .onOpen, .event (.sendMessage true), .ack ⟨0, 1⟩,
      .event (.timeout true), .event (.sendMessage true)]
    let ledger := run (Ledger.step movingConfig) (Ledger.start Loaded.empty) stimuli
    ⟨0, 1⟩ ∈ ledger.sent ∧ ledger.queued = [⟨1, 1⟩] ∧
      (ledger.step movingConfig (.ack ⟨0, 1⟩)).queued = [] ∧
      ¬ AllSteps (Ledger.step movingConfig) (RemovesOwn movingConfig) (Ledger.start Loaded.empty)
        (stimuli ++ [.ack ⟨0, 1⟩]) := by
  refine ⟨by decide, by decide, by decide, ?_⟩
  intro all
  have own : RemovesOwn movingConfig _ (.ack ⟨0, 1⟩) := all.2.2.2.2.2.1
  have another := own (by decide) ⟨1, 1⟩ (by decide) (by decide)
  exact absurd another (by decide)

end Yunetas.Qiogate
