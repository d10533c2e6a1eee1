import Yunetas.Lib.Run
import Yunetas.Qiogate.Window

/-!
# Messages leave the gate in order

Over any run of the gate, the messages sent on one connection go out in the order they were
stored, each once; `pending_acks` counts the marked messages and keeps to its limit; what is
queued while the bottom side is open has been sent on this connection or finds no room; and only
the acknowledgement naming it takes a message out. Rowids themselves restart at 1 when a timeout
moves a large topic away, and the counter, a `uint32_t`, wraps around without a limit.
-/

namespace Yunetas.Qiogate

open List

/-- What `trq_load` leaves in the queue: pending rows of the topic, in order. -/
structure Loaded where
  topicSize : Nat
  rowids : List Nat
  ascending : rowids.Pairwise (· < ·)
  rows : ∀ rowid ∈ rowids, rowid ≤ topicSize

theorem ascending_nil : ([] : List Nat).Pairwise (· < ·) := .nil

theorem rows_nil : ∀ rowid ∈ ([] : List Nat), rowid ≤ 0 := fun _ none => absurd none not_mem_nil

/-- An empty topic. -/
def Loaded.empty : Loaded := ⟨0, [], ascending_nil, rows_nil⟩

/-- A gate with what it sent on the current connection. -/
structure Trace where
  gate : Gate
  generation : Nat
  connection : List Issue

namespace Trace

/-- The gate after `mt_start`. -/
def start (loaded : Loaded) : Trace := ⟨Gate.start loaded.topicSize loaded.rowids, 0, []⟩

/-- One event. -/
def step (config : Config) (trace : Trace) (event : Event) : Trace :=
  let outcome := trace.gate.step config event
  { gate := outcome.gate
    generation := if outcome.backedUp then trace.generation + 1 else trace.generation
    connection := (if event = .onClose then [] else trace.connection) ++
      outcome.sent.map (Issue.mk trace.generation) }

end Trace

/-- Fewer messages are queued than `pending_acks` can count. -/
def Countable (trace : Trace) : Prop := trace.gate.trqMsgs.length < 2 ^ 32

/-- What the gate promises in a state; `countable` says that the queue never grew beyond what its
counter can count. -/
structure Orderly (config : Config) (countable : Prop) (trace : Trace) : Prop where
  ascending : trace.connection.Pairwise Issue.before
  /-- `pending_acks` counts the marked messages. -/
  counted : config.maxPendingAcks ≠ 0 ∨ countable →
    trace.gate.pendingAcks = trace.gate.trqMsgs.countP (·.pending)
  limited : config.maxPendingAcks ≠ 0 → trace.gate.pendingAcks ≤ config.maxPendingAcks
  /-- While the bottom side is open, a queued message was sent on this connection, or it is
  unmarked and there is no room for it. -/
  resent : trace.gate.bottomSideOpened = true → ∀ msg ∈ trace.gate.trqMsgs,
    ⟨trace.generation, msg.rowid⟩ ∈ trace.connection ∨
      (msg.pending = false ∧ hasRoom config trace.gate.pendingAcks = false)
  kept : ∀ event, ∀ msg ∈ trace.gate.trqMsgs, event ≠ .onMessage msg.rowid →
    msg.rowid ∈ (trace.step config event).gate.trqMsgs.map QMsg.rowid

theorem length_of_rowids {msgs others : List QMsg}
    (same : msgs.map QMsg.rowid = others.map QMsg.rowid) : msgs.length = others.length := by
  simpa using congrArg List.length same

/-- The window of a gate in a run. -/
structure Windowed (config : Config) (exact : Prop) (trace : Trace) (window : Window Issue) :
    Prop where
  represents : Represents config exact trace.generation trace.gate window
  ordered : window.Ordered Issue.before trace.connection
  within : window.Within config.limit
  full : trace.gate.bottomSideOpened = true → window.Full config.limit
  stored : ∀ issue ∈ trace.connection,
    issue.before ⟨trace.generation, trace.gate.topicSize + 1⟩

namespace Windowed

variable {config : Config} {exact : Prop} {trace : Trace} {window : Window Issue}

theorem fill {gate : Gate} {connection : List Issue} {sent : List Nat} {generation : Nat}
    (represents : Represents config exact generation gate (window.fill config.limit))
    (ordered : window.Ordered Issue.before connection)
    (within : window.Within config.limit)
    (stored : ∀ issue ∈ connection, issue.before ⟨generation, gate.topicSize + 1⟩)
    (batch : sent = (window.batch config.limit).map Issue.rowid) :
    Windowed config exact ⟨gate, generation, connection ++ sent.map (Issue.mk generation)⟩
      (window.fill config.limit) := by
  have rows : ∀ issue ∈ window.batch config.limit,
      issue.generation = generation ∧ issue.rowid ≤ gate.topicSize := by
    intro issue among
    refine represents.rows issue (mem_append_left _ ?_)
    exact mem_append_right _ among
  have issues : sent.map (Issue.mk generation) = window.batch config.limit := by
    rw [batch]
    exact Issue.mk_rowids fun issue among => (rows issue among).1
  rw [issues]
  refine ⟨represents, ordered.fill config.limit, Window.fill_within within,
    fun _ => Window.fill_full _ _, ?_⟩
  intro issue among
  rcases mem_append.1 among with old | new
  · exact stored issue old
  · exact .inr ⟨(rows issue new).1, Nat.lt_succ_of_le (rows issue new).2⟩

theorem sendIfOpened {gate : Gate} {generation : Nat} {connection : List Issue}
    (represents : Represents config exact generation gate window)
    (ordered : window.Ordered Issue.before connection) (within : window.Within config.limit)
    (stored : ∀ issue ∈ connection, issue.before ⟨generation, gate.topicSize + 1⟩)
    (small : exact → config.maxPendingAcks = 0 → gate.trqMsgs.length < 2 ^ 32) :
    ∃ next, Windowed config exact ⟨(gate.sendIfOpened config).1, generation,
        connection ++ (gate.sendIfOpened config).2.map (Issue.mk generation)⟩ next := by
  unfold Gate.sendIfOpened
  cases opened : gate.bottomSideOpened with
  | false =>
    refine ⟨window, ?_⟩
    rw [if_neg (by simp), map_nil, append_nil]
    exact ⟨represents, ordered, within, fun shut => absurd (opened.symm.trans shut) (by simp),
      stored⟩
  | true =>
    rw [if_pos rfl]
    have ⟨filled, batch, _, size⟩ := represents.sendBatchMessages opened small within
    refine ⟨_, fill filled ordered within ?_ batch⟩
    rw [size]
    exact stored

theorem step (windowed : Windowed config exact trace window) (event : Event)
    (small : exact → config.maxPendingAcks = 0 → Countable (trace.step config event)) :
    ∃ next, Windowed config exact (trace.step config event) next := by
  have nothing : Windowed config exact
      ⟨trace.gate, trace.generation, trace.connection ++ [].map (Issue.mk trace.generation)⟩
      window := by
    rw [map_nil, append_nil]
    exact windowed
  cases event with
  | sendMessage saved =>
    cases saved with
    | false => exact ⟨window, nothing⟩
    | true =>
      cases stored : trace.gate.enqueueMessage true with
      | none => simp [Gate.enqueueMessage] at stored
      | some gate =>
        obtain ⟨pushed, opening, size⟩ := windowed.represents.enqueueMessage stored
        have later : ∀ issue ∈ trace.connection,
            issue.before ⟨trace.generation, gate.topicSize + 1⟩ := by
          intro issue among
          rw [size]
          rcases windowed.stored issue among with older | ⟨same, below⟩
          · exact .inl older
          · exact .inr ⟨same, Nat.lt_succ_of_lt below⟩
        have ordered : (window.push ⟨trace.generation, trace.gate.topicSize + 1⟩).Ordered
            Issue.before trace.connection := by
          refine windowed.ordered.push ?_ windowed.stored
          intro issue among
          have row := windowed.represents.rows issue among
          exact .inr ⟨row.1, Nat.lt_succ_of_le row.2⟩
        have within : (window.push ⟨trace.generation, trace.gate.topicSize + 1⟩).Within
            config.limit := windowed.within
        cases opened : gate.bottomSideOpened with
        | false =>
          have result : trace.step config (.sendMessage true) =
              ⟨gate, trace.generation, trace.connection⟩ := by
            simp [Trace.step, Gate.step, Gate.acSendMessage, stored, opened]
          rw [result]
          exact ⟨_, pushed, ordered, within,
            fun shut => absurd (opened.symm.trans shut) (by simp), later⟩
        | true =>
          have result : trace.step config (.sendMessage true) =
              ⟨(gate.sendOneMessage config).1, trace.generation, trace.connection ++
                (gate.sendOneMessage config).2.map (Issue.mk trace.generation)⟩ := by
            simp [Trace.step, Gate.step, Gate.acSendMessage, stored, opened]
          rw [result] at small ⊢
          have short : exact → config.maxPendingAcks = 0 → gate.trqMsgs.length < 2 ^ 32 := by
            intro exactly unlimited
            have short := small exactly unlimited
            rwa [Countable, length_of_rowids (gate.sendOneMessage_rowids config)] at short
          obtain ⟨filled, batch, _, kept⟩ := pushed.sendOneMessage opened short
            (windowed.full (opening.symm.trans opened))
          refine ⟨_, fill filled ordered within ?_ batch⟩
          rw [kept]
          exact later
  | onMessage rowid =>
    obtain ⟨taken, _, size⟩ := windowed.represents.dequeueMsg rowid
    refine sendIfOpened taken (windowed.ordered.acknowledge _)
      (Window.acknowledge_within windowed.within _) ?_ ?_
    · rw [size]
      exact windowed.stored
    · intro exactly unlimited
      have short := small exactly unlimited
      have same : (trace.step config (.onMessage rowid)).gate =
          ((trace.gate.dequeueMsg rowid).sendIfOpened config).1 := rfl
      rwa [Countable, same, length_of_rowids (Gate.sendIfOpened_rowids _ _)] at short
  | onOpen =>
    have short : exact → config.maxPendingAcks = 0 → trace.gate.trqMsgs.length < 2 ^ 32 := by
      intro exactly unlimited
      have short := small exactly unlimited
      have same : (trace.step config .onOpen).gate =
          (({ trace.gate with bottomSideOpened := true } : Gate).sendBatchMessages config).1 :=
        rfl
      rwa [Countable, same, length_of_rowids (Gate.sendBatchMessages_rowids _ _)] at short
    let gate := (Gate.sendBatchMessages config { trace.gate with bottomSideOpened := true }).1
    obtain ⟨filled, batch, _, size⟩ :=
      windowed.represents.opened.sendBatchMessages rfl short windowed.within
    have stored := windowed.stored
    rw [← size] at stored
    exact ⟨_, fill filled windowed.ordered windowed.within stored batch⟩
  | onClose =>
    refine ⟨window.reset, windowed.represents.acOnClose, windowed.ordered.reset, ?_, ?_, ?_⟩
    · intro most limited
      exact Nat.zero_le _
    · intro opened
      exact absurd opened (by simp [Trace.step, Gate.step, Gate.acOnClose, Gate.resetSoftQueue])
    · intro issue among
      exact absurd among not_mem_nil
  | timeout backupDue =>
    have short : exact → config.maxPendingAcks = 0 → trace.gate.trqMsgs.length < 2 ^ 32 := by
      intro exactly unlimited
      have short := small exactly unlimited
      have same : (trace.step config (.timeout backupDue)).gate =
          (trace.gate.acTimeout config backupDue).gate := rfl
      rwa [Countable, same, length_of_rowids (Gate.acTimeout_rowids _ _ _)] at short
    obtain ⟨next, sent⟩ := sendIfOpened windowed.represents windowed.ordered windowed.within
      windowed.stored short
    have result := Gate.acTimeout_cases config trace.gate backupDue
    rcases result with unchanged | ⟨gate, empty, backup, moved⟩
    · refine ⟨next, ?_⟩
      have after : trace.step config (.timeout backupDue) =
          ⟨(trace.gate.sendIfOpened config).1, trace.generation, trace.connection ++
            (trace.gate.sendIfOpened config).2.map (Issue.mk trace.generation)⟩ := by
        simp [Trace.step, Gate.step, unchanged]
      rw [after]
      exact sent
    · obtain ⟨represents, nothing, _⟩ := sent.represents.checkBackup empty backup
      refine ⟨next, ?_⟩
      have after : trace.step config (.timeout backupDue) =
          ⟨gate, trace.generation + 1, trace.connection ++
            (trace.gate.sendIfOpened config).2.map (Issue.mk trace.generation)⟩ := by
        simp [Trace.step, Gate.step, moved]
      rw [after]
      refine ⟨represents, sent.ordered, sent.within, ?_, ?_⟩
      · intro opened
        left
        exact (append_eq_nil_iff.1 nothing).2
      · intro issue among
        left
        rcases sent.stored issue among with older | ⟨same, -⟩
        · exact Nat.lt_succ_of_lt older
        · exact Nat.lt_succ_of_le (Nat.le_of_eq same)
  | ignored => exact ⟨window, nothing⟩

theorem orderly {countable : Prop}
    (windowed : Windowed config (config.maxPendingAcks ≠ 0 ∨ countable) trace window) :
    Orderly config countable trace where
  ascending := windowed.ordered.logged
  counted exactly := by
    rw [windowed.represents.countP_pending]
    exact windowed.represents.count exactly
  limited limit := by
    rw [windowed.represents.counted limit]
    exact windowed.within config.maxPendingAcks (by simp [Config.limit, limit])
  resent opened msg among := by
    rw [windowed.represents.msgs, mem_append, mem_map, mem_map] at among
    rcases among with ⟨issue, sent, rfl⟩ | ⟨issue, waits, rfl⟩
    · left
      have row := windowed.represents.rows issue (mem_append_left _ sent)
      rw [← row.1]
      exact windowed.ordered.sent issue sent
    · right
      refine ⟨rfl, ?_⟩
      rcases windowed.full opened with empty | ⟨most, limit, reached⟩
      · rw [empty] at waits
        exact absurd waits not_mem_nil
      · unfold Config.limit at limit
        split at limit
        · cases limit
        · rename_i limited
          rw [Option.some.injEq] at limit
          have counted := windowed.represents.counted limited
          simp [hasRoom, limited]
          omega
  kept event msg among other := trace.gate.step_kept config event among other

end Windowed

theorem Windowed.start (config : Config) (exact : Prop) (loaded : Loaded)
    (limited : config.maxPendingAcks ≠ 0 → exact) :
    Windowed config exact (Trace.start loaded) ⟨[], loaded.rowids.map (Issue.mk 0)⟩ where
  represents := by
    constructor
    · simp [Trace.start, Gate.start, Issue.waitingMsg]
    · intro rowid cursor
      cases cursor
    · intro _
      rfl
    · exact limited
    · intro issue among
      rw [Window.queue, nil_append, mem_map] at among
      obtain ⟨rowid, row, rfl⟩ := among
      exact ⟨rfl, loaded.rows rowid row⟩
    · intro _
      rfl
  ordered := by
    constructor
    · rw [Window.queue, nil_append, pairwise_map]
      exact loaded.ascending.imp fun below => .inr ⟨rfl, below⟩
    · exact List.Pairwise.nil
    · intro issue among
      exact absurd among not_mem_nil
    · intro issue among
      exact absurd among not_mem_nil
  within _ _ := Nat.zero_le _
  full opened := absurd opened (by simp [Trace.start, Gate.start])
  stored issue among := absurd among not_mem_nil

theorem Windowed.run {config : Config} {exact : Prop} {trace : Trace} {window : Window Issue}
    (windowed : Windowed config exact trace window) (events : List Event)
    (small : exact → config.maxPendingAcks = 0 →
      AllStates (Trace.step config) Countable trace events) :
    AllStates (Trace.step config) (fun trace => ∃ window, Windowed config exact trace window)
      trace events := by
  induction events generalizing trace window with
  | nil => exact ⟨window, windowed⟩
  | cons event rest ih =>
    have later : exact → config.maxPendingAcks = 0 →
        AllStates (Trace.step config) Countable (trace.step config event) rest :=
      fun exactly unlimited => (small exactly unlimited).2
    have ⟨next, kept⟩ := windowed.step event
      fun exactly unlimited => (later exactly unlimited).first
    exact ⟨⟨window, windowed⟩, ih kept later⟩

/-- In every state of every run, the gate is orderly: messages of one connection were sent in the
order they were stored and each once, the counter counts the marks as long as it can and keeps to
its limit, what is queued was sent on this connection or finds no room, and messages leave only
when they are acknowledged. -/
theorem gate_orderly (config : Config) (loaded : Loaded) (events : List Event) :
    AllStates (Trace.step config)
      (Orderly config
        (AllStates (Trace.step config) Countable (Trace.start loaded) events))
      (Trace.start loaded) events := by
  let countable := AllStates (Trace.step config) Countable (Trace.start loaded) events
  have start := Windowed.start config (config.maxPendingAcks ≠ 0 ∨ countable) loaded .inl
  have windowed := start.run events fun exactly unlimited =>
    exactly.resolve_left fun limited => limited unlimited
  apply windowed.mono
  rintro trace ⟨window, stands⟩
  exact stands.orderly

/-! ## What restarts and what wraps around -/

/-- A gate without a limit. -/
def Config.unlimited (backups : Bool) (backupQueueSize : Nat) : Config :=
  ⟨0, by decide, backups, backupQueueSize⟩

theorem send_unlimited {trace : Trace} (opened : trace.gate.bottomSideOpened = true)
    (all : ∀ msg ∈ trace.gate.trqMsgs, msg.pending = true) :
    let next := trace.step (Config.unlimited false 0) (.sendMessage true)
    next.gate.bottomSideOpened = true ∧ (∀ msg ∈ next.gate.trqMsgs, msg.pending = true) ∧
      next.gate.trqMsgs.length = trace.gate.trqMsgs.length + 1 ∧
      next.gate.pendingAcks = (trace.gate.pendingAcks + 1) % 2 ^ 32 := by
  have before : previousSent trace.gate.trqMsgs.reverse = true := by
    cases reversed : trace.gate.trqMsgs.reverse with
    | nil => rfl
    | cons previous rest =>
      refine all previous ?_
      rw [← mem_reverse, reversed]
      exact mem_cons_self ..
  have sent : Trace.step (Config.unlimited false 0) trace (.sendMessage true) =
      ⟨⟨trace.gate.trqMsgs ++ [⟨trace.gate.topicSize + 1, true⟩], trace.gate.topicSize + 1,
        some (trace.gate.topicSize + 1), true, (trace.gate.pendingAcks + 1) % 2 ^ 32⟩,
        trace.generation,
        trace.connection ++ [⟨trace.generation, trace.gate.topicSize + 1⟩]⟩ := by
    simp [Trace.step, Gate.step, Gate.acSendMessage, Gate.enqueueMessage, opened,
      Gate.sendOneMessage, before, hasRoom, Config.unlimited]
  rw [sent]
  refine ⟨rfl, ?_, by simp, rfl⟩
  intro msg among
  rcases mem_append.1 among with old | new
  · exact all msg old
  · rw [mem_singleton.1 new]

theorem sends_unlimited (count : Nat) :
    let trace := run (Trace.step (Config.unlimited false 0)) (Trace.start Loaded.empty)
      (.onOpen :: List.replicate count (.sendMessage true))
    trace.gate.bottomSideOpened = true ∧ (∀ msg ∈ trace.gate.trqMsgs, msg.pending = true) ∧
      trace.gate.trqMsgs.length = count ∧ trace.gate.pendingAcks = count % 2 ^ 32 := by
  induction count with
  | zero => decide
  | succ count ih =>
    have ⟨opened, all, length, counter⟩ := ih
    rw [replicate_succ', ← cons_append, run_append, run_cons, run_nil]
    have ⟨stays, marked, longer, counted⟩ := send_unlimited opened all
    refine ⟨stays, marked, longer.trans (by rw [length]), counted.trans ?_⟩
    rw [counter]
    omega

/-- Rowids repeat on one connection across a backup, and without a limit 2³² marked messages are
counted as none. -/
theorem rowids_restart_and_acks_wrap :
    (¬ ∀ (config : Config) (loaded : Loaded) (events : List Event),
      ((run (Trace.step config) (Trace.start loaded) events).connection.map
        Issue.rowid).Pairwise (· < ·)) ∧
    (¬ ∀ (config : Config) (loaded : Loaded) (events : List Event),
      let gate := (run (Trace.step config) (Trace.start loaded) events).gate
      gate.pendingAcks = gate.trqMsgs.countP (·.pending)) := by
  constructor
  · intro ascending
    have repeated := ascending (Config.unlimited true 1) Loaded.empty
      [.onOpen, .sendMessage true, .onMessage 1, .timeout true, .sendMessage true]
    have log : (run (Trace.step (Config.unlimited true 1))
        (Trace.start Loaded.empty)
        [.onOpen, .sendMessage true, .onMessage 1, .timeout true, .sendMessage true]).connection
        = [⟨0, 1⟩, ⟨1, 1⟩] := by decide
    rw [log] at repeated
    exact absurd repeated (by decide)
  · intro counted
    have wrapped := counted (Config.unlimited false 0) Loaded.empty
      (.onOpen :: List.replicate (2 ^ 32) (.sendMessage true))
    have ⟨_, all, length, counter⟩ := sends_unlimited (2 ^ 32)
    have marked := List.countP_eq_length.2 all
    rw [length] at marked
    simp only [counter, marked] at wrapped
    omega

end Yunetas.Qiogate
