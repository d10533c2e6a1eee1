import Yunetas.Modbus.Cursor

/-!
# Cycles of a master

Between two publications of the variables every map that is enabled is read once, in configuration order,
exactly where the positions that cannot be read stand in pairs. `next_map` is called again when the map
under the cursor is disabled, and the map behind it is not polled.
-/

namespace Yunetas.Modbus

open List

/-- A publication, or a request to read that goes out. -/
def Entry.polled : Entry → Option (Option Position)
  | .publish => some none
  | .read slave map bytes => if bytes = [] then none else some (some (slave, some map))
  | .write _ _ | .nothing | .drop => none

/-- The publications and the requests to read of a log. -/
def polled (log : List Entry) : List (Option Position) := log.filterMap Entry.polled

/-- A publication, or a map that the cursor visits. -/
def Entry.visited : Entry → Option (Option Position)
  | .publish => some none
  | .read slave map _ => some (some (slave, some map))
  | .write _ _ | .nothing | .drop => none

/-- The publications and the maps of a log. -/
def visited (log : List Entry) : List (Option Position) := log.filterMap Entry.visited

theorem visited_drops (log : List Entry) (drops : Nat) :
    visited (log ++ List.replicate drops .drop) = visited log := by
  unfold visited
  have none : (List.replicate drops Entry.drop).filterMap Entry.visited = [] := by
    rw [filterMap_eq_nil_iff]
    intro entry among
    rw [(mem_replicate.1 among).2]
    rfl
  rw [filterMap_append, none, append_nil]

theorem Turned.move {conf : Conf} {before after : Master} (turned : Turned conf before after) :
    Patrol.move enabled (positions before.slaves) (visited before.log, ahead before) =
      (visited after.log, ahead after) := by
  unfold visited
  cases turned with
  | read slave map type there on known state curMap curSlave tId modbusFunction log =>
    have fine : enabled (slave, some map) = true := by
      show (!map.disabled) = true
      rw [on]
      rfl
    rw [there, log, filterMap_append]
    unfold Patrol.move
    dsimp only
    rw [if_pos fine]
    rfl
  | publish last begins moved log =>
    rw [log, begins, filterMap_append]
    rcases last with ends | ⟨position, ends, off⟩
    · rw [ends]
      rfl
    · rw [ends]
      unfold Patrol.move
      dsimp only
      rw [if_neg (by simp [off])]
      rfl
  | skip position next there off moved log =>
    rw [there, log]
    unfold Patrol.move
    dsimp only
    rw [if_neg (by simp [off])]

/-- A master that made a number of moves over the positions of its slaves. -/
structure OnPatrol (conf : Conf) (slaves : List Slave) (master : Master) : Prop where
  slaves_eq : master.slaves = slaves
  fits : CursorFits master
  queue : master.queue = []
  moves : ∃ count, (Patrol.move enabled (positions slaves))^[count] ([], positions slaves) =
    (visited master.log, ahead master)
  reads : ∀ slave map bytes, .read slave map bytes ∈ master.log →
    (bytes = [] ↔ conf.protocol = .ascii)

variable {conf : Conf} {slaves : List Slave} {master : Master}

theorem OnPatrol.of_still {after : Master} (patrol : OnPatrol conf slaves master)
    (still : Still master after) : OnPatrol conf slaves after := by
  have ⟨drops, log⟩ := still.log
  have fits := patrol.fits.of_still still
  refine ⟨still.slaves.trans patrol.slaves_eq, fits.1, still.queue.trans patrol.queue, ?_, ?_⟩
  · rw [log, visited_drops, fits.2]
    exact patrol.moves
  · intro slave map bytes among
    rw [log, mem_append] at among
    rcases among with before | drop
    · exact patrol.reads slave map bytes before
    · exact absurd (mem_replicate.1 drop).2 (by simp)

theorem OnPatrol.goes_on (known : Known slaves) (patrol : OnPatrol conf slaves master) :
    OnPatrol conf slaves (cycle conf master) ∧
      Patrol.move enabled (positions slaves) (visited master.log, ahead master) =
        (visited (cycle conf master).log, ahead (cycle conf master)) := by
  have turn := turned_cycle conf patrol.fits (by rw [patrol.slaves_eq]; exact known)
  have ⟨fits, kept, turned⟩ := turn
  have move := turned.move
  rw [patrol.slaves_eq] at move
  have ⟨count, moves⟩ := patrol.moves
  refine ⟨⟨kept.slaves.trans patrol.slaves_eq, fits, kept.queue.trans patrol.queue,
    ⟨count + 1, ?_⟩, ?_⟩, move⟩
  · rw [Function.iterate_succ_apply', moves, move]
  · intro slave map bytes among
    have earlier := patrol.reads slave map bytes
    cases turned with
    | read other found type there on known_type state curMap curSlave tId modbusFunction log =>
      rw [log, mem_append, mem_singleton] at among
      rcases among with before | new
      · exact earlier before
      · have ⟨_, _, same⟩ := Entry.read.inj new
        rw [same, ← length_eq_zero_iff]
        unfold requestOf
        rw [length_readBytes]
        cases conf.protocol <;> decide
    | publish last begins moved log =>
      rw [log, mem_append, mem_singleton] at among
      exact earlier (among.resolve_right nofun)
    | skip position next there off moved log =>
      rw [log] at among
      exact earlier among

theorem nextTurn_eq (queue : master.queue = []) : nextTurn conf master = cycle conf master := by
  unfold nextTurn sendRequest
  rw [queue]

theorem OnPatrol.turn (known : Known slaves) (patrol : OnPatrol conf slaves master) :
    OnPatrol conf slaves (nextTurn conf master) := by
  rw [nextTurn_eq patrol.queue]
  exact (patrol.goes_on known).1

theorem OnPatrol.step (known : Known slaves) (patrol : OnPatrol conf slaves master) {op : Op}
    (no_write : ∀ request, op ≠ .sendMessage request) :
    OnPatrol conf slaves (master.step conf op) := by
  have receives (bf : List UInt8) : OnPatrol conf slaves (acRxData conf master bf) := by
    have received := patrol.of_still (received_drain conf master bf).toStill
    unfold acRxData
    dsimp only
    split
    · exact (received.of_still (still_resetMachine _ .connected)).turn known
    · exact received
  unfold Master.step
  split
  · exact patrol.of_still (still_resetMachine master .connected)
  · exact patrol.of_still (still_resetMachine master .disconnected)
  · exact patrol.of_still (still_resetMachine master .disconnected)
  · exact receives _
  · exact receives _
  · exact absurd rfl (no_write _)
  · exact absurd rfl (no_write _)
  · exact patrol.turn known
  · exact ((patrol.of_still (still_resetMachine master .connected)).goes_on known).1
  · exact patrol

theorem onPatrol_start (conf : Conf) (some_slave : slaves ≠ []) :
    OnPatrol conf (buildSlaveData slaves).2 (Master.start conf slaves) ∧
      (Master.start conf slaves).state = .disconnected ∧ (Master.start conf slaves).log = [] ∧
        ahead (Master.start conf slaves) = positions (buildSlaveData slaves).2 := by
  have ⟨first, rest, shape⟩ := exists_cons_of_ne_nil some_slave
  have begins : (Master.created conf slaves).slaves[(Master.created conf slaves).idxSlaves]? =
      some (buildSlave first).2 := by
    rw [shape]
    rfl
  have loaded := cursorFits_loaded begins
  have behind : ahead (loadSlaveMapping (.created conf slaves)) =
      positions (buildSlaveData slaves).2 := by
    rw [loaded.2, shape]
    rfl
  have nothing : (loadSlaveMapping (.created conf slaves)).log = [] := by
    rw [loadSlaveMapping_some begins]
    rfl
  have kept := moved_loadSlaveMapping (.created conf slaves)
  unfold Master.start
  refine ⟨⟨kept.slaves, loaded.1, kept.queue, ⟨0, ?_⟩, ?_⟩, kept.state, nothing, behind⟩
  · rw [behind, nothing]
    rfl
  · intro slave map bytes among
    rw [nothing] at among
    exact absurd among not_mem_nil

/-- A connected master polls on at every timeout, and every timeout is a move of the cursor. -/
theorem OnPatrol.timeouts (known : Known slaves) (count : Nat)
    (patrol : OnPatrol conf slaves master)
    (connected : master.state = .connected ∨ master.state = .waitResponse) :
    (visited (master.run conf (List.replicate count .timeout)).log,
        ahead (master.run conf (List.replicate count .timeout))) =
      (Patrol.move enabled (positions slaves))^[count] (visited master.log, ahead master) := by
  induction count generalizing master with
  | zero => rfl
  | succ count ih =>
    have reset := patrol.of_still (still_resetMachine master .connected)
    -- A timeout is a turn of the cursor in both states.
    have turn : ∃ before, OnPatrol conf slaves before ∧
        (before.state = .connected ∨ before.state = .waitResponse) ∧
          visited before.log = visited master.log ∧ ahead before = ahead master ∧
            master.step conf .timeout = cycle conf before := by
      unfold Master.step
      rcases connected with polling | waiting
      · rw [polling]
        exact ⟨master, patrol, .inl polling, rfl, rfl, nextTurn_eq patrol.queue⟩
      · rw [waiting]
        exact ⟨{ resetMachine master with state := .connected }, reset, .inl rfl, rfl, rfl, rfl⟩
    have ⟨before, going, state, log, there, same⟩ := turn
    have ⟨next, move⟩ := going.goes_on known
    have stays : (cycle conf before).state = .connected ∨
        (cycle conf before).state = .waitResponse := by
      have turned := (turned_cycle conf going.fits (by rw [going.slaves_eq]; exact known)).2.2
      cases turned with
      | read slave map type there on known_type state curMap curSlave tId modbusFunction log =>
        exact .inr state
      | publish last begins moved log =>
        rw [moved.state]
        exact state
      | skip position next there off moved log =>
        rw [moved.state]
        exact state
    have later := ih next stays
    rw [Function.iterate_succ_apply, ← log, ← there, move, ← later, ← same]
    rfl

theorem OnPatrol.polled_eq (patrol : OnPatrol conf slaves master) :
    polled master.log =
      if conf.protocol = .ascii then (visited master.log).filter (·.isNone) else visited master.log := by
  have reads := patrol.reads
  unfold polled visited
  generalize master.log = log at reads
  induction log with
  | nil => split <;> rfl
  | cons entry rest ih =>
    have later := ih fun slave map bytes among => reads slave map bytes (mem_cons_of_mem _ among)
    rw [filterMap_cons, filterMap_cons, later]
    cases entry with
    | read slave map bytes =>
      have here := reads slave map bytes mem_cons_self
      unfold Entry.polled Entry.visited
      dsimp only
      by_cases ascii : conf.protocol = .ascii
      · rw [if_pos ascii, if_pos ascii, if_pos (here.2 ascii)]
        rfl
      · rw [if_neg ascii, if_neg ascii, if_neg (fun empty => ascii (here.1 empty))]
    | publish =>
      unfold Entry.polled Entry.visited
      dsimp only
      split <;> rfl
    | write request bytes => rfl
    | nothing => rfl
    | drop => rfl

theorem OnPatrol.run (known : Known slaves) {ops : List Op}
    (no_writes : ∀ request, .sendMessage request ∉ ops) (patrol : OnPatrol conf slaves master) :
    OnPatrol conf slaves (master.run conf ops) := by
  have allowed : ∀ op ∈ ops, ∀ request, op ≠ .sendMessage request :=
    fun op among request same => no_writes request (same ▸ among)
  exact (AllSteps.invariant _ (fun _ _ patrol no_write => patrol.step known no_write) patrol
    (.of_mem _ allowed master)).last

theorem visitsEachRound_marks {log : List (Option Position)} :
    Patrol.VisitsEachRound (log.filter (·.isNone)) [] := by
  intro before round after split
  cases round with
  | nil => rfl
  | cons position rest =>
    have among : some position ∈ log.filter (·.isNone) := by
      rw [split]
      simp
    exact absurd (mem_filter.1 among).2 (by simp)

/-- **Cycles of a master.** Between two successive publications every map that is enabled is read once, in
configuration order, in every run without requests to write, exactly where the positions that cannot be
read and stand directly before one that can are even in number; in the protocol that is not implemented,
where no map is enabled. -/
theorem maps_polled_iff (conf : Conf) (slaves : List Slave) (some_slave : slaves ≠ []) :
    (∀ ops : List Op, (∀ request, .sendMessage request ∉ ops) →
      Patrol.VisitsEachRound (polled ((Master.start conf slaves).run conf ops).log)
        (enabledMaps (buildSlaveData slaves).2)) ↔
      Patrol.EvenGaps enabled (positions (buildSlaveData slaves).2) ∧
        (conf.protocol = .ascii → enabledMaps (buildSlaveData slaves).2 = []) := by
  have known := known_buildSlaveData slaves
  have ⟨start, state, log, behind⟩ := onPatrol_start conf some_slave
  rw [← filter_positions]
  generalize (buildSlaveData slaves).2 = built at known start behind ⊢
  generalize Master.start conf slaves = master at start state log behind ⊢
  -- A master that connects and times out again and again makes any number of moves.
  have runs (count : Nat) : ∃ ops, (∀ request, Op.sendMessage request ∉ ops) ∧
      OnPatrol conf built (master.run conf ops) ∧
        visited (master.run conf ops).log =
          ((Patrol.move enabled (positions built))^[count] ([], positions built)).1 := by
    have connects : master.step conf .connected = acConnected master := by
      unfold Master.step
      rw [state]
    have connect : OnPatrol conf built (acConnected master) :=
      start.of_still (still_resetMachine master .connected)
    have timeouts := connect.timeouts known count (.inl rfl)
    have ops : ∀ request, Op.sendMessage request ∉ .connected :: List.replicate count .timeout := by
      intro request among
      rcases List.mem_cons.1 among with first | later
      · exact absurd first (by simp)
      · exact absurd (List.mem_replicate.1 later).2 (by simp)
    have begins : (visited (acConnected master).log, ahead (acConnected master)) =
        ([], positions built) := by
      show (visited master.log, ahead master) = _
      rw [log, behind]
      rfl
    rw [begins] at timeouts
    refine ⟨.connected :: List.replicate count .timeout, ops, start.run known ops, ?_⟩
    rw [← timeouts, ← connects]
    rfl
  by_cases ascii : conf.protocol = .ascii
  · constructor
    · intro every
      have ⟨count, before, round⟩ :=
        @Patrol.moves_round Position enabled (positions built)
      have ⟨ops, no_writes, patrol, log⟩ := runs count
      have marks := every ops no_writes
      rw [patrol.polled_eq, if_pos ascii, log, round] at marks
      have none_left : [] = (positions built).filter enabled := by
        have no_mark : ((Patrol.survey enabled false (positions built)).map some).filter
            (·.isNone) = [] := by
          rw [List.filter_eq_nil_iff]
          intro element among
          have ⟨position, _, same⟩ := List.mem_map.1 among
          rw [← same]
          exact Bool.false_ne_true
        apply marks (before.filter (·.isNone)) [] []
        rw [List.filter_append, List.filter_append, List.filter_cons_of_pos rfl, no_mark]
        rfl
      refine ⟨?_, fun _ => none_left.symm⟩
      intro front first back split fine
      have among : first ∈ (positions built).filter enabled :=
        List.mem_filter.2 ⟨by rw [split]; simp, fine⟩
      rw [← none_left] at among
      exact absurd among List.not_mem_nil
    · intro nothing ops no_writes
      rw [(start.run known no_writes).polled_eq, if_pos ascii, nothing.2 ascii]
      exact visitsEachRound_marks
  · rw [← Patrol.visitsEachRound_iff]
    constructor
    · intro every
      refine ⟨fun count => ?_, fun same => absurd same ascii⟩
      have ⟨ops, no_writes, patrol, log⟩ := runs count
      have here := every ops no_writes
      rw [patrol.polled_eq, if_neg ascii, log] at here
      exact here
    · intro every ops no_writes
      have patrol := start.run known no_writes
      have ⟨count, moves⟩ := patrol.moves
      have here := every.1 count
      rw [moves] at here
      rw [patrol.polled_eq, if_neg ascii]
      exact here

/-- A slave whose maps can all be read. -/
def readableSlave : Slave :=
  ⟨1, [{ type := "coil", address := 0, size := 1 }, { type := "coil", address := 10, size := 1 }]⟩

/-- Both maps of a slave are read in a cycle. -/
theorem maps_polled_both :
    Patrol.VisitsEachRound
      (polled ((Master.start Conf.tcp [readableSlave]).run Conf.tcp
        [.connected, .timeout, .timeout, .timeout, .timeout, .timeout, .timeout]).log)
      (enabledMaps (buildSlaveData [readableSlave]).2) := by
  have gaps : Patrol.EvenGaps enabled (positions (buildSlaveData [readableSlave]).2) :=
    (Patrol.survey_eq_filter_iff _ _).1 (by decide)
  exact (maps_polled_iff Conf.tcp [readableSlave] (by decide)).2 ⟨gaps, nofun⟩ _ (by simp)

/-- A slave with a map of an unknown type before one that can be read. -/
def halfReadableSlave : Slave :=
  ⟨1, [{ type := "analog", address := 0, size := 1 }, { type := "coil", address := 10, size := 1 }]⟩

/-- The map behind a disabled one is never read. -/
theorem map_behind_disabled_not_polled :
    ¬ Patrol.VisitsEachRound
      (polled ((Master.start Conf.tcp [halfReadableSlave]).run Conf.tcp
        [.connected, .timeout, .timeout, .timeout, .timeout]).log)
      (enabledMaps (buildSlaveData [halfReadableSlave]).2) := by
  intro every
  have empty := every [] [] [] (by decide)
  exact absurd empty (by decide)

end Yunetas.Modbus
