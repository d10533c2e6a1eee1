import Yunetas.Modbus.Cursor

/-!
# The queue of write requests

Requests to write are sent in the order of their arrival, each once, as long as the request at the head of
the queue was not sent before and is valid whenever a handler looks at it. The head is released when it is
sent and stays in the queue, so that the next handler that looks reads memory that was freed.
-/

namespace Yunetas.Modbus

open List Bool Option

open Gobj (gbufferCreate)

/-- A request that `build_modbus_request_write_message` does not refuse. -/
def Request.accepted (request : Request) : Bool :=
  decide (uint16 request.size ≠ 0 ∧ uint16 request.size ≤ 123) && request.first.isSome &&
    (writeFunction (getObjectType request.type) (uint16 request.size)).isSome

/-- A request that goes out. -/
def Entry.request : Entry → Option Entry
  | .read slave map bytes => some (.read slave map bytes)
  | .write request bytes => some (.write request bytes)
  | .nothing => some .nothing
  | .publish | .drop => none

/-- The requests of a log. -/
def requestsOf (log : List Entry) : List Entry := log.filterMap Entry.request

/-- A request to write that goes out with bytes. -/
def Entry.written : Entry → Option Request
  | .write request bytes => if bytes = [] then none else some request
  | .publish | .read _ _ _ | .nothing | .drop => none

/-- The requests to write of a log. -/
def writtenOf (log : List Entry) : List Request := log.filterMap Entry.written

/-- The master in which a handler looks for the next request, where an event leads to one: the polling
timeout, or the end of a response. -/
def turnOf (conf : Conf) (master : Master) (op : Op) : Option Master :=
  let received (bf : List UInt8) : Option Master :=
    let looped := Chunked.drain (rxTurn conf) (master, false) bf
    if looped.2 then some { resetMachine looped.1 with state := .connected } else none
  match master.state, op with
  | .connected, .timeout => some master
  | .connected, .rxData bf | .waitResponse, .rxData bf => received bf
  | _, _ => none

/-- A master and the requests that arrived. -/
structure Session where
  /-- The requests of `EV_SEND_MESSAGE`. -/
  arrived : List Request
  master : Master

/-- An event arrives. -/
def Session.step (conf : Conf) (session : Session) (op : Op) : Session :=
  ⟨session.arrived ++ (match op with
    | .sendMessage request => [request]
    | _ => []), session.master.step conf op⟩

/-- A master that is connected. -/
def Session.start (conf : Conf) (slaves : List Slave) : Session :=
  ⟨[], acConnected (Master.start conf slaves)⟩

/-- The valid requests that were not sent. -/
def Session.waiting (session : Session) : List Request :=
  (session.arrived.filter Request.accepted).drop (writtenOf session.master.log).length

/-- What an event does to the requests to write. -/
structure SendsInOrder (conf : Conf) (session : Session) (op : Op) : Prop where
  alive : (session.step conf op).master.state ≠ .undefined
  order : writtenOf (session.step conf op).master.log <+:
    (session.step conf op).arrived.filter Request.accepted
  one : ∃ sent, requestsOf (session.step conf op).master.log =
    requestsOf session.master.log ++ sent ∧ sent.length ≤ 1
  alone : turnOf conf session.master op = none → op ≠ .timeout →
    requestsOf (session.step conf op).master.log = requestsOf session.master.log
  sends : ∀ base first rest, turnOf conf session.master op = some base →
    session.waiting = first :: rest →
      writtenOf (session.step conf op).master.log = writtenOf session.master.log ++ [first] ∧
        (session.step conf op).master.state = .waitResponse
  polls : ∀ base, turnOf conf session.master op = some base → session.waiting = [] →
    (session.step conf op).master = cycle conf base

/-- When a handler looks at the queue, the request at its head was not sent and is valid. -/
def HeadFits (conf : Conf) (session : Session) (op : Op) : Prop :=
  ∀ base first rest, turnOf conf session.master op = some base →
    session.master.queue = first :: rest → first.freed = false ∧ first.request.accepted = true

/-- The requests of a queue that has its first element sent at most. -/
structure Orderly (session : Session) : Prop where
  state : session.master.state = .connected ∨ session.master.state = .waitResponse
  arrived : session.master.queue.map Queued.request = session.arrived
  tail : ∀ queued ∈ session.master.queue.tail, queued.freed = false
  valid : ∀ queued ∈ session.master.queue, queued.freed = true → queued.request.accepted = true
  sent : writtenOf session.master.log =
    (session.master.queue.filter Queued.freed).map Queued.request

/-! ## What an event does -/

/-- What an event does to a master that is connected. -/
inductive Stepped (conf : Conf) (master : Master) (op : Op) : Prop
  | turn (base : Master) (here : turnOf conf master op = some base) (still : Still master base)
      (state : base.state = .connected) (step : master.step conf op = nextTurn conf base)
      (no_request : ∀ request, op ≠ .sendMessage request)
  | timeout (base : Master) (none_here : turnOf conf master op = none) (still : Still master base)
      (state : base.state = .connected) (step : master.step conf op = cycle conf base)
      (event : op = .timeout)
  | arrival (request : Request) (none_here : turnOf conf master op = none)
      (step : master.step conf op = acEnqueueTxMessage master request)
      (event : op = .sendMessage request)
  /-- Nothing is sent but `EV_DROP`. -/
  | quiet (none_here : turnOf conf master op = none) (still : Still master (master.step conf op))
      (state : (master.step conf op).state = master.state)
      (no_request : ∀ request, op ≠ .sendMessage request)

variable {master : Master}

theorem stepped_rxData {conf : Conf} {bf : List UInt8}
    (step : master.step conf (.rxData bf) = acRxData conf master bf)
    (turn : turnOf conf master (.rxData bf) =
      if (Chunked.drain (rxTurn conf) (master, false) bf).2 then
        some { resetMachine (Chunked.drain (rxTurn conf) (master, false) bf).1 with
          state := .connected }
      else none) : Stepped conf master (.rxData bf) := by
  have received := received_drain conf master bf
  cases complete : (Chunked.drain (rxTurn conf) (master, false) bf).2 with
  | true =>
    rw [complete, if_pos rfl] at turn
    have last : acRxData conf master bf =
        nextRequest conf (Chunked.drain (rxTurn conf) (master, false) bf).1 := by
      unfold acRxData
      dsimp only
      rw [complete, if_pos rfl]
    exact .turn _ turn (received.toStill.trans (still_resetMachine _ .connected)) rfl
      (step.trans last) nofun
  | false =>
    rw [complete, if_neg Bool.false_ne_true] at turn
    have last : acRxData conf master bf = (Chunked.drain (rxTurn conf) (master, false) bf).1 := by
      unfold acRxData
      dsimp only
      rw [complete, if_neg Bool.false_ne_true]
    rw [last] at step
    exact .quiet turn (by rw [step]; exact received.toStill) (by rw [step]; exact received.state) nofun

theorem stepped_step (conf : Conf) {op : Op}
    (state : master.state = .connected ∨ master.state = .waitResponse)
    (lasts : op ≠ .disconnected) : Stepped conf master op := by
  rcases state with connected | waiting
  · cases op with
    | connected =>
      have same : master.step conf .connected = master := by unfold Master.step; rw [connected]
      have nothing : turnOf conf master .connected = none := by unfold turnOf; rw [connected]
      exact .quiet nothing (by rw [same]; exact .refl master) (by rw [same]) nofun
    | disconnected => exact absurd rfl lasts
    | rxData bf =>
      exact stepped_rxData (by unfold Master.step; rw [connected])
        (by unfold turnOf; rw [connected])
    | sendMessage request =>
      exact .arrival request (by unfold turnOf; rw [connected])
        (by unfold Master.step; rw [connected]) rfl
    | timeout =>
      exact .turn master (by unfold turnOf; rw [connected]) (.refl master) connected
        (by unfold Master.step; rw [connected]) nofun
  · cases op with
    | connected =>
      have same : master.step conf .connected = master := by unfold Master.step; rw [waiting]
      have nothing : turnOf conf master .connected = none := by unfold turnOf; rw [waiting]
      exact .quiet nothing (by rw [same]; exact .refl master) (by rw [same]) nofun
    | disconnected => exact absurd rfl lasts
    | rxData bf =>
      exact stepped_rxData (by unfold Master.step; rw [waiting]) (by unfold turnOf; rw [waiting])
    | sendMessage request =>
      exact .arrival request (by unfold turnOf; rw [waiting])
        (by unfold Master.step; rw [waiting]) rfl
    | timeout =>
      exact .timeout { resetMachine master with state := .connected }
        (by unfold turnOf; rw [waiting]) (still_resetMachine master .connected) rfl
        (by unfold Master.step; rw [waiting]; rfl) rfl

theorem Still.requests {before after : Master} (still : Still before after) :
    requestsOf after.log = requestsOf before.log ∧ writtenOf after.log = writtenOf before.log := by
  have ⟨drops, log⟩ := still.log
  have no_request : (List.replicate drops Entry.drop).filterMap Entry.request = [] := by
    rw [filterMap_eq_nil_iff]
    intro entry among
    rw [(mem_replicate.1 among).2]
    rfl
  have no_write : (List.replicate drops Entry.drop).filterMap Entry.written = [] := by
    rw [filterMap_eq_nil_iff]
    intro entry among
    rw [(mem_replicate.1 among).2]
    rfl
  unfold requestsOf writtenOf
  rw [log, filterMap_append, filterMap_append, no_request, no_write, append_nil, append_nil]
  exact ⟨rfl, rfl⟩

theorem nextMap_requests (master : Master) :
    requestsOf (nextMap master).1.log = requestsOf master.log ∧
      writtenOf (nextMap master).1.log = writtenOf master.log := by
  have loaded (other : Master) : (loadSlaveMapping other).log = other.log := by
    unfold loadSlaveMapping
    split <;> rfl
  unfold nextMap
  dsimp only
  split
  · exact ⟨rfl, rfl⟩
  split
  · have same : ((loadSlaveMapping (master.advance.onSlave (master.advance.idxSlaves + 1))).onMap
        0).log = master.log := loaded _
    rw [same]
    exact ⟨rfl, rfl⟩
  · rw [loaded]
    unfold requestsOf writtenOf
    have log : (((master.advance.onSlave (master.advance.idxSlaves + 1)).tell .publish).onSlave
        0).log = master.log ++ [.publish] := rfl
    rw [log, filterMap_append, filterMap_append]
    exact ⟨append_nil _, append_nil _⟩

theorem pollModbus_log (conf : Conf) (master : Master) :
    (pollModbus conf master).1.log = master.log ∨
      (pollModbus conf master).2 = true ∧ ∃ entry, entry.written = none ∧
        (pollModbus conf master).1.log = master.log ++ [entry] := by
  have built (other : Master) (slave : Option Slave) (map : Map) :
      (buildModbusRequestReadMessage conf other slave map).1.log = other.log := by
    unfold buildModbusRequestReadMessage
    split <;> rfl
  unfold pollModbus
  dsimp only
  split
  · exact .inl rfl
  split
  · exact .inl rfl
  split
  · exact .inr ⟨rfl, .nothing, rfl, congrArg (· ++ _) (built _ _ _)⟩
  · exact .inr ⟨rfl, _, rfl, congrArg (· ++ _) (built _ _ _)⟩

theorem cycle_requests (conf : Conf) (master : Master) :
    (∃ sent, requestsOf (cycle conf master).log = requestsOf master.log ++ sent ∧
      sent.length ≤ 1) ∧ writtenOf (cycle conf master).log = writtenOf master.log := by
  have next := nextMap_requests master
  have polled := pollModbus_log conf (nextMap master).1
  have again := nextMap_requests (pollModbus conf (nextMap master).1).1
  unfold cycle
  dsimp only
  split
  · exact ⟨⟨[], by rw [next.1, append_nil], Nat.zero_le _⟩, next.2⟩
  rcases polled with same | ⟨success, entry, silent, log⟩
  · rw [same] at again
    split
    · rw [same]
      exact ⟨⟨[], by rw [next.1, append_nil], Nat.zero_le _⟩, next.2⟩
    · rw [again.1, again.2]
      exact ⟨⟨[], by rw [next.1, append_nil], Nat.zero_le _⟩, next.2⟩
  · rw [success, if_pos rfl, log]
    refine ⟨⟨[entry].filterMap Entry.request, ?_, length_filterMap_le ..⟩, ?_⟩
    · rw [← next.1]
      exact filterMap_append
    · have nothing : [entry].filterMap Entry.written = [] := by
        rw [filterMap_cons, silent]
        rfl
      rw [← next.2]
      unfold writtenOf
      rw [filterMap_append, nothing, append_nil]

/-! ## The head of the queue -/

theorem leftBytes_append (maxBlock : Nat) (pieces : List (List UInt8)) (gbuf : Gobj.Gbuffer) :
    gbuf.leftBytes <+: (pieces.foldl (Gobj.gbufferAppend maxBlock) gbuf).leftBytes := by
  induction pieces generalizing gbuf with
  | nil => exact prefix_rfl
  | cons piece rest ih =>
    have one : gbuf.leftBytes <+: (Gobj.gbufferAppend maxBlock gbuf piece).leftBytes := by
      have stored (other : Gobj.Gbuffer) (data : other.data = gbuf.data) (curp : other.curp = gbuf.curp) :
          gbuf.leftBytes <+: (other.store piece).leftBytes := by
        unfold Gobj.Gbuffer.leftBytes Gobj.Gbuffer.store
        dsimp only
        rw [data, curp, drop_append_of_le_length gbuf.written]
        exact prefix_append _ _
      unfold Gobj.gbufferAppend
      split
      · exact prefix_rfl
      split
      · unfold Gobj.gbufferRealloc
        dsimp only
        repeat' split
        all_goals exact stored _ rfl rfl
      · exact stored gbuf rfl rfl
    exact one.trans (ih _)

theorem inGbuffer_first (conf : Conf) {first : List UInt8} (rest : List (List UInt8))
    (small : first.length ≤ 32) : ∃ bytes, inGbuffer conf (first :: rest) = some bytes ∧
      first <+: bytes := by
  have one := inGbuffer_small conf small
  unfold inGbuffer at one ⊢
  cases created : gbufferCreate conf.maxBlock 32 32 with
  | none =>
    rw [created] at one
    exact absurd one (by simp)
  | some gbuf =>
    rw [created, map_some, some.injEq] at one
    refine ⟨_, rfl, ?_⟩
    have extended := leftBytes_append conf.maxBlock rest (Gobj.gbufferAppend conf.maxBlock gbuf first)
    have first_bytes : (Gobj.gbufferAppend conf.maxBlock gbuf first).leftBytes = first := one
    rw [first_bytes] at extended
    exact extended

theorem sendRequest_accepted {conf : Conf} (tcp : conf.protocol = .tcp)
    {first : Queued} {rest : List Queued} (queue : master.queue = first :: rest)
    (unsent : first.freed = false) (valid : first.request.accepted = true) :
    ∃ after bytes, sendRequest conf master = some after ∧ bytes ≠ [] ∧
      after.log = master.log ++ [.write first.request bytes] ∧ after.state = .waitResponse ∧
        after.queue = { first with freed := true } :: rest := by
  unfold Request.accepted at valid
  rw [and_eq_true, and_eq_true, decide_eq_true_eq] at valid
  have ⟨⟨size, value⟩, function⟩ := valid
  have ⟨value, first_value⟩ := isSome_iff_exists.1 value
  have ⟨function, write_function⟩ := isSome_iff_exists.1 function
  have ⟨bytes, held, begins⟩ := @inGbuffer_first conf
    (toBigEndian 2 (nextTId master.tId) ++ [0, 0] ++
      toBigEndian 2 (10 - 6 + uint16 first.request.size * 2) ++
        [UInt8.ofNat (uint8 first.request.id), UInt8.ofNat function] ++
          toBigEndian 2 (uint16 first.request.address) ++ toBigEndian 2 value)
    (otherValues (first.request.value.getD .other) (uint16 first.request.size) 1
      (uint16 first.request.size)) (by simp)
  have some_bytes : bytes ≠ [] := by
    intro empty
    rw [empty] at begins
    exact absurd (prefix_nil.1 begins) (by simp)
  have accepted_size : ¬ (uint16 first.request.size = 0 ∨ uint16 first.request.size > 123) := by
    omega
  have sent : sendRequest conf master = some (Master.tell { master with
        state := .waitResponse
        tId := nextTId master.tId
        modbusFunction := some function
        queue := { first with freed := true } :: rest } (.write first.request bytes)) := by
    unfold sendRequest buildModbusRequestWriteMessage writePieces
    rw [queue]
    dsimp only
    rw [unsent, if_neg Bool.false_ne_true, if_neg accepted_size, first_value, write_function, tcp]
    dsimp only
    rw [if_pos rfl, held]
  exact ⟨_, bytes, sent, some_bytes, rfl, rfl, rfl⟩

theorem sendRequest_refused (conf : Conf) {first : Queued} {rest : List Queued}
    (queue : master.queue = first :: rest) (unsent : first.freed = false)
    (refused : first.request.accepted = false) :
    ∃ after, sendRequest conf master = some after ∧ after.log = master.log ++ [.nothing] ∧
      after.queue = { first with freed := true } :: rest := by
  have built (other : Master) : buildModbusRequestWriteMessage conf other first.request =
      (other, none) := by
    unfold buildModbusRequestWriteMessage
    unfold Request.accepted at refused
    dsimp only
    split
    · rfl
    · have small : decide (uint16 first.request.size ≠ 0 ∧ uint16 first.request.size ≤ 123) = true :=
        decide_eq_true (by omega)
      rw [small, Bool.true_and] at refused
      split
      · rename_i first_value write_function
        rw [first_value, write_function] at refused
        exact absurd refused (by simp)
      · rfl
  unfold sendRequest
  rw [queue]
  dsimp only
  rw [unsent, if_neg Bool.false_ne_true, built]
  exact ⟨_, rfl, rfl, rfl⟩

/-! ## Runs -/

variable {conf : Conf} {session : Session} {op : Op}

theorem Orderly.unsent (orderly : Orderly session)
    (head : ∀ first rest, session.master.queue = first :: rest → first.freed = false) :
    writtenOf session.master.log = [] ∧
      session.waiting = session.arrived.filter Request.accepted := by
  have none_sent : session.master.queue.filter Queued.freed = [] := by
    rw [filter_eq_nil_iff]
    intro queued among
    have later := orderly.tail queued
    cases shape : session.master.queue with
    | nil =>
      rw [shape] at among
      exact absurd among not_mem_nil
    | cons first rest =>
      rw [shape] at among later
      rcases mem_cons.1 among with here | there
      · rw [here, head first rest shape]
        exact false_ne_true
      · rw [later there]
        exact false_ne_true
  have written : writtenOf session.master.log = [] := by
    rw [orderly.sent, none_sent]
    rfl
  refine ⟨written, ?_⟩
  unfold Session.waiting
  rw [written]
  rfl

theorem Orderly.order (orderly : Orderly session) :
    writtenOf session.master.log <+: session.arrived.filter Request.accepted := by
  have later := orderly.tail
  have valid := orderly.valid
  rw [orderly.sent, ← orderly.arrived]
  generalize session.master.queue = queue at later valid ⊢
  cases queue with
  | nil => exact nil_prefix
  | cons first rest =>
    have none_later : rest.filter Queued.freed = [] := by
      rw [filter_eq_nil_iff]
      intro queued among
      rw [later queued among]
      exact false_ne_true
    rw [filter_cons, none_later, map_cons, filter_cons]
    cases sent : first.freed with
    | true =>
      rw [if_pos rfl, if_pos (valid first mem_cons_self sent)]
      exact ⟨_, rfl⟩
    | false => exact nil_prefix

theorem Orderly.of_same (orderly : Orderly session) (no_request : ∀ request, op ≠ .sendMessage request)
    (state : (session.step conf op).master.state = .connected ∨
      (session.step conf op).master.state = .waitResponse)
    (queue : (session.step conf op).master.queue = session.master.queue)
    (written : writtenOf (session.step conf op).master.log = writtenOf session.master.log) :
    Orderly (session.step conf op) := by
  have arrived : (session.step conf op).arrived = session.arrived := by
    cases op with
    | sendMessage request => exact absurd rfl (no_request request)
    | connected => exact append_nil _
    | disconnected => exact append_nil _
    | rxData bf => exact append_nil _
    | timeout => exact append_nil _
  refine ⟨state, ?_, ?_, ?_, ?_⟩
  · rw [queue, arrived]
    exact orderly.arrived
  · rw [queue]
    exact orderly.tail
  · rw [queue]
    exact orderly.valid
  · rw [queue, written]
    exact orderly.sent

theorem cycle_state (conf : Conf) {base : Master} (connected : base.state = .connected) :
    (cycle conf base).state = .connected ∨ (cycle conf base).state = .waitResponse := by
  have next (other : Master) : (nextMap other).1.state = other.state := (moved_nextMap other).state
  have polled (other : Master) : (pollModbus conf other).1.state = other.state ∨
      (pollModbus conf other).1.state = .waitResponse := by
    unfold pollModbus buildModbusRequestReadMessage
    dsimp only
    repeat' split
    all_goals first
      | exact .inl rfl
      | exact .inr rfl
  have here := polled (nextMap base).1
  rw [next, connected] at here
  unfold cycle
  dsimp only
  split
  · rw [next, connected]
    exact .inl rfl
  split
  · exact here
  · rw [next]
    exact here

theorem Orderly.arrival (orderly : Orderly session) (request : Request)
    (step : session.master.step conf (.sendMessage request) =
      acEnqueueTxMessage session.master request) :
    Orderly (session.step conf (.sendMessage request)) := by
  have after : (session.step conf (.sendMessage request)).master =
      acEnqueueTxMessage session.master request := step
  refine ⟨?_, ?_, ?_, ?_, ?_⟩
  · rw [after]
    exact orderly.state
  · rw [after]
    show (session.master.queue ++ [({ request := request } : Queued)]).map Queued.request = session.arrived ++ [request]
    rw [map_append, orderly.arrived]
    rfl
  · rw [after]
    show ∀ queued ∈ (session.master.queue ++ [({ request := request } : Queued)]).tail, queued.freed = false
    intro queued among
    have later := orderly.tail queued
    cases shape : session.master.queue with
    | nil =>
      rw [shape] at among
      exact absurd among not_mem_nil
    | cons first rest =>
      rw [shape] at among later
      rcases mem_append.1 among with before | new
      · exact later before
      · rw [mem_singleton.1 new]
  · rw [after]
    intro queued among sent
    rcases mem_append.1 among with before | new
    · exact orderly.valid queued before sent
    · rw [mem_singleton.1 new] at sent
      exact absurd sent false_ne_true
  · rw [after]
    show writtenOf session.master.log =
      ((session.master.queue ++ [({ request := request } : Queued)]).filter Queued.freed).map Queued.request
    rw [filter_append, filter_cons_of_neg Bool.false_ne_true, filter_nil, append_nil]
    exact orderly.sent

/-- Where a handler looks for the next request, requests to write go in order exactly if the head of the
queue fits; then the queue stays orderly. -/
theorem Orderly.turn (tcp : conf.protocol = .tcp) (orderly : Orderly session) {base : Master}
    (here : turnOf conf session.master op = some base) (still : Still session.master base)
    (connected : base.state = .connected)
    (step : session.master.step conf op = nextTurn conf base)
    (no_request : ∀ request, op ≠ .sendMessage request) :
    (HeadFits conf session op → Orderly (session.step conf op)) ∧
      (SendsInOrder conf session op ↔ HeadFits conf session op) := by
  have logs := still.requests
  have after : (session.step conf op).master = nextTurn conf base := step
  have arrived : (session.step conf op).arrived = session.arrived := by
    cases op with
    | sendMessage request => exact absurd rfl (no_request request)
    | connected => exact append_nil _
    | disconnected => exact append_nil _
    | rxData bf => exact append_nil _
    | timeout => exact append_nil _
  cases queue : session.master.queue with
  | nil =>
    -- No request is queued: the cursor moves on.
    have unsent := orderly.unsent (by rw [queue]; intro first rest shape; cases shape)
    have none_waits : session.waiting = [] := by
      rw [unsent.2, ← orderly.arrived, queue]
      rfl
    have polls : nextTurn conf base = cycle conf base := by
      unfold nextTurn sendRequest
      rw [still.queue, queue]
    rw [polls] at after
    have requests := cycle_requests conf base
    have stays : Orderly (session.step conf op) := by
      apply orderly.of_same no_request
      · rw [after]
        exact cycle_state conf connected
      · rw [after, (kept_cycle conf base).queue, still.queue]
      · rw [after, requests.2, logs.2]
    refine ⟨fun _ => stays, ⟨fun _ base first rest _ shape => ?_, fun _ => ⟨?_, stays.order, ?_, ?_, ?_, ?_⟩⟩⟩
    · rw [queue] at shape
      cases shape
    · rcases stays.state with state | state <;> rw [state] <;> decide
    · rw [after, ← logs.1]
      exact requests.1
    · intro none_here
      rw [here] at none_here
      cases none_here
    · intro other first rest _ waits
      rw [none_waits] at waits
      cases waits
    · intro other same _
      rw [here] at same
      rw [after, some.inj same]
  | cons first rest =>
    have base_queue : base.queue = first :: rest := still.queue.trans queue
    have fits : HeadFits conf session op ↔ first.freed = false ∧ first.request.accepted = true := by
      constructor
      · intro head
        exact head base first rest here queue
      · rintro unsent other next others _ shape
        rw [queue] at shape
        obtain ⟨rfl, -⟩ := cons.inj shape
        exact unsent
    rw [fits]
    cases sent : first.freed with
    | true =>
      -- The head was released: the handler reads freed memory.
      have undefined : (nextTurn conf base).state = .undefined := by
        unfold nextTurn sendRequest
        rw [base_queue]
        dsimp only
        rw [sent, if_pos rfl]
      refine ⟨fun unsent => absurd unsent.1 (by decide), fun good => ?_,
        fun unsent => absurd unsent.1 (by decide)⟩
      have alive := good.alive
      rw [after] at alive
      exact absurd undefined alive
    | false =>
      have unsent := orderly.unsent (by
        rw [queue]
        intro other others shape
        obtain ⟨rfl, -⟩ := cons.inj shape
        exact sent)
      cases valid : first.request.accepted with
      | true =>
        have waits : session.waiting = first.request :: (rest.map Queued.request).filter
            Request.accepted := by
          rw [unsent.2, ← orderly.arrived, queue, map_cons, filter_cons, if_pos valid]
        have ⟨next, bytes, sends, some_bytes, log, state, left⟩ :=
          sendRequest_accepted tcp base_queue sent valid
        have turn : nextTurn conf base = next := by
          unfold nextTurn
          rw [sends]
        rw [turn] at after
        have written : writtenOf next.log = [first.request] := by
          rw [log]
          unfold writtenOf at logs unsent ⊢
          rw [filterMap_append, logs.2, unsent.1, nil_append, filterMap_cons]
          unfold Entry.written
          dsimp only
          rw [if_neg some_bytes]
          rfl
        have later := orderly.tail
        rw [queue] at later
        have stays : Orderly (session.step conf op) := by
          refine ⟨?_, ?_, ?_, ?_, ?_⟩
          · rw [after]
            exact .inr state
          · rw [after, arrived, left, ← orderly.arrived, queue]
            rfl
          · rw [after, left]
            exact later
          · rw [after, left]
            intro queued among released
            rcases mem_cons.1 among with head | tail
            · rw [head]
              exact valid
            · rw [later queued tail] at released
              exact absurd released false_ne_true
          · have none_later : rest.filter Queued.freed = [] := by
              rw [filter_eq_nil_iff]
              intro queued among
              rw [later queued among]
              exact false_ne_true
            rw [after, left, written, filter_cons_of_pos rfl, none_later]
            rfl
        refine ⟨fun _ => stays, fun _ => ⟨rfl, rfl⟩, fun _ => ⟨?_, stays.order, ?_, ?_, ?_, ?_⟩⟩
        · rw [after, state]
          decide
        · rw [after, log, ← logs.1]
          exact ⟨_, filterMap_append, length_filterMap_le ..⟩
        · intro none_here
          rw [here] at none_here
          cases none_here
        · intro other one others _ shape
          rw [waits] at shape
          obtain ⟨rfl, -⟩ := cons.inj shape
          rw [after, written, unsent.1]
          exact ⟨rfl, state⟩
        · intro other _ none_waits
          rw [waits] at none_waits
          cases none_waits
      | false =>
        -- The head is refused: nothing is sent and polling stops.
        have ⟨next, sends, log, left⟩ := sendRequest_refused conf base_queue sent valid
        have turn : nextTurn conf base = next := by
          unfold nextTurn
          rw [sends]
        rw [turn] at after
        refine ⟨fun fine => absurd fine.2 (by decide), fun good => ?_,
          fun fine => absurd fine.2 (by decide)⟩
        have written : writtenOf next.log = [] := by
          rw [log]
          unfold writtenOf at logs unsent ⊢
          rw [filterMap_append, logs.2, unsent.1]
          rfl
        cases waits : session.waiting with
        | nil =>
          have polled := good.polls base here waits
          rw [after] at polled
          have same : next.queue = base.queue := by
            rw [polled, (kept_cycle conf base).queue]
          rw [left, base_queue] at same
          have freed := congrArg Queued.freed (cons.inj same).1
          rw [sent] at freed
          exact absurd freed (by simp)
        | cons one others =>
          have sent_first := (good.sends base one others here waits).1
          rw [after, written, unsent.1] at sent_first
          cases sent_first

theorem Orderly.no_turn (stays : Orderly (session.step conf op))
    (none_here : turnOf conf session.master op = none)
    (one : ∃ sent, requestsOf (session.step conf op).master.log =
      requestsOf session.master.log ++ sent ∧ sent.length ≤ 1)
    (alone : op ≠ .timeout →
      requestsOf (session.step conf op).master.log = requestsOf session.master.log) :
    (HeadFits conf session op → Orderly (session.step conf op)) ∧
      (SendsInOrder conf session op ↔ HeadFits conf session op) := by
  have no_base (base : Master) : turnOf conf session.master op ≠ some base := by
    rw [none_here]
    nofun
  have alive : (session.step conf op).master.state ≠ .undefined := by
    rcases stays.state with connected | waiting
    · rw [connected]
      decide
    · rw [waiting]
      decide
  refine ⟨fun _ => stays, fun _ base _ _ here => absurd here (no_base base), fun _ => ?_⟩
  exact ⟨alive, stays.order, one, fun _ => alone, fun base _ _ here => absurd here (no_base base),
    fun base here => absurd here (no_base base)⟩

/-- Requests to write go in order exactly if the head of the queue fits; then the queue stays orderly. -/
theorem Orderly.step (tcp : conf.protocol = .tcp) (orderly : Orderly session)
    (lasts : op ≠ .disconnected) :
    (HeadFits conf session op → Orderly (session.step conf op)) ∧
      (SendsInOrder conf session op ↔ HeadFits conf session op) := by
  cases stepped_step conf orderly.state lasts with
  | turn base here still state step no_request =>
    exact orderly.turn tcp here still state step no_request
  | timeout base none_here still state step event =>
    have after : (session.step conf op).master = cycle conf base := step
    have requests := cycle_requests conf base
    have logs := still.requests
    have stays : Orderly (session.step conf op) := by
      apply orderly.of_same (by rw [event]; nofun)
      · rw [after]
        exact cycle_state conf state
      · rw [after, (kept_cycle conf base).queue, still.queue]
      · rw [after, requests.2, logs.2]
    exact stays.no_turn none_here (by rw [after, ← logs.1]; exact requests.1)
      fun other => absurd event other
  | arrival request none_here step event =>
    subst event
    have log : requestsOf (session.step conf (.sendMessage request)).master.log =
        requestsOf session.master.log := by
      show requestsOf (session.master.step conf (.sendMessage request)).log = _
      rw [step]
      rfl
    exact (orderly.arrival request step).no_turn none_here
      ⟨[], by rw [log, append_nil], Nat.zero_le _⟩ fun _ => log
  | quiet none_here still state no_request =>
    have still : Still session.master (session.step conf op).master := still
    have logs := still.requests
    have stays : Orderly (session.step conf op) :=
      orderly.of_same no_request (state.symm ▸ orderly.state) still.queue logs.2
    exact stays.no_turn none_here ⟨[], by rw [logs.1, append_nil], Nat.zero_le _⟩
      fun _ => logs.1

theorem orderly_start (conf : Conf) (slaves : List Slave) : Orderly (.start conf slaves) := by
  have loaded : (Master.start conf slaves).queue = [] ∧ (Master.start conf slaves).log = [] := by
    unfold Master.start loadSlaveMapping
    split <;> exact ⟨rfl, rfl⟩
  have queue : (Session.start conf slaves).master.queue = [] := loaded.1
  have log : (Session.start conf slaves).master.log = [] := loaded.2
  refine ⟨.inl rfl, ?_, ?_, ?_, ?_⟩
  · rw [queue]
    rfl
  · rw [queue]
    intro queued among
    exact absurd among not_mem_nil
  · rw [queue]
    intro queued among
    exact absurd among not_mem_nil
  · rw [queue, log]
    rfl

/-- **The queue of write requests.** Along every run of a connection over TCP, the valid requests are sent
once, in order of arrival, one at a time, refused ones without stopping those behind them, and polling
goes on when none is left, exactly when the request at the head of the queue was not sent before and is
valid wherever a handler looks at it. -/
theorem writes_in_order_iff (conf : Conf) (tcp : conf.protocol = .tcp) (slaves : List Slave)
    (ops : List Op) (one_connection : .disconnected ∉ ops) :
    AllSteps (Session.step conf) (SendsInOrder conf) (.start conf slaves) ops ↔
      AllSteps (Session.step conf) (HeadFits conf) (.start conf slaves) ops := by
  have lasts : ∀ op ∈ ops, op ≠ .disconnected := fun op among same => one_connection (same ▸ among)
  apply allSteps_congr (Session.step conf) _ _ (orderly_start conf slaves)
  · intro session op among orderly fits
    exact (orderly.step tcp (lasts op among)).1 fits
  · intro session op among orderly
    exact (orderly.step tcp (lasts op among)).2

/-- A request to set a coil. -/
def coilOn : Request where
  address := 0
  value := some (.number 0xFF00)
  type := "coil"

/-- A slave without maps. -/
def bareSlave : Slave := ⟨1, []⟩

/-- A request is sent, and the wait for its response times out. -/
theorem writes_in_order_one :
    AllSteps (Session.step .tcp) (SendsInOrder .tcp) (.start .tcp [bareSlave])
      [.sendMessage coilOn, .timeout, .timeout] := by
  apply (writes_in_order_iff .tcp rfl [bareSlave] [.sendMessage coilOn, .timeout, .timeout]
    (by decide)).2
  refine ⟨?_, ?_, ?_, trivial⟩
  · intro base first rest here
    exact absurd here nofun
  · intro base first rest _ queue
    have head : first = { request := coilOn } := (List.cons.inj queue).1.symm
    rw [head]
    decide
  · intro base first rest here
    exact absurd here nofun

/-- Behind the response to a request that was sent, memory is read that was freed. -/
theorem sent_write_read_again :
    ¬ AllSteps (Session.step .tcp) (SendsInOrder .tcp) (.start .tcp [bareSlave])
      [.sendMessage coilOn, .timeout, .rxData [0, 1, 0, 0, 0, 6, 1, 5, 0, 0, 0xFF, 0]] := by
  intro every
  exact absurd every.2.2.1.alive (by decide)

end Yunetas.Modbus
