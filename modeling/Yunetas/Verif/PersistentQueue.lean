import Yunetas.TrQueue.Steady

/-!
# The persistent queue keeps its messages

In every run, a load adds to the messages in memory exactly those appended and not unloaded, in
the order they were appended, each once, with its rowid and its text; and the hint a load starts
from is not beyond any of them. The hint only moves to the first pending row or to the last row,
and a pending bit is only set on a new row.
-/

namespace Yunetas.TrQueue

open List

open Timeranger2

/-- A queue with what was appended and not unloaded. -/
structure Trace where
  queue : Queue
  pending : List (Nat × List UInt8)

namespace Trace

/-- A queue that was never opened. -/
def new : Trace := ⟨.new, []⟩

/-- An operation. -/
def step (topic : Topic) (trace : Trace) : Op → Trace
  | .trqOpen => { trace with queue := trace.queue.trqOpen }
  | .trqClose => { trace with queue := trace.queue.trqClose }
  | .restart => { trace with queue := trace.queue.restart }
  | .load => { trace with queue := trace.queue.trqLoad }
  | .append message =>
    match trace.queue.trqAppend2 topic message with
    | (queue, none) => { trace with queue }
    | (queue, some msg) => ⟨queue, trace.pending ++ [(msg.rowid, message.text)]⟩
  | .unload position =>
    match trace.queue.trqUnloadMsg topic position with
    | (queue, none) => { trace with queue }
    | (queue, some msg) => ⟨queue, trace.pending.filter fun entry => entry.1 ≠ msg.rowid⟩

end Trace

/-- The messages appended and not unloaded, as they are read. -/
def Trace.expected (trace : Trace) : List (Nat × Option (List UInt8)) :=
  trace.pending.map fun entry => (entry.1, some entry.2)

/-- What the queue promises in a state. -/
structure Faithful (topic : Topic) (trace : Trace) : Prop where
  ascending : (trace.pending.map Prod.fst).Pairwise (· < ·)
  hint : ∀ entry ∈ trace.pending, trace.queue.firstRowidVar ≤ entry.1
  loads : trace.queue.trq.isSome →
    (trace.step topic .load).queue.contents topic =
      trace.queue.contents topic ++ trace.expected

/-! ## The invariant -/

/-- The content a row of the file points to. -/
def rowContent (store : KeyState) (row : Md2Record) (rowid : Nat) : Option (List UInt8) :=
  readRecordContent store.dir.rdFiles "queue" (row.decode rowid)

/-- The pending rows of the file, as they are read. -/
def pendingContents (store : KeyState) : List (Nat × Option (List UInt8)) :=
  (marked isPending 1 (queueRows store)).map fun entry =>
    (entry.2, rowContent store entry.1 entry.2)

/-- The rows, the hint and what was appended agree. -/
structure Kept (trace : Trace) : Prop where
  steady : Steady trace.queue
  pending : pendingContents trace.queue.store = trace.expected
  hint : ∀ entry ∈ marked isPending 1 (queueRows trace.queue.store),
    trace.queue.firstRowidVar ≤ entry.2

theorem Kept.new : Kept Trace.new where
  steady := Steady.new
  pending := rfl
  hint _ among := absurd among not_mem_nil

theorem rowContent_congr {store : KeyState} {row : Md2Record} {rowid : Nat} {md : Md2RecordEx}
    (offset : md.offset = row.offset) (size : md.size = row.size) :
    readRecordContent store.dir.rdFiles "queue" md = rowContent store row rowid := by
  simp only [rowContent, readRecordContent, offset, size, Md2Record.decode]
  rfl

variable {flags : QueueFlags} {trace : Trace}

theorem Held.json {queue : Queue} {msg : QMsg} (held : Held (queueRows queue.store) msg) :
    queue.trqMsgJson (queueTopic flags) msg = readRecordContent queue.store.dir.rdFiles "queue"
      msg.md := by
  have ⟨row, _, time, _⟩ := held.stored
  have small : msg.md.t < 2 ^ 44 := time ▸ wordTime_lt row.t
  have file : (queueTopic flags).fileId
      (if msg.md.systemFlag &&& sfTMs ≠ 0 then msg.md.t / 1000 else msg.md.t) = "queue" := by
    apply queueFileId_small
    split
    · exact lt_of_le_of_lt (Nat.div_le_self _ _) small
    · exact small
  exact congrArg (readRecordContent queue.store.dir.rdFiles · msg.md) file

theorem Kept.numbers (kept : Kept trace) :
    (marked isPending 1 (queueRows trace.queue.store)).map Prod.snd =
      trace.pending.map Prod.fst := by
  have same := congrArg (List.map Prod.fst) kept.pending
  simpa only [pendingContents, Trace.expected, map_map, Function.comp_def] using same

theorem Kept.readable (kept : Kept trace) {entry : Md2Record × Nat}
    (among : entry ∈ marked isPending 1 (queueRows trace.queue.store)) :
    ∃ text, rowContent trace.queue.store entry.1 entry.2 = some text := by
  have listed : (entry.2, rowContent trace.queue.store entry.1 entry.2) ∈ trace.expected := by
    rw [← kept.pending]
    exact mem_map.2 ⟨entry, among, rfl⟩
  have ⟨pending, _, same⟩ := mem_map.1 listed
  exact ⟨pending.2, (congrArg Prod.snd same).symm⟩

/-! ## Appending -/

theorem or_and_mask (flag mask : UInt16) : (flag ||| mask) &&& mask = mask := by
  apply UInt16.toBitVec_inj.1
  ext i inside
  simp only [UInt16.toBitVec_and, UInt16.toBitVec_or, BitVec.getElem_and, BitVec.getElem_or]
  cases mask.toBitVec[i] <;> simp

theorem row_pending (flags : QueueFlags) (message : Message) (offset : Nat) :
    isPending (message.row (queueTopic flags) offset) = true := by
  have flag : (message.row (queueTopic flags) offset).getUserFlag =
      message.userFlag ||| trqMsgPending := by
    rw [Message.row, Md2Record.getUserFlag_setSystemFlag, Md2Record.getUserFlag_setUserFlag]
  rw [isPending, flag, or_and_mask]
  rfl

theorem Kept.append {flags : QueueFlags} {trace : Trace} (kept : Kept trace) {message : Message}
    (dated : message.Dated (queueTopic flags)) :
    Kept (trace.step (queueTopic flags) (.append message)) := by
  have steady : Steady (trace.queue.trqAppend2 (queueTopic flags) message).1 :=
    kept.steady.append dated
  rcases kept.steady.append_cases dated with refused | ⟨next, trq, opened, one, rows, json, appended⟩
  · have result : trace.step (queueTopic flags) (.append message) = trace := by
      simp [Trace.step, refused]
    rw [result]
    exact kept
  · let row := message.row (queueTopic flags) (trace.queue.store.dir.bytes "queue").length
    let number := (queueRows trace.queue.store).length + 1
    have result : trace.step (queueTopic flags) (.append message) =
        ⟨{ trace.queue with store := next, trq := some { trq with
            msgs := trq.msgs ++ [⟨number, row.decode number⟩] } },
          trace.pending ++ [(number, message.text)]⟩ := by
      simp only [Trace.step, appended]
      rfl
    have last : marked isPending 1 (queueRows next) =
        marked isPending 1 (queueRows trace.queue.store) ++ [(row, number)] := by
      rw [rows, marked_append, marked_cons, row_pending flags, marked_nil, Nat.add_comm 1]
      rfl
    have old : ∀ entry ∈ marked isPending 1 (queueRows trace.queue.store),
        rowContent next entry.1 entry.2 = rowContent trace.queue.store entry.1 entry.2 := by
      intro entry among
      have ⟨text, read⟩ := kept.readable among
      rw [read]
      exact readRecordContent_extended "queue" (message.text ++ [0]) json read
    have own : rowContent next row number = some message.text := by
      have written : next.dir.rdFiles.json "queue" =
          some (trace.queue.store.dir.bytes "queue" ++ (message.text ++ [0]) ++ []) := by
        rw [append_nil]
        show next.dir.json.get? "queue" = _
        rw [json, Dict.get?_set_self]
      exact readRecordContent_of_split written rfl rfl message.noNul
    rw [appended] at steady
    rw [result]
    refine ⟨steady, ?_, ?_⟩
    · have before : (marked isPending 1 (queueRows trace.queue.store)).map
          (fun entry => (entry.2, rowContent next entry.1 entry.2)) = trace.expected := by
        rw [← kept.pending]
        exact map_congr_left fun entry among => by rw [old entry among]
      show pendingContents next = (trace.pending ++ [(number, message.text)]).map _
      rw [pendingContents, last, map_append, before, map_append, map_singleton, map_singleton, own]
      rfl
    · intro entry among
      rw [last, mem_append, mem_singleton] at among
      rcases among with before | new
      · exact kept.hint entry before
      · rw [new]
        exact Nat.le_succ_of_le kept.steady.reached

/-! ## Unloading -/

theorem flag_cleared (flag : UInt16) :
    maskBits flag trqMsgPending false &&& trqMsgPending ≠ trqMsgPending := by
  have none_left : flag &&& ~~~trqMsgPending &&& trqMsgPending = 0 := by
    rw [UInt16.and_assoc, UInt16.not_and_self, UInt16.and_zero]
  show flag &&& ~~~trqMsgPending &&& trqMsgPending ≠ trqMsgPending
  rw [none_left]
  decide

theorem Kept.unload (kept : Kept trace) (position : Nat) :
    Kept (trace.step (queueTopic flags) (.unload position)) := by
  have steady : Steady (trace.queue.trqUnloadMsg (queueTopic flags) position).1 :=
    kept.steady.unload position
  cases opened : trace.queue.trq with
  | none =>
    have nothing : trace.step (queueTopic flags) (.unload position) = trace := by
      simp [Trace.step, Queue.trqUnloadMsg, opened]
    rw [nothing]
    exact kept
  | some trq =>
    cases found : trq.msgs[position]? with
    | none =>
      have nothing : trace.step (queueTopic flags) (.unload position) = trace := by
        simp [Trace.step, Queue.trqUnloadMsg, opened, found]
      rw [nothing]
      exact kept
    | some msg =>
      have held := kept.steady.held trq opened msg (mem_of_getElem? found)
      have positive := held.numbered.1
      have ⟨row, stored, one, json, rows⟩ :=
        @Steady.setHardFlag_row flags _ kept.steady _ held trqMsgPending false
      generalize flagged : trace.queue.trqSetHardFlag (queueTopic flags) msg trqMsgPending false =
        next at one json rows
      have result : trace.step (queueTopic flags) (.unload position) =
          ⟨{ next with trq := some { trq with msgs := trq.msgs.eraseIdx position } },
            trace.pending.filter fun entry => entry.1 ≠ msg.rowid⟩ := by
        rw [← flagged]
        simp [Trace.step, Queue.trqUnloadMsg, opened, found, Queue.trqSetHardFlag]
      have unloaded : (trace.queue.trqUnloadMsg (queueTopic flags) position).1 =
          { next with trq := some { trq with msgs := trq.msgs.eraseIdx position } } := by
        rw [← flagged]
        simp [Queue.trqUnloadMsg, opened, found, Queue.trqSetHardFlag]
      have hint : next.firstRowidVar = trace.queue.firstRowidVar := by rw [← flagged]; rfl
      have cleared : isPending (row.setUserFlag (maskBits row.getUserFlag trqMsgPending false)) =
          false := by
        rw [isPending, Md2Record.getUserFlag_setUserFlag]
        exact decide_eq_false (flag_cleared _)
      have index : 1 + (msg.rowid - 1) = msg.rowid := by omega
      have left : marked isPending 1 (queueRows next.store) =
          (marked isPending 1 (queueRows trace.queue.store)).filter fun entry =>
            entry.2 ≠ msg.rowid := by
        rw [rows, marked_set cleared, index]
      rw [unloaded] at steady
      rw [result]
      refine ⟨steady, ?_, ?_⟩
      · have contents : pendingContents next.store = (pendingContents trace.queue.store).filter
            fun entry => entry.1 ≠ msg.rowid := by
          rw [pendingContents, left, pendingContents, filter_map]
          apply map_congr_left
          intro entry _
          simp only [rowContent, KeyDir.rdFiles, json]
          rfl
        rw [contents, kept.pending, Trace.expected, filter_map]
        rfl
      · intro entry among
        rw [left] at among
        rw [hint]
        exact kept.hint entry (mem_of_mem_filter among)

/-! ## Loading -/

theorem Kept.pendingFromHint_eq (kept : Kept trace) :
    trace.queue.pendingFromHint = marked isPending 1 (queueRows trace.queue.store) := by
  rw [Queue.pendingFromHint_eq]
  apply filter_eq_self.2
  intro entry among
  exact decide_eq_true (kept.hint entry among)

theorem Kept.load {topic : Topic} (kept : Kept trace) : Kept (trace.step topic .load) := by
  have steady : Steady trace.queue.trqLoad := kept.steady.load
  cases opened : trace.queue.trq with
  | none =>
    have nothing : trace.step topic .load = trace := by
      simp [Trace.step, Queue.trqLoad, opened]
    rw [nothing]
    exact kept
  | some trq =>
    have result : trace.step topic .load = ⟨trace.queue.trqLoad, trace.pending⟩ := rfl
    have loaded := kept.steady.trqLoad_eq opened
    rw [loaded] at steady
    rw [result, loaded]
    refine ⟨steady, kept.pending, ?_⟩
    intro entry among
    have least : trace.queue.firstLoaded ≤ entry.2 ∧ trace.queue.firstLoaded ≠ 0 := by
      have ascending := marked_ascending isPending 1 (queueRows trace.queue.store)
      unfold Queue.firstLoaded
      rw [kept.pendingFromHint_eq]
      cases listed : marked isPending 1 (queueRows trace.queue.store) with
      | nil =>
        rw [show marked isPending 1 (queueRows _) = _ from listed] at among
        exact absurd among not_mem_nil
      | cons first rest =>
        have positive := (mem_marked.1 (listed ▸ mem_cons_self :
          first ∈ marked isPending 1 (queueRows trace.queue.store))).1
        rw [listed] at ascending
        rw [show marked isPending 1 (queueRows _) = _ from listed] at among
        have head : ((first :: rest).head?.map Prod.snd).getD 0 = first.2 := rfl
        have nonzero : ¬ ((first :: rest).head?.map Prod.snd).getD 0 = 0 := by omega
        rw [if_neg nonzero, head]
        refine ⟨?_, by omega⟩
        rcases mem_cons.1 among with same | later
        · rw [same]
        · exact Nat.le_of_lt ((pairwise_cons.1 ascending).1 entry.2 (mem_map_of_mem later))
    rw [if_neg least.2]
    exact least.1

theorem Kept.step (kept : Kept trace) (op : Op)
    (dated : ∀ message, op = .append message → message.Dated (queueTopic flags)) :
    Kept (trace.step (queueTopic flags) op) := by
  cases op with
  | trqOpen =>
    have steady : Steady trace.queue.trqOpen := kept.steady.trqOpen
    cases opened : trace.queue.trq with
    | none =>
      have result : trace.step (queueTopic flags) .trqOpen =
          { trace with queue := { trace.queue with trq := some ⟨[], 0⟩ } } := by
        simp [Trace.step, Queue.trqOpen, opened]
      simp only [Queue.trqOpen, opened] at steady
      rw [result]
      exact ⟨steady, kept.pending, kept.hint⟩
    | some trq =>
      have nothing : trace.step (queueTopic flags) .trqOpen = trace := by
        simp [Trace.step, Queue.trqOpen, opened]
      rw [nothing]
      exact kept
  | trqClose => exact ⟨kept.steady.trqClose, kept.pending, kept.hint⟩
  | restart =>
    have steady : Steady trace.queue.restart := kept.steady.restart
    cases opened : trace.queue.trq with
    | none =>
      have result : trace.step (queueTopic flags) .restart =
          { trace with queue := { trace.queue with store := reopen trace.queue.store } } := by
        simp [Trace.step, Queue.restart, opened]
      simp only [Queue.restart, opened] at steady
      rw [result]
      rw [← opened] at steady
      exact ⟨steady, kept.pending, kept.hint⟩
    | some trq =>
      have nothing : trace.step (queueTopic flags) .restart = trace := by
        simp [Trace.step, Queue.restart, opened]
      rw [nothing]
      exact kept
  | load => exact kept.load
  | append message => exact kept.append (dated message rfl)
  | unload position => exact kept.unload position

theorem Kept.contents_load (kept : Kept trace) (opened : trace.queue.trq.isSome) :
    (trace.step (queueTopic flags) .load).queue.contents (queueTopic flags) =
      trace.queue.contents (queueTopic flags) ++ trace.expected := by
  have ⟨trq, there⟩ := Option.isSome_iff_exists.1 opened
  have loaded := kept.steady.trqLoad_eq there
  rw [kept.pendingFromHint_eq] at loaded
  have result : (trace.step (queueTopic flags) .load).queue = trace.queue.trqLoad := rfl
  have texts : ∀ entry ∈ marked isPending 1 (queueRows trace.queue.store),
      trace.queue.trqMsgJson (queueTopic flags) (loadedMsg entry) =
        rowContent trace.queue.store entry.1 entry.2 := by
    intro entry among
    have stored := mem_of_mem_filter among
    rw [(Held.loaded stored).json]
    exact rowContent_congr rfl rfl
  rw [result, loaded, ← kept.pending]
  unfold Queue.contents
  rw [there]
  simp only [Option.map_some, Option.getD_some, map_append, map_map]
  congr 1
  apply map_congr_left
  intro entry among
  exact congrArg (Prod.mk entry.2) (texts entry among)

theorem Kept.faithful (kept : Kept trace) :
    Faithful (queueTopic flags) trace where
  ascending := by
    rw [← kept.numbers]
    exact marked_ascending _ _ _
  hint entry among := by
    have numbered : entry.1 ∈ trace.pending.map Prod.fst := mem_map_of_mem among
    rw [← kept.numbers] at numbered
    have ⟨row, pending, same⟩ := mem_map.1 numbered
    rw [← same]
    exact kept.hint row pending
  loads opened := kept.contents_load opened

/-- In every state of every run whose messages have a date, a load adds to the queue exactly the
messages appended and not unloaded, in the order they were appended and each once, and the hint is
not beyond any of them. -/
theorem queue_faithful (flags : QueueFlags) (ops : List Op)
    (dated : ∀ message, .append message ∈ ops → message.Dated (queueTopic flags)) :
    AllStates (Trace.step (queueTopic flags)) (Faithful (queueTopic flags)) Trace.new ops := by
  let ok (op : Op) : Prop := ∀ message, op = .append message → message.Dated (queueTopic flags)
  have all : ∀ op ∈ ops, ok op := by
    intro op among message same
    rw [same] at among
    exact dated message among
  have keeps : ∀ trace op, Kept trace → ok op → Kept (trace.step (queueTopic flags) op) :=
    fun trace op holds met => holds.step op met
  have kept := (AllSteps.of_mem _ all Trace.new).invariant _ keeps Kept.new
  exact kept.mono _ fun trace holds => holds.faithful

/-! ## Sample runs -/

/-- A topic with times in seconds. -/
def sampleFlags : QueueFlags := ⟨0, by decide⟩

theorem noNul_braces : 0 ∉ ([123, 125] : List UInt8) := by decide

/-- A message `{}` at a time. -/
def sampleMessage (t : UInt64) : Message := ⟨t, 1, 0, 0, [123, 125], noNul_braces⟩

/-- A message unloaded, one kept over a restart. -/
theorem queue_faithful_sample :
    AllStates (Trace.step (queueTopic sampleFlags)) (Faithful (queueTopic sampleFlags)) Trace.new
      [.trqOpen, .append (sampleMessage 7), .append (sampleMessage 5), .unload 0, .trqClose,
        .restart, .trqOpen, .load] := by
  apply queue_faithful
  intro message among
  simp only [List.mem_cons, Op.append.injEq, reduceCtorEq, List.not_mem_nil, or_false,
    false_or] at among
  rcases among with rfl | rfl <;> unfold Message.Dated <;> decide

/-- A load with messages in memory holds them twice, and a time without a date sends its message to
another file, where unloading does not find it. -/
theorem load_repeats :
    ((run (Trace.step (queueTopic sampleFlags)) Trace.new
        [.trqOpen, .append (sampleMessage 7), .load]).queue.contents (queueTopic sampleFlags) =
      [(1, some [123, 125]), (1, some [123, 125])]) ∧
    (run (Trace.step (queueTopic sampleFlags)) Trace.new
        [.trqOpen, .append (sampleMessage 0x1000000000000000), .unload 0]).pending = [] ∧
    ((run (Trace.step (queueTopic sampleFlags)) Trace.new
        [.trqOpen, .append (sampleMessage 0x1000000000000000), .unload 0, .trqClose, .restart,
          .trqOpen, .load]).queue.contents (queueTopic sampleFlags)).map Prod.fst = [1] := by
  decide

end Yunetas.TrQueue
