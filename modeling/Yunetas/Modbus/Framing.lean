import Yunetas.Modbus.Cursor

/-!
# Frames of a master

What a master does with a chunk, read off the bytes of the response it receives: those that it gathered
before and the chunk. It waits for more, or it drops the connection, or the response is complete.
-/

namespace Yunetas.Modbus

open List Bool

open Gobj (IStream gbufferCreate)

variable {conf : Conf} {master : Master}

/-- The bytes of the response that is received. -/
def received (master : Master) : List UInt8 :=
  master.head ++ master.istreamHead.left ++ ((master.istreamPayload.map IStream.left).getD [])

/-- The fields of a header and the length of the payload behind it. -/
def frameOf (conf : Conf) (head : List UInt8) : FrameHead :=
  headerComplete (decodeHead conf.protocol head).1

/-- The machine gathers a header, or a payload behind a header, or it got a bad header. -/
inductive Framed (conf : Conf) (master : Master) : Prop
  | head (left : List UInt8) (less : left.length < headSize conf.protocol)
      (waitPayload : master.waitPayload = false) (istreamPayload : master.istreamPayload = none)
      (frameHead : master.frameHead = {}) (none_read : master.head = [])
      (istreamHead : master.istreamHead = ⟨headSize conf.protocol, left.length, left⟩)
  | payload (head left : List UInt8) (length : head.length = headSize conf.protocol)
      (decoded : (decodeHead conf.protocol head).2 = true)
      (less : left.length < (frameOf conf head).payloadLength)
      (waitPayload : master.waitPayload = true) (read : master.head = head)
      (frameHead : master.frameHead = frameOf conf head)
      (istreamPayload : master.istreamPayload =
        some ⟨(frameOf conf head).payloadLength, left.length, left⟩)
      (istreamHead : master.istreamHead.left = [])
      (size : master.istreamHead.size = headSize conf.protocol)
  | broken (head : List UInt8) (length : head.length = headSize conf.protocol)
      (decoded : (decodeHead conf.protocol head).2 = false)
      (waitPayload : master.waitPayload = false) (istreamPayload : master.istreamPayload = none)
      (read : master.head = head) (busy : master.frameHead.busy = true)
      (istreamHead : master.istreamHead.left = [])
      (size : master.istreamHead.size = headSize conf.protocol)

theorem framed_reset (size : master.istreamHead.size = headSize conf.protocol) (state : State) :
    Framed conf { resetMachine master with state } ∧ received { resetMachine master with state } = [] := by
  have positive : 0 < headSize conf.protocol := by
    cases conf.protocol <;> decide
  refine ⟨.head [] positive rfl rfl rfl rfl ?_, rfl⟩
  show master.istreamHead.reset = _
  rw [← size]
  rfl

theorem Framed.size (framed : Framed conf master) :
    master.istreamHead.size = headSize conf.protocol := by
  cases framed with
  | head left less waitPayload istreamPayload frameHead none_read istreamHead => rw [istreamHead]
  | payload head left length decoded less waitPayload read frameHead istreamPayload istreamHead size =>
    exact size
  | broken head length decoded waitPayload istreamPayload read busy istreamHead size => exact size

/-- What a chunk leaves: a master, and whether a response is complete. -/
inductive Drained (conf : Conf) (master : Master) (bf : List UInt8) (after : Master × Bool) : Prop
  | waits (framed : Framed conf after.1) (bytes : received after.1 = received master ++ bf)
      (incomplete : after.2 = false) (same : after.1.slaveData = master.slaveData)
      (log : after.1.log = master.log)
  | broken (head rest : List UInt8) (bytes : received master ++ bf = head ++ rest)
      (length : head.length = headSize conf.protocol)
      (decoded : (decodeHead conf.protocol head).2 = false) (framed : Framed conf after.1)
      (read : received after.1 = head) (incomplete : after.2 = false)
      (same : after.1.slaveData = master.slaveData)
  | bare (head rest : List UInt8) (bytes : received master ++ bf = head ++ rest)
      (length : head.length = headSize conf.protocol)
      (decoded : (decodeHead conf.protocol head).2 = true)
      (none_behind : (frameOf conf head).payloadLength = 0)
      (complete : after.2 = true) (same : after.1.slaveData = master.slaveData)
      (size : after.1.istreamHead.size = headSize conf.protocol)
  | whole (head payload rest : List UInt8) (bytes : received master ++ bf = head ++ payload ++ rest)
      (length : head.length = headSize conf.protocol)
      (decoded : (decodeHead conf.protocol head).2 = true)
      (gathered : payload.length = (frameOf conf head).payloadLength)
      (some_behind : (frameOf conf head).payloadLength ≠ 0)
      (complete : after.2 = true)
      (last : ∃ before, after.1 = frameCompleted conf before payload ∧ Received master before ∧
        before.slaveData = master.slaveData ∧ before.frameHead = frameOf conf head)
      (size : after.1.istreamHead.size = headSize conf.protocol)

theorem rxTurn_shrinks (conf : Conf) (state : Master × Bool) (bf : List UInt8) (some_bytes : bf ≠ []) :
    (rxTurn conf state bf).2.length < bf.length := by
  have positive := length_pos_of_ne_nil some_bytes
  unfold rxTurn
  split
  · unfold waitPayload
    split
    · exact positive
    · rename_i istream _
      dsimp only
      split
      · exact positive
      · rename_i incomplete
        have nothing : (istream.consume state.1.frameHead.payloadLength bf).2.2 = [] := by
          unfold IStream.consume at incomplete ⊢
          rw [if_neg some_bytes] at incomplete ⊢
          dsimp only at incomplete ⊢
          split at incomplete
          · rename_i short
            rw [if_pos short]
          · exact absurd rfl incomplete
        rw [nothing]
        exact positive
  · unfold waitHead
    dsimp only
    split
    · exact positive
    · have fewer : (bf.drop (frameheadConsume conf state.1 bf).2.toNat).length < bf.length := by
        rw [length_drop]
        omega
      repeat' split
      all_goals exact fewer

theorem drain_rxTurn (conf : Conf) (state : Master × Bool) {bf : List UInt8} (some_bytes : bf ≠ []) :
    Chunked.drain (rxTurn conf) state bf =
      Chunked.drain (rxTurn conf) (rxTurn conf state bf).1 (rxTurn conf state bf).2 :=
  Chunked.drain_action (fun _ => True) (fun _ _ _ _ => trivial)
    (fun state bf _ some_bytes => rxTurn_shrinks conf state bf some_bytes) trivial some_bytes

/-! ## Headers -/

/-- A master behind a header that is complete. -/
def headRead (conf : Conf) (master : Master) (head : List UInt8) : Master :=
  { master with
    istreamHead := ⟨headSize conf.protocol, headSize conf.protocol, []⟩
    head := head
    frameHead :=
      if (decodeHead conf.protocol head).2 then frameOf conf head
      else (decodeHead conf.protocol head).1 }

section

variable {left bf : List UInt8} (idle : master.frameHead = {})
  (istreamHead : master.istreamHead = ⟨headSize conf.protocol, left.length, left⟩)
include idle istreamHead

theorem frameheadConsume_some (short : left.length + bf.length < headSize conf.protocol) :
    frameheadConsume conf master bf = ({ master with
        istreamHead := ⟨headSize conf.protocol, (left ++ bf).length, left ++ bf⟩ }, (bf.length : Int)) := by
  unfold frameheadConsume
  rw [idle, istreamHead, IStream.consume_some short]
  dsimp only
  rw [if_neg Bool.false_ne_true, length_nil]
  simp

theorem frameheadConsume_whole (less : left.length < headSize conf.protocol)
    (enough : headSize conf.protocol ≤ left.length + bf.length) :
    frameheadConsume conf master bf =
      (headRead conf master (left ++ bf.take (headSize conf.protocol - left.length)),
        if (decodeHead conf.protocol
          (left ++ bf.take (headSize conf.protocol - left.length))).2 then
          ((headSize conf.protocol - left.length : Nat) : Int) else -1) := by
  have some_data : left ++ bf.take (headSize conf.protocol - left.length) ≠ [] := by
    apply ne_nil_of_length_pos
    rw [length_append, length_take]
    omega
  have extracted : IStream.extract ⟨headSize conf.protocol, headSize conf.protocol,
        left ++ bf.take (headSize conf.protocol - left.length)⟩ =
      some (left ++ bf.take (headSize conf.protocol - left.length),
        ⟨headSize conf.protocol, headSize conf.protocol, []⟩) := by
    unfold IStream.extract
    rw [if_neg some_data]
  have total : (bf.length : Int) - ((bf.drop (headSize conf.protocol - left.length)).length : Int) =
      ((headSize conf.protocol - left.length : Nat) : Int) := by
    rw [length_drop]
    omega
  unfold frameheadConsume headRead frameOf
  rw [idle, istreamHead, IStream.consume_whole less enough]
  dsimp only
  rw [if_neg Bool.false_ne_true, extracted, total]
  dsimp only [Option.getD_some]
  rw [if_neg (by decide)]
  by_cases decoded : (decodeHead conf.protocol
      (left ++ bf.take (headSize conf.protocol - left.length))).2 = true
  · rw [if_pos decoded, if_pos decoded, if_pos decoded]
  · rw [if_neg decoded, if_neg decoded, if_neg decoded]

end

theorem frameOf_complete (conf : Conf) (head : List UInt8) :
    (frameOf conf head).headerComplete = true := by
  unfold frameOf headerComplete
  split <;> rfl

theorem decodeHead_busy (protocol : Protocol) (head : List UInt8) :
    (decodeHead protocol head).1.busy = true := by
  unfold decodeHead
  dsimp only
  repeat' split
  all_goals rfl

theorem frameOf_busy (conf : Conf) (head : List UInt8) : (frameOf conf head).busy = true := by
  have busy := decodeHead_busy conf.protocol head
  unfold frameOf headerComplete
  split <;> exact busy

theorem payloadLength_lt (conf : Conf) (head : List UInt8) :
    (frameOf conf head).payloadLength < 2 ^ 16 := by
  have decoded : (decodeHead conf.protocol head).1.payloadLength < 2 ^ 16 := by
    have length := ofBigEndian_lt ((head.drop 4).take 2)
    have short : ((head.drop 4).take 2).length ≤ 2 := length_take_le ..
    have power : 256 ^ ((head.drop 4).take 2).length ≤ 256 ^ 2 :=
      Nat.pow_le_pow_right (by decide) short
    have count : byteAt head 2 < 256 := UInt8.toNat_lt _
    unfold decodeHead
    dsimp only
    repeat' split
    all_goals
      dsimp only
      omega
  unfold frameOf headerComplete
  split
  · dsimp only
    omega
  · exact decoded

theorem gbufferCreate_payload (conf : Conf) (head : List UInt8) :
    ∃ gbuf, gbufferCreate conf.maxBlock (frameOf conf head).payloadLength
      (frameOf conf head).payloadLength = some gbuf := by
  have length := payloadLength_lt conf head
  have large := conf.large
  unfold gbufferCreate
  rw [if_neg (by omega)]
  exact ⟨_, rfl⟩

/-! ## Chunks -/

theorem drain_payload {head left : List UInt8} (length : head.length = headSize conf.protocol)
    (decoded : (decodeHead conf.protocol head).2 = true)
    (less : left.length < (frameOf conf head).payloadLength)
    (waitPayload : master.waitPayload = true) (read : master.head = head)
    (frameHead : master.frameHead = frameOf conf head)
    (istreamPayload : master.istreamPayload =
      some ⟨(frameOf conf head).payloadLength, left.length, left⟩)
    (istreamHead : master.istreamHead.left = [])
    (size : master.istreamHead.size = headSize conf.protocol) (bf : List UInt8) :
    Drained conf master bf (Chunked.drain (rxTurn conf) (master, false) bf) := by
  have bytes : received master = head ++ left := by
    unfold received
    rw [read, istreamHead, istreamPayload, append_nil]
    rfl
  by_cases empty : bf = []
  · rw [empty]
    exact .waits (.payload head left length decoded less waitPayload read frameHead istreamPayload
      istreamHead size) (append_nil _).symm rfl rfl rfl
  by_cases short : left.length + bf.length < (frameOf conf head).payloadLength
  · have turn : rxTurn conf (master, false) bf = (({ master with
            istreamPayload :=
              some ⟨(frameOf conf head).payloadLength, (left ++ bf).length, left ++ bf⟩ },
          false), []) := by
      unfold rxTurn
      rw [if_pos waitPayload]
      unfold Modbus.waitPayload
      rw [istreamPayload]
      dsimp only
      rw [frameHead, IStream.consume_some short]
      rfl
    rw [drain_rxTurn conf _ empty, turn, Chunked.drain_nil]
    refine .waits (.payload head (left ++ bf) length decoded ?_ waitPayload read frameHead rfl
      istreamHead size) ?_ rfl rfl rfl
    · rw [length_append]
      exact short
    · rw [bytes, append_assoc]
      show master.head ++ master.istreamHead.left ++ (left ++ bf) = _
      rw [read, istreamHead, append_nil]
  · have enough : (frameOf conf head).payloadLength ≤ left.length + bf.length := by omega
    have turn : rxTurn conf (master, false) bf = ((frameCompleted conf { master with
            istreamPayload := some ⟨(frameOf conf head).payloadLength,
              (frameOf conf head).payloadLength,
              left ++ bf.take ((frameOf conf head).payloadLength - left.length)⟩ }
          (left ++ bf.take ((frameOf conf head).payloadLength - left.length)), true), []) := by
      unfold rxTurn
      rw [if_pos waitPayload]
      unfold Modbus.waitPayload
      rw [istreamPayload]
      dsimp only
      rw [frameHead, IStream.consume_whole less enough]
      rfl
    rw [drain_rxTurn conf _ empty, turn, Chunked.drain_nil]
    have header (before : Master) (payload : List UInt8) :
        (frameCompleted conf before payload).istreamHead = before.istreamHead := by
      unfold frameCompleted storeModbusResponseData
      dsimp only
      repeat' split
      all_goals rfl
    refine .whole head (left ++ bf.take ((frameOf conf head).payloadLength - left.length))
      (bf.drop ((frameOf conf head).payloadLength - left.length)) ?_ length decoded ?_ (by omega) rfl
      ⟨_, rfl, .of_fields master _ _ _ _ _ _, rfl, frameHead⟩ ?_
    · rw [bytes, append_assoc, append_assoc, append_assoc, take_append_drop]
    · rw [length_append, length_take]
      omega
    · rw [header]
      exact size

theorem drain_busy {complete : Bool} (busy : master.frameHead.busy = true)
    (waitPayload : master.waitPayload = false) {bf : List UInt8} (some_bytes : bf ≠ []) :
    Chunked.drain (rxTurn conf) (master, complete) bf =
      (({ master with frameHead := headerComplete master.frameHead }.tell .drop), complete) := by
  have consumed : frameheadConsume conf master bf =
      ({ master with frameHead := headerComplete master.frameHead }, 0) := by
    unfold frameheadConsume
    rw [busy, if_pos rfl]
  have turn : rxTurn conf (master, complete) bf =
      ((({ master with frameHead := headerComplete master.frameHead }.tell .drop), complete), []) := by
    unfold rxTurn
    rw [if_neg (by rw [waitPayload]; exact false_ne_true)]
    unfold waitHead
    rw [consumed, if_pos (Int.le_refl 0)]
  rw [drain_rxTurn conf _ some_bytes, turn, Chunked.drain_nil]

theorem Drained.behind {other : Master} {bf rest : List UInt8} {after : Master × Bool}
    (drained : Drained conf other rest after) (bytes : received other ++ rest = received master ++ bf)
    (kept : Received master other) (same : other.slaveData = master.slaveData)
    (log : other.log = master.log) : Drained conf master bf after := by
  cases drained with
  | waits framed whole incomplete data entries =>
    exact .waits framed (whole.trans bytes) incomplete (data.trans same) (entries.trans log)
  | broken head tail split length decoded framed read incomplete data =>
    exact .broken head tail (bytes.symm.trans split) length decoded framed read incomplete
      (data.trans same)
  | bare head tail split length decoded none_behind complete data size =>
    exact .bare head tail (bytes.symm.trans split) length decoded none_behind complete
      (data.trans same) size
  | whole head payload tail split length decoded gathered some_behind complete last size =>
    have ⟨before, frame, received, data, frameHead⟩ := last
    exact .whole head payload tail (bytes.symm.trans split) length decoded gathered some_behind
      complete ⟨before, frame, kept.trans received, data.trans same, frameHead⟩ size

theorem drain_head {left : List UInt8} (less : left.length < headSize conf.protocol)
    (waitPayload : master.waitPayload = false) (istreamPayload : master.istreamPayload = none)
    (frameHead : master.frameHead = {}) (none_read : master.head = [])
    (istreamHead : master.istreamHead = ⟨headSize conf.protocol, left.length, left⟩)
    (bf : List UInt8) :
    Drained conf master bf (Chunked.drain (rxTurn conf) (master, false) bf) := by
  have bytes : received master = left := by
    unfold received
    rw [none_read, istreamHead, istreamPayload]
    exact append_nil left
  by_cases empty : bf = []
  · rw [empty]
    exact .waits (.head left less waitPayload istreamPayload frameHead none_read istreamHead)
      (append_nil _).symm rfl rfl rfl
  have positive := length_pos_of_ne_nil empty
  have waits_head : rxTurn conf (master, false) bf = waitHead conf master false bf := by
    unfold rxTurn
    rw [if_neg (by rw [waitPayload]; exact false_ne_true)]
  rw [drain_rxTurn conf _ empty, waits_head]
  unfold waitHead
  by_cases short : left.length + bf.length < headSize conf.protocol
  · rw [frameheadConsume_some frameHead istreamHead short]
    rw [if_neg (by omega), frameHead, if_pos (by decide), Int.toNat_natCast, drop_length,
      Chunked.drain_nil]
    refine .waits (.head (left ++ bf) ?_ waitPayload istreamPayload rfl none_read rfl) ?_ rfl rfl rfl
    · rw [length_append]
      exact short
    · rw [bytes]
      rw [none_read, istreamPayload]
      exact append_nil _
  · have enough : headSize conf.protocol ≤ left.length + bf.length := by omega
    rw [frameheadConsume_whole frameHead istreamHead less enough]
    have split : received master ++ bf = (left ++ bf.take (headSize conf.protocol - left.length)) ++
          bf.drop (headSize conf.protocol - left.length) := by
      rw [bytes, append_assoc, take_append_drop]
    have length : (left ++ bf.take (headSize conf.protocol - left.length)).length =
        headSize conf.protocol := by
      rw [length_append, length_take]
      omega
    generalize left ++ bf.take (headSize conf.protocol - left.length) = head at split length ⊢
    have read : Received master (headRead conf master head) := .of_fields master _ _ _ _ _ _
    by_cases decoded : (decodeHead conf.protocol head).2 = true
    · have frame : (headRead conf master head).frameHead = frameOf conf head := by
        unfold headRead
        rw [if_pos decoded]
      have complete : (headRead conf master head).frameHead.headerComplete = true := by
        rw [frame]
        exact frameOf_complete conf head
      have payload : (headRead conf master head).frameHead.payloadLength =
          (frameOf conf head).payloadLength := by
        rw [frame]
      rw [if_pos decoded, if_neg (by omega), Int.toNat_natCast]
      rw [complete, if_neg (by decide), payload]
      by_cases none_behind : (frameOf conf head).payloadLength = 0
      · rw [if_pos none_behind]
        by_cases ends : bf.drop (headSize conf.protocol - left.length) = []
        · rw [ends, Chunked.drain_nil]
          exact .bare head _ split length decoded none_behind rfl rfl rfl
        · have busy := @drain_busy conf (headRead conf master head) true
            (by rw [frame]; exact frameOf_busy conf head) waitPayload _ ends
          rw [busy]
          exact .bare head _ split length decoded none_behind rfl rfl rfl
      · have ⟨gbuf, created⟩ := gbufferCreate_payload conf head
        rw [if_neg none_behind, created]
        have behind : received { headRead conf master head with
              istreamPayload := some ⟨(frameOf conf head).payloadLength, 0, []⟩
              waitPayload := true } = head := by
          exact (append_nil _).trans (append_nil _)
        have drained := @drain_payload conf { headRead conf master head with
            istreamPayload := some ⟨(frameOf conf head).payloadLength, 0, []⟩
            waitPayload := true } head [] length decoded (Nat.pos_of_ne_zero none_behind) rfl rfl frame rfl
          rfl rfl (bf.drop (headSize conf.protocol - left.length))
        exact drained.behind (by rw [behind, split]) (read.trans (.of_fields _ _ _ _ _ _ _)) rfl rfl
    · have bad : (decodeHead conf.protocol head).2 = false := by simpa using decoded
      rw [if_neg decoded, if_pos (show (-1 : Int) ≤ 0 by decide), Chunked.drain_nil]
      refine .broken head _ split length bad ?_ ?_ rfl rfl
      · refine .broken head length bad waitPayload istreamPayload rfl ?_ rfl rfl
        show (if (decodeHead conf.protocol head).2 then frameOf conf head
          else (decodeHead conf.protocol head).1).busy = true
        rw [if_neg decoded]
        exact decodeHead_busy conf.protocol head
      · show head ++ [] ++ ((master.istreamPayload.map IStream.left).getD []) = head
        rw [istreamPayload, append_nil]
        exact append_nil head

theorem Framed.drained (framed : Framed conf master) (bf : List UInt8) :
    Drained conf master bf (Chunked.drain (rxTurn conf) (master, false) bf) := by
  cases framed with
  | head left less waitPayload istreamPayload frameHead none_read istreamHead =>
    exact drain_head less waitPayload istreamPayload frameHead none_read istreamHead bf
  | payload head left length decoded less waitPayload read frameHead istreamPayload istreamHead size =>
    exact drain_payload length decoded less waitPayload read frameHead istreamPayload istreamHead size bf
  | broken head length decoded waitPayload istreamPayload read busy istreamHead size =>
    have bytes : received master = head := by
      unfold received
      rw [read, istreamHead, istreamPayload, append_nil]
      exact append_nil head
    by_cases empty : bf = []
    · rw [empty]
      exact .waits (.broken head length decoded waitPayload istreamPayload read busy istreamHead size)
        (append_nil _).symm rfl rfl rfl
    · rw [drain_busy busy waitPayload empty]
      have still_busy : (headerComplete master.frameHead).busy = true := by
        unfold headerComplete
        split <;> exact busy
      exact .broken head bf (by rw [bytes]) length decoded
        (.broken head length decoded waitPayload istreamPayload read still_busy istreamHead size) bytes
        rfl rfl

theorem Framed.short (framed : Framed conf master) {head payload rest : List UInt8}
    (bytes : received master = head ++ payload ++ rest) (length : head.length = headSize conf.protocol)
    (decoded : (decodeHead conf.protocol head).2 = true) :
    payload.length < (frameOf conf head).payloadLength := by
  have count := congrArg List.length bytes
  rw [length_append, length_append] at count
  cases framed with
  | head left less waitPayload istreamPayload frameHead none_read istreamHead =>
    have here : (received master).length = left.length := by
      unfold received
      rw [none_read, istreamHead, istreamPayload]
      exact congrArg List.length (append_nil left)
    omega
  | payload other left same_length other_decoded less waitPayload read frameHead istreamPayload
      istreamHead size =>
    have here : received master = other ++ left := by
      unfold received
      rw [read, istreamHead, istreamPayload, append_nil]
      rfl
    rw [here, append_assoc] at bytes
    have same := append_inj bytes (by omega)
    have split := congrArg List.length same.2
    rw [length_append] at split
    rw [← same.1]
    omega
  | broken other same_length bad waitPayload istreamPayload read busy istreamHead size =>
    have here : received master = other ++ [] := by
      unfold received
      rw [read, istreamHead, istreamPayload, append_nil]
      exact append_nil other
    rw [here, append_assoc] at bytes
    have same := append_inj bytes (by omega)
    rw [same.1, decoded] at bad
    exact absurd bad (by decide)

end Yunetas.Modbus
