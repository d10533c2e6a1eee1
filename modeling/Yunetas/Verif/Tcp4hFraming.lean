import Yunetas.Lib.Run
import Yunetas.Tcp4h.Protocol

/-!
# Messages over tcp4h

How a stream is cut makes no difference to a receiver. It publishes the messages of the stream as long
as none is empty and each fits, with its header, in the blocks of both sides.
-/

namespace Yunetas.Tcp4h

open List

open Gobj (IStream gbufferCreate gbufferAppend)

/-! ## Actions -/

variable (conf : Conf)

/-- What follows a header that is complete. -/
def headed (receiver : Receiver) (data : List UInt8) : Receiver × Bool :=
  match decodeHead conf { busy := true } data with
  | none =>
    (wsClose { receiver with
      frameHead := { busy := true }
      istreamFrame := ⟨headerSize, headerSize, []⟩ }, false)
  | some frame =>
    let receiver := { receiver with
      frameHead := { frame with headerComplete := true }
      istreamFrame := ⟨headerSize, headerSize, []⟩ }
    if frame.frameLength ≠ 0 then
      match gbufferCreate conf.maxBlock frame.frameLength frame.frameLength with
      | none => (wsClose { receiver with istreamPayload := none }, false)
      | some _ =>
        ({ receiver with istreamPayload := some ⟨frame.frameLength, 0, []⟩, state := .waitPayload },
          true)
    else (wsClose receiver, false)

/-- What follows a payload that is complete. -/
def published (receiver : Receiver) (message : List UInt8) : Receiver × Bool :=
  let receiver :=
    { receiver with istreamPayload := none, messages := receiver.messages ++ [message] }
  if conf.drops receiver.messages then (acDisconnected receiver, false)
  else (startWaitFrameHeader receiver, true)

/-- The bytes that a receiver waits for. -/
inductive Gathers : Receiver → Nat → List UInt8 → Chunked.Completion Receiver UInt8 → Prop
  | header (receiver : Receiver) (seen : List UInt8) (waits : receiver.state = .waitFrameHeader)
    (head : receiver.frameHead = {})
    (held : receiver.istreamFrame = ⟨headerSize, seen.length, seen⟩)
    (less : seen.length < headerSize) : Gathers receiver headerSize seen (headed conf receiver)
  | payload (receiver : Receiver) (seen : List UInt8) (waits : receiver.state = .waitPayload)
    (size : receiver.istreamFrame.size = headerSize)
    (held : receiver.istreamPayload = some ⟨receiver.frameHead.frameLength, seen.length, seen⟩)
    (less : seen.length < receiver.frameHead.frameLength) :
    Gathers receiver receiver.frameHead.frameLength seen (published conf receiver)

theorem header_some {receiver : Receiver} {seen gbuf : List UInt8} (head : receiver.frameHead = {})
    (held : receiver.istreamFrame = ⟨headerSize, seen.length, seen⟩) (some_bytes : gbuf ≠ [])
    (short : seen.length + gbuf.length < headerSize) :
    acProcessFrameHeader conf receiver gbuf =
      ({ receiver with istreamFrame := ⟨headerSize, (seen ++ gbuf).length, seen ++ gbuf⟩ }, []) := by
  have positive := length_pos_of_ne_nil some_bytes
  have consumed : frameheadConsume conf receiver.frameHead receiver.istreamFrame gbuf =
      ⟨gbuf.length, {}, ⟨headerSize, (seen ++ gbuf).length, seen ++ gbuf⟩⟩ := by
    unfold frameheadConsume
    rw [head, held, if_neg Bool.false_ne_true]
    rw [IStream.consume_some short]
    simp
  unfold acProcessFrameHeader
  rw [consumed, if_neg (by dsimp only; omega)]
  dsimp only
  rw [Int.toNat_natCast, drop_length, if_pos (by decide), head]

theorem frameheadConsume_whole {seen bf : List UInt8} (less : seen.length < headerSize)
    (enough : headerSize ≤ seen.length + bf.length) :
    frameheadConsume conf {} ⟨headerSize, seen.length, seen⟩ bf =
      match decodeHead conf { busy := true } (seen ++ bf.take (headerSize - seen.length)) with
      | none => ⟨-1, { busy := true }, ⟨headerSize, headerSize, []⟩⟩
      | some frame => ⟨(headerSize - seen.length : Nat), { frame with headerComplete := true },
          ⟨headerSize, headerSize, []⟩⟩ := by
  have some_data : seen ++ bf.take (headerSize - seen.length) ≠ [] := by
    apply ne_nil_of_length_pos
    rw [length_append, length_take]
    omega
  have extracted : IStream.extract
      ⟨headerSize, headerSize, seen ++ bf.take (headerSize - seen.length)⟩ =
        some (seen ++ bf.take (headerSize - seen.length), ⟨headerSize, headerSize, []⟩) :=
    if_neg some_data
  have total : (bf.length : Int) - (bf.drop (headerSize - seen.length)).length =
      (headerSize - seen.length : Nat) := by
    rw [length_drop]
    omega
  unfold frameheadConsume
  rw [if_neg Bool.false_ne_true]
  rw [IStream.consume_whole less enough]
  dsimp only
  rw [extracted, total, if_neg (by decide)]
  rfl

variable {receiver : Receiver}

theorem header_whole {seen gbuf : List UInt8} (head : receiver.frameHead = {})
    (held : receiver.istreamFrame = ⟨headerSize, seen.length, seen⟩)
    (less : seen.length < headerSize) (enough : headerSize ≤ seen.length + gbuf.length) :
    acProcessFrameHeader conf receiver gbuf =
      Chunked.goOn (headed conf receiver (seen ++ gbuf.take (headerSize - seen.length)))
        (gbuf.drop (headerSize - seen.length)) := by
  unfold acProcessFrameHeader headed
  rw [head, held, frameheadConsume_whole conf less enough]
  cases decodeHead conf { busy := true } (seen ++ gbuf.take (headerSize - seen.length)) with
  | none => rfl
  | some frame =>
    dsimp only
    rw [if_neg (by omega), Int.toNat_natCast, if_neg (by decide)]
    by_cases empty : frame.frameLength = 0
    · rw [if_neg fun some_bytes => some_bytes empty, if_neg fun some_bytes => some_bytes empty]
      rfl
    · rw [if_pos empty, if_pos empty]
      cases gbufferCreate conf.maxBlock frame.frameLength frame.frameLength <;> rfl

theorem payload_some {receiver : Receiver} {seen gbuf : List UInt8}
    (held : receiver.istreamPayload = some ⟨receiver.frameHead.frameLength, seen.length, seen⟩)
    (short : seen.length + gbuf.length < receiver.frameHead.frameLength) :
    acProcessPayloadData conf receiver gbuf = ({ receiver with
        istreamPayload := some ⟨receiver.frameHead.frameLength, (seen ++ gbuf).length, seen ++ gbuf⟩ },
        []) := by
  unfold acProcessPayloadData
  rw [held]
  dsimp only
  rw [IStream.consume_some short]
  rfl

theorem payload_whole {seen gbuf : List UInt8} (waits : receiver.state = .waitPayload)
    (held : receiver.istreamPayload = some ⟨receiver.frameHead.frameLength, seen.length, seen⟩)
    (less : seen.length < receiver.frameHead.frameLength)
    (enough : receiver.frameHead.frameLength ≤ seen.length + gbuf.length) :
    acProcessPayloadData conf receiver gbuf = Chunked.goOn (published conf receiver
          (seen ++ gbuf.take (receiver.frameHead.frameLength - seen.length)))
        (gbuf.drop (receiver.frameHead.frameLength - seen.length)) := by
  unfold acProcessPayloadData published frameCompleted
  rw [held]
  dsimp only
  rw [IStream.consume_whole less enough]
  cases conf.drops (receiver.messages ++
      [seen ++ gbuf.take (receiver.frameHead.frameLength - seen.length)]) with
  | true => rfl
  | false =>
    have goesOn : receiver.state ≠ .disconnected := by
      rw [waits]
      decide
    rw [if_neg Bool.false_ne_true, if_neg Bool.false_ne_true, if_pos rfl, if_pos goesOn]
    rfl

theorem action_header (waits : receiver.state = .waitFrameHeader)
    (gbuf : List UInt8) : receiver.action conf gbuf = acProcessFrameHeader conf receiver gbuf := by
  unfold Receiver.action
  rw [waits]

theorem action_payload (waits : receiver.state = .waitPayload)
    (gbuf : List UInt8) : receiver.action conf gbuf = acProcessPayloadData conf receiver gbuf := by
  unfold Receiver.action
  rw [waits]

theorem idle_disconnected (closed : receiver.state = .disconnected) :
    Chunked.Idle (Receiver.action conf) receiver := by
  intro gbuf
  unfold Receiver.action
  rw [closed]

theorem headed_gathers (receiver : Receiver) (data : List UInt8) :
    ((headed conf receiver data).2 = true ∧ Gathers conf (headed conf receiver data).1
        (headed conf receiver data).1.frameHead.frameLength []
        (published conf (headed conf receiver data).1)) ∨
    (headed conf receiver data).2 = false ∧ (headed conf receiver data).1.state = .disconnected := by
  unfold headed
  cases decodeHead conf { busy := true } data with
  | none => exact .inr ⟨rfl, rfl⟩
  | some frame =>
    dsimp only
    by_cases empty : frame.frameLength = 0
    · rw [if_neg fun some_bytes => some_bytes empty]
      exact .inr ⟨rfl, rfl⟩
    · rw [if_pos empty]
      cases gbufferCreate conf.maxBlock frame.frameLength frame.frameLength with
      | none => exact .inr ⟨rfl, rfl⟩
      | some gbuf => exact .inl ⟨rfl, .payload _ [] rfl rfl rfl (Nat.pos_of_ne_zero empty)⟩

theorem published_gathers (size : receiver.istreamFrame.size = headerSize) (message : List UInt8) :
    ((published conf receiver message).2 = true ∧
      Gathers conf (published conf receiver message).1 headerSize []
        (headed conf (published conf receiver message).1)) ∨
    (published conf receiver message).2 = false ∧
      (published conf receiver message).1.state = .disconnected := by
  have reset : receiver.istreamFrame.reset = ⟨headerSize, 0, []⟩ := by
    unfold IStream.reset
    rw [size]
  unfold published
  dsimp only
  cases conf.drops (receiver.messages ++ [message]) with
  | true => exact .inr ⟨rfl, rfl⟩
  | false => exact .inl ⟨rfl, .header _ [] rfl rfl reset (by decide)⟩

theorem gathering : Chunked.Gathering (Receiver.action conf) (Gathers conf) where
  less := by
    intro receiver size seen complete gathers
    cases gathers <;> assumption
  part := by
    intro receiver size seen complete gbuf gathers some_bytes short
    have both : (seen ++ gbuf).length < size := by
      rw [length_append]
      exact short
    cases gathers with
    | header _ waits head held less =>
      rw [action_header conf waits, header_some conf head held some_bytes short]
      exact ⟨rfl, .header _ _ waits head rfl both⟩
    | payload _ waits same held less =>
      rw [action_payload conf waits, payload_some conf held short]
      exact ⟨rfl, .payload _ _ waits same rfl both⟩
  joins := by
    intro receiver size seen complete front back gathers noFront noBack short
    have both : front ++ back ≠ [] := fun none => noFront (append_eq_nil_iff.1 none).1
    have first : seen.length + front.length < size := by
      rw [length_append] at short
      omega
    have second : (seen ++ front).length + back.length < size := by
      rw [length_append] at short ⊢
      omega
    cases gathers with
    | header _ waits head held less =>
      have last := @header_some conf { receiver with
        istreamFrame := ⟨headerSize, (seen ++ front).length, seen ++ front⟩ } (seen ++ front) back head
          rfl noBack second
      rw [← action_header conf (by exact waits)] at last
      rw [append_assoc] at last
      rw [action_header conf waits, action_header conf waits, header_some conf head held both short,
        header_some conf head held noFront first]
      exact (congrArg Prod.fst last).symm
    | payload _ waits same held less =>
      have last := @payload_some conf { receiver with
        istreamPayload := some ⟨receiver.frameHead.frameLength, (seen ++ front).length,
          seen ++ front⟩ } (seen ++ front) back rfl second
      rw [← action_payload conf (by exact waits)] at last
      rw [append_assoc] at last
      rw [action_payload conf waits, action_payload conf waits, payload_some conf held short,
        payload_some conf held first]
      exact (congrArg Prod.fst last).symm
  whole := by
    intro receiver size seen complete gbuf gathers enough
    cases gathers with
    | header _ waits head held less =>
      rw [action_header conf waits]
      exact header_whole conf head held less enough
    | payload _ waits same held less =>
      rw [action_payload conf waits]
      exact payload_whole conf waits held less enough
  goesOn := by
    intro receiver size seen complete data gathers _ goes
    cases gathers with
    | header _ waits head held less =>
      rcases headed_gathers conf receiver data with next | closed
      · exact ⟨_, _, _, next.2⟩
      · exact absurd (goes.symm.trans closed.1) (by decide)
    | payload _ waits same held less =>
      rcases published_gathers conf same data with next | closed
      · exact ⟨_, _, _, next.2⟩
      · exact absurd (goes.symm.trans closed.1) (by decide)
  stops := by
    intro receiver size seen complete data gathers stops
    cases gathers with
    | header _ waits head held less =>
      rcases headed_gathers conf receiver data with next | closed
      · exact absurd (stops.symm.trans next.1) (by decide)
      · exact idle_disconnected conf closed.2
    | payload _ waits same held less =>
      rcases published_gathers conf same data with next | closed
      · exact absurd (stops.symm.trans next.1) (by decide)
      · exact idle_disconnected conf closed.2

theorem receive_stream (messages : List (List UInt8)) (chunks : List Chunk) :
    (Receiver.waiting messages).receive conf chunks =
      (Receiver.waiting messages).rxData conf (streamOf chunks) := by
  have waits : Chunked.Waits (Receiver.action conf) (Gathers conf) (.waiting messages) :=
    .inr ⟨_, _, _, .header _ [] rfl rfl rfl (by decide)⟩
  unfold Receiver.receive streamOf Receiver.rxData
  rw [← (gathering conf).seamless.foldl_drain _ waits, foldl_map]

/-! ## Frames -/

theorem Conf.maxPktSize_lt : conf.maxPktSize < 2 ^ 32 := by
  unfold Conf.maxPktSize
  dsimp only
  split <;> omega

theorem acSendMessage_eq (maxBlock : Nat) (message : List UInt8) :
    acSendMessage maxBlock message =
      if message.length + headerSize + 1 > maxBlock then none
      else some (toBigEndian headerSize (message.length + headerSize) ++ message) := by
  unfold acSendMessage gbufferCreate
  dsimp only
  split
  · rfl
  · have head := @Gobj.gbufferAppend_room maxBlock
      { data := [], dataSize := message.length + headerSize,
        maxMemorySize := message.length + headerSize, written := Nat.le_refl 0,
        fits := Nat.zero_le _ } (toBigEndian headerSize (message.length + headerSize))
        (by rw [length_toBigEndian, length_nil]; dsimp only; omega)
    have rest := @Gobj.gbufferAppend_room maxBlock (gbufferAppend maxBlock
      { data := [], dataSize := message.length + headerSize,
        maxMemorySize := message.length + headerSize, written := Nat.le_refl 0,
        fits := Nat.zero_le _ } (toBigEndian headerSize (message.length + headerSize))) message
        (by rw [head.1, head.2.2, nil_append, length_toBigEndian]; dsimp only; omega)
    rw [Option.map_some]
    unfold Gobj.Gbuffer.leftBytes
    rw [rest.1, rest.2.1, head.1, head.2.1]
    rfl

theorem rxData_header (messages : List (List UInt8)) (number : Nat) (rest : List UInt8) :
    (Receiver.waiting messages).rxData conf (toBigEndian headerSize number ++ rest) =
      Receiver.rxData conf (headed conf (.waiting messages) (toBigEndian headerSize number)).1
        (if (headed conf (.waiting messages) (toBigEndian headerSize number)).2 then rest else []) :=
  (gathering conf).drain_gathered (.header _ [] rfl rfl rfl (by decide))
    (length_toBigEndian headerSize number) rest

/-- The length of the payload behind a header, in 32 bits. -/
def payloadLength (declared : Nat) : Nat := (2 ^ 32 + declared % 2 ^ 32 - headerSize) % 2 ^ 32

/-- A header is followed by its payload. -/
def Opens (declared : Nat) : Prop :=
  payloadLength declared ≤ conf.maxPktSize ∧ payloadLength declared ≠ 0 ∧
    payloadLength declared + 1 ≤ conf.maxBlock

theorem decodeHead_toBigEndian (frame : FrameHead) (declared : Nat) :
    decodeHead conf frame (toBigEndian headerSize declared) =
      if payloadLength declared > conf.maxPktSize then none
      else some { frame with frameLength := payloadLength declared, mustReadPayload := true } := by
  have read : ofBigEndian (toBigEndian headerSize declared) = declared % 2 ^ 32 :=
    ofBigEndian_toBigEndian_mod headerSize declared
  unfold decodeHead payloadLength
  rw [read]

theorem headed_opens {messages : List (List UInt8)} {declared : Nat} (opens : Opens conf declared) :
    headed conf (.waiting messages) (toBigEndian headerSize declared) =
      (⟨.waitPayload, ⟨true, true, true, payloadLength declared⟩, ⟨headerSize, headerSize, []⟩,
        some ⟨payloadLength declared, 0, []⟩, messages⟩, true) := by
  have ⟨inLimit, some_bytes, room⟩ := opens
  unfold headed
  rw [decodeHead_toBigEndian, if_neg (by omega)]
  dsimp only
  rw [if_pos some_bytes]
  unfold gbufferCreate
  rw [if_neg (by omega)]
  rfl

theorem headed_closes {messages : List (List UInt8)} {declared : Nat} (closes : ¬Opens conf declared) :
    (headed conf (.waiting messages) (toBigEndian headerSize declared)).2 = false ∧
      (headed conf (.waiting messages) (toBigEndian headerSize declared)).1.outcome =
        ⟨messages, true⟩ := by
  unfold headed
  rw [decodeHead_toBigEndian]
  by_cases inLimit : payloadLength declared > conf.maxPktSize
  · rw [if_pos inLimit]
    exact ⟨rfl, rfl⟩
  · rw [if_neg inLimit]
    dsimp only
    by_cases empty : payloadLength declared = 0
    · rw [if_neg fun some_bytes => some_bytes empty]
      exact ⟨rfl, rfl⟩
    · have room : payloadLength declared + 1 > conf.maxBlock := by
        by_contra room
        exact closes ⟨by omega, empty, by omega⟩
      rw [if_pos empty]
      unfold gbufferCreate
      rw [if_pos room]
      exact ⟨rfl, rfl⟩

theorem rxData_disconnected (closed : receiver.outcome.closed = true)
    (gbuf : List UInt8) : receiver.rxData conf gbuf = receiver := by
  have state : receiver.state = .disconnected := by simpa [Receiver.outcome] using closed
  exact (idle_disconnected conf state).drain gbuf

theorem rxData_closes {messages : List (List UInt8)} {declared : Nat} (closes : ¬Opens conf declared)
    (rest : List UInt8) :
    ((Receiver.waiting messages).rxData conf (toBigEndian headerSize declared ++ rest)).outcome =
      ⟨messages, true⟩ := by
  have closed := @headed_closes conf messages declared closes
  rw [rxData_header, rxData_disconnected conf (by rw [closed.2]), closed.2]

theorem rxData_frame {messages : List (List UInt8)} {declared : Nat} (opens : Opens conf declared)
    {message : List UInt8} (length : message.length = payloadLength declared) (rest : List UInt8) :
    (Receiver.waiting messages).rxData conf (toBigEndian headerSize declared ++ (message ++ rest)) =
      if conf.drops (messages ++ [message]) then
        ⟨.disconnected, ⟨true, true, true, payloadLength declared⟩, ⟨headerSize, headerSize, []⟩, none,
          messages ++ [message]⟩
      else (Receiver.waiting (messages ++ [message])).rxData conf rest := by
  have gathers := @Gathers.payload conf ⟨.waitPayload, ⟨true, true, true, payloadLength declared⟩,
    ⟨headerSize, headerSize, []⟩, some ⟨payloadLength declared, 0, []⟩, messages⟩ [] rfl rfl rfl
      (Nat.pos_of_ne_zero opens.2.1)
  rw [rxData_header, headed_opens conf opens, if_pos rfl]
  unfold Receiver.rxData
  rw [(gathering conf).drain_gathered gathers length]
  unfold published
  by_cases drops : conf.drops (messages ++ [message]) = true
  · simp only [if_pos drops]
    rfl
  · simp only [if_neg drops]
    rfl

/-! ## Messages -/

/-- A message is received as it was sent. -/
structure Carried (senderBlock : Nat) (messages : List (List UInt8)) (message : List UInt8) : Prop where
  some_bytes : message ≠ []
  sent : message.length + headerSize + 1 ≤ senderBlock
  received : message.length + 1 ≤ conf.maxBlock
  kept : conf.drops (messages ++ [message]) = false

theorem payloadLength_sent {message : List UInt8} (small : message.length ≤ conf.maxPktSize) :
    payloadLength (message.length + headerSize) = message.length := by
  have bound := conf.maxPktSize_lt
  unfold payloadLength headerSize
  omega

/-- What becomes of a message that is sent: it is received, it is not sent, or the connection is closed. -/
theorem rxData_sent (senderBlock : Nat) {message : List UInt8}
    (small : message.length ≤ conf.maxPktSize) (messages : List (List UInt8)) (rest : List UInt8)
    {receiver : Receiver} (receives : receiver = (Receiver.waiting messages).rxData conf
      ((acSendMessage senderBlock message).getD [] ++ rest)) :
    (Carried conf senderBlock messages message ∧
      receiver = (Receiver.waiting (messages ++ [message])).rxData conf rest) ∨
    ¬Carried conf senderBlock messages message ∧
      (receiver = (Receiver.waiting messages).rxData conf rest ∨
        receiver.outcome.closed = true ∧ receiver.messages.length ≤ messages.length + 1) := by
  have length := payloadLength_sent conf small
  rw [acSendMessage_eq] at receives
  by_cases room : message.length + headerSize + 1 > senderBlock
  · rw [if_pos room] at receives
    exact .inr ⟨fun carried => absurd carried.sent (by omega), .inl receives⟩
  rw [if_neg room, Option.getD_some, append_assoc] at receives
  by_cases opens : Opens conf (message.length + headerSize)
  · have some_bytes := opens.2.1
    have received := opens.2.2
    rw [length] at some_bytes received
    have frame := @rxData_frame conf messages _ opens message length.symm rest
    cases drops : conf.drops (messages ++ [message]) with
    | true =>
      rw [drops, if_pos rfl] at frame
      refine .inr ⟨fun carried => ?_, .inr ?_⟩
      · exact absurd (drops.symm.trans carried.kept) (by decide)
      · rw [receives, frame]
        exact ⟨rfl, by rw [length_append, length_singleton]⟩
    | false =>
      rw [drops, if_neg Bool.false_ne_true] at frame
      have carried : Carried conf senderBlock messages message :=
        ⟨fun none => some_bytes (by rw [none]; rfl), by omega, received, drops⟩
      exact .inl ⟨carried, receives.trans frame⟩
  · have closed := @rxData_closes conf messages _ opens (message ++ rest)
    rw [← receives] at closed
    have same : receiver.messages = messages := congrArg Outcome.messages closed
    refine .inr ⟨fun carried => opens ⟨?_, ?_, ?_⟩, .inr ⟨by rw [closed], by rw [same]; omega⟩⟩
    · rw [length]
      exact small
    · rw [length]
      exact fun none => carried.some_bytes (eq_nil_of_length_eq_zero none)
    · rw [length]
      exact carried.received

section

variable (senderBlock : Nat) {sent : List (List UInt8)}
  (small : ∀ message ∈ sent, message.length ≤ conf.maxPktSize) (messages : List (List UInt8))
include senderBlock small messages

theorem received_few :
    ((Receiver.waiting messages).rxData conf (sentStream senderBlock sent)).messages.length ≤
      messages.length + sent.length := by
  induction sent generalizing messages with
  | nil => exact Nat.le_refl _
  | cons message rest ih =>
    have later := ih fun other among => small other (mem_cons_of_mem message among)
    have here := @rxData_sent conf senderBlock message (small message mem_cons_self) messages
      (sentStream senderBlock rest) _ rfl
    rw [sentStream, flatMap_cons, length_cons]
    rw [sentStream] at here
    rcases here with ⟨-, same⟩ | ⟨-, same | ⟨-, few⟩⟩
    · rw [same]
      have bound := later (messages ++ [message])
      rw [length_append, length_singleton] at bound
      exact Nat.le_trans bound (by omega)
    · rw [same]
      exact Nat.le_trans (later messages) (by omega)
    · exact Nat.le_trans few (by omega)

theorem received_iff :
    ((Receiver.waiting messages).rxData conf (sentStream senderBlock sent)).outcome =
        ⟨messages ++ sent, false⟩ ↔
      AllSteps (fun messages message => messages ++ [message]) (Carried conf senderBlock) messages
        sent := by
  induction sent generalizing messages with
  | nil =>
    rw [append_nil]
    exact ⟨fun _ => trivial, fun _ => rfl⟩
  | cons message rest ih =>
    have small' : ∀ other ∈ rest, other.length ≤ conf.maxPktSize :=
      fun other among => small other (mem_cons_of_mem message among)
    have here := @rxData_sent conf senderBlock message (small message mem_cons_self) messages
      (sentStream senderBlock rest) _ rfl
    have both : sentStream senderBlock (message :: rest) =
        (acSendMessage senderBlock message).getD [] ++ sentStream senderBlock rest := by
      unfold sentStream
      rw [flatMap_cons]
    rw [both]
    rcases here with ⟨carried, same⟩ | ⟨lost, others⟩
    · rw [same, show messages ++ message :: rest = (messages ++ [message]) ++ rest by simp,
        ih small' (messages ++ [message])]
      exact ⟨fun later => ⟨carried, later⟩, fun all => all.2⟩
    · refine ⟨fun received => ?_, fun all => absurd all.1 lost⟩
      rcases others with same | ⟨closed, -⟩
      · have few := received_few conf senderBlock small' messages
        rw [same] at received
        have length := congrArg (fun outcome => outcome.messages.length) received
        dsimp only [Receiver.outcome] at length
        rw [length, length_append, length_cons] at few
        omega
      · rw [received] at closed
        exact absurd closed Bool.false_ne_true

end

/-! ## Connections -/

/-- The bytes that do not fit: a length below that of the header, which no limit refuses. -/
def Awaited (declared : Nat) : Prop :=
  declared < headerSize ∧ declared + (2 ^ 32 - headerSize) ≤ conf.maxPktSize ∧
    declared + (2 ^ 32 - headerSize) + 1 ≤ conf.maxBlock

/-- Where the length is below that of the header or over the limit, a payload is awaited in one case. -/
theorem opens_iff {declared : Nat} (fits : declared < 2 ^ 32)
    (wrong : declared < headerSize ∨ conf.maxPktSize < declared - headerSize) :
    Opens conf declared ↔ Awaited conf declared := by
  unfold Opens Awaited payloadLength
  unfold headerSize at wrong ⊢
  constructor
  · intro ⟨inLimit, some_bytes, room⟩
    omega
  · intro ⟨below, inLimit, room⟩
    omega

/-- A receiver publishes the messages that are sent, whatever the chunks are, and stays open, exactly when
no message is empty, each fits in a block of the sender with its header and in one of the receiver, and the
subscriber keeps the connection. A header that declares less than its own length or more than the limit
closes the connection, whatever follows, exactly when the length does not wrap to one that the limit and
the blocks admit. -/
theorem messages_carried_iff (conf : Conf) :
    (∀ (senderBlock : Nat) (sent : List (List UInt8)) (chunks : List Chunk),
      (∀ message ∈ sent, message.length ≤ conf.maxPktSize) →
      streamOf chunks = sentStream senderBlock sent →
      ((Receiver.connected.receive conf chunks).outcome = ⟨sent, false⟩ ↔
        AllSteps (fun messages message => messages ++ [message]) (Carried conf senderBlock) [] sent)) ∧
    ∀ (messages : List (List UInt8)) (declared : Nat), declared < 2 ^ 32 →
      declared < headerSize ∨ conf.maxPktSize < declared - headerSize →
      ((∀ (chunks : List Chunk) (rest : List UInt8),
        streamOf chunks = toBigEndian headerSize declared ++ rest →
          ((Receiver.waiting messages).receive conf chunks).outcome = ⟨messages, true⟩) ↔
        ¬Awaited conf declared) := by
  refine ⟨fun senderBlock sent chunks small same => ?_, fun messages declared fits wrong => ?_⟩
  · have received := received_iff conf senderBlock small []
    rw [List.nil_append, ← same] at received
    unfold Receiver.connected
    rw [receive_stream]
    exact received
  · rw [← opens_iff conf fits wrong]
    constructor
    · intro all opens
      have some_bytes : toBigEndian headerSize declared ≠ [] := by
        apply List.ne_nil_of_length_pos
        rw [length_toBigEndian]
        decide
      have few : (toBigEndian headerSize declared).length < 2 ^ 31 := by
        rw [length_toBigEndian]
        decide
      have closed := all [⟨toBigEndian headerSize declared, some_bytes, few⟩] [] rfl
      have header := rxData_header conf messages declared []
      rw [List.append_nil, headed_opens conf opens] at header
      rw [receive_stream] at closed
      have stream : streamOf [⟨toBigEndian headerSize declared, some_bytes, few⟩] =
          toBigEndian headerSize declared := List.append_nil _
      rw [stream, header] at closed
      exact absurd (congrArg Outcome.closed closed) Bool.false_ne_true
    · intro closes chunks rest same
      rw [receive_stream, same]
      exact rxData_closes conf closes rest

/-- A receiver with the default limit and blocks of 1024 bytes. -/
def small : Conf where
  maxPktSizeAttr := 0
  maxBlock := 1024
  created := by decide
  drops := fun _ => false

/-- Two messages in three chunks, and a length of 3. -/
theorem messages_carried_two :
    (Receiver.connected.receive small [⟨[0, 0], by decide, by decide⟩,
      ⟨[0, 5, 7, 0, 0, 0], by decide, by decide⟩, ⟨[6, 8, 9], by decide, by decide⟩]).outcome =
        ⟨[[7], [8, 9]], false⟩ ∧
    ((Receiver.waiting [[7]]).receive small [⟨[0, 0, 0, 3], by decide, by decide⟩]).outcome =
      ⟨[[7]], true⟩ := by
  have carried := messages_carried_iff small
  refine ⟨(carried.1 1024 [[7], [8, 9]] _ (by decide) (by decide)).2 ?_,
    (carried.2 [[7]] 3 (by decide) (.inl (by decide))).2 (fun awaited => ?_) _ [] rfl⟩
  · exact ⟨⟨by decide, by decide, by decide, rfl⟩, ⟨by decide, by decide, by decide, rfl⟩, trivial⟩
  · exact absurd awaited.2.1 (by decide)

/-- An empty message closes the connection. -/
theorem empty_message_closes :
    ¬∀ (conf : Conf) (senderBlock : Nat) (sent : List (List UInt8)) (chunks : List Chunk),
      (∀ messages, conf.drops messages = false) →
      (∀ message ∈ sent, message.length ≤ conf.maxPktSize) →
      streamOf chunks = sentStream senderBlock sent →
        (Receiver.connected.receive conf chunks).outcome = ⟨sent, false⟩ := by
  intro all
  have closed := all small 1024 [[]] [⟨[0, 0, 0, 4], by decide, by decide⟩] (fun _ => rfl)
    (by decide) (by decide)
  exact absurd closed (by decide)

end Yunetas.Tcp4h
