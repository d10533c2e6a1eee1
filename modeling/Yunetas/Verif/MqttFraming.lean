import Yunetas.Lib.Run
import Yunetas.Mqtt.FrameReader

/-!
# Packets and chunks

A connection recovers the packets of its stream as long as no chunk begins inside a remaining length,
behind its second byte. There it reads the second byte again.
-/

namespace Yunetas.Mqtt

open List Bool Option

open Gobj (IStream)

variable (conf : FrameConf)

/-- How the bytes of a header are kept between two chunks. -/
def HeaderShown : List UInt8 → FrameHead → IStream → Prop
  | [], frame, istream => frame = {} ∧ istream = ⟨5, 0, []⟩
  | [byte1], frame, istream => frame = {} ∧ istream = ⟨5, 1, [byte1]⟩
  | [byte1, byte2], frame, istream =>
    frame = decodeHead byte1 byte2 ∧ continues byte2 = true ∧ istream = ⟨5, 2, []⟩
  | _, _, _ => True

/-- How what was read of a stream is kept between two chunks. -/
structure Shows (reader : Reader) (receiver : Receiver) : Prop where
  packets : receiver.packets = reader.packets
  /-- The size of `istream_frame`. -/
  size : receiver.istreamFrame.size = 5
  progress : match reader.progress with
    | .closed => receiver.state = .disconnected
    | .header seen =>
      receiver.state = (if reader.packets.isEmpty then .waitHandshake else .waitFrameHeader) ∧
        HeaderShown seen receiver.frameHead receiver.istreamFrame
    | .payload command flags length seen =>
      receiver.state = .waitPayload ∧ receiver.frameHead.command = command ∧
        receiver.frameHead.flags = flags ∧ receiver.frameHead.frameLength = length ∧
          receiver.istreamPayload = seen ∧ seen.length < length

/-! ## The reader -/

theorem Reader.read_append (reader : Reader) (front back : List UInt8) :
    reader.read conf (front ++ back) = (reader.read conf front).read conf back :=
  foldl_append

theorem Reader.read_one (reader : Reader) (byte : UInt8) :
    reader.read conf [byte] = reader.absorb conf byte := rfl

variable {reader : Reader} {packets : List Packet} {command flags : UInt8} {receiver : Receiver}

theorem Reader.read_closed (closed : reader.progress = .closed)
    (bytes : List UInt8) : reader.read conf bytes = reader := by
  induction bytes with
  | nil => rfl
  | cons byte rest ih =>
    have stays : reader.absorb conf byte = reader := by
      unfold Reader.absorb
      rw [closed]
    show (reader.absorb conf byte).read conf rest = reader
    rw [stays, ih]

theorem Reader.complete_not_inLength (reader : Reader) (packet : Packet) :
    ¬(reader.complete conf packet).InLength := by
  unfold Reader.complete Reader.InLength
  split <;> rintro ⟨_, _, _, _, same⟩ <;> cases same

theorem Reader.headed_not_inLength (reader : Reader) (command flags : UInt8) (length : Nat) :
    ¬(reader.headed conf command flags length).InLength := by
  unfold Reader.headed
  split
  · rintro ⟨_, _, _, _, same⟩
    cases same
  · split
    · exact reader.complete_not_inLength conf _
    · split <;> rintro ⟨_, _, _, _, same⟩ <;> cases same

/-! ## Parts of a header -/

section Parts

variable {must : FrameHead → Bool} {factor : Nat} {continued : FrameHead → Option FrameHead}
  {frame : FrameHead} {istream : IStream}

theorem readRemainingLength_skip (skipped : must frame = false) (bf : List UInt8) :
    readRemainingLength must factor continued frame istream bf = .done frame istream bf := by
  unfold readRemainingLength
  rw [skipped, if_neg Bool.false_ne_true]

theorem readRemainingLength_nil (needed : must frame = true) :
    readRemainingLength must factor continued frame istream [] = .waits frame istream := by
  unfold readRemainingLength
  rw [needed, if_pos rfl]
  rfl

theorem readRemainingLength_cons (needed : must frame = true) (read : istream.left = [])
    (room : istream.written < istream.size) (byte : UInt8) (bf : List UInt8) :
    readRemainingLength must factor continued frame istream (byte :: bf) =
      let next := { frame with frameLength := frame.frameLength + sevenBits byte * factor }
      let istream := { istream with written := istream.written + 1 }
      if continues byte then (continued next).elim .refused fun frame => .done frame istream bf
      else .done next istream bf := by
  have ⟨size, written, left⟩ := istream
  dsimp only at read room
  subst read
  have one : (List.take (size - written) [byte]) = [byte] :=
    take_of_length_le (Nat.le_sub_of_add_le (by show 1 + written ≤ size; omega))
  unfold readRemainingLength
  rw [needed, if_pos rfl]
  simp [IStream.consume, IStream.append, IStream.extract, one]

end Parts

/-! ## Headers -/

/-- What `framehead_consume` comes to is what the reader comes to with the same bytes. -/
def Reaches (reader : Reader) (gbuf : List UInt8) : Consumed → Prop
  | .crashed => False
  | .refused => reader.read conf gbuf = { reader with progress := .closed }
  | .waits frame istream =>
    istream.size = 5 ∧ ∃ seen, reader.read conf gbuf = { reader with progress := .header seen } ∧
      HeaderShown seen frame istream
  | .done frame istream bf =>
    istream.size = 5 ∧ headerAdmitted conf frame.command frame.frameLength = true ∧
      ∃ used, used ≠ [] ∧ gbuf = used ++ bf ∧
        reader.read conf used = reader.headed conf frame.command frame.flags frame.frameLength

theorem reaches_checked {frame : FrameHead} {istream : IStream}
    (used : List UInt8) {bf : List UInt8} (size : istream.size = 5) (some_used : used ≠ [])
    (reads : reader.read conf used =
      reader.headed conf frame.command frame.flags frame.frameLength) :
    Reaches conf reader (used ++ bf)
      (if headerAdmitted conf frame.command frame.frameLength then .done frame istream bf
      else .refused) := by
  split
  · rename_i admitted
    exact ⟨size, admitted, used, some_used, rfl, reads⟩
  · rename_i refused
    have closed : reader.read conf used = { reader with progress := .closed } := by
      rw [reads]
      unfold Reader.headed Reader.admits
      rw [eq_false_iff.2 refused]
      rfl
    show reader.read conf (used ++ bf) = _
    rw [Reader.read_append, closed]
    exact Reader.read_closed conf rfl bf

theorem absorb_digit (reader : Reader) {first : UInt8} {digits : List UInt8}
    (seen : reader.progress = .header (first :: digits)) (behind : digits ≠ []) (byte : UInt8) :
    reader.absorb conf byte =
      if continues byte then
        if digits.length = 3 then { reader with progress := .closed }
        else { reader with progress := .header (first :: digits ++ [byte]) }
      else reader.headed conf (first &&& 0xF0) (first &&& 0x0F)
        (varintValue (digits ++ [byte])) := by
  unfold Reader.absorb
  rw [seen]
  dsimp only
  rw [if_neg fun both => behind both.1]

/-- The header that is complete is checked. -/
def checked (frame : FrameHead) (istream : IStream) (bf : List UInt8) : Consumed :=
  if headerAdmitted conf frame.command frame.frameLength then .done frame istream bf else .refused

theorem Consumed.andThen_assoc (part : Consumed)
    (next last : FrameHead → IStream → List UInt8 → Consumed) :
    (part.andThen next).andThen last =
      part.andThen fun frame istream bf => (next frame istream bf).andThen last := by
  cases part <;> rfl

theorem reaches_cons {byte : UInt8} (progress : Progress) {bf : List UInt8}
    {consumed : Consumed} (absorbs : reader.absorb conf byte = { reader with progress := progress })
    (reaches : Reaches conf { reader with progress := progress } bf consumed) :
    Reaches conf reader (byte :: bf) consumed := by
  have reads : ∀ bytes, reader.read conf (byte :: bytes) =
      Reader.read conf { reader with progress := progress } bytes := by
    intro bytes
    show (reader.absorb conf byte).read conf bytes = _
    rw [absorbs]
  cases consumed with
  | crashed => exact reaches
  | refused => exact (reads bf).trans reaches
  | waits frame istream =>
    have ⟨size, seen, same, shown⟩ := reaches
    exact ⟨size, seen, (reads bf).trans same, shown⟩
  | done frame istream rest =>
    have ⟨size, admitted, used, _, same, headed⟩ := reaches
    exact ⟨size, admitted, byte :: used, cons_ne_nil byte used,
      by rw [same, cons_append], (reads used).trans headed⟩

theorem reaches_digit {must : FrameHead → Bool} {factor : Nat}
    {continued : FrameHead → Option FrameHead}
    {rest : FrameHead → IStream → List UInt8 → Consumed} {first : UInt8}
    {digits : List UInt8} {frame : FrameHead} (behind : digits ≠ []) (few : digits.length ≤ 3)
    (needed : must frame = true) (command : frame.command = first &&& 0xF0)
    (flags : frame.flags = first &&& 0x0F) (length : frame.frameLength = varintValue digits)
    (power : factor = 128 ^ digits.length)
    (shown : HeaderShown (first :: digits) frame ⟨5, 1 + digits.length, []⟩)
    (stops : ∀ number istream bf, rest { frame with frameLength := number } istream bf =
      checked conf { frame with frameLength := number } istream bf)
    (goes : ∀ byte bf, continues byte = true →
      Reaches conf ⟨packets, if digits.length = 3 then .closed else .header (first :: digits ++ [byte])⟩
        bf (((continued { frame with frameLength := varintValue (digits ++ [byte]) }).elim
          Consumed.refused fun frame => .done frame ⟨5, 2 + digits.length, []⟩ bf).andThen rest))
    (bf : List UInt8) :
    Reaches conf ⟨packets, .header (first :: digits)⟩ bf
      ((readRemainingLength must factor continued frame ⟨5, 1 + digits.length, []⟩ bf).andThen
        rest) := by
  cases bf with
  | nil =>
    rw [readRemainingLength_nil needed]
    exact ⟨rfl, first :: digits, rfl, shown⟩
  | cons byte bf =>
    have room : 1 + digits.length < 5 := by omega
    have value : frame.frameLength + sevenBits byte * factor = varintValue (digits ++ [byte]) := by
      rw [varintValue_append, length, power]
      show _ = _ + _ * (sevenBits byte + 128 * 0)
      rw [Nat.mul_zero, Nat.add_zero, Nat.mul_comm]
    have absorbs := absorb_digit conf ⟨packets, .header (first :: digits)⟩ rfl behind byte
    rw [readRemainingLength_cons needed rfl room]
    rw [value, show 1 + digits.length + 1 = 2 + digits.length by omega]
    by_cases more : continues byte = true
    · rw [if_pos more] at absorbs ⊢
      refine reaches_cons conf _ ?_ (goes byte bf more)
      rw [absorbs]
      split <;> rfl
    · rw [if_neg more] at absorbs ⊢
      show Reaches conf _ _ (rest _ _ _)
      rw [stops]
      refine reaches_checked conf [byte] rfl (cons_ne_nil byte []) ?_
      rw [Reader.read_one, absorbs, command, flags]

theorem reaches_lengths {byte1 byte2 : UInt8} (more : continues byte2 = true) (bf : List UInt8) :
    Reaches conf ⟨packets, .header [byte1, byte2]⟩ bf
      (frameheadConsume conf packets (decodeHead byte1 byte2) ⟨5, 2, []⟩ bf) := by
  have head : frameheadConsume conf packets (decodeHead byte1 byte2) ⟨5, 2, []⟩ bf =
      (readRemainingLength2 (decodeHead byte1 byte2) ⟨5, 2, []⟩ bf).andThen fun frame istream bf =>
        (readRemainingLength3 frame istream bf).andThen fun frame istream bf =>
          (readRemainingLength4 frame istream bf).andThen (checked conf) := by
    unfold frameheadConsume
    rw [Consumed.andThen_assoc, Consumed.andThen_assoc]
    rfl
  rw [head]
  refine reaches_digit conf (cons_ne_nil byte2 []) (by show 1 ≤ 3; decide) more rfl rfl rfl
    rfl ⟨rfl, more, rfl⟩ (fun number istream bf => ?_) (fun byte3 bf more3 => ?_) bf
  · unfold readRemainingLength3
    rw [readRemainingLength_skip rfl]
    unfold Consumed.andThen
    dsimp only
    unfold readRemainingLength4
    rw [readRemainingLength_skip rfl]
  · refine reaches_digit conf (cons_ne_nil byte2 [byte3]) (by show 2 ≤ 3; decide) rfl rfl
      rfl rfl rfl trivial (fun number istream bf => ?_) (fun byte4 bf more4 => ?_) bf
    · unfold readRemainingLength4
      rw [readRemainingLength_skip rfl]
      rfl
    · refine reaches_digit conf (cons_ne_nil byte2 [byte3, byte4]) (by show 3 ≤ 3; decide)
        rfl rfl rfl rfl rfl trivial (fun number istream bf => rfl) (fun byte5 bf more5 => ?_) bf
      exact Reader.read_closed conf rfl bf

theorem reaches_head (packets : List Packet) (byte1 byte2 : UInt8) (bf : List UInt8) :
    Reaches conf ⟨packets, .header [byte1]⟩ (byte2 :: bf)
      (if !conf.inSession packets && conf.iamServer && (byte1 &&& 0xF0) != cmdConnect then .refused
      else frameheadConsume conf packets (decodeHead byte1 byte2) ⟨5, 2, []⟩ bf) := by
  have expected : (!conf.inSession packets && conf.iamServer && (byte1 &&& 0xF0) != cmdConnect) =
      !Reader.expects conf ⟨packets, .header [byte1]⟩ (byte1 &&& 0xF0) := by
    unfold Reader.expects
    simp [bne]
  have absorbs : Reader.absorb conf ⟨packets, .header [byte1]⟩ byte2 =
      if ¬Reader.expects conf ⟨packets, .header [byte1]⟩ (byte1 &&& 0xF0) then ⟨packets, .closed⟩
      else if continues byte2 then ⟨packets, .header [byte1, byte2]⟩
      else Reader.headed conf ⟨packets, .header [byte1]⟩ (byte1 &&& 0xF0) (byte1 &&& 0x0F)
        (varintValue [byte2]) := by
    unfold Reader.absorb
    simp
  rw [expected]
  cases expects : Reader.expects conf ⟨packets, .header [byte1]⟩ (byte1 &&& 0xF0) with
  | false =>
    rw [expects] at absorbs
    refine reaches_cons conf .closed absorbs ?_
    exact Reader.read_closed conf rfl bf
  | true =>
    rw [expects, if_neg (fun no => no rfl)] at absorbs
    rw [if_neg (by decide)]
    by_cases more : continues byte2 = true
    · rw [if_pos more] at absorbs
      exact reaches_cons conf _ absorbs (reaches_lengths conf more bf)
    · rw [if_neg more] at absorbs
      have no : (decodeHead byte1 byte2).mustReadRemainingLength2 = false := eq_false_iff.2 more
      have skips : frameheadConsume conf packets (decodeHead byte1 byte2) ⟨5, 2, []⟩ bf =
          checked conf (decodeHead byte1 byte2) ⟨5, 2, []⟩ bf := by
        show (((readRemainingLength2 _ _ _).andThen _).andThen _).andThen _ = _
        unfold readRemainingLength2
        rw [readRemainingLength_skip no]
        rfl
      rw [skips]
      refine reaches_checked conf [byte2] rfl (cons_ne_nil byte2 []) ?_
      rw [Reader.read_one, absorbs]
      rfl

theorem reaches_header {seen : List UInt8} {frame : FrameHead}
    {istream : IStream} (shown : HeaderShown seen frame istream) (size : istream.size = 5)
    (short : ¬Reader.InLength ⟨packets, .header seen⟩) {gbuf : List UInt8} (some_bytes : gbuf ≠ []) :
    Reaches conf ⟨packets, .header seen⟩ gbuf (frameheadConsume conf packets frame istream gbuf) := by
  have head : ∀ byte1 byte2 bf istream,
      (if !conf.inSession packets && conf.iamServer && (byte1 &&& 0xF0) != cmdConnect then .refused
        else frameheadConsume conf packets (decodeHead byte1 byte2) istream bf) =
      ((((if !conf.inSession packets && conf.iamServer && (byte1 &&& 0xF0) != cmdConnect then
        Consumed.refused else .done (decodeHead byte1 byte2) istream bf).andThen
          readRemainingLength2).andThen readRemainingLength3).andThen
            readRemainingLength4).andThen (checked conf) := by
    intro byte1 byte2 bf istream
    split
    · rfl
    · rfl
  match seen, shown, some_bytes with
  | [], shown, some_bytes =>
    obtain ⟨rfl, rfl⟩ := shown
    match gbuf, some_bytes with
    | [byte1], _ => exact ⟨rfl, [byte1], rfl, rfl, rfl⟩
    | byte1 :: byte2 :: bf, _ =>
      refine reaches_cons conf (.header [byte1]) rfl ?_
      have reached := reaches_head conf packets byte1 byte2 bf
      rw [head] at reached
      exact reached
  | [byte1], shown, some_bytes =>
    obtain ⟨rfl, rfl⟩ := shown
    match gbuf, some_bytes with
    | byte2 :: bf, _ =>
      have reached := reaches_head conf packets byte1 byte2 bf
      rw [head] at reached
      exact reached
  | [byte1, byte2], shown, some_bytes =>
    obtain ⟨rfl, more, rfl⟩ := shown
    exact reaches_lengths conf more gbuf
  | byte1 :: byte2 :: byte3 :: rest, shown, some_bytes =>
    exact absurd ⟨byte1, byte2, byte3, rest, rfl⟩ short

/-! ## Rounds -/

theorem frameCompleted_shows (receiver : Receiver) {packet : Packet}
    (packets : receiver.packets = reader.packets) (size : receiver.istreamFrame.size = 5)
    (same : packet = ⟨receiver.frameHead.command, receiver.frameHead.flags, receiver.istreamPayload⟩) :
    Shows (reader.complete conf packet) (frameCompleted conf receiver) := by
  unfold Reader.complete frameCompleted
  dsimp only
  rw [same, packets]
  cases conf.handles reader.packets ⟨receiver.frameHead.command, receiver.frameHead.flags,
      receiver.istreamPayload⟩ with
  | accepted =>
    refine ⟨rfl, size, ?_⟩
    rw [if_pos rfl]
    have some_packet : ∀ last : Packet, (reader.packets ++ [last]).isEmpty = false := by
      intro last
      cases reader.packets <;> rfl
    rw [some_packet]
    refine ⟨rfl, rfl, ?_⟩
    show IStream.reset _ = _
    unfold IStream.reset
    rw [size]
  | refused => exact ⟨rfl, size, rfl⟩
  | disconnected => exact ⟨rfl, size, rfl⟩

theorem headerCompleted_shows (reader : Reader) (receiver : Receiver) {admits : UInt8 → Nat → Bool}
    (packets : receiver.packets = reader.packets) (size : receiver.istreamFrame.size = 5)
    (admitted : headerAdmitted conf receiver.frameHead.command receiver.frameHead.frameLength = true)
    (handshake : ∀ command length,
      admits command length = (!reader.packets.isEmpty || handshakeAdmits conf command length)) :
    Shows (reader.headed conf receiver.frameHead.command receiver.frameHead.flags
      receiver.frameHead.frameLength) (headerCompleted conf admits receiver) := by
  unfold Reader.headed headerCompleted Reader.admits
  rw [admitted, handshake, Bool.true_and]
  split
  · exact ⟨packets, size, rfl⟩
  · by_cases empty : receiver.frameHead.frameLength = 0
    · rw [if_pos empty, if_neg fun some_bytes => some_bytes empty]
      exact frameCompleted_shows conf _ packets size rfl
    · rw [if_neg empty, if_pos empty]
      split
      · exact ⟨packets, size, rfl⟩
      · exact ⟨packets, size, rfl, rfl, rfl, rfl, rfl, Nat.pos_of_ne_zero empty⟩

theorem read_payload {length : Nat}
    (seen bytes : List UInt8) (short : seen.length + bytes.length < length) :
    Reader.read conf ⟨packets, .payload command flags length seen⟩ bytes =
      ⟨packets, .payload command flags length (seen ++ bytes)⟩ := by
  induction bytes generalizing seen with
  | nil => rw [append_nil]; rfl
  | cons byte rest ih =>
    rw [length_cons] at short
    have absorbs : Reader.absorb conf ⟨packets, .payload command flags length seen⟩ byte =
        ⟨packets, .payload command flags length (seen ++ [byte])⟩ := by
      unfold Reader.absorb
      dsimp only
      rw [if_pos (by omega)]
    show (Reader.absorb conf _ byte).read conf rest = _
    rw [absorbs, ih (seen ++ [byte]) (by rw [length_append, length_singleton]; omega),
      append_assoc, singleton_append]

theorem read_whole_payload {length : Nat}
    (seen bytes : List UInt8) (whole : seen.length + bytes.length = length) (some_bytes : bytes ≠ []) :
    Reader.read conf ⟨packets, .payload command flags length seen⟩ bytes =
      Reader.complete conf ⟨packets, .payload command flags length seen⟩
        ⟨command, flags, seen ++ bytes⟩ := by
  obtain ⟨front, last, rfl⟩ : ∃ front last, bytes = front ++ [last] :=
    ⟨_, _, (dropLast_concat_getLast some_bytes).symm⟩
  rw [length_append, length_singleton] at whole
  rw [Reader.read_append, read_payload conf seen front (by omega), Reader.read_one]
  unfold Reader.absorb
  dsimp only
  rw [if_neg (by rw [length_append]; omega), append_assoc]
  rfl

/-- After an action nothing is left of a chunk, or some bytes behind a packet or a header. -/
def Advances (reader : Reader) (gbuf : List UInt8) (next : Receiver × List UInt8) : Prop :=
  (next.2 = [] ∧ Shows (reader.read conf gbuf) next.1) ∨
    ∃ used, used ≠ [] ∧ gbuf = used ++ next.2 ∧ Shows (reader.read conf used) next.1 ∧
      ¬(reader.read conf used).InLength

theorem headerRound_advances {admits : UInt8 → Nat → Bool} {seen : List UInt8}
    (waits : receiver.state = if receiver.packets.isEmpty then .waitHandshake else .waitFrameHeader)
    (shown : HeaderShown seen receiver.frameHead receiver.istreamFrame)
    (size : receiver.istreamFrame.size = 5)
    (short : ¬Reader.InLength ⟨receiver.packets, .header seen⟩)
    (handshake : ∀ command length,
      admits command length = (!receiver.packets.isEmpty || handshakeAdmits conf command length))
    {gbuf : List UInt8} (some_bytes : gbuf ≠ []) :
    Advances conf ⟨receiver.packets, .header seen⟩ gbuf (headerRound conf admits receiver gbuf) := by
  have reaches := reaches_header conf shown size short some_bytes
  unfold headerRound
  cases consumed : frameheadConsume conf receiver.packets receiver.frameHead receiver.istreamFrame
      gbuf with
  | crashed =>
    rw [consumed] at reaches
    exact reaches.elim
  | refused =>
    rw [consumed] at reaches
    refine .inl ⟨rfl, ?_⟩
    rw [show Reader.read conf _ gbuf = _ from reaches]
    exact ⟨rfl, size, rfl⟩
  | waits frame istream =>
    rw [consumed] at reaches
    have ⟨size, later, reads, shown⟩ := reaches
    refine .inl ⟨rfl, ?_⟩
    rw [reads]
    exact ⟨rfl, size, waits, shown⟩
  | done frame istream bf =>
    rw [consumed] at reaches
    have ⟨size, admitted, used, some_used, split, reads⟩ := reaches
    have fewer : bf.length ≠ gbuf.length := by
      have positive := length_pos_of_ne_nil some_used
      rw [split, length_append]
      omega
    dsimp only
    rw [if_neg fewer]
    refine .inr ⟨used, some_used, split, ?_, ?_⟩
    · rw [reads]
      exact headerCompleted_shows conf ⟨receiver.packets, .header seen⟩
        { receiver with frameHead := frame, istreamFrame := istream } rfl size admitted handshake
    · rw [reads]
      exact Reader.headed_not_inLength conf _ _ _ _

theorem acProcessPayloadData_advances
    (waits : receiver.state = .waitPayload) (size : receiver.istreamFrame.size = 5)
    (less : receiver.istreamPayload.length < receiver.frameHead.frameLength) (gbuf : List UInt8) :
    Advances conf ⟨receiver.packets, .payload receiver.frameHead.command receiver.frameHead.flags
      receiver.frameHead.frameLength receiver.istreamPayload⟩ gbuf
      (acProcessPayloadData conf receiver gbuf) := by
  unfold acProcessPayloadData
  by_cases more : receiver.frameHead.frameLength - receiver.istreamPayload.length > gbuf.length
  · rw [if_pos more]
    refine .inl ⟨rfl, ?_⟩
    rw [read_payload conf receiver.istreamPayload gbuf (by omega),
      take_of_length_le (Nat.le_of_lt more)]
    refine ⟨rfl, size, waits, rfl, rfl, rfl, rfl, ?_⟩
    rw [length_append]
    omega
  · rw [if_neg more]
    have taken : (gbuf.take (receiver.frameHead.frameLength - receiver.istreamPayload.length)).length =
        receiver.frameHead.frameLength - receiver.istreamPayload.length := by
      rw [length_take]
      omega
    have some_taken :
        gbuf.take (receiver.frameHead.frameLength - receiver.istreamPayload.length) ≠ [] := by
      apply ne_nil_of_length_pos
      omega
    refine .inr ⟨_, some_taken, (take_append_drop _ gbuf).symm, ?_, ?_⟩
    · rw [read_whole_payload conf _ _ (by rw [taken]; omega) some_taken]
      exact frameCompleted_shows conf _ rfl size rfl
    · rw [read_whole_payload conf _ _ (by rw [taken]; omega) some_taken]
      exact Reader.complete_not_inLength conf _ _

theorem action_advances (shows : Shows reader receiver)
    (short : ¬reader.InLength) {gbuf : List UInt8} (some_bytes : gbuf ≠ []) :
    Advances conf reader gbuf (receiver.action conf gbuf) := by
  have ⟨packets, progress⟩ := reader
  have ⟨same, size, shown⟩ := shows
  subst same
  unfold Receiver.action
  cases progress with
  | closed =>
    rw [shown]
    refine .inl ⟨rfl, ?_⟩
    rw [Reader.read_closed conf rfl]
    exact ⟨rfl, size, shown⟩
  | payload command flags length seen =>
    obtain ⟨waits, rfl, rfl, rfl, rfl, less⟩ := shown
    rw [waits]
    exact acProcessPayloadData_advances conf waits size less gbuf
  | header seen =>
    have ⟨waits, shown⟩ := shown
    cases first : receiver.packets.isEmpty with
    | true =>
      have waits' := waits
      rw [first, if_pos rfl] at waits'
      rw [waits']
      refine headerRound_advances conf waits shown size short (fun command length => ?_) some_bytes
      rw [first]
      rfl
    | false =>
      have waits' := waits
      rw [first, if_neg Bool.false_ne_true] at waits'
      rw [waits']
      refine headerRound_advances conf waits shown size short (fun command length => ?_) some_bytes
      rw [first]
      rfl

theorem rxData_shows (shows : Shows reader receiver)
    (short : ¬reader.InLength) (gbuf : List UInt8) :
    Shows (reader.read conf gbuf) (receiver.rxData conf gbuf) := by
  have rounds : ∀ fuel reader receiver gbuf, Shows reader receiver → ¬reader.InLength →
      gbuf.length ≤ fuel → Shows (reader.read conf gbuf) (receiver.rounds conf fuel gbuf) := by
    intro fuel
    induction fuel with
    | zero =>
      intro reader receiver gbuf shows _ enough
      rw [eq_nil_of_length_eq_zero (Nat.le_zero.1 enough)]
      exact shows
    | succ fuel ih =>
      intro reader receiver gbuf shows short enough
      unfold Receiver.rounds
      by_cases none : gbuf = []
      · rw [if_pos none, none]
        exact shows
      · rw [if_neg none]
        rcases action_advances conf shows short none with ⟨nothing, shown⟩ | advanced
        · dsimp only
          rw [nothing]
          cases fuel with
          | zero => exact shown
          | succ fuel =>
            exact shown
        · have ⟨used, some_used, split, shown, still⟩ := advanced
          have fewer := length_pos_of_ne_nil some_used
          have total := congrArg List.length split
          rw [length_append] at total
          have rest := ih _ _ (receiver.action conf gbuf).2 shown still (by omega)
          rw [← Reader.read_append, ← split] at rest
          exact rest
  exact rounds gbuf.length reader receiver gbuf shows short (Nat.le_refl _)

/-! ## Packets that are sent -/

theorem read_lengths (packets : List Packet) (first : UInt8) {count number : Nat}
    {digits : List UInt8} (behind : digits ≠ []) (few : digits.length + count ≤ 4) (some_left : 0 < count)
    (fits : number < 128 ^ count) :
    Reader.read conf ⟨packets, .header (first :: digits)⟩ (varint count number) =
      Reader.headed conf ⟨packets, .header []⟩ (first &&& 0xF0) (first &&& 0x0F)
        (varintValue (digits ++ varint count number)) := by
  induction count generalizing digits number with
  | zero => exact absurd some_left (by decide)
  | succ count ih =>
    have absorbs := absorb_digit conf ⟨packets, .header (first :: digits)⟩ rfl behind
    unfold varint
    split
    · rename_i small
      rw [Reader.read_one, absorbs, (last_byte small).1]
      rfl
    · have shorter : number / 128 < 128 ^ count := by
        rw [Nat.div_lt_iff_lt_mul (by decide)]
        rwa [pow_succ] at fits
      have still : 0 < count := by
        by_contra none
        rw [Nat.eq_zero_of_not_pos none] at shorter
        omega
      have next : Reader.absorb conf ⟨packets, .header (first :: digits)⟩
          (UInt8.ofNat (number % 128 + 128)) =
            ⟨packets, .header (first :: (digits ++ [UInt8.ofNat (number % 128 + 128)]))⟩ := by
        rw [absorbs, (earlier_byte number).1, if_pos rfl, if_neg (by omega)]
        rfl
      show (Reader.absorb conf _ _).read conf (varint count (number / 128)) = _
      rw [next, ih (by simp) (by rw [length_append, length_singleton]; omega) still shorter,
        append_assoc]
      rfl

theorem halves (high : command &&& 0x0F = 0) (low : flags &&& 0xF0 = 0) :
    (command ||| flags) &&& 0xF0 = command ∧ (command ||| flags) &&& 0x0F = flags := by
  have whole : ∀ byte : UInt8, (byte &&& 0xF0) ||| (byte &&& 0x0F) = byte :=
    forall_byte (by decide +kernel)
  have distrib : ∀ mask : UInt8,
      (command ||| flags) &&& mask = (command &&& mask) ||| (flags &&& mask) := fun mask =>
    UInt8.eq_of_toBitVec_eq (BitVec.and_or_distrib_right)
  have commands := whole command
  have rest := whole flags
  rw [high, UInt8.or_zero] at commands
  rw [low, UInt8.zero_or] at rest
  constructor
  · rw [distrib, commands, low, UInt8.or_zero]
  · rw [distrib, high, rest, UInt8.zero_or]

theorem read_fixed_header {size : Nat} (high : command &&& 0x0F = 0) (low : flags &&& 0xF0 = 0)
    (expects : Reader.expects conf ⟨packets, .header []⟩ command = true) (small : size < 128 ^ 4) :
    Reader.read conf ⟨packets, .header []⟩ ((command ||| flags) :: varint 4 size) =
      Reader.headed conf ⟨packets, .header []⟩ command flags size := by
  have ⟨same, rest⟩ := halves high low
  have expected : Reader.expects conf ⟨packets, .header [command ||| flags]⟩ command = true := expects
  have absorbs : ∀ byte, Reader.absorb conf ⟨packets, .header [command ||| flags]⟩ byte =
      if continues byte then ⟨packets, .header [command ||| flags, byte]⟩
      else Reader.headed conf ⟨packets, .header []⟩ command flags (varintValue [byte]) := by
    intro byte
    unfold Reader.absorb
    dsimp only
    have short : ¬([] : List UInt8).length = 3 := by decide
    rw [same, rest, expected, if_neg (fun both => both.2 rfl), if_neg short]
    rfl
  have value := varintValue_varint small
  show (Reader.absorb conf _ _).read conf (varint 4 size) = _
  rw [show Reader.absorb conf ⟨packets, .header []⟩ (command ||| flags) =
    ⟨packets, .header [command ||| flags]⟩ from rfl]
  unfold varint at value ⊢
  by_cases one : size < 128
  · rw [if_pos one] at value ⊢
    rw [Reader.read_one, absorbs, (last_byte one).1, value]
    rfl
  · rw [if_neg one] at value ⊢
    have shorter : size / 128 < 128 ^ 3 := by omega
    show (Reader.absorb conf _ _).read conf (varint 3 (size / 128)) = _
    rw [absorbs, (earlier_byte size).1, if_pos rfl]
    rw [read_lengths conf packets (command ||| flags) (cons_ne_nil _ []) (by show 1 + 3 ≤ 4; decide)
      (by decide) shorter, same, rest]
    rw [show [UInt8.ofNat (size % 128 + 128)] ++ varint 3 (size / 128) =
      UInt8.ofNat (size % 128 + 128) :: varint 3 (size / 128) from rfl, value]

theorem read_written {packet : Packet} {maxBlock : Nat} {bytes : List UInt8}
    (takes : Reader.Takes conf ⟨packets, .header []⟩ packet)
    (written : writePacket maxBlock packet = some bytes) :
    Reader.read conf ⟨packets, .header []⟩ bytes = ⟨packets ++ [packet], .header []⟩ := by
  have ⟨high, low, expects, admits, room, accepted⟩ := takes
  have complete : Reader.complete conf ⟨packets, .header []⟩ packet =
      ⟨packets ++ [packet], .header []⟩ := by
    unfold Reader.complete
    rw [if_pos accepted]
  unfold writePacket buildMqttPacket at written
  dsimp only at written
  split at written
  · cases written
  · split at written
    · cases written
    · have shorter : (varint 5 packet.payload.length).length ≤ 4 := by
        have most := varint_length 5 packet.payload.length
        omega
      have small := lt_of_varint_length shorter
      have same : varint 5 packet.payload.length = varint 4 packet.payload.length :=
        varint_length_of_lt (by decide) small 1
      obtain rfl := some.inj written
      rw [same, Reader.read_append, read_fixed_header conf high low expects small]
      unfold Reader.headed
      rw [admits, if_neg (by decide)]
      by_cases empty : packet.payload.length = 0
      · rw [if_pos empty, eq_nil_of_length_eq_zero empty]
        have packet' : (⟨packet.command, packet.flags, []⟩ : Packet) = packet := by
          rw [← eq_nil_of_length_eq_zero empty]
        rw [packet', complete]
        rfl
      · rw [if_neg empty, if_neg (by omega)]
        have some_payload : packet.payload ≠ [] := fun none => empty (by rw [none]; rfl)
        rw [read_whole_payload conf [] packet.payload (Nat.zero_add _) some_payload]
        exact complete

/-- A packet is taken off a stream. -/
def Reader.take (reader : Reader) (packet : Packet) : Reader :=
  ⟨reader.packets ++ [packet], .header []⟩

theorem read_stream {maxBlock : Nat} (sent : List Packet)
    (takes : AllSteps Reader.take (Reader.Takes conf) ⟨packets, .header []⟩ sent)
    {written : List (List UInt8)} (writes : sent.mapM (writePacket maxBlock) = some written) :
    Reader.read conf ⟨packets, .header []⟩ written.flatten = ⟨packets ++ sent, .header []⟩ := by
  induction sent generalizing packets written with
  | nil =>
    obtain rfl := some.inj writes
    rw [append_nil]
    rfl
  | cons packet rest ih =>
    rw [mapM_cons] at writes
    cases first : writePacket maxBlock packet with
    | none =>
      rw [first] at writes
      cases writes
    | some bytes =>
      cases later : rest.mapM (writePacket maxBlock) with
      | none =>
        rw [first, later] at writes
        cases writes
      | some others =>
        rw [first, later] at writes
        obtain rfl := some.inj writes
        rw [flatten_cons, Reader.read_append, read_written conf takes.1 first,
          ih takes.2 later, append_assoc]
        rfl

/-! ## Runs -/

/-- A chunk that begins inside a remaining length, behind its second byte, does not come. -/
def Connection.Whole (connection : Connection) (_ : List UInt8) : Prop :=
  ¬connection.reader.InLength

theorem outcome_of_shows (shows : Shows reader receiver) : receiver.outcome = reader.outcome := by
  have ⟨packets, _, shown⟩ := shows
  unfold Receiver.outcome Reader.outcome
  rw [packets]
  congr 1
  cases progress : reader.progress with
  | closed =>
    rw [progress] at shown
    rw [show receiver.state = _ from shown]
    rfl
  | header seen =>
    rw [progress] at shown
    rw [shown.1]
    split <;> rfl
  | payload command flags length seen =>
    rw [progress] at shown
    rw [shown.1]
    rfl

theorem run_reader (chunks : List (List UInt8)) (connection : Connection) :
    (run (Connection.step conf) connection chunks).reader =
      connection.reader.read conf chunks.flatten := by
  induction chunks generalizing connection with
  | nil => rfl
  | cons chunk rest ih =>
    rw [run_cons, ih, flatten_cons, Reader.read_append]
    rfl

theorem run_shows {chunks : List (List UInt8)}
    (whole : AllSteps (Connection.step conf) Connection.Whole Connection.start chunks) :
    AllStates (Connection.step conf)
      (fun connection => Shows connection.reader connection.receiver) Connection.start chunks := by
  refine whole.invariant _ (fun connection chunk shows short => ?_) ?_
  · exact rxData_shows conf shows short chunk
  · exact ⟨rfl, rfl, rfl, rfl, rfl⟩

/-- A connection recovers the packets of its stream, and closes where the stream says so, as long as no
chunk begins inside a remaining length, behind its second byte: in every state of the run; in the end
whatever the chunks of the same stream were; and the packets that were written, when they are taken. -/
theorem packets_of_chunks (conf : FrameConf) (chunks : List (List UInt8))
    (whole : AllSteps (Connection.step conf) Connection.Whole Connection.start chunks) :
    AllStates (Connection.step conf)
      (fun connection => connection.receiver.outcome = connection.reader.outcome)
      Connection.start chunks ∧
    (∀ others : List (List UInt8), others.flatten = chunks.flatten →
      AllSteps (Connection.step conf) Connection.Whole Connection.start others →
      (others.foldl (Receiver.rxData conf) Receiver.start).outcome =
        (chunks.foldl (Receiver.rxData conf) Receiver.start).outcome) ∧
    ∀ (maxBlock : Nat) (sent : List Packet) (written : List (List UInt8)),
      sent.mapM (writePacket maxBlock) = some written →
      AllSteps Reader.take (Reader.Takes conf) Reader.start sent →
      chunks.flatten = written.flatten →
      (chunks.foldl (Receiver.rxData conf) Receiver.start).outcome = ⟨sent, false⟩ := by
  have received : ∀ chunks : List (List UInt8), ∀ connection : Connection,
      (run (Connection.step conf) connection chunks).receiver =
        chunks.foldl (Receiver.rxData conf) connection.receiver := by
    intro chunks
    induction chunks with
    | nil => exact fun _ => rfl
    | cons chunk rest ih => exact fun connection => ih (connection.step conf chunk)
  have final : ∀ chunks, AllSteps (Connection.step conf) Connection.Whole Connection.start chunks →
      (chunks.foldl (Receiver.rxData conf) Receiver.start).outcome =
        (Reader.start.read conf chunks.flatten).outcome := by
    intro chunks whole
    have last := outcome_of_shows (run_shows conf whole).last
    rw [received, run_reader] at last
    exact last
  refine ⟨?_, fun others same wholeOthers => ?_, fun maxBlock sent written writes takes same => ?_⟩
  · exact (run_shows conf whole).mono _ fun _ shows => outcome_of_shows shows
  · rw [final others wholeOthers, final chunks whole, same]
  · rw [final chunks whole, same]
    have reads := read_stream conf sent takes writes
    rw [show Reader.start = ⟨[], .header []⟩ from rfl, reads]
    rfl

/-- A server that accepts all packets. -/
def server : FrameConf where
  iamServer := true
  maxPacketSize := 0
  maxBlock := 65536
  inSession := fun packets => !packets.isEmpty
  handles := fun _ _ => .accepted

/-- A CONNECT of the client `a`. -/
def connectBytes : List UInt8 := [0x10, 13, 0, 4, 77, 81, 84, 84, 4, 2, 0, 60, 0, 1, 97]

/-- A CONNECT and a PINGREQ in three chunks. -/
theorem packets_of_three_chunks :
    ([connectBytes.take 1, connectBytes.drop 1 ++ [0xC0], [0]].foldl (Receiver.rxData server)
      Receiver.start).outcome =
        ([connectBytes ++ [0xC0, 0]].foldl (Receiver.rxData server) Receiver.start).outcome := by
  have short : ∀ seen packets, List.length seen < 3 → ¬Reader.InLength ⟨packets, .header seen⟩ := by
    rintro seen packets few ⟨first, second, third, rest, same⟩
    rw [Progress.header.inj same] at few
    exact absurd few (by simp)
  refine (packets_of_chunks server [connectBytes ++ [0xC0, 0]] ?_).2.1 _ rfl ?_
  · exact ⟨short [] [] (by decide), trivial⟩
  · exact ⟨short [] [] (by decide), short [0x10] [] (by decide),
      short [0xC0] [⟨0x10, 0, connectBytes.drop 2⟩] (by decide), trivial⟩

/-- A PUBLISH of 16384 bytes, cut behind the second byte of its remaining length. -/
theorem publish_cut_in_length :
    ¬∀ (conf : FrameConf) (chunks others : List (List UInt8)), chunks.flatten = others.flatten →
      [] ∉ chunks → [] ∉ others →
      (chunks.foldl (Receiver.rxData conf) Receiver.start).outcome =
        (others.foldl (Receiver.rxData conf) Receiver.start).outcome := by
  intro all
  have same := all server
    [connectBytes, [0x30, 0x80, 0x80], [0x01, 0, 1, 97] ++ List.replicate 16381 0]
    [connectBytes, [0x30, 0x80, 0x80, 0x01, 0, 1, 97] ++ List.replicate 16381 0] rfl
  exact absurd same (by decide +kernel)

end Yunetas.Mqtt
