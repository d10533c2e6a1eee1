import Yunetas.Gobj.GbufferQueue

/-!
# Gbuffers as bounded byte queues

What is got from a gbuffer is what was stored, at the position where it is read, and the positions
stay in order. What still fits in the maximum is stored whole exactly when it fits in the free bytes
or the gbuffer can grow, which takes twice its size and one byte more; and a printed text needs one
free byte more than it has, for its final null.
-/

namespace Yunetas.Gobj

open List Bool Option

/-- The promise of a write: what fits in the maximum is stored whole, else no more than the free
bytes, and the number of bytes stored is returned. -/
structure Stores (gbuf : Gbuffer) (bytes data : List UInt8) (count : Nat) : Prop where
  whole : gbuf.data.length + bytes.length ≤ gbuf.maxMemorySize → count = bytes.length
  part : gbuf.maxMemorySize < gbuf.data.length + bytes.length → count ≤ gbuf.freeBytes
  stored : data = gbuf.data ++ bytes.take count

/-- The promise of each operation. -/
def Delivers (maxBlock : Nat) (gbuf : Gbuffer) : QueueOp → Prop
  | .append bf => Stores gbuf bf (gbufferAppend maxBlock gbuf bf).data
    (gbufferAppendCount maxBlock gbuf bf)
  | .printf text => Stores gbuf text (gbufferVprintf maxBlock gbuf text).1.data
    (gbufferVprintf maxBlock gbuf text).2
  | .appendGbuf src => ∃ count, Stores gbuf src.leftBytes (gbufferAppendGbuf maxBlock gbuf src).1.data
      count ∧ ((gbufferAppendGbuf maxBlock gbuf src).2.2 = 0 ↔ count = src.leftBytes.length)
  | .get len => (gbufferGet gbuf len).1.data = gbuf.data ∧
    (if 0 < len ∧ len ≤ gbuf.leftBytes.length then
      (gbufferGet gbuf len).2 = some (gbuf.leftBytes.take len) ∧
        (gbufferGet gbuf len).1.curp = gbuf.curp + len
    else (gbufferGet gbuf len).2 = none ∧ (gbufferGet gbuf len).1.curp = gbuf.curp)
  | .setRdOffset position => (gbufferSetRdOffset gbuf position).1.data = gbuf.data ∧
    (gbufferSetRdOffset gbuf position).1.curp =
      if (gbufferSetRdOffset gbuf position).2 = 0 then position else gbuf.curp

/-- There is room for an append: in the free bytes, or by growing. -/
def AppendRoom (maxBlock : Nat) (gbuf : Gbuffer) (len : Nat) : Prop :=
  len ≤ gbuf.freeBytes ∨ growable maxBlock gbuf len = true

/-- There is room for a printed text and its final null: in the free bytes, or by growing; without
the final null where the text ends in a null. -/
def PrintRoom (maxBlock : Nat) (gbuf : Gbuffer) (text : List UInt8) : Prop :=
  text.length < 2 ^ 31 ∧
    ((text.length : Int) < asInt gbuf.freeBytes ∨
      growable maxBlock gbuf text.length = false ∧ text = [] ∨
      growable maxBlock gbuf text.length = true ∧
        ((text.length : Int) < asInt (gbufferRealloc maxBlock gbuf text.length).freeBytes ∨
          (gbufferRealloc maxBlock gbuf text.length).freeBytes = text.length ∧
            text.getLast?.getD 0 = 0))

/-- An operation meets its promise: what it writes fits in no case, or there is room for it. -/
def Roomy (maxBlock : Nat) (gbuf : Gbuffer) : QueueOp → Prop
  | .append bf => gbuf.maxMemorySize < gbuf.data.length + bf.length ∨
    AppendRoom maxBlock gbuf bf.length
  | .printf text => gbuf.maxMemorySize < gbuf.data.length + text.length ∨
    PrintRoom maxBlock gbuf text
  | .appendGbuf src => gbuf.maxMemorySize < gbuf.data.length + src.leftBytes.length ∨
    AppendRoom maxBlock gbuf src.leftBytes.length
  | .get _ => True
  | .setRdOffset _ => True

section Steps

variable {maxBlock : Nat}

variable {gbuf : Gbuffer}

theorem not_growable {len : Nat}
    (long : gbuf.maxMemorySize < gbuf.data.length + len) : growable maxBlock gbuf len = false := by
  have inside := gbuf.fits
  unfold growable
  rw [and_eq_false_iff, decide_eq_false_iff_not]
  left
  unfold grownSize
  omega

theorem appendCount_room (gbuf : Gbuffer) (bf : List UInt8) :
    (AppendRoom maxBlock gbuf bf.length → gbufferAppendCount maxBlock gbuf bf = bf.length) ∧
      (¬ AppendRoom maxBlock gbuf bf.length →
        gbufferAppendCount maxBlock gbuf bf = gbuf.freeBytes) := by
  have count : gbufferAppendCount maxBlock gbuf bf =
      if bf.length ≤ gbuf.freeBytes ∨ growable maxBlock gbuf bf.length = true then bf.length
      else gbuf.freeBytes := gbufferAppendCount_eq gbuf bf
  constructor
  · intro room
    rw [count]
    exact if_pos room
  · intro short
    rw [count]
    exact if_neg short

theorem no_appendRoom (bounded : gbuf.dataSize ≤ gbuf.maxMemorySize) {len : Nat}
    (long : gbuf.maxMemorySize < gbuf.data.length + len) : ¬ AppendRoom maxBlock gbuf len := by
  have inside := gbuf.fits
  intro room
  rcases room with fits | grows
  · unfold Gbuffer.freeBytes at fits
    omega
  · rw [not_growable long] at grows
    cases grows

theorem append_needs {bf : List UInt8} {count : Nat}
    (told : count = bf.length ↔ gbufferAppendCount maxBlock gbuf bf = bf.length) :
    Stores gbuf bf (gbufferAppend maxBlock gbuf bf).data count →
      gbuf.maxMemorySize < gbuf.data.length + bf.length ∨ AppendRoom maxBlock gbuf bf.length := by
  intro stores
  by_cases fits : gbuf.data.length + bf.length ≤ gbuf.maxMemorySize
  · right
    by_contra short
    have all := told.1 (stores.whole fits)
    rw [(appendCount_room gbuf bf).2 short] at all
    exact short (.inl (Nat.le_of_eq all.symm))
  · exact .inl (Nat.lt_of_not_le fits)

theorem stores_append (bounded : gbuf.dataSize ≤ gbuf.maxMemorySize) {bf : List UInt8}
    (roomy : gbuf.maxMemorySize < gbuf.data.length + bf.length ∨
      AppendRoom maxBlock gbuf bf.length) :
    Stores gbuf bf (gbufferAppend maxBlock gbuf bf).data (gbufferAppendCount maxBlock gbuf bf) := by
  have count := @appendCount_room maxBlock gbuf bf
  refine ⟨fun fits => ?_, fun long => ?_, (gbufferAppend_count gbuf bf).1⟩
  · have room := roomy.resolve_left (Nat.not_lt.2 fits)
    exact count.1 room
  · have short : ¬ AppendRoom maxBlock gbuf bf.length := no_appendRoom bounded long
    exact Nat.le_of_eq (count.2 short)

/-- Storing nothing meets the promise of a write where nothing fits or there is nothing to
write. -/
theorem stores_nothing {bytes : List UInt8} :
    Stores gbuf bytes gbuf.data 0 ↔
      gbuf.maxMemorySize < gbuf.data.length + bytes.length ∨ bytes = [] := by
  constructor
  · intro stores
    by_cases fits : gbuf.data.length + bytes.length ≤ gbuf.maxMemorySize
    · exact .inr (length_eq_zero_iff.1 (stores.whole fits).symm)
    · exact .inl (Nat.lt_of_not_le fits)
  · intro none
    refine ⟨fun fits => ?_, fun _ => Nat.zero_le _, by rw [take_zero, append_nil]⟩
    have empty := none.resolve_left (Nat.not_lt.2 fits)
    rw [empty, length_nil]

theorem stores_whole {bytes data : List UInt8}
    (fits : gbuf.data.length + bytes.length ≤ gbuf.maxMemorySize) :
    Stores gbuf bytes (gbuf.data ++ data) bytes.length ↔ data = bytes := by
  constructor
  · intro stores
    have stored := stores.stored
    rw [take_length] at stored
    exact append_cancel_left stored
  · intro same
    refine ⟨fun _ => rfl, fun long => absurd long (Nat.not_lt.2 fits), ?_⟩
    rw [take_length, same]

/-- A print meets its promise exactly when what it prints fits in no case or has room. -/
theorem printf_stores (bounded : gbuf.dataSize ≤ gbuf.maxMemorySize) (text : List UInt8) :
    Stores gbuf text (gbufferVprintf maxBlock gbuf text).1.data
        (gbufferVprintf maxBlock gbuf text).2 ↔
      gbuf.maxMemorySize < gbuf.data.length + text.length ∨ PrintRoom maxBlock gbuf text := by
  have size := asInt_le gbuf.freeBytes
  by_cases huge : 2 ^ 31 ≤ text.length
  · rw [gbufferVprintf_stuck (.inl huge), stores_nothing]
    apply or_congr_right
    constructor
    · intro empty
      rw [empty, length_nil] at huge
      omega
    · intro room
      exact absurd room.1 (Nat.not_lt.2 huge)
  have short : text.length < 2 ^ 31 := Nat.lt_of_not_le huge
  by_cases fits : (text.length : Int) < asInt gbuf.freeBytes
  · have stored := @gbufferVprintf_fits maxBlock gbuf text short fits
    have inMaximum : gbuf.data.length + text.length ≤ gbuf.maxMemorySize := by
      unfold Gbuffer.freeBytes at size fits
      omega
    rw [stored.1, stored.2, stores_whole inMaximum]
    exact iff_of_true rfl (.inr ⟨short, .inl fits⟩)
  have full : asInt gbuf.freeBytes ≤ text.length := Int.not_lt.1 fits
  cases grows : growable maxBlock gbuf text.length with
  | false =>
    rw [gbufferVprintf_stuck (.inr ⟨full, grows⟩), stores_nothing]
    apply or_congr_right
    constructor
    · intro empty
      exact ⟨short, .inr (.inl ⟨grows, empty⟩)⟩
    · intro room
      rcases room.2 with free | stuck | grown
      · exact absurd free fits
      · exact stuck.2
      · rw [grows] at grown
        cases grown.1
  | true =>
    have stored := gbufferVprintf_grown short full grows
    have inMaximum : gbuf.data.length + text.length ≤ gbuf.maxMemorySize := by
      by_contra long
      rw [not_growable (Nat.lt_of_not_le long)] at grows
      cases grows
    rw [stored.1, stored.2, stores_whole inMaximum]
    constructor
    · intro same
      refine .inr ⟨short, .inr (.inr ⟨grows, ?_⟩)⟩
      split at same
      · rename_i room
        exact .inl room
      · exact .inr ((cutText_eq (grown_free grows)).1 same)
    · intro roomy
      have room := (roomy.resolve_left (Nat.not_lt.2 inMaximum)).2
      split
      · rfl
      · rename_i cut
        apply (cutText_eq (grown_free grows)).2
        rcases room with free | stuck | grown
        · exact absurd free fits
        · rw [grows] at stuck
          cases stuck.1
        · exact grown.2.resolve_left cut

/-- Every operation meets its promise exactly when what it writes fits in no case or has room. -/
theorem delivers_iff (bounded : gbuf.dataSize ≤ gbuf.maxMemorySize)
    (op : QueueOp) : Delivers maxBlock gbuf op ↔ Roomy maxBlock gbuf op := by
  cases op with
  | append bf => exact ⟨append_needs Iff.rfl, stores_append bounded⟩
  | printf text => exact printf_stores bounded text
  | appendGbuf src =>
    have turn := @gbufferAppendGbuf_eq maxBlock gbuf src
    have status : (gbufferAppendGbuf maxBlock gbuf src).2.2 = 0 ↔
        gbufferAppendCount maxBlock gbuf src.leftBytes = src.leftBytes.length := by
      rw [turn.2]
      split
      · rename_i whole
        exact iff_of_true rfl whole
      · rename_i part
        exact iff_of_false (by decide) part
    simp only [Delivers, turn.1, status]
    constructor
    · intro delivers
      have ⟨count, stores, told⟩ := delivers
      exact append_needs told.symm stores
    · intro roomy
      exact ⟨_, stores_append bounded roomy, Iff.rfl⟩
  | get len =>
    apply iff_of_true _ trivial
    have length : gbuf.leftBytes.length = gbuf.data.length - gbuf.curp := length_drop
    simp only [Delivers, gbufferGet]
    by_cases inside : 0 < len ∧ len ≤ gbuf.leftBytes.length
    · have enough : ¬ (len = 0 ∨ gbuf.data.length - gbuf.curp < len) := by omega
      rw [dif_neg enough, if_pos inside]
      exact ⟨rfl, rfl, rfl⟩
    · have short : len = 0 ∨ gbuf.data.length - gbuf.curp < len := by omega
      rw [dif_pos short, if_neg inside]
      exact ⟨rfl, rfl, rfl⟩
  | setRdOffset position =>
    apply iff_of_true _ trivial
    simp only [Delivers, gbufferSetRdOffset]
    split
    · exact ⟨rfl, rfl⟩
    · split
      · exact ⟨rfl, rfl⟩
      · exact ⟨rfl, rfl⟩

theorem gbufferRealloc_keeps {gbuf : Gbuffer} (bounded : gbuf.dataSize ≤ gbuf.maxMemorySize)
    (needSize : Nat) :
    (gbufferRealloc maxBlock gbuf needSize).dataSize ≤
        (gbufferRealloc maxBlock gbuf needSize).maxMemorySize ∧
      (gbufferRealloc maxBlock gbuf needSize).curp = gbuf.curp := by
  cases grows : growable maxBlock gbuf needSize with
  | false =>
    rw [gbufferRealloc_stuck grows]
    exact ⟨bounded, rfl⟩
  | true =>
    have grown := gbufferRealloc_growable grows
    rw [grown.1, grown.2.2.2]
    unfold growable at grows
    rw [and_eq_true, decide_eq_true_eq] at grows
    exact ⟨by omega, grown.2.2.1⟩

section

variable (bounded : gbuf.dataSize ≤ gbuf.maxMemorySize)
include bounded

theorem gbufferAppend_keeps (bf : List UInt8) :
    (gbufferAppend maxBlock gbuf bf).dataSize ≤ (gbufferAppend maxBlock gbuf bf).maxMemorySize ∧
      (gbufferAppend maxBlock gbuf bf).curp = gbuf.curp := by
  unfold gbufferAppend
  split
  · exact ⟨bounded, rfl⟩
  · split
    · exact gbufferRealloc_keeps bounded bf.length
    · exact ⟨bounded, rfl⟩

theorem gbufferVprintf_keeps (text : List UInt8) :
    (gbufferVprintf maxBlock gbuf text).1.dataSize ≤
        (gbufferVprintf maxBlock gbuf text).1.maxMemorySize ∧
      (gbufferVprintf maxBlock gbuf text).1.curp = gbuf.curp := by
  have grown := @gbufferRealloc_keeps maxBlock gbuf bounded text.length
  have stored (bytes : List UInt8) := store_keeps (gbufferRealloc maxBlock gbuf text.length) bytes
  by_cases huge : text.length ≥ 2 ^ 31
  · rw [gbufferVprintf_stuck (.inl huge)]
    exact ⟨bounded, rfl⟩
  unfold gbufferVprintf
  by_cases full : (text.length : Int) ≥ asInt gbuf.freeBytes
  · rw [if_neg huge, if_pos full]
    cases grows : growable maxBlock gbuf text.length with
    | true =>
      dsimp only
      rw [if_pos rfl]
      by_cases cut : (text.length : Int) ≥
          asInt (gbufferRealloc maxBlock gbuf text.length).freeBytes
      · rw [if_pos cut, (stored _).1, (stored _).2.1, (stored _).2.2]
        exact grown
      · rw [if_neg cut, (stored _).1, (stored _).2.1, (stored _).2.2]
        exact grown
    | false => exact ⟨bounded, rfl⟩
  · rw [if_neg huge, if_neg full]
    exact ⟨bounded, rfl⟩

theorem queueStep_bounded (op : QueueOp) :
    (queueStep maxBlock gbuf op).dataSize ≤ (queueStep maxBlock gbuf op).maxMemorySize := by
  cases op with
  | append bf => exact (gbufferAppend_keeps bounded bf).1
  | printf text => exact (gbufferVprintf_keeps bounded text).1
  | appendGbuf src =>
    simp only [queueStep]
    rw [(gbufferAppendGbuf_eq gbuf src).1]
    exact (gbufferAppend_keeps bounded src.leftBytes).1
  | get len =>
    simp only [queueStep, gbufferGet]
    split
    · exact bounded
    · exact bounded
  | setRdOffset position =>
    simp only [queueStep, gbufferSetRdOffset]
    split
    · exact bounded
    · split
      · exact bounded
      · exact bounded

end

end Steps

/-- The bytes that an operation reports as stored. -/
def storedBytes (maxBlock : Nat) (gbuf : Gbuffer) : QueueOp → List UInt8
  | .append bf => bf.take (gbufferAppendCount maxBlock gbuf bf)
  | .printf text => text.take (gbufferVprintf maxBlock gbuf text).2
  | .appendGbuf src => src.leftBytes.take (gbufferAppendCount maxBlock gbuf src.leftBytes)
  | .get _ => []
  | .setRdOffset _ => []

/-- The bytes that an operation gets. -/
def gotBytes (gbuf : Gbuffer) : QueueOp → List UInt8
  | .get len => (gbufferGet gbuf len).2.getD []
  | _ => []

/-- The bytes of all the operations of a run, in order. -/
def bytesAlong (maxBlock : Nat) (bytes : Gbuffer → QueueOp → List UInt8) :
    Gbuffer → List QueueOp → List UInt8
  | _, [] => []
  | gbuf, op :: rest => bytes gbuf op ++ bytesAlong maxBlock bytes (queueStep maxBlock gbuf op) rest

section Runs

variable {maxBlock : Nat}

variable {gbuf : Gbuffer}

theorem queueStep_data {op : QueueOp} (delivers : Delivers maxBlock gbuf op) :
    (queueStep maxBlock gbuf op).data = gbuf.data ++ storedBytes maxBlock gbuf op := by
  cases op with
  | append bf => exact delivers.stored
  | printf text => exact delivers.stored
  | appendGbuf src =>
    simp only [queueStep]
    rw [(gbufferAppendGbuf_eq gbuf src).1]
    exact (gbufferAppend_count gbuf src.leftBytes).1
  | get len => exact delivers.1.trans (append_nil _).symm
  | setRdOffset position => exact delivers.1.trans (append_nil _).symm

theorem run_data {ops : List QueueOp}
    (all : AllSteps (queueStep maxBlock) (Delivers maxBlock) gbuf ops) :
    (run (queueStep maxBlock) gbuf ops).data =
      gbuf.data ++ bytesAlong maxBlock (storedBytes maxBlock) gbuf ops := by
  induction ops generalizing gbuf with
  | nil => exact (append_nil _).symm
  | cons op rest ih =>
    rw [run_cons, ih all.2, queueStep_data all.1, append_assoc]
    rfl

theorem queueStep_got {op : QueueOp} (delivers : Delivers maxBlock gbuf op)
    (bounded : gbuf.dataSize ≤ gbuf.maxMemorySize) (onward : ∀ position, op ≠ .setRdOffset position) :
    gbuf.data.take gbuf.curp ++ gotBytes gbuf op =
      (queueStep maxBlock gbuf op).data.take (queueStep maxBlock gbuf op).curp := by
  have written (curp : (queueStep maxBlock gbuf op).curp = gbuf.curp) :
      (queueStep maxBlock gbuf op).data.take (queueStep maxBlock gbuf op).curp =
        gbuf.data.take gbuf.curp := by
    rw [curp, queueStep_data delivers, take_append_of_le_length gbuf.written]
  cases op with
  | append bf =>
    rw [written (gbufferAppend_keeps bounded bf).2]
    exact append_nil _
  | printf text =>
    rw [written (gbufferVprintf_keeps bounded text).2]
    exact append_nil _
  | appendGbuf src =>
    have turn : (gbufferAppendGbuf maxBlock gbuf src).1 = gbufferAppend maxBlock gbuf src.leftBytes :=
      (gbufferAppendGbuf_eq gbuf src).1
    rw [written ((congrArg Gbuffer.curp turn).trans (gbufferAppend_keeps bounded src.leftBytes).2)]
    exact append_nil _
  | get len =>
    have popped := delivers.2
    simp only [queueStep, gotBytes]
    by_cases inside : 0 < len ∧ len ≤ gbuf.leftBytes.length
    · rw [if_pos inside] at popped
      rw [popped.1, popped.2, delivers.1, take_add]
      rfl
    · rw [if_neg inside] at popped
      rw [popped.1, popped.2, delivers.1]
      exact append_nil _
  | setRdOffset position => exact absurd rfl (onward position)

theorem run_got {ops : List QueueOp} (bounded : gbuf.dataSize ≤ gbuf.maxMemorySize)
    (all : AllSteps (queueStep maxBlock) (Delivers maxBlock) gbuf ops)
    (onward : ∀ position, QueueOp.setRdOffset position ∉ ops) :
    gbuf.data.take gbuf.curp ++ bytesAlong maxBlock gotBytes gbuf ops =
      (run (queueStep maxBlock) gbuf ops).data.take (run (queueStep maxBlock) gbuf ops).curp := by
  induction ops generalizing gbuf with
  | nil => exact append_nil _
  | cons op rest ih =>
    have here : ∀ position, op ≠ .setRdOffset position := by
      intro position same
      exact onward position (same ▸ mem_cons_self)
    have later := ih (queueStep_bounded bounded op) all.2 fun position among =>
      onward position (mem_cons_of_mem op among)
    rw [run_cons, ← later, ← queueStep_got all.1 bounded here, append_assoc]
    rfl

theorem got_written {before after : List QueueOp} {len : Nat} {got : List UInt8}
    (all : AllSteps (queueStep maxBlock) (Delivers maxBlock) gbuf (before ++ .get len :: after))
    (popped : (gbufferGet (run (queueStep maxBlock) gbuf before) len).2 = some got) :
    got = ((run (queueStep maxBlock) gbuf (before ++ .get len :: after)).data.drop
      (run (queueStep maxBlock) gbuf before).curp).take len := by
  induction before generalizing gbuf with
  | nil =>
    have whole := run_data all
    have delivers := all.1.2
    by_cases inside : 0 < len ∧ len ≤ gbuf.leftBytes.length
    · rw [if_pos inside] at delivers
      have bytes := some.inj (popped.symm.trans delivers.1)
      have ahead (more : List UInt8) :
          ((gbuf.data ++ more).drop gbuf.curp).take len = gbuf.leftBytes.take len := by
        rw [drop_append_of_le_length gbuf.written]
        exact take_append_of_le_length inside.2
      rw [whole, run_nil, bytes, ahead]
    · rw [if_neg inside] at delivers
      cases popped.symm.trans delivers.1
  | cons op rest ih => exact ih all.2 popped

theorem gbufferCreate_new {dataSize maxMemorySize : Nat}
    (created : gbufferCreate maxBlock dataSize maxMemorySize = some gbuf) :
    gbuf.data = [] ∧ gbuf.curp = 0 ∧ gbuf.dataSize = dataSize ∧
      gbuf.maxMemorySize = maxMemorySize := by
  unfold gbufferCreate at created
  rw [ite_none_left_eq_some, some.injEq] at created
  rw [← created.2]
  exact ⟨rfl, rfl, rfl, rfl⟩

/-- Along every run of operations on a new gbuffer each of them meets its promise exactly when
whatever each writes fits in no case or has room; then what is written is what was stored, in
order, every get pops it at the read position, and where the read position is never moved all
that was got is what was written up to it. The positions stay in order along every run. -/
theorem byte_queue_iff {dataSize maxMemorySize : Nat}
    (created : gbufferCreate maxBlock dataSize maxMemorySize = some gbuf)
    (bounded : dataSize ≤ maxMemorySize) (ops : List QueueOp) :
    (AllSteps (queueStep maxBlock) (Delivers maxBlock) gbuf ops ↔
        AllSteps (queueStep maxBlock) (Roomy maxBlock) gbuf ops) ∧
      AllStates (queueStep maxBlock)
        (fun gbuf => gbuf.curp ≤ gbuf.data.length ∧ gbuf.data.length ≤ gbuf.dataSize) gbuf ops ∧
      (AllSteps (queueStep maxBlock) (Roomy maxBlock) gbuf ops →
        (run (queueStep maxBlock) gbuf ops).data =
            bytesAlong maxBlock (storedBytes maxBlock) gbuf ops ∧
          (∀ before len after got, ops = before ++ .get len :: after →
            (gbufferGet (run (queueStep maxBlock) gbuf before) len).2 = some got →
            got = ((run (queueStep maxBlock) gbuf ops).data.drop
              (run (queueStep maxBlock) gbuf before).curp).take len) ∧
          ((∀ position, QueueOp.setRdOffset position ∉ ops) →
            bytesAlong maxBlock gotBytes gbuf ops =
              (run (queueStep maxBlock) gbuf ops).data.take
                (run (queueStep maxBlock) gbuf ops).curp)) := by
  have new := gbufferCreate_new created
  have start : gbuf.dataSize ≤ gbuf.maxMemorySize := by omega
  have keeps : ∀ gbuf : Gbuffer, ∀ op ∈ ops, gbuf.dataSize ≤ gbuf.maxMemorySize →
      Roomy maxBlock gbuf op →
        (queueStep maxBlock gbuf op).dataSize ≤ (queueStep maxBlock gbuf op).maxMemorySize :=
    fun _ op _ bounded _ => queueStep_bounded bounded op
  have same : AllSteps (queueStep maxBlock) (Delivers maxBlock) gbuf ops ↔
      AllSteps (queueStep maxBlock) (Roomy maxBlock) gbuf ops :=
    allSteps_congr (queueStep maxBlock) keeps (fun _ op _ bounded => delivers_iff bounded op) start
  refine ⟨same, ?_, fun roomy => ?_⟩
  · rw [allStates_iff]
    intro before after split
    exact ⟨(run (queueStep maxBlock) gbuf before).written,
      (run (queueStep maxBlock) gbuf before).fits⟩
  · have all := same.2 roomy
    refine ⟨?_, fun before len after got split popped => ?_, fun onward => ?_⟩
    · rw [run_data all, new.1, List.nil_append]
    · subst split
      exact got_written all popped
    · have got := run_got start all onward
      rw [new.1, List.take_nil, List.nil_append] at got
      exact got

end Runs

/-- A new gbuffer of four bytes that may hold sixty-four. -/
def smallGbuffer : Gbuffer :=
  { data := [], dataSize := 4, maxMemorySize := 64, written := Nat.le_refl .zero, fits := Nat.zero_le _ }

/-- A text of two bytes is printed, one more is appended, two are got, and ten that make the
gbuffer grow are appended. -/
theorem byte_queue_grows :
    AllSteps (queueStep 1024) (Delivers 1024) smallGbuffer
      [.printf [97, 98], .append [99], .get 2, .append [1, 2, 3, 4, 5, 6, 7, 8, 9, 10]] ∧
    (run (queueStep 1024) smallGbuffer
      [.printf [97, 98], .append [99], .get 2, .append [1, 2, 3, 4, 5, 6, 7, 8, 9, 10]]).data =
        bytesAlong 1024 (storedBytes 1024) smallGbuffer
          [.printf [97, 98], .append [99], .get 2, .append [1, 2, 3, 4, 5, 6, 7, 8, 9, 10]] := by
  have created : gbufferCreate 1024 4 64 = some smallGbuffer := rfl
  have roomy : AllSteps (queueStep 1024) (Roomy 1024) smallGbuffer
      [.printf [97, 98], .append [99], .get 2, .append [1, 2, 3, 4, 5, 6, 7, 8, 9, 10]] := by
    refine ⟨.inr ⟨by decide, .inl (by decide)⟩, .inr (.inl (by decide)), trivial,
      .inr (.inr (by decide)), trivial⟩
  have all := byte_queue_iff created (by decide)
    [.printf [97, 98], .append [99], .get 2, .append [1, 2, 3, 4, 5, 6, 7, 8, 9, 10]]
  exact ⟨all.1.2 roomy, (all.2.2 roomy).1⟩

/-- A full gbuffer of four bytes prints the last of four more as a null; and one of four bytes
that may hold seven refuses a fifth. -/
theorem text_cut :
    ((run (queueStep 1024) smallGbuffer [.append [1, 2, 3, 4], .printf [97, 98, 99, 100]]).data =
        [1, 2, 3, 4, 97, 98, 99, 0] ∧
      ¬ AllSteps (queueStep 1024) (Delivers 1024) smallGbuffer
        [.append [1, 2, 3, 4], .printf [97, 98, 99, 100]]) ∧
    (∃ gbuf, gbufferCreate 1024 4 7 = some gbuf ∧
      (run (queueStep 1024) gbuf [.append [1, 2, 3, 4], .append [5]]).data = [1, 2, 3, 4] ∧
      ¬ AllSteps (queueStep 1024) (Delivers 1024) gbuf [.append [1, 2, 3, 4], .append [5]]) := by
  refine ⟨⟨by decide, fun all => ?_⟩, _, rfl, by decide, fun all => ?_⟩
  · have stored := all.2.1.stored
    revert stored
    decide
  · have whole := all.2.1.whole (by decide)
    revert whole
    decide

end Yunetas.Gobj
