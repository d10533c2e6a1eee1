import Mathlib.Order.Lattice
import Yunetas.Gobj.Gbuffer
import Yunetas.Lib.Run

/-!
# Reading and writing gbuffers

What `gbuffer_append`, `gbuffer_vprintf` and `gbuffer_append_gbuf` store and return, and what
`gbuffer_get` and `gbuffer_set_rd_offset` do to the read position. A gbuffer grows to at least twice
its size, so what still fits is refused where twice the size does not.
-/

namespace Yunetas.Gobj

open List Bool

/-- A size as an `int`. -/
def asInt (size : Nat) : Int := Int.bmod size (2 ^ 32)

/-- The size that `gbuffer_realloc` asks for. -/
def grownSize (gbuf : Gbuffer) (needSize : Nat) : Nat :=
  gbuf.dataSize + max gbuf.dataSize needSize

/-- `gbuffer_realloc` returns `TRUE`. -/
def growable (maxBlock : Nat) (gbuf : Gbuffer) (needSize : Nat) : Bool :=
  grownSize gbuf needSize + 1 ≤ gbuf.maxMemorySize && grownSize gbuf needSize + 1 ≤ maxBlock

/-- What `gbuffer_append` returns: the bytes stored. -/
def gbufferAppendCount (maxBlock : Nat) (gbuf : Gbuffer) (bf : List UInt8) : Nat :=
  if bf.length = 0 then 0
  else
    let grown :=
      if gbuf.freeBytes < bf.length then gbufferRealloc maxBlock gbuf bf.length else gbuf
    if grown.freeBytes < bf.length then grown.freeBytes else bf.length

/-- What is in the free bytes after a `vsnprintf` that did not fit: the text up to the final null.
What lies behind it in the block, where the size was taken for a negative `int`, is shown as
null. -/
def cutText (text : List UInt8) (len : Nat) : List UInt8 :=
  text.take (len - 1) ++ List.replicate (len - min text.length (len - 1)) 0

/-- `gbuffer_vprintf`, of the text that the format gives: the buffer and what is returned. A text of
2^31 bytes has no length in an `int`, and `vsnprintf` fails. -/
def gbufferVprintf (maxBlock : Nat) (gbuf : Gbuffer) (text : List UInt8) : Gbuffer × Nat :=
  if text.length ≥ 2 ^ 31 then (gbuf, 0)
  else if (text.length : Int) ≥ asInt gbuf.freeBytes then
    if growable maxBlock gbuf text.length then
      let grown := gbufferRealloc maxBlock gbuf text.length
      if (text.length : Int) ≥ asInt grown.freeBytes then
        (grown.store (cutText text grown.freeBytes), text.length)
      else (grown.store text, text.length)
    else (gbuf, 0)
  else (gbuf.store text, text.length)

/-- `gbuffer_get`: the bytes popped, if there are so many. -/
def gbufferGet (gbuf : Gbuffer) (len : Nat) : Gbuffer × Option (List UInt8) :=
  if inside : len = 0 ∨ gbuf.data.length - gbuf.curp < len then (gbuf, none)
  else
    ({ gbuf with
        curp := gbuf.curp + len
        written := by
          have written := gbuf.written
          omega },
      some (gbuf.leftBytes.take len))

/-- `gbuffer_set_rd_offset`. -/
def gbufferSetRdOffset (gbuf : Gbuffer) (position : Nat) : Gbuffer × Int :=
  if position ≥ gbuf.dataSize then (gbuf, -1)
  else if inside : position ≤ gbuf.data.length then
    ({ gbuf with curp := position, written := inside }, 0)
  else (gbuf, -1)

/-- The loop of `gbuffer_append_gbuf`; each turn but the last reads at least one byte of the
source. -/
def appendGbufLoop (maxBlock : Nat) : Nat → Gbuffer → Gbuffer → Gbuffer × Gbuffer × Int
  | 0, dst, src => (dst, src, 0)
  | turns + 1, dst, src =>
    let ln := src.leftBytes.length
    let chunkSize := min src.dataSize ln
    if ln = 0 then (dst, src, 0)
    else
      match gbufferGet src chunkSize with
      | (src, none) => (dst, src, -1)
      | (src, some p) =>
        if gbufferAppendCount maxBlock dst p ≠ chunkSize then
          (gbufferAppend maxBlock dst p, src, -1)
        else appendGbufLoop maxBlock turns (gbufferAppend maxBlock dst p) src

/-- `gbuffer_append_gbuf`, into another gbuffer: both gbuffers and what is returned. -/
def gbufferAppendGbuf (maxBlock : Nat) (dst src : Gbuffer) : Gbuffer × Gbuffer × Int :=
  appendGbufLoop maxBlock src.leftBytes.length dst src

/-- Operations on one gbuffer. -/
inductive QueueOp where
  | append (bf : List UInt8)
  | printf (text : List UInt8)
  | appendGbuf (src : Gbuffer)
  | get (len : Nat)
  | setRdOffset (position : Nat)

/-- The gbuffer after an operation. -/
def queueStep (maxBlock : Nat) (gbuf : Gbuffer) : QueueOp → Gbuffer
  | .append bf => gbufferAppend maxBlock gbuf bf
  | .printf text => (gbufferVprintf maxBlock gbuf text).1
  | .appendGbuf src => (gbufferAppendGbuf maxBlock gbuf src).1
  | .get len => (gbufferGet gbuf len).1
  | .setRdOffset position => (gbufferSetRdOffset gbuf position).1

section Growing

variable {maxBlock : Nat}

variable {gbuf : Gbuffer}

theorem gbufferRealloc_growable {needSize : Nat} (grows : growable maxBlock gbuf needSize = true) :
    (gbufferRealloc maxBlock gbuf needSize).dataSize = grownSize gbuf needSize ∧
      (gbufferRealloc maxBlock gbuf needSize).data = gbuf.data ∧
      (gbufferRealloc maxBlock gbuf needSize).curp = gbuf.curp ∧
      (gbufferRealloc maxBlock gbuf needSize).maxMemorySize = gbuf.maxMemorySize := by
  unfold growable at grows
  rw [and_eq_true, decide_eq_true_eq, decide_eq_true_eq] at grows
  unfold grownSize at grows ⊢
  unfold gbufferRealloc
  rw [if_neg (by omega), if_neg (by omega)]
  exact ⟨rfl, rfl, rfl, rfl⟩

theorem gbufferRealloc_stuck {needSize : Nat} (stuck : growable maxBlock gbuf needSize = false) :
    gbufferRealloc maxBlock gbuf needSize = gbuf := by
  unfold growable at stuck
  rw [and_eq_false_iff, decide_eq_false_iff_not, decide_eq_false_iff_not] at stuck
  unfold gbufferRealloc
  dsimp only
  split
  · rfl
  · split
    · rfl
    · rename_i memory block
      rcases stuck with stuck | stuck
      · exact absurd (Nat.le_of_not_lt memory) stuck
      · exact absurd (Nat.le_of_not_lt block) stuck

theorem grown_free {needSize : Nat} (grows : growable maxBlock gbuf needSize = true) :
    needSize ≤ (gbufferRealloc maxBlock gbuf needSize).freeBytes := by
  have grown := gbufferRealloc_growable grows
  have inside := gbuf.fits
  unfold Gbuffer.freeBytes
  rw [grown.1, grown.2.1]
  unfold grownSize
  omega

theorem store_data (gbuf : Gbuffer) (bytes : List UInt8) :
    (gbuf.store bytes).data = gbuf.data ++ bytes.take gbuf.freeBytes := rfl

theorem store_keeps (gbuf : Gbuffer) (bytes : List UInt8) :
    (gbuf.store bytes).dataSize = gbuf.dataSize ∧
      (gbuf.store bytes).maxMemorySize = gbuf.maxMemorySize ∧
      (gbuf.store bytes).curp = gbuf.curp := ⟨rfl, rfl, rfl⟩

theorem gbufferAppend_count (gbuf : Gbuffer) (bf : List UInt8) :
    (gbufferAppend maxBlock gbuf bf).data =
      gbuf.data ++ bf.take (gbufferAppendCount maxBlock gbuf bf) ∧
    (gbufferAppend maxBlock gbuf bf).curp = gbuf.curp := by
  have kept : (gbufferRealloc maxBlock gbuf bf.length).data = gbuf.data ∧
      (gbufferRealloc maxBlock gbuf bf.length).curp = gbuf.curp := by
    cases grows : growable maxBlock gbuf bf.length with
    | true => exact ⟨(gbufferRealloc_growable grows).2.1, (gbufferRealloc_growable grows).2.2.1⟩
    | false =>
      rw [gbufferRealloc_stuck grows]
      exact ⟨rfl, rfl⟩
  have cut (free : Nat) : bf.take free = bf.take (if free < bf.length then free else bf.length) := by
    split
    · rfl
    · rw [take_of_length_le (by omega), take_length]
  unfold gbufferAppend gbufferAppendCount
  dsimp only
  split
  · rw [take_zero, append_nil]
    exact ⟨rfl, rfl⟩
  · split
    · rw [store_data, kept.1, cut]
      exact ⟨rfl, kept.2⟩
    · rename_i enough
      rw [store_data, take_of_length_le (Nat.le_of_not_lt enough), take_length]
      exact ⟨rfl, rfl⟩

theorem gbufferAppendCount_eq (gbuf : Gbuffer) (bf : List UInt8) :
    gbufferAppendCount maxBlock gbuf bf =
      if bf.length ≤ gbuf.freeBytes ∨ growable maxBlock gbuf bf.length = true then bf.length
      else gbuf.freeBytes := by
  unfold gbufferAppendCount
  by_cases empty : bf.length = 0
  · rw [if_pos empty, if_pos (.inl (by omega)), empty]
  · rw [if_neg empty]
    by_cases fits : bf.length ≤ gbuf.freeBytes
    · have enough : ¬ gbuf.freeBytes < bf.length := by omega
      rw [if_neg enough, if_neg enough, if_pos (.inl fits)]
    · have short : gbuf.freeBytes < bf.length := by omega
      rw [if_pos short]
      cases grows : growable maxBlock gbuf bf.length with
      | true =>
        have room := grown_free grows
        have enough : ¬ (gbufferRealloc maxBlock gbuf bf.length).freeBytes < bf.length := by omega
        rw [if_neg enough, if_pos (.inr rfl)]
      | false =>
        rw [gbufferRealloc_stuck grows, if_pos short, if_neg]
        rintro (fit | grown)
        · exact fits fit
        · cases grown

theorem asInt_le (size : Nat) : asInt size ≤ size := by
  unfold asInt
  rw [Int.bmod_def]
  omega

theorem gbufferGet_left (left : gbuf.leftBytes.length ≠ 0) :
    ∃ rest, gbufferGet gbuf gbuf.leftBytes.length = (rest, some gbuf.leftBytes) ∧
      rest.leftBytes = [] := by
  have length : gbuf.leftBytes.length = gbuf.data.length - gbuf.curp := length_drop
  have enough : ¬ (gbuf.leftBytes.length = 0 ∨
      gbuf.data.length - gbuf.curp < gbuf.leftBytes.length) := by omega
  unfold gbufferGet
  rw [dif_neg enough, take_length]
  refine ⟨_, rfl, ?_⟩
  apply drop_eq_nil_of_le
  show gbuf.data.length ≤ gbuf.curp + gbuf.leftBytes.length
  omega

theorem appendGbufLoop_end {dst src : Gbuffer} (nothing : src.leftBytes = []) (turns : Nat) :
    appendGbufLoop maxBlock turns dst src = (dst, src, 0) := by
  cases turns with
  | zero => rfl
  | succ turns =>
    unfold appendGbufLoop
    rw [nothing]
    rfl

/-- `gbuffer_append_gbuf` appends the bytes left of the source in one turn, and fails where they
are not stored whole. -/
theorem gbufferAppendGbuf_eq (dst src : Gbuffer) :
    (gbufferAppendGbuf maxBlock dst src).1 = gbufferAppend maxBlock dst src.leftBytes ∧
      (gbufferAppendGbuf maxBlock dst src).2.2 =
        if gbufferAppendCount maxBlock dst src.leftBytes = src.leftBytes.length then 0
        else -1 := by
  unfold gbufferAppendGbuf
  by_cases nothing : src.leftBytes = []
  · rw [appendGbufLoop_end nothing, nothing]
    exact ⟨rfl, rfl⟩
  · have left : src.leftBytes.length ≠ 0 := fun empty =>
      nothing (length_eq_zero_iff.1 empty)
    have length : src.leftBytes.length = src.data.length - src.curp := length_drop
    have inside := src.fits
    have chunk : min src.dataSize src.leftBytes.length = src.leftBytes.length := by omega
    have ⟨turns, turn⟩ := Nat.exists_eq_succ_of_ne_zero left
    have ⟨rest, got, empty⟩ := gbufferGet_left left
    rw [turn]
    unfold appendGbufLoop
    rw [if_neg left, chunk, got]
    dsimp only
    by_cases whole : gbufferAppendCount maxBlock dst src.leftBytes = src.leftBytes.length
    · rw [if_neg (not_not.2 whole), appendGbufLoop_end empty, ← turn, if_pos whole]
      exact ⟨rfl, rfl⟩
    · rw [if_pos whole, ← turn, if_neg whole]
      exact ⟨rfl, rfl⟩

theorem gbufferVprintf_fits {gbuf : Gbuffer} {text : List UInt8} (short : text.length < 2 ^ 31)
    (fits : (text.length : Int) < asInt gbuf.freeBytes) :
    (gbufferVprintf maxBlock gbuf text).1.data = gbuf.data ++ text ∧
      (gbufferVprintf maxBlock gbuf text).2 = text.length := by
  have free := asInt_le gbuf.freeBytes
  unfold gbufferVprintf
  rw [if_neg (by omega), if_neg (by omega), store_data, take_of_length_le (by omega)]
  exact ⟨rfl, rfl⟩

theorem gbufferVprintf_stuck {text : List UInt8} (stuck : 2 ^ 31 ≤ text.length ∨
      asInt gbuf.freeBytes ≤ text.length ∧ growable maxBlock gbuf text.length = false) :
    gbufferVprintf maxBlock gbuf text = (gbuf, 0) := by
  unfold gbufferVprintf
  split
  · rfl
  · rename_i short
    have stays := stuck.resolve_left short
    rw [if_pos stays.1, stays.2]
    rfl

theorem gbufferVprintf_grown {text : List UInt8} (short : text.length < 2 ^ 31)
    (long : asInt gbuf.freeBytes ≤ text.length)
    (grows : growable maxBlock gbuf text.length = true) :
    (gbufferVprintf maxBlock gbuf text).1.data = gbuf.data ++
        (if (text.length : Int) < asInt (gbufferRealloc maxBlock gbuf text.length).freeBytes then
          text
        else cutText text (gbufferRealloc maxBlock gbuf text.length).freeBytes) ∧
      (gbufferVprintf maxBlock gbuf text).2 = text.length := by
  have grown := gbufferRealloc_growable grows
  have free := grown_free grows
  have brief : ¬ text.length ≥ 2 ^ 31 := Nat.not_le.2 short
  have cut : (cutText text (gbufferRealloc maxBlock gbuf text.length).freeBytes).length ≤
      (gbufferRealloc maxBlock gbuf text.length).freeBytes := by
    unfold cutText
    rw [length_append, length_take, length_replicate]
    omega
  unfold gbufferVprintf
  rw [if_neg brief, if_pos long, grows]
  dsimp only
  rw [if_pos rfl]
  split
  · rename_i again
    rw [store_data, grown.2.1, take_of_length_le cut, if_neg (Int.not_lt.2 again)]
    exact ⟨rfl, rfl⟩
  · rename_i room
    rw [store_data, grown.2.1, take_of_length_le free, if_pos (Int.not_le.1 room)]
    exact ⟨rfl, rfl⟩

/-- A cut text is the whole text where only the final null does not fit and the text ends in a
null. -/
theorem cutText_eq {text : List UInt8} {len : Nat} (enough : text.length ≤ len) :
    cutText text len = text ↔ len = text.length ∧ text.getLast?.getD 0 = 0 := by
  have length : (cutText text len).length = len := by
    unfold cutText
    rw [length_append, length_take, length_replicate]
    omega
  have cut (whole : len = text.length) : cutText text len = text ↔ text.getLast?.getD 0 = 0 := by
    subst whole
    unfold cutText
    rcases eq_nil_or_concat text with rfl | ⟨front, last, rfl⟩
    · simp
    · rw [concat_eq_append]
      have one : (front ++ [last]).length - min (front ++ [last]).length
          ((front ++ [last]).length - 1) = 1 := by simp
      rw [one]
      simp [eq_comm]
  constructor
  · intro same
    have whole : len = text.length := by rw [← length, same]
    exact ⟨whole, (cut whole).1 same⟩
  · intro ends
    exact (cut ends.1).2 ends.2

end Growing

end Yunetas.Gobj
