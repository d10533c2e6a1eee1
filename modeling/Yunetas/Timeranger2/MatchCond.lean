import Mathlib.Order.Basic
import Mathlib.Algebra.Order.Ring.Int
import Yunetas.Timeranger2.Md2

/-!
# Conditions of a query

`match_cond` as the readers see it once its times written as text were converted to integers.
`tranger2_match_metadata` decides one row and may end a walk: a row beyond the conditions in the
direction of the walk raises `end`. `Satisfied` is the meaning the header gives the conditions,
each of them a property of the row alone.
-/

namespace Yunetas.Timeranger2

open Bool Int

/-- The conditions of `match_cond` on rows, and the direction of the walk. -/
structure MatchCond where
  backward : Bool := false
  onlyMd : Bool := false
  fromRowid : Int := 0
  toRowid : Int := 0
  fromT : Int := 0
  toT : Int := 0
  fromTm : Int := 0
  toTm : Int := 0
  userFlag : Int := 0
  notUserFlag : Int := 0
  userFlagMaskSet : Int := 0
  userFlagMaskNotset : Int := 0
  bounded : ∀ value ∈ [fromRowid, toRowid, fromT, toT, fromTm, toTm],
    -2 ^ 63 ≤ value ∧ value < 2 ^ 63 := by decide

/-- A signed integer converted to `uint64_t`, as a comparison with a row's time does. -/
def asUInt64 (value : Int) : Nat := (value % 2 ^ 64).toNat

/-- The `(uint16_t)` cast of a flag. -/
def asUInt16 (value : Int) : UInt16 := UInt16.ofNat (value % 2 ^ 16).toNat

/-- The adjustment of `from_rowid` to the rows of the key, `none` when it is past them. -/
def adjustFromRowid (fromRowid totalRows : Int) : Option Int :=
  if fromRowid = 0 then some 1
  else if fromRowid > 0 then if fromRowid > totalRows then none else some fromRowid
  else if fromRowid < -totalRows then some 1
  else some (totalRows + fromRowid + 1)

/-- The adjustment of `to_rowid` to the rows of the key, `none` when it is before them. -/
def adjustToRowid (toRowid totalRows : Int) : Option Int :=
  if toRowid = 0 then some totalRows
  else if toRowid > 0 then if toRowid > totalRows then some totalRows else some toRowid
  else if toRowid < -totalRows then none
  else some (totalRows + toRowid + 1)

/-- What `tranger2_match_metadata` answers. -/
structure MatchResult where
  matched : Bool
  /-- The flag `end`. -/
  ended : Bool
deriving DecidableEq, Repr

/-- The flag conditions at the end of `tranger2_match_metadata`. -/
def matchUserFlag (cond : MatchCond) (flag : UInt16) : Bool :=
  let userFlag := asUInt16 cond.userFlag
  let notUserFlag := asUInt16 cond.notUserFlag
  let maskSet := asUInt16 cond.userFlagMaskSet
  let maskNotset := asUInt16 cond.userFlagMaskNotset
  if userFlag ≠ 0 ∧ flag ≠ userFlag then false
  else if notUserFlag ≠ 0 ∧ flag = notUserFlag then false
  else if maskSet ≠ 0 ∧ flag &&& maskSet ≠ maskSet then false
  else if maskNotset ≠ 0 ∧ flag ||| ~~~maskNotset ≠ ~~~maskNotset then false
  else true

/-- `tranger2_match_metadata`. The times of a row are unsigned and those of the conditions
signed, so the comparisons are unsigned. -/
def matchMetadata (cond : MatchCond) (totalRows rowid : Int) (md : Md2RecordEx) : MatchResult :=
  match adjustFromRowid cond.fromRowid totalRows, adjustToRowid cond.toRowid totalRows with
  | none, _ => ⟨false, true⟩
  | _, none => ⟨false, true⟩
  | some fromRowid, some toRowid =>
    if fromRowid ≠ 0 ∧ rowid < fromRowid then ⟨false, cond.backward⟩
    else if toRowid ≠ 0 ∧ rowid > toRowid then ⟨false, !cond.backward⟩
    else if cond.fromT ≠ 0 ∧ md.t < asUInt64 cond.fromT then ⟨false, cond.backward⟩
    else if cond.toT ≠ 0 ∧ md.t > asUInt64 cond.toT then ⟨false, !cond.backward⟩
    else if cond.fromTm ≠ 0 ∧ md.tm < asUInt64 cond.fromTm then ⟨false, cond.backward⟩
    else if cond.toTm ≠ 0 ∧ md.tm > asUInt64 cond.toTm then ⟨false, !cond.backward⟩
    else ⟨matchUserFlag cond md.userFlag, false⟩

/-- `match_cond_selects_records`. -/
def matchCondSelectsRecords (cond : MatchCond) : Bool :=
  [cond.fromRowid, cond.toRowid, cond.fromT, cond.toT, cond.fromTm, cond.toTm, cond.userFlag,
    cond.notUserFlag, cond.userFlagMaskSet, cond.userFlagMaskNotset].any (· ≠ 0)

/-! ## The meaning of the conditions -/

/-- A value within a range whose ends count only when they are not 0. -/
def Within (low high : Int) (value : Int) : Prop :=
  (low ≠ 0 → low ≤ value) ∧ (high ≠ 0 → value ≤ high)

instance (low high value : Int) : Decidable (Within low high value) :=
  inferInstanceAs (Decidable (_ ∧ _))

/-- A rowid of a key within the rowids of the conditions, negative ones counted from the end. -/
def RowidWithin (cond : MatchCond) (totalRows rowid : Int) : Prop :=
  (cond.fromRowid > 0 → cond.fromRowid ≤ rowid) ∧
    (cond.fromRowid < 0 → totalRows + cond.fromRowid + 1 ≤ rowid) ∧
    (cond.toRowid > 0 → rowid ≤ cond.toRowid) ∧
    (cond.toRowid < 0 → rowid ≤ totalRows + cond.toRowid + 1)

instance (cond : MatchCond) (totalRows rowid : Int) :
    Decidable (RowidWithin cond totalRows rowid) := inferInstanceAs (Decidable (_ ∧ _))

/-- A user flag that meets the four conditions on it. -/
def FlagSatisfied (cond : MatchCond) (flag : UInt16) : Prop :=
  (asUInt16 cond.userFlag ≠ 0 → flag = asUInt16 cond.userFlag) ∧
    (asUInt16 cond.notUserFlag ≠ 0 → flag ≠ asUInt16 cond.notUserFlag) ∧
    flag &&& asUInt16 cond.userFlagMaskSet = asUInt16 cond.userFlagMaskSet ∧
    flag &&& asUInt16 cond.userFlagMaskNotset = 0

instance (cond : MatchCond) (flag : UInt16) : Decidable (FlagSatisfied cond flag) :=
  inferInstanceAs (Decidable (_ ∧ _))

/-- A row of a key meets every condition. -/
def Satisfied (cond : MatchCond) (totalRows rowid : Int) (md : Md2RecordEx) : Prop :=
  RowidWithin cond totalRows rowid ∧ Within cond.fromT cond.toT md.t ∧
    Within cond.fromTm cond.toTm md.tm ∧ FlagSatisfied cond md.userFlag

instance (cond : MatchCond) (totalRows rowid : Int) (md : Md2RecordEx) :
    Decidable (Satisfied cond totalRows rowid md) := inferInstanceAs (Decidable (_ ∧ _))

/-! ## What a match means -/

theorem or_complement_eq_iff (flag mask : UInt16) :
    flag ||| ~~~mask = ~~~mask ↔ flag &&& mask = 0 := by
  have bits : ∀ left right : UInt16,
      left = right ↔ ∀ i, i < 16 → left.toNat.testBit i = right.toNat.testBit i := by
    intro left right
    constructor
    · rintro rfl i -
      rfl
    · intro same
      apply UInt16.toNat_inj.1
      apply Nat.eq_of_testBit_eq
      intro i
      by_cases inside : i < 16
      · exact same i inside
      · have big : 2 ^ 16 ≤ 2 ^ i := Nat.pow_le_pow_right (by decide) (by omega)
        rw [Nat.testBit_lt_two_pow (lt_of_lt_of_le left.toNat_lt big),
          Nat.testBit_lt_two_pow (lt_of_lt_of_le right.toNat_lt big)]
  have complement : ∀ i, i < 16 → (~~~mask).toNat.testBit i = !mask.toNat.testBit i := by
    intro i inside
    have value : (~~~mask).toNat = 2 ^ 16 - (mask.toNat + 1) := by
      rw [UInt16.toNat_not]
      have := mask.toNat_lt
      simp only [UInt16.size]
      omega
    rw [value, Nat.testBit_two_pow_sub_succ mask.toNat_lt]
    simp [inside]
  rw [bits, bits]
  refine forall_congr' fun i => forall_congr' fun inside => ?_
  rw [UInt16.toNat_or, UInt16.toNat_and, Nat.testBit_or, Nat.testBit_and, complement i inside]
  have zero : (0 : UInt16).toNat.testBit i = false := by simp
  rw [zero]
  cases flag.toNat.testBit i <;> cases mask.toNat.testBit i <;> decide

theorem matchUserFlag_iff (cond : MatchCond) (flag : UInt16) :
    matchUserFlag cond flag = true ↔ FlagSatisfied cond flag := by
  have set : ¬ (asUInt16 cond.userFlagMaskSet ≠ 0 ∧
      flag &&& asUInt16 cond.userFlagMaskSet ≠ asUInt16 cond.userFlagMaskSet) ↔
      flag &&& asUInt16 cond.userFlagMaskSet = asUInt16 cond.userFlagMaskSet := by
    by_cases zero : asUInt16 cond.userFlagMaskSet = 0
    · simp [zero]
    · simp [zero]
  have notset : ¬ (asUInt16 cond.userFlagMaskNotset ≠ 0 ∧
      flag ||| ~~~asUInt16 cond.userFlagMaskNotset ≠ ~~~asUInt16 cond.userFlagMaskNotset) ↔
      flag &&& asUInt16 cond.userFlagMaskNotset = 0 := by
    rw [ne_eq, ne_eq, or_complement_eq_iff]
    by_cases zero : asUInt16 cond.userFlagMaskNotset = 0
    · simp [zero]
    · simp [zero]
  rw [FlagSatisfied, ← set, ← notset]
  simp only [matchUserFlag]
  split_ifs <;> simp_all

theorem adjustFromRowid_spec {fromRowid totalRows rowid : Int} (low : 1 ≤ rowid)
    (high : rowid ≤ totalRows) :
    (∃ first, adjustFromRowid fromRowid totalRows = some first ∧ 1 ≤ first ∧
      (first ≤ rowid ↔ (fromRowid > 0 → fromRowid ≤ rowid) ∧
        (fromRowid < 0 → totalRows + fromRowid + 1 ≤ rowid))) ∨
    (adjustFromRowid fromRowid totalRows = none ∧ fromRowid > rowid) := by
  rw [adjustFromRowid]
  split_ifs
  · exact Or.inl ⟨1, rfl, le_refl 1, by omega⟩
  · exact Or.inr ⟨rfl, by omega⟩
  · exact Or.inl ⟨fromRowid, rfl, by omega, by omega⟩
  · exact Or.inl ⟨1, rfl, le_refl 1, by omega⟩
  · exact Or.inl ⟨_, rfl, by omega, by omega⟩

theorem adjustToRowid_spec {toRowid totalRows rowid : Int} (low : 1 ≤ rowid)
    (high : rowid ≤ totalRows) :
    (∃ last, adjustToRowid toRowid totalRows = some last ∧ 1 ≤ last ∧
      (rowid ≤ last ↔ (toRowid > 0 → rowid ≤ toRowid) ∧
        (toRowid < 0 → rowid ≤ totalRows + toRowid + 1))) ∨
    (adjustToRowid toRowid totalRows = none ∧ toRowid < 0 ∧ totalRows + toRowid + 1 < rowid) := by
  rw [adjustToRowid]
  split_ifs
  · exact Or.inl ⟨totalRows, rfl, by omega, by omega⟩
  · exact Or.inl ⟨totalRows, rfl, by omega, by omega⟩
  · exact Or.inl ⟨toRowid, rfl, by omega, by omega⟩
  · exact Or.inr ⟨rfl, by omega, by omega⟩
  · exact Or.inl ⟨_, rfl, by omega, by omega⟩

theorem asUInt64_of_nonneg {value : Int} (nonneg : 0 ≤ value) (bound : value < 2 ^ 63) :
    (asUInt64 value : Int) = value := by
  rw [asUInt64, emod_eq_of_lt nonneg (by omega), toNat_of_nonneg nonneg]

theorem asUInt64_of_neg {value : Int} (negative : value < 0) (bound : -2 ^ 63 ≤ value) :
    2 ^ 63 ≤ asUInt64 value := by
  rw [asUInt64]
  omega

/-- A row of a key beyond the upper conditions, the lower ones and the earlier checks passed. -/
def Overruns (cond : MatchCond) (totalRows rowid : Int) (md : Md2RecordEx) : Prop :=
  RowidWithin cond totalRows rowid ∧ (cond.fromT ≠ 0 → cond.fromT ≤ md.t) ∧
    (cond.toT ≠ 0 ∧ cond.toT < md.t ∨
      (cond.toT ≠ 0 → md.t ≤ cond.toT) ∧ (cond.fromTm ≠ 0 → cond.fromTm ≤ md.tm) ∧
        cond.toTm ≠ 0 ∧ cond.toTm < md.tm)

instance (cond : MatchCond) (totalRows rowid : Int) (md : Md2RecordEx) :
    Decidable (Overruns cond totalRows rowid md) := inferInstanceAs (Decidable (_ ∧ _))

theorem MatchCond.bounds (cond : MatchCond) :
    (-2 ^ 63 ≤ cond.fromT ∧ cond.fromT < 2 ^ 63) ∧ (-2 ^ 63 ≤ cond.toT ∧ cond.toT < 2 ^ 63) ∧
      (-2 ^ 63 ≤ cond.fromTm ∧ cond.fromTm < 2 ^ 63) ∧
      (-2 ^ 63 ≤ cond.toTm ∧ cond.toTm < 2 ^ 63) :=
  ⟨cond.bounded _ (by simp), cond.bounded _ (by simp), cond.bounded _ (by simp),
    cond.bounded _ (by simp)⟩

section

variable {value : Int} {time : Nat} (bounded : -2 ^ 63 ≤ value ∧ value < 2 ^ 63)
include bounded

theorem notBelow_iff (small : time < 2 ^ 44) :
    ¬ (value ≠ 0 ∧ time < asUInt64 value) ↔ (value ≠ 0 → value ≤ time) ∧ 0 ≤ value := by
  rcases lt_or_ge value 0 with negative | nonneg
  · have := asUInt64_of_neg negative bounded.1
    omega
  · have := asUInt64_of_nonneg nonneg bounded.2
    omega

theorem notAbove_iff (nonneg : 0 ≤ value) :
    ¬ (value ≠ 0 ∧ time > asUInt64 value) ↔ (value ≠ 0 → (time : Int) ≤ value) := by
  have := asUInt64_of_nonneg nonneg bounded.2
  omega

end

theorem matched_ite (fails : Prop) [Decidable fails] (ends : Bool) (rest : MatchResult) :
    (if fails then ⟨false, ends⟩ else rest).matched = true ↔ ¬ fails ∧ rest.matched = true := by
  split_ifs with failed <;> simp [failed]

theorem ended_ite (fails : Prop) [Decidable fails] (ends : Bool) (rest : MatchResult) :
    (if fails then ⟨false, ends⟩ else rest).ended = true ↔
      fails ∧ ends = true ∨ ¬ fails ∧ rest.ended = true := by
  split_ifs with failed <;> simp [failed]

section

variable {cond : MatchCond} {totalRows rowid first last : Int} {md : Md2RecordEx}

theorem matched_eq (firstEq : adjustFromRowid cond.fromRowid totalRows = some first)
    (lastEq : adjustToRowid cond.toRowid totalRows = some last) (firstPos : 1 ≤ first)
    (lastPos : 1 ≤ last) :
    (matchMetadata cond totalRows rowid md).matched = true ↔
      first ≤ rowid ∧ rowid ≤ last ∧ ¬ (cond.fromT ≠ 0 ∧ md.t < asUInt64 cond.fromT) ∧
        ¬ (cond.toT ≠ 0 ∧ md.t > asUInt64 cond.toT) ∧
        ¬ (cond.fromTm ≠ 0 ∧ md.tm < asUInt64 cond.fromTm) ∧
        ¬ (cond.toTm ≠ 0 ∧ md.tm > asUInt64 cond.toTm) ∧
        FlagSatisfied cond md.userFlag := by
  have lower : ¬ (first ≠ 0 ∧ rowid < first) ↔ first ≤ rowid := by omega
  have upper : ¬ (last ≠ 0 ∧ rowid > last) ↔ rowid ≤ last := by omega
  simp [matchMetadata, firstEq, lastEq, matched_ite, lower, upper, matchUserFlag_iff]

theorem ended_eq (forward : cond.backward = false)
    (firstEq : adjustFromRowid cond.fromRowid totalRows = some first)
    (lastEq : adjustToRowid cond.toRowid totalRows = some last) (firstPos : 1 ≤ first)
    (inside : rowid ≤ last) :
    (matchMetadata cond totalRows rowid md).ended = true ↔
      first ≤ rowid ∧ ¬ (cond.fromT ≠ 0 ∧ md.t < asUInt64 cond.fromT) ∧
        ((cond.toT ≠ 0 ∧ md.t > asUInt64 cond.toT) ∨ (¬ (cond.toT ≠ 0 ∧ md.t > asUInt64 cond.toT) ∧
            ¬ (cond.fromTm ≠ 0 ∧ md.tm < asUInt64 cond.fromTm) ∧
            cond.toTm ≠ 0 ∧ md.tm > asUInt64 cond.toTm)) := by
  have lower : ¬ (first ≠ 0 ∧ rowid < first) ↔ first ≤ rowid := by omega
  have upper : ¬ (last ≠ 0 ∧ rowid > last) := by omega
  simp [matchMetadata, firstEq, lastEq, if_neg upper, forward, ended_ite, lower]

/-- A row matches when it meets the conditions and none of the lower times is negative: a
negative one excludes every row. -/
theorem matched_iff (cond : MatchCond) (low : 1 ≤ rowid) (high : rowid ≤ totalRows)
    (smallT : md.t < 2 ^ 44) (smallTm : md.tm < 2 ^ 44) (toT : 0 ≤ cond.toT) (toTm : 0 ≤ cond.toTm) :
    (matchMetadata cond totalRows rowid md).matched = true ↔
      Satisfied cond totalRows rowid md ∧ 0 ≤ cond.fromT ∧ 0 ≤ cond.fromTm := by
  have ⟨fromTBound, toTBound, fromTmBound, toTmBound⟩ := cond.bounds
  rcases adjustFromRowid_spec low high with ⟨first, firstEq, firstPos, firstIff⟩ | ⟨firstEq, past⟩
  · rcases adjustToRowid_spec low high with
      ⟨last, lastEq, lastPos, lastIff⟩ | ⟨lastEq, negative, before⟩
    · rw [matched_eq firstEq lastEq firstPos lastPos, firstIff, lastIff,
        notBelow_iff fromTBound smallT, notBelow_iff fromTmBound smallTm,
        notAbove_iff toTBound toT, notAbove_iff toTmBound toTm, Satisfied, RowidWithin, Within,
        Within]
      constructor
      · rintro ⟨⟨low1, low2⟩, ⟨high1, high2⟩, ⟨fromT, nonnegT⟩, toT, ⟨fromTm, nonnegTm⟩, toTm, flag⟩
        exact ⟨⟨⟨low1, low2, high1, high2⟩, ⟨fromT, toT⟩, ⟨fromTm, toTm⟩, flag⟩, nonnegT, nonnegTm⟩
      · rintro ⟨⟨⟨low1, low2, high1, high2⟩, ⟨fromT, toT⟩, ⟨fromTm, toTm⟩, flag⟩, nonnegT, nonnegTm⟩
        exact ⟨⟨low1, low2⟩, ⟨high1, high2⟩, ⟨fromT, nonnegT⟩, toT, ⟨fromTm, nonnegTm⟩, toTm, flag⟩
    · have unmatched : (matchMetadata cond totalRows rowid md).matched = false := by
        simp [matchMetadata, firstEq, lastEq]
      rw [unmatched]
      refine iff_of_false false_ne_true fun meets => ?_
      have := meets.1.1.2.2.2 negative
      omega
  · have unmatched : (matchMetadata cond totalRows rowid md).matched = false := by
      simp [matchMetadata, firstEq]
    rw [unmatched]
    refine iff_of_false false_ne_true fun meets => ?_
    have := meets.1.1.1 (by omega)
    omega

/-- A row below one of the rowids asked for ends a forward walk when it overruns the
conditions. -/
theorem ended_iff {cond : MatchCond} (forward : cond.backward = false) {later : Int}
    (low : 1 ≤ rowid)
    (smallT : md.t < 2 ^ 44) (smallTm : md.tm < 2 ^ 44) (fromT : 0 ≤ cond.fromT)
    (toT : 0 ≤ cond.toT) (fromTm : 0 ≤ cond.fromTm) (toTm : 0 ≤ cond.toTm) (after : rowid < later)
    (inKey : later ≤ totalRows) (within : RowidWithin cond totalRows later) :
    (matchMetadata cond totalRows rowid md).ended = true ↔ Overruns cond totalRows rowid md := by
  have ⟨fromTBound, toTBound, fromTmBound, toTmBound⟩ := cond.bounds
  have ⟨within1, within2, within3, within4⟩ := within
  rcases adjustFromRowid_spec low (by omega : rowid ≤ totalRows) with
    ⟨first, firstEq, firstPos, firstIff⟩ | ⟨firstEq, -⟩
  · rcases adjustToRowid_spec (by omega : 1 ≤ later) inKey with
      ⟨last, lastEq, -, lastIff⟩ | ⟨-, negative, before⟩
    · have inside : rowid ≤ last := by
        have := lastIff.2 ⟨within3, within4⟩
        omega
      have upper1 : cond.toRowid > 0 → rowid ≤ cond.toRowid := fun positive => by
        have := within3 positive
        omega
      have upper2 : cond.toRowid < 0 → rowid ≤ totalRows + cond.toRowid + 1 := fun negative => by
        have := within4 negative
        omega
      have aboveT : (cond.toT ≠ 0 ∧ md.t > asUInt64 cond.toT) ↔ cond.toT ≠ 0 ∧ cond.toT < md.t := by
        have := asUInt64_of_nonneg toT toTBound.2
        omega
      have aboveTm : (cond.toTm ≠ 0 ∧ md.tm > asUInt64 cond.toTm) ↔
          cond.toTm ≠ 0 ∧ cond.toTm < md.tm := by
        have := asUInt64_of_nonneg toTm toTmBound.2
        omega
      rw [ended_eq forward firstEq lastEq firstPos inside, firstIff,
        notBelow_iff fromTBound smallT, notBelow_iff fromTmBound smallTm,
        notAbove_iff toTBound toT, aboveT, aboveTm, Overruns, RowidWithin]
      constructor
      · rintro ⟨⟨lower1, lower2⟩, ⟨lowerT, -⟩, overT | ⟨upperT, ⟨lowerTm, -⟩, overTm⟩⟩
        · exact ⟨⟨lower1, lower2, upper1, upper2⟩, lowerT, Or.inl overT⟩
        · exact ⟨⟨lower1, lower2, upper1, upper2⟩, lowerT, Or.inr ⟨upperT, lowerTm, overTm⟩⟩
      · rintro ⟨⟨lower1, lower2, -, -⟩, lowerT, overT | ⟨upperT, lowerTm, overTm⟩⟩
        · exact ⟨⟨lower1, lower2⟩, ⟨lowerT, fromT⟩, Or.inl overT⟩
        · exact ⟨⟨lower1, lower2⟩, ⟨lowerT, fromT⟩, Or.inr ⟨upperT, ⟨lowerTm, fromTm⟩, overTm⟩⟩
    · have := within4 negative
      omega
  · rw [adjustFromRowid] at firstEq
    split_ifs at firstEq with zero positive past
    have := within1 positive
    omega

end

end Yunetas.Timeranger2
