import UniJit.Ir.Arithmetic
import UniJit.Lib.Loops

/-!
# Lanes, bit by bit

A vector of lanes is read and written lane by lane in the source; the facts about it are facts
about its bits. Bit `i` belongs to lane `i / w`, at place `i % w`: this is what `loadLane` reads,
`storeLane` writes (`getLsbD_storeLane`) and a loop over all lanes fills in (`getLsbD_fillLanes`).

A mask is canonical exactly when each bit equals the lowest bit of its lane (`canonical_iff`), and
in this form the bitwise operations, comparisons, selections and shuffles keep it.
-/

namespace UniJit.Ir

open Lib

/-- The width of a lane of a vector type. -/
lemma vectorLaneBits_cases {type : ValueType} (h : isVectorValueType type = true) :
    vectorLaneBits type = 8 ∨ vectorLaneBits type = 16 ∨ vectorLaneBits type = 32 ∨
      vectorLaneBits type = 64 := by
  revert h
  cases type <;> decide

/-- The lanes fill the vector. -/
lemma vectorLaneCount_mul {type : ValueType} (h : isVectorValueType type = true) :
    vectorLaneCount type * vectorLaneBits type = 128 := by
  revert h
  cases type <;> decide

/-- A width that a lane can have. -/
structure LaneWidth (w : Nat) : Prop where
  pos : 0 < w
  le : w ≤ 64

/-- A vector type has one of the lane widths. -/
lemma laneWidth {type : ValueType} (h : isVectorValueType type = true) :
    LaneWidth (vectorLaneBits type) := by
  rcases vectorLaneBits_cases h with h | h | h | h <;> rw [h] <;> exact ⟨by decide, by decide⟩

/-- A mask type is a vector type. -/
lemma isVector_of_mask {type : ValueType} (h : isMaskVectorType type = true) :
    isVectorValueType type = true := by
  revert h
  cases type <;> decide

/-- The mask of a lane is all ones over its width. -/
lemma laneMask_eq {type : ValueType} (h : isVectorValueType type = true) :
    laneMask (vectorLaneBits type) = (BitVec.allOnes (vectorLaneBits type)).setWidth 64 := by
  rcases vectorLaneBits_cases h with h | h | h | h <;> rw [h] <;> decide

/-- Every bit of a lane is in its mask. -/
lemma getLsbD_laneMask {type : ValueType} (h : isVectorValueType type = true) {j : Nat}
    (hj : j < vectorLaneBits type) : (laneMask (vectorLaneBits type)).getLsbD j = true := by
  have := (laneWidth h).le
  rw [laneMask_eq h, BitVec.getLsbD_setWidth, BitVec.getLsbD_allOnes]
  simp only [Bool.and_eq_true, decide_eq_true_eq]
  omega

/-- The bits of a loaded lane. -/
lemma getLsbD_loadLane {value : Vector128} {lane w j : Nat} (hw : LaneWidth w) (hj : j < w) :
    (loadLane value lane w).getLsbD j = value.getLsbD (lane * w + j) := by
  have := hw.le
  simp [loadLane, hj, show j < 64 by omega]

/-- Above its width a loaded lane is zero. -/
lemma getLsbD_loadLane_of_le {value : Vector128} {lane w j : Nat} (hj : w ≤ j) :
    (loadLane value lane w).getLsbD j = false := by
  simp [loadLane, show ¬j < w by omega]

/-- The lane of a bit. -/
lemma lane_div {lane w j : Nat} (hw : LaneWidth w) (hj : j < w) : (lane * w + j) / w = lane := by
  rw [Nat.mul_comm, Nat.mul_add_div hw.pos, Nat.div_eq_of_lt hj, Nat.add_zero]

/-- The bits of the lanes are bits of the vector. -/
lemma lane_bit_lt {type : ValueType} (h : isVectorValueType type = true) {lane j : Nat}
    (hlane : lane < vectorLaneCount type) (hj : j < vectorLaneBits type) :
    lane * vectorLaneBits type + j < 128 := by
  calc lane * vectorLaneBits type + j < (lane + 1) * vectorLaneBits type := by
        rw [Nat.succ_mul]
        omega
    _ ≤ vectorLaneCount type * vectorLaneBits type := Nat.mul_le_mul_right _ hlane
    _ = 128 := vectorLaneCount_mul h

/-- The bits of a vector with one lane replaced. -/
lemma getLsbD_storeLane {value : Vector128} {lane w i : Nat} {bits : BitVec 64}
    (hw : LaneWidth w) (hi : i < 128) :
    (storeLane value lane w bits).getLsbD i =
      if i / w = lane then bits.getLsbD (i % w) else value.getLsbD i := by
  have hpos := hw.pos
  have hle := hw.le
  have hdiv : i / w * w + i % w = i := Nat.div_add_mod' i w
  have hmod : i % w < w := Nat.mod_lt i hpos
  by_cases hlane : i / w = lane
  · subst hlane
    have hsub : i - i / w * w = i % w := by omega
    have hge : ¬i < i / w * w := by omega
    simp [storeLane, hi, hsub, hge, hmod, show i % w < 64 by omega]
  · rw [if_neg hlane]
    by_cases hlt : i < lane * w
    · simp [storeLane, hi, hlt]
    · have hout : ¬i - lane * w < w := by
        intro hin
        apply hlane
        apply Nat.div_eq_of_lt_le
        · omega
        · rw [Nat.succ_mul]
          omega
      simp [storeLane, hi, hlt, hout]

/-- The bits of a vector whose lanes are filled one by one. -/
lemma getLsbD_fillLanes {type : ValueType} (h : isVectorValueType type = true)
    (lane : Nat → BitVec 64) {i : Nat} (hi : i < 128) :
    (fillLanes type lane).getLsbD i =
      (lane (i / vectorLaneBits type)).getLsbD (i % vectorLaneBits type) := by
  have hw := laneWidth h
  have hcount := vectorLaneCount_mul h
  -- after `k` iterations the lanes below `k` are filled
  have hfilled : ∀ j, j < 128 → j / vectorLaneBits type < vectorLaneCount type →
      (fillLanes type lane).getLsbD j =
        (lane (j / vectorLaneBits type)).getLsbD (j % vectorLaneBits type) := by
    refine foldl_range_invariant (fun k (v : Vector128) => ∀ j, j < 128 →
      j / vectorLaneBits type < k →
      v.getLsbD j = (lane (j / vectorLaneBits type)).getLsbD (j % vectorLaneBits type)) ?_ ?_
    · intro j _ hj
      exact absurd hj (Nat.not_lt_zero _)
    · intro k v _ ih j hj hlt
      rw [getLsbD_storeLane hw hj]
      split_ifs with heq
      · rw [heq]
      · exact ih j hj (by omega)
  apply hfilled i hi
  rw [Nat.div_lt_iff_lt_mul hw.pos]
  omega

/-! ## Canonical masks -/

/-- Every bit equals the lowest bit of its lane. -/
def LaneUniform (w : Nat) (value : Vector128) : Prop :=
  ∀ i, i < 128 → value.getLsbD i = value.getLsbD (i / w * w)

/-- A lane is zero when all its bits are. -/
lemma loadLane_eq_zero {value : Vector128} {lane w : Nat} (hw : LaneWidth w) :
    loadLane value lane w = 0 ↔ ∀ j, j < w → value.getLsbD (lane * w + j) = false := by
  constructor
  · intro h j hj
    rw [← getLsbD_loadLane hw hj, h]
    simp
  · intro h
    apply BitVec.eq_of_getLsbD_eq
    intro j _
    by_cases hjw : j < w
    · rw [getLsbD_loadLane hw hjw, h j hjw]
      simp
    · rw [getLsbD_loadLane_of_le (by omega)]
      simp

/-- A lane is all ones when all its bits are. -/
lemma loadLane_eq_laneMask {value : Vector128} {lane : Nat} {type : ValueType}
    (h : isVectorValueType type = true) :
    loadLane value lane (vectorLaneBits type) = laneMask (vectorLaneBits type) ↔
      ∀ j, j < vectorLaneBits type → value.getLsbD (lane * vectorLaneBits type + j) = true := by
  have hw := laneWidth h
  constructor
  · intro heq j hj
    rw [← getLsbD_loadLane hw hj, heq, getLsbD_laneMask h hj]
  · intro hall
    apply BitVec.eq_of_getLsbD_eq
    intro j hj
    by_cases hjw : j < vectorLaneBits type
    · rw [getLsbD_loadLane hw hjw, hall j hjw, getLsbD_laneMask h hjw]
    · rw [getLsbD_loadLane_of_le (by omega), laneMask_eq h]
      simp [hjw]

/-- **Canonical masks**: each lane is all zeros or all ones exactly when each bit equals the lowest
bit of its lane. -/
lemma canonical_iff {value : Vector128} {type : ValueType} (h : isMaskVectorType type = true) :
    vectorMaskIsCanonical value type = true ↔ LaneUniform (vectorLaneBits type) value := by
  have hvector := isVector_of_mask h
  have hw := laneWidth hvector
  have hcount := vectorLaneCount_mul hvector
  simp only [vectorMaskIsCanonical, h, Bool.true_and, List.all_eq_true, List.mem_range,
    Bool.or_eq_true, beq_iff_eq]
  constructor
  · intro hall i hi
    have hdiv : i / vectorLaneBits type * vectorLaneBits type + i % vectorLaneBits type = i :=
      Nat.div_add_mod' i _
    have hmod : i % vectorLaneBits type < vectorLaneBits type := Nat.mod_lt i hw.pos
    have hlane : i / vectorLaneBits type < vectorLaneCount type := by
      rw [Nat.div_lt_iff_lt_mul hw.pos]
      omega
    rcases hall _ hlane with hzero | hones
    · have hbits := (loadLane_eq_zero hw).mp hzero
      have hself := hbits _ hmod
      have hfirst := hbits 0 hw.pos
      rw [hdiv] at hself
      rw [Nat.add_zero] at hfirst
      rw [hself, hfirst]
    · have hbits := (loadLane_eq_laneMask hvector).mp hones
      have hself := hbits _ hmod
      have hfirst := hbits 0 hw.pos
      rw [hdiv] at hself
      rw [Nat.add_zero] at hfirst
      rw [hself, hfirst]
  · intro huniform lane hlane
    have hbit : ∀ j, j < vectorLaneBits type →
        value.getLsbD (lane * vectorLaneBits type + j) =
          value.getLsbD (lane * vectorLaneBits type) := by
      intro j hj
      rw [huniform _ (lane_bit_lt hvector hlane hj), lane_div hw hj]
    rcases hfirst : value.getLsbD (lane * vectorLaneBits type) with _ | _
    · exact .inl ((loadLane_eq_zero hw).mpr fun j hj => (hbit j hj).trans hfirst)
    · exact .inr ((loadLane_eq_laneMask hvector).mpr fun j hj => (hbit j hj).trans hfirst)

namespace LaneUniform

variable {w : Nat} {a b c : Vector128}

lemma div_mul_lt {i : Nat} (hi : i < 128) : i / w * w < 128 :=
  lt_of_le_of_lt (Nat.div_mul_le_self i w) hi

/-- The zero vector is uniform. -/
lemma zero : LaneUniform w 0 := by
  intro i _
  simp

/-- Complements are uniform. -/
lemma not (ha : LaneUniform w a) : LaneUniform w (~~~a) := by
  intro i hi
  rw [BitVec.getLsbD_not, BitVec.getLsbD_not, ha i hi]
  simp [hi, div_mul_lt hi]

/-- Conjunctions are uniform. -/
lemma and (ha : LaneUniform w a) (hb : LaneUniform w b) : LaneUniform w (a &&& b) := by
  intro i hi
  simp [ha i hi, hb i hi]

/-- Disjunctions are uniform. -/
lemma or (ha : LaneUniform w a) (hb : LaneUniform w b) : LaneUniform w (a ||| b) := by
  intro i hi
  simp [ha i hi, hb i hi]

/-- Exclusive disjunctions are uniform. -/
lemma xor (ha : LaneUniform w a) (hb : LaneUniform w b) : LaneUniform w (a ^^^ b) := by
  intro i hi
  simp [ha i hi, hb i hi]

/-- Lanes that are each all zeros or all ones. -/
lemma fill {type : ValueType} (h : isVectorValueType type = true) {lane : Nat → BitVec 64}
    (hlane : ∀ k j, j < vectorLaneBits type → (lane k).getLsbD j = (lane k).getLsbD 0) :
    LaneUniform (vectorLaneBits type) (fillLanes type lane) := by
  intro i hi
  have hpos := (laneWidth h).pos
  rw [getLsbD_fillLanes h lane hi, getLsbD_fillLanes h lane (div_mul_lt hi),
    Nat.mul_div_cancel _ hpos, Nat.mul_mod_left]
  exact hlane _ _ (Nat.mod_lt i hpos)

end LaneUniform

/-! ## The vector operations on masks -/

/-- Unary operations keep lanes uniform. -/
lemma vectorUnary_uniform {o : VectorUnaryOperation} {value : Vector128} {type : ValueType} {w : Nat}
    (h : LaneUniform w value) : LaneUniform w (vectorUnary o value type) := by
  cases o
  show LaneUniform w (if _ then 0 else ~~~value)
  split
  · exact .zero
  · exact h.not

/-- The binary operations defined on masks keep lanes uniform. -/
lemma vectorBinary_uniform {float : FloatUnit} {o : VectorBinaryOperation} {lhs rhs : Vector128}
    {type : ValueType} {w : Nat} (hmask : isMaskVectorType type = true) (hl : LaneUniform w lhs)
    (hr : LaneUniform w rhs) : LaneUniform w (vectorBinary float o lhs rhs type) := by
  unfold vectorBinary
  split
  · exact .zero
  · rename_i hdefined
    cases o with
    | bitwiseAnd => exact hl.and hr
    | bitwiseOr => exact hl.or hr
    | bitwiseXor => exact hl.xor hr
    | add | subtract | multiply | divide =>
        exfalso
        revert hmask hdefined
        cases type <;> decide

/-- A comparison gives uniform lanes. -/
lemma vectorCompare_uniform {float : FloatUnit} {comparison : VectorComparison}
    {lhs rhs : Vector128} {type : ValueType} (h : isVectorValueType type = true) :
    LaneUniform (vectorLaneBits type) (vectorCompare float comparison lhs rhs type) := by
  have hlane : ∀ (holds : Bool) (j : Nat), j < vectorLaneBits type →
      (if holds then laneMask (vectorLaneBits type) else 0).getLsbD j =
        (if holds then laneMask (vectorLaneBits type) else 0).getLsbD 0 := by
    intro holds j hj
    cases holds with
    | false => simp
    | true =>
        rw [if_pos rfl, getLsbD_laneMask h hj, getLsbD_laneMask h (laneWidth h).pos]
  unfold vectorCompare
  split
  · exact .zero
  · apply LaneUniform.fill h
    intro k j hj
    exact hlane _ j hj

/-- A select of uniform vectors under a uniform mask is uniform. -/
lemma vectorSelect_uniform {mask trueValue falseValue : Vector128} {maskType : ValueType} {w : Nat}
    (hm : LaneUniform w mask) (ht : LaneUniform w trueValue) (hf : LaneUniform w falseValue) :
    LaneUniform w (vectorSelect mask trueValue falseValue maskType) := by
  unfold vectorSelect
  split
  · exact .zero
  · exact (hm.and ht).or (hm.not.and hf)

/-- A shuffle keeps lanes uniform. -/
lemma vectorShuffle_uniform {value : Vector128} {type : ValueType} {shuffle : VectorShuffle}
    (h : LaneUniform (vectorLaneBits type) value) :
    LaneUniform (vectorLaneBits type) (vectorShuffle value type shuffle) := by
  unfold vectorShuffle
  simp only
  split
  · exact .zero
  · rename_i hshape
    have hvector : isVectorValueType type = true := by
      by_contra hnot
      exact hshape (.inl hnot)
    have hw := laneWidth hvector
    split
    · exact .zero
    · apply LaneUniform.fill hvector
      intro k j hj
      -- a lane beyond the vector reads as zero
      rw [getLsbD_loadLane hw hj, getLsbD_loadLane hw hw.pos, Nat.add_zero]
      generalize (shuffle.lanes.toList.getD k 0).toNat = source
      by_cases hin : source < vectorLaneCount type
      · rw [h _ (lane_bit_lt hvector hin hj), lane_div hw hj]
      · have hout : 128 ≤ source * vectorLaneBits type := by
          rw [← vectorLaneCount_mul hvector]
          exact Nat.mul_le_mul_right _ (by omega)
        rw [BitVec.getLsbD_of_ge value _ (by omega), BitVec.getLsbD_of_ge value _ hout]

end UniJit.Ir
