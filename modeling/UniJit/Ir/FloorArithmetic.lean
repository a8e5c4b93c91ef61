import Mathlib
import UniJit.Ir.Arithmetic

/-!
# Floor division and modulo

The source divides with truncation and then corrects the quotient and the remainder by one step,
when their signs ask for it. `floorDivideWord_eq` and `floorModuloWord_eq` say when over the sign
of the remainder; `toInt_floorModuloWord` and `floorDivideWord_eq_ofInt` say that the corrected
results are those of flooring division of integers.

Signed overflow is undefined in the source's language. `floorDivideChecked` and
`floorModuloChecked` are the two functions with each signed operation checked, and neither check
ever fails.
-/

namespace UniJit.Ir

/-! ## The corrections -/

lemma msb_iff_toInt_neg (w : Word) : w.toInt < 0 ↔ w.msb = true := by
  rw [BitVec.msb_eq_toInt, decide_eq_true_iff]

/-- The remainder of a division has the sign of its dividend. -/
lemma msb_xor_of_srem_ne_zero {lhs rhs : Word} (h : lhs.srem rhs ≠ 0) :
    (lhs ^^^ rhs).msb = (lhs.srem rhs ^^^ rhs).msb := by
  rw [BitVec.msb_xor, BitVec.msb_xor, BitVec.msb_srem, decide_eq_true h, Bool.and_true]

/-- Nothing remains of a division by -1. -/
lemma srem_neg_one (lhs : Word) : lhs.srem (-1) = 0 := by
  rw [← BitVec.toInt_inj, BitVec.toInt_srem]
  have hone : (-1 : Word).toInt = -1 := by decide
  rw [hone, Int.tmod_neg, Int.tmod_one]
  rfl

/-- Division by -1 is negation. -/
lemma sdiv_neg_one (lhs : Word) : lhs.sdiv (-1) = -lhs := by
  have hsign : (-1 : Word).msb = true := by decide
  have hmagnitude : -(-1 : Word) = 1#64 := by decide
  rw [BitVec.sdiv_eq, hsign, hmagnitude]
  cases lhs.msb <;> simp

/-- A remainder computed from a quotient, as machines without a remainder do. -/
lemma sub_sdiv_mul (lhs rhs : Word) : lhs - lhs.sdiv rhs * rhs = lhs.srem rhs := by
  have hremainder : lhs.toInt - lhs.toInt.tdiv rhs.toInt * rhs.toInt =
      lhs.toInt.tmod rhs.toInt := by
    rw [Int.tmod_def, mul_comm]
  rw [← BitVec.toInt_inj, BitVec.toInt_sub, BitVec.toInt_mul, BitVec.toInt_sdiv,
    Int.bmod_mul_bmod, Int.sub_bmod_bmod, hremainder, ← BitVec.toInt_srem]
  exact BitVec.toInt_bmod_cancel _

/-- Away from zero the source's case on -1 is not needed for the quotient. -/
lemma floorDivideWord_eq {lhs rhs : Word} (h : rhs ≠ 0) :
    floorDivideWord lhs rhs =
      if lhs.srem rhs ≠ 0 ∧ (lhs.srem rhs ^^^ rhs).msb = true then lhs.sdiv rhs - 1
      else lhs.sdiv rhs := by
  unfold floorDivideWord
  rw [if_neg h]
  by_cases hone : rhs = -1
  · subst hone
    rw [if_pos rfl, srem_neg_one, if_neg fun hne => hne.1 rfl, sdiv_neg_one]
    exact BitVec.zero_sub lhs
  · simp only [if_neg hone, msb_iff_toInt_neg]
    by_cases hexact : lhs.srem rhs = 0
    · simp [hexact]
    · simp only [msb_xor_of_srem_ne_zero hexact, hexact, ne_eq, not_false_eq_true, and_true,
        true_and]

/-- Away from zero the source's case on -1 is not needed for the remainder. -/
lemma floorModuloWord_eq {lhs rhs : Word} (h : rhs ≠ 0) :
    floorModuloWord lhs rhs =
      if lhs.srem rhs ≠ 0 ∧ (lhs.srem rhs ^^^ rhs).msb = true then lhs.srem rhs + rhs
      else lhs.srem rhs := by
  unfold floorModuloWord
  by_cases hone : rhs = -1
  · subst hone
    rw [if_pos (Or.inr rfl), srem_neg_one, if_neg fun hne => hne.1 rfl]
  · simp only [if_neg (not_or.mpr ⟨h, hone⟩), msb_iff_toInt_neg]

/-- Quotient and remainder are corrected together, so that they still make up the dividend. -/
lemma floorDivideWord_mul_add {lhs rhs : Word} (h : rhs ≠ 0) :
    floorDivideWord lhs rhs * rhs + floorModuloWord lhs rhs = lhs := by
  have hexact : lhs.sdiv rhs * rhs + lhs.srem rhs = lhs := by
    rw [← sub_sdiv_mul]
    ring
  rw [floorDivideWord_eq h, floorModuloWord_eq h]
  split_ifs
  · calc (lhs.sdiv rhs - 1) * rhs + (lhs.srem rhs + rhs)
        = lhs.sdiv rhs * rhs + lhs.srem rhs := by ring
      _ = lhs := hexact
  · exact hexact

/-! ## The results as integers -/

lemma toInt_ne_zero {w : Word} (h : w ≠ 0) : w.toInt ≠ 0 := fun hzero =>
  h (BitVec.eq_of_toInt_eq (by rw [hzero]; rfl))

lemma toInt_range (w : Word) : -2 ^ 63 ≤ w.toInt ∧ w.toInt < 2 ^ 63 :=
  ⟨BitVec.le_toInt w, BitVec.toInt_lt⟩

/-- The remainder is smaller than the divisor in size. -/
lemma natAbs_srem_lt (lhs : Word) {rhs : Word} (h : rhs ≠ 0) :
    (lhs.srem rhs).toInt.natAbs < rhs.toInt.natAbs := by
  rw [BitVec.toInt_srem, Int.natAbs_tmod]
  exact Nat.mod_lt _ (Int.natAbs_pos.mpr (toInt_ne_zero h))

/-- Results are corrected where the remainder and the divisor have opposite signs. -/
lemma corrected_iff {lhs rhs : Word} (h : rhs ≠ 0) :
    (lhs.srem rhs ≠ 0 ∧ (lhs.srem rhs ^^^ rhs).msb = true) ↔
      (lhs.srem rhs).toInt < 0 ∧ 0 < rhs.toInt ∨ 0 < (lhs.srem rhs).toInt ∧ rhs.toInt < 0 := by
  have hrhs := toInt_ne_zero h
  have hzero : lhs.srem rhs = 0 ↔ (lhs.srem rhs).toInt = 0 := by
    rw [← BitVec.toInt_inj]
    rfl
  rw [BitVec.msb_xor, BitVec.msb_eq_toInt, BitVec.msb_eq_toInt, ne_eq, hzero]
  by_cases hremainder : (lhs.srem rhs).toInt < 0 <;> by_cases hdivisor : rhs.toInt < 0 <;>
    simp [hdivisor] <;> omega

/-- The correction of a remainder does not overflow. -/
lemma toInt_floorModuloWord (lhs : Word) {rhs : Word} (h : rhs ≠ 0) :
    (floorModuloWord lhs rhs).toInt =
      if lhs.srem rhs ≠ 0 ∧ (lhs.srem rhs ^^^ rhs).msb = true
      then (lhs.srem rhs).toInt + rhs.toInt else (lhs.srem rhs).toInt := by
  rw [floorModuloWord_eq h]
  split_ifs with hcorrected
  · have hsmall := natAbs_srem_lt lhs h
    obtain ⟨hlow, hhigh⟩ := toInt_range rhs
    rw [corrected_iff h] at hcorrected
    rw [BitVec.toInt_add]
    generalize (lhs.srem rhs).toInt = remainder at hsmall hcorrected ⊢
    apply Int.bmod_eq_of_le <;> norm_num <;> omega
  · rfl

/-- A remainder is zero, or it lies strictly between zero and the divisor. -/
lemma floorModuloWord_range (lhs : Word) {rhs : Word} (h : rhs ≠ 0) :
    (floorModuloWord lhs rhs).toInt = 0 ∨
      (0 < (floorModuloWord lhs rhs).toInt ∧ (floorModuloWord lhs rhs).toInt < rhs.toInt) ∨
      (rhs.toInt < (floorModuloWord lhs rhs).toInt ∧ (floorModuloWord lhs rhs).toInt < 0) := by
  have hsmall := natAbs_srem_lt lhs h
  have hrhs := toInt_ne_zero h
  rw [toInt_floorModuloWord lhs h]
  split_ifs with hcorrected
  · rw [corrected_iff h] at hcorrected
    omega
  · rw [corrected_iff h] at hcorrected
    omega

/-- The quotient whose remainder lies between zero and the divisor is the floor. -/
lemma floor_eq_of_eq_mul_add {a b q r : Int} (h : a = q * b + r) (hb : b ≠ 0)
    (hr : r = 0 ∨ (0 < r ∧ r < b) ∨ (b < r ∧ r < 0)) : ⌊(a : ℚ) / b⌋ = q := by
  have hb' : (b : ℚ) ≠ 0 := Int.cast_ne_zero.mpr hb
  have hsplit : (a : ℚ) / b = q + (r : ℚ) / b := by
    rw [h]
    push_cast
    field_simp
  rw [Int.floor_eq_iff, hsplit]
  rcases hr with rfl | ⟨hpositive, hlt⟩ | ⟨hlt, hnegative⟩
  · simp
  · have hr : (0 : ℚ) < r := Int.cast_pos.mpr hpositive
    have hlt : (r : ℚ) < b := Int.cast_lt.mpr hlt
    have hnonneg : 0 ≤ (r : ℚ) / b := (div_pos hr (hr.trans hlt)).le
    have hone : (r : ℚ) / b < 1 := (div_lt_one (hr.trans hlt)).mpr hlt
    constructor <;> linarith
  · have hr : (r : ℚ) < 0 := Int.cast_lt_zero.mpr hnegative
    have hlt : (b : ℚ) < r := Int.cast_lt.mpr hlt
    have hnonneg : 0 ≤ (r : ℚ) / b := (div_pos_of_neg_of_neg hr (hlt.trans hr)).le
    have hone : (r : ℚ) / b < 1 := (div_lt_one_of_neg (hlt.trans hr)).mpr hlt
    constructor <;> linarith

/-- The quotient is the floor of the exact quotient, reduced to a word. -/
lemma floorDivideWord_eq_floor {lhs rhs : Word} (h : rhs ≠ 0) :
    floorDivideWord lhs rhs = BitVec.ofInt 64 ⌊(lhs.toInt : ℚ) / rhs.toInt⌋ := by
  have hquotient : lhs.sdiv rhs = BitVec.ofInt 64 (lhs.toInt.tdiv rhs.toInt) := by
    apply BitVec.eq_of_toInt_eq
    rw [BitVec.toInt_sdiv, BitVec.toInt_ofInt]
  have hexact := Int.mul_tdiv_add_tmod lhs.toInt rhs.toInt
  rw [← BitVec.toInt_srem] at hexact
  have hrange := floorModuloWord_range lhs h
  rw [toInt_floorModuloWord lhs h] at hrange
  rw [floorDivideWord_eq h, hquotient]
  split_ifs at hrange ⊢ with hcorrected
  · have hdividend : lhs.toInt = (lhs.toInt.tdiv rhs.toInt - 1) * rhs.toInt +
        ((lhs.srem rhs).toInt + rhs.toInt) := by linarith
    rw [floor_eq_of_eq_mul_add hdividend (toInt_ne_zero h) hrange, Int.sub_eq_add_neg, BitVec.ofInt_add,
      BitVec.sub_eq_add_neg]
    rfl
  · have hdividend : lhs.toInt = lhs.toInt.tdiv rhs.toInt * rhs.toInt +
        (lhs.srem rhs).toInt := by linarith
    rw [floor_eq_of_eq_mul_add hdividend (toInt_ne_zero h) hrange]

/-! ## Signed overflow -/

/-- The result of a signed operation, where it fits. -/
def signedResult (result : Int) : Option Word :=
  if -2 ^ 63 ≤ result ∧ result < 2 ^ 63 then some (BitVec.ofInt 64 result) else none

/-- The signed quotient; it is undefined where it does not fit. -/
def divideSigned (lhs rhs : Word) : Option Word :=
  if rhs = 0 then none else signedResult (lhs.toInt.tdiv rhs.toInt)

/-- The signed remainder; it is undefined where the quotient is. -/
def moduloSigned (lhs rhs : Word) : Option Word := do
  let _ ← divideSigned lhs rhs
  signedResult (lhs.toInt.tmod rhs.toInt)

/-- `floorDivideWord` with its signed operations checked. -/
def floorDivideChecked (lhs rhs : Word) : Option Word :=
  if rhs = 0 then some 0
  else if rhs = -1 then some (0 - lhs)
  else do
    let quotient ← divideSigned lhs rhs
    if (lhs ^^^ rhs).toInt < 0 then
      let remainder ← moduloSigned lhs rhs
      if remainder ≠ 0 then signedResult (quotient.toInt - 1) else pure quotient
    else pure quotient

/-- `floorModuloWord` with its signed operations checked. -/
def floorModuloChecked (lhs rhs : Word) : Option Word :=
  if rhs = 0 ∨ rhs = -1 then some 0
  else do
    let remainder ← moduloSigned lhs rhs
    if remainder ≠ 0 ∧ (remainder ^^^ rhs).toInt < 0 then
      signedResult (remainder.toInt + rhs.toInt)
    else pure remainder

lemma signedResult_toInt (w : Word) : signedResult w.toInt = some w := by
  rw [signedResult, if_pos (toInt_range w), BitVec.ofInt_toInt]

/-- Away from 0 and -1 the signed division of the language is defined. -/
lemma divideSigned_eq {lhs rhs : Word} (h : rhs ≠ 0) (hone : rhs ≠ -1) :
    divideSigned lhs rhs = some (lhs.sdiv rhs) := by
  rw [divideSigned, if_neg h, ← BitVec.toInt_sdiv_of_ne_or_ne lhs rhs (.inr hone),
    signedResult_toInt]

/-- Away from 0 and -1 the signed remainder of the language is defined. -/
lemma moduloSigned_eq {lhs rhs : Word} (h : rhs ≠ 0) (hone : rhs ≠ -1) :
    moduloSigned lhs rhs = some (lhs.srem rhs) := by
  rw [moduloSigned, divideSigned_eq h hone, ← BitVec.toInt_srem, signedResult_toInt]
  rfl

/-- A quotient that is decremented is not the least word: a divisor that leaves a remainder is at
least two in size. -/
lemma sub_one_fits {lhs rhs : Word} (h : rhs ≠ 0) (hremainder : lhs.srem rhs ≠ 0) :
    signedResult ((lhs.sdiv rhs).toInt - 1) = some (lhs.sdiv rhs - 1) := by
  have hone : rhs ≠ -1 := by
    rintro rfl
    exact hremainder (srem_neg_one lhs)
  have hsmall := natAbs_srem_lt lhs h
  have hnonzero := toInt_ne_zero hremainder
  have htwo : 2 ≤ rhs.toInt.natAbs := by omega
  have hhalf : (lhs.sdiv rhs).toInt.natAbs ≤ 2 ^ 62 := by
    rw [BitVec.toInt_sdiv_of_ne_or_ne lhs rhs (.inr hone), Int.natAbs_tdiv]
    obtain ⟨hlow, hhigh⟩ := toInt_range lhs
    calc lhs.toInt.natAbs / rhs.toInt.natAbs ≤ lhs.toInt.natAbs / 2 :=
          Nat.div_le_div_left htwo (by omega)
      _ ≤ 2 ^ 62 := by omega
  have hvalue : BitVec.ofInt 64 ((lhs.sdiv rhs).toInt - 1) = lhs.sdiv rhs - 1 := by
    rw [Int.sub_eq_add_neg, BitVec.ofInt_add, BitVec.ofInt_toInt, BitVec.sub_eq_add_neg]
    rfl
  rw [signedResult, if_pos (by omega), hvalue]

/-- The source's division runs into no undefined operation and gives `floorDivideWord`. -/
lemma floorDivideChecked_eq (lhs rhs : Word) :
    floorDivideChecked lhs rhs = some (floorDivideWord lhs rhs) := by
  unfold floorDivideChecked floorDivideWord
  by_cases h : rhs = 0
  · rw [if_pos h, if_pos h]
  · by_cases hone : rhs = -1
    · rw [if_neg h, if_neg h, if_pos hone, if_pos hone]
    · rw [if_neg h, if_neg h, if_neg hone, if_neg hone, divideSigned_eq h hone,
        moduloSigned_eq h hone]
      generalize (lhs ^^^ rhs).toInt = sign
      by_cases hsign : sign < 0
      · by_cases hexact : lhs.srem rhs = 0
        · simp [hexact]
        · simp only [hsign, hexact, ne_eq, not_false_eq_true, and_self, if_true,
            Option.bind_eq_bind, Option.bind_some, sub_one_fits h hexact]
      · simp [hsign]

/-- The source's remainder runs into no undefined operation and gives `floorModuloWord`. -/
lemma floorModuloChecked_eq (lhs rhs : Word) :
    floorModuloChecked lhs rhs = some (floorModuloWord lhs rhs) := by
  by_cases h : rhs = 0
  · simp [floorModuloChecked, floorModuloWord, h]
  · have hsum := toInt_floorModuloWord lhs h
    unfold floorModuloChecked
    by_cases hone : rhs = -1
    · simp [floorModuloWord, hone]
    · rw [if_neg (not_or.mpr ⟨h, hone⟩), moduloSigned_eq h hone, floorModuloWord_eq h]
      rw [floorModuloWord_eq h] at hsum
      simp only [Option.bind_eq_bind, Option.bind_some, msb_iff_toInt_neg]
      split_ifs at hsum ⊢ with hcorrected
      · rw [← hsum, signedResult_toInt]
      · rfl

end UniJit.Ir
