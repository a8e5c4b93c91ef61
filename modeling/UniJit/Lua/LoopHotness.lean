import UniJit.Lua.SymbolicOperands

/-!
# The estimate of loop iterations

Before native entry, the front end derives from the arguments how many iterations a call begins.
A plan holds the operands of the loop, as far as they are constants or parameters, and one early
exit of its body: a condition on the index (`analyzeLoopHotness`). The estimate is a closed form of
the plan (`LoopHotnessPlan.estimate`).

A loop that is entered goes through an arithmetic progression that does not wrap (`toInt_index`), and
the estimate is the number of its terms up to the first one that the exit holds for
(`toNat_estimateEntered`).
-/

namespace UniJit.Lua

open UniJit.Ir UniJit.Lib

/-! ## Plans -/

/-- The relations of a guard. -/
inductive Relation
  | equal | notEqual | lessThan | lessEqual | greaterThan | greaterEqual
  deriving DecidableEq, Repr

namespace Relation

/-- `reverse_relation`: the operands are exchanged. -/
def reverse : Relation → Relation
  | .lessThan => .greaterThan
  | .lessEqual => .greaterEqual
  | .greaterThan => .lessThan
  | .greaterEqual => .lessEqual
  | relation => relation

/-- `complement_relation`. -/
def complement : Relation → Relation
  | .equal => .notEqual
  | .notEqual => .equal
  | .lessThan => .greaterEqual
  | .lessEqual => .greaterThan
  | .greaterThan => .lessEqual
  | .greaterEqual => .lessThan

/-- What a relation says about integers. -/
def Holds : Relation → Int → Int → Prop
  | .equal, x, y => x = y
  | .notEqual, x, y => x ≠ y
  | .lessThan, x, y => x < y
  | .lessEqual, x, y => x ≤ y
  | .greaterThan, x, y => y < x
  | .greaterEqual, x, y => y ≤ x

lemma reverse_holds (r : Relation) (x y : Int) : r.reverse.Holds x y ↔ r.Holds y x := by
  cases r <;> simp [reverse, Holds, eq_comm]

@[simp] lemma reverse_reverse (r : Relation) : r.reverse.reverse = r := by
  cases r <;> rfl

lemma complement_holds (r : Relation) (x y : Int) : r.complement.Holds x y ↔ ¬r.Holds x y := by
  cases r <;> simp [complement, Holds]

lemma holds_neg (r : Relation) (x y : Int) : r.Holds (-x) (-y) ↔ r.reverse.Holds x y := by
  cases r <;> simp [reverse, Holds]

end Relation

/-- A guard on the induction value that leaves the loop. -/
structure EarlyExit where
  relation : Relation
  threshold : Symbolic
  deriving DecidableEq, Repr

/-- What is known of a loop's controls and of an early exit. -/
structure LoopHotnessPlan where
  isLoop : Bool := false
  start : Symbolic := .unknown
  limit : Symbolic := .unknown
  step : Symbolic := .unknown
  earlyExit : Option EarlyExit := none
  deriving DecidableEq, Repr

namespace LoopHotnessPlan

/-- The quotient rounded up. -/
def ceilingQuotient (numerator denominator : Word) : Word :=
  numerator.udiv denominator + if numerator.umod denominator ≠ 0 then 1 else 0

/-- Adds one, short of wrapping. -/
def incrementSaturated (value : Word) : Word :=
  if value = BitVec.allOnes 64 then value else value + 1

/-- The first iteration that exits; all ones if none does. -/
def firstExit (relation : Relation) (start step threshold stride potential : Word) : Word :=
  let ascends := 0 < step.toInt
  let descends := step.toInt < 0
  match relation with
  | .equal =>
      if ascends ∧ start.toInt ≤ threshold.toInt ∨ descends ∧ threshold.toInt ≤ start.toInt then
        let distance := if ascends then threshold - start else start - threshold
        if distance.umod stride = 0 then distance.udiv stride else BitVec.allOnes 64
      else BitVec.allOnes 64
  | .notEqual =>
      if start ≠ threshold then 0
      else if 1 < potential.toNat then 1 else BitVec.allOnes 64
  | .lessThan =>
      if start.toInt < threshold.toInt then 0
      else if descends then incrementSaturated ((start - threshold).udiv stride)
      else BitVec.allOnes 64
  | .lessEqual =>
      if start.toInt ≤ threshold.toInt then 0
      else if descends then ceilingQuotient (start - threshold) stride
      else BitVec.allOnes 64
  | .greaterThan =>
      if threshold.toInt < start.toInt then 0
      else if ascends then incrementSaturated ((threshold - start).udiv stride)
      else BitVec.allOnes 64
  | .greaterEqual =>
      if threshold.toInt ≤ start.toInt then 0
      else if ascends then ceilingQuotient (threshold - start) stride
      else BitVec.allOnes 64

/-- The estimate of a loop that is entered, from the distance of its bounds. -/
def estimateEntered (earlyExit : Option EarlyExit) (args : List Word)
    (start step distance stride : Word) : Word :=
  let potential := incrementSaturated (distance.udiv stride)
  match earlyExit with
  | none => potential
  | some exit =>
      match exit.threshold.resolve args with
      | none => potential
      | some threshold =>
          let first := firstExit exit.relation start step threshold stride potential
          if first.toNat < potential.toNat then first + 1 else potential

/-- The number of iterations that a call begins, up to `2 ^ 64 - 1`. -/
def estimate (plan : LoopHotnessPlan) (args : List Word) : Word :=
  if plan.isLoop = false then 0
  else
    match plan.start.resolve args, plan.limit.resolve args, plan.step.resolve args with
    | some start, some limit, some step =>
        if 0 < step.toInt then
          if limit.toInt < start.toInt then 0
          else estimateEntered plan.earlyExit args start step (limit - start) step
        else if step.toInt < 0 then
          if start.toInt < limit.toInt then 0
          else estimateEntered plan.earlyExit args start step (start - limit) (0 - step)
        else 0
    | _, _, _ => 1

/-! ### The first exit -/

/-- The word of a nonnegative difference. -/
lemma toNat_sub_of_toInt_le {x y : Word} (h : x.toInt ≤ y.toInt) :
    (y - x).toNat = (y.toInt - x.toInt).toNat := by
  have hx := BitVec.toInt_eq_toNat_cond x
  have hy := BitVec.toInt_eq_toNat_cond y
  have hlt := x.isLt
  have hlt' := y.isLt
  rw [BitVec.toNat_sub]
  split_ifs at hx hy <;> omega

/-- The saturated successor. -/
lemma toNat_incrementSaturated (value : Word) :
    (incrementSaturated value).toNat = min (value.toNat + 1) (2 ^ 64 - 1) := by
  have hlt := value.isLt
  unfold incrementSaturated
  split_ifs with hlast
  · rw [hlast, BitVec.toNat_allOnes]
    omega
  · have hne : value.toNat ≠ 2 ^ 64 - 1 := fun heq =>
      hlast (BitVec.eq_of_toNat_eq (by rw [heq, BitVec.toNat_allOnes]))
    have hone : (1 : Word).toNat = 1 := rfl
    rw [BitVec.toNat_add, hone]
    omega

/-- Divisibility of words. -/
lemma umod_eq_zero_iff {x y : Word} : x.umod y = 0 ↔ x.toNat % y.toNat = 0 := by
  rw [← BitVec.toNat_inj]
  rfl

/-- The rounded-up quotient as a number. -/
lemma toNat_ceilingQuotient {numerator denominator : Word} (h : denominator ≠ 0) :
    (ceilingQuotient numerator denominator).toNat = numerator.toNat / denominator.toNat +
      if numerator.toNat % denominator.toNat ≠ 0 then 1 else 0 := by
  have hlt := numerator.isLt
  have hone : (1 : Word).toNat = 1 := rfl
  have hzero : (0 : Word).toNat = 0 := rfl
  have hpos : denominator.toNat ≠ 0 := fun heq => h (BitVec.eq_of_toNat_eq heq)
  have hquotient : (numerator.udiv denominator).toNat = numerator.toNat / denominator.toNat := rfl
  unfold ceilingQuotient
  simp only [ne_eq, umod_eq_zero_iff]
  split_ifs with hdvd
  · rw [BitVec.toNat_add, hquotient, hzero]
    have := Nat.div_le_self numerator.toNat denominator.toNat
    omega
  · rw [BitVec.toNat_add, hquotient, hone]
    have hne : denominator.toNat ≠ 1 := by
      rintro heq
      rw [heq, Nat.mod_one] at hdvd
      exact hdvd rfl
    have hle : numerator.toNat / denominator.toNat ≤ numerator.toNat / 2 :=
      Nat.div_le_div_left (by omega) (by omega)
    omega

section exits

variable {s t : Int} {a bound : Nat} {distance stride : Word} (ha : 0 < a) (hstride : stride.toNat = a)
  (hbound : bound ≤ 2 ^ 64 - 1)
include hbound

/-- The largest word says that it never happens. -/
lemma firstBelow_allOnes {P : Nat → Prop} (h : ∀ k, ¬P k) :
    FirstBelow P bound (BitVec.allOnes 64).toNat :=
  .of_none h (by rwa [BitVec.toNat_allOnes])

include ha hstride

/-- The first index past a threshold. -/
lemma firstBelow_passes (h : s ≤ t) (hdistance : distance.toNat = (t - s).toNat) :
    FirstBelow (fun k => t < s + k * a) bound (incrementSaturated (distance.udiv stride)).toNat := by
  have hquotient : (distance.udiv stride).toNat = (t - s).toNat / a := by
    rw [← hdistance, ← hstride]
    rfl
  rw [toNat_incrementSaturated, hquotient]
  exact (firstBelow_lt ha h bound).min hbound

omit hbound in
/-- The first index at or past a threshold. -/
lemma firstBelow_reaches (h : s ≤ t) (hdistance : distance.toNat = (t - s).toNat) :
    FirstBelow (fun k => t ≤ s + k * a) bound (ceilingQuotient distance stride).toNat := by
  have hstride' : stride ≠ 0 := by
    rintro rfl
    rw [← hstride] at ha
    exact absurd ha (lt_irrefl 0)
  rw [toNat_ceilingQuotient hstride', hdistance, hstride]
  exact firstBelow_le ha h bound

/-- The first index at a threshold, if the steps meet it. -/
lemma firstBelow_meets (h : s ≤ t) (hdistance : distance.toNat = (t - s).toNat) :
    FirstBelow (fun k => s + k * a = t) bound
      (if distance.umod stride = 0 then distance.udiv stride else BitVec.allOnes 64).toNat := by
  have hquotient : (distance.udiv stride).toNat = (t - s).toNat / a := by
    rw [← hdistance, ← hstride]
    rfl
  have hrest : distance.umod stride = 0 ↔ (t - s).toNat % a = 0 := by
    rw [umod_eq_zero_iff, hdistance, hstride]
  split_ifs with hdvd
  · rw [hquotient]
    exact firstBelow_eq ha h (hrest.mp hdvd) bound
  · exact firstBelow_allOnes hbound (progression_ne fun hmeets => hdvd (hrest.mpr hmeets.2))

end exits

/-- The first index away from a threshold. -/
lemma firstBelow_differs {s t : Int} {a : Nat} {potential : Word} (ha : 0 < a) :
    FirstBelow (fun k => s + k * a ≠ t) potential.toNat
      (if s ≠ t then 0 else if 1 < potential.toNat then 1 else BitVec.allOnes 64 : Word).toNat := by
  have hfirst := firstBelow_ne (s := s) (t := t) ha potential.toNat
  have hlt := potential.isLt
  split_ifs with hne hmany
  · rwa [if_pos hne] at hfirst
  · rwa [if_neg hne] at hfirst
  · rw [if_neg hne] at hfirst
    refine ⟨fun habove => ?_, fun j _ hj => hfirst.2 j (by omega) hj⟩
    rw [BitVec.toNat_allOnes] at habove
    omega

/-- `firstExit` of an ascending loop, from the integers that it goes through. -/
def ascendingExit (r : Relation) (s t : Int) (distance stride potential : Word) : Word :=
  match r with
  | .equal =>
      if s ≤ t then
        if distance.umod stride = 0 then distance.udiv stride else BitVec.allOnes 64
      else BitVec.allOnes 64
  | .notEqual =>
      if s ≠ t then 0 else if 1 < potential.toNat then 1 else BitVec.allOnes 64
  | .lessThan => if s < t then 0 else BitVec.allOnes 64
  | .lessEqual => if s ≤ t then 0 else BitVec.allOnes 64
  | .greaterThan => if t < s then 0 else incrementSaturated (distance.udiv stride)
  | .greaterEqual => if t ≤ s then 0 else ceilingQuotient distance stride

/-- Where an ascending loop exits first. -/
lemma ascendingExit_firstBelow {r : Relation} {s t : Int} {distance stride potential : Word}
    (ha : 0 < stride.toNat) (hdistance : s ≤ t → distance.toNat = (t - s).toNat) :
    FirstBelow (fun k => r.Holds (s + k * stride.toNat) t) potential.toNat
      (ascendingExit r s t distance stride potential).toNat := by
  have hbound : potential.toNat ≤ 2 ^ 64 - 1 := by omega
  have hnonneg : ∀ k : Nat, 0 ≤ (k : Int) * stride.toNat := fun k => by positivity
  rcases r
  all_goals dsimp only [ascendingExit, Relation.Holds]
  case equal =>
    by_cases h : s ≤ t
    · rw [if_pos h]
      exact firstBelow_meets ha rfl hbound h (hdistance h)
    · rw [if_neg h]
      exact firstBelow_allOnes hbound (progression_ne fun hmeets => h hmeets.1)
  case notEqual => exact firstBelow_differs ha
  case lessThan =>
    by_cases h : s < t
    · rw [if_pos h]
      exact .of_zero (by simpa using h)
    · rw [if_neg h]
      exact firstBelow_allOnes hbound fun k => by linarith [hnonneg k]
  case lessEqual =>
    by_cases h : s ≤ t
    · rw [if_pos h]
      exact .of_zero (by simpa using h)
    · rw [if_neg h]
      exact firstBelow_allOnes hbound fun k => by linarith [hnonneg k]
  case greaterThan =>
    by_cases h : t < s
    · rw [if_pos h]
      exact .of_zero (by simpa using h)
    · rw [if_neg h]
      have hle := not_lt.mp h
      exact firstBelow_passes ha rfl hbound hle (hdistance hle)
  case greaterEqual =>
    by_cases h : t ≤ s
    · rw [if_pos h]
      exact .of_zero (by simpa using h)
    · rw [if_neg h]
      have hle := (not_le.mp h).le
      exact firstBelow_reaches ha rfl hle (hdistance hle)

section directions

variable {r : Relation} {start step threshold stride potential : Word}

/-- Going up the source computes the ascending exit. -/
lemma firstExit_of_pos (hstep : 0 < step.toInt) :
    firstExit r start step threshold stride potential =
      ascendingExit r start.toInt threshold.toInt (threshold - start) stride potential := by
  have hnot : ¬step.toInt < 0 := by omega
  rcases r
  all_goals
    simp only [firstExit, ascendingExit, hstep, hnot, true_and, false_and, or_false, if_true,
      if_false, ne_eq, BitVec.toInt_inj]

/-- Going down the source computes the ascending exit of the negated numbers. -/
lemma firstExit_of_neg (hstep : step.toInt < 0) :
    firstExit r start step threshold stride potential =
      ascendingExit r.reverse (-start.toInt) (-threshold.toInt) (start - threshold) stride
        potential := by
  have hnot : ¬0 < step.toInt := by omega
  rcases r
  all_goals
    simp only [firstExit, ascendingExit, Relation.reverse, hstep, hnot, true_and, false_and,
      false_or, if_true, if_false, ne_eq, neg_inj, BitVec.toInt_inj, neg_lt_neg_iff, neg_le_neg_iff]

/-- Where a loop exits first. -/
lemma firstExit_firstBelow (hstep : step ≠ 0) (hstride : stride.toNat = step.toInt.natAbs) :
    FirstBelow (fun k => r.Holds (start.toInt + k * step.toInt) threshold.toInt) potential.toNat
      (firstExit r start step threshold stride potential).toNat := by
  have hne : step.toInt ≠ 0 := fun h => hstep (BitVec.eq_of_toInt_eq h)
  have ha : 0 < stride.toNat := by omega
  rcases lt_or_gt_of_ne hne with hneg | hpos
  · rw [firstExit_of_neg hneg]
    have hdistance : -start.toInt ≤ -threshold.toInt →
        (start - threshold).toNat = (-threshold.toInt - -start.toInt).toNat := by
      intro h
      rw [toNat_sub_of_toInt_le (by omega)]
      omega
    apply (ascendingExit_firstBelow ha hdistance).congr
    intro k
    have hindex : -start.toInt + (k : Int) * stride.toNat = -(start.toInt + k * step.toInt) := by
      have hcast : (stride.toNat : Int) = -step.toInt := by omega
      rw [hcast]
      ring
    rw [hindex, Relation.holds_neg, Relation.reverse_reverse]
  · rw [firstExit_of_pos hpos]
    have hcast : step.toInt = stride.toNat := by omega
    rw [hcast]
    exact ascendingExit_firstBelow ha toNat_sub_of_toInt_le

end directions

/-! ### Estimates -/

/-- The `k`th iteration of a loop takes an early exit. -/
def Exits (earlyExit : Option EarlyExit) (args : List Word) (start step : Word) (k : Nat) : Prop :=
  ∃ exit ∈ earlyExit, ∃ threshold, exit.threshold.resolve args = some threshold ∧
    exit.relation.Holds (start.toInt + k * step.toInt) threshold.toInt

section estimates

variable {earlyExit : Option EarlyExit} {args : List Word} {start limit step distance stride : Word}
  {n : Nat}

/-- The estimate of a loop that is entered is the number of iterations up to its exit. -/
lemma toNat_estimateEntered (hstep : step ≠ 0) (hstride : stride.toNat = step.toInt.natAbs)
    (h : StopsAt (Exits earlyExit args start step) ((distance.udiv stride).toNat + 1) n) :
    (estimateEntered earlyExit args start step distance stride).toNat = min n (2 ^ 64 - 1) := by
  have hpotential := toNat_incrementSaturated (distance.udiv stride)
  have hunlimited : (∀ k, ¬Exits earlyExit args start step k) →
      (incrementSaturated (distance.udiv stride)).toNat = min n (2 ^ 64 - 1) := by
    intro hnone
    rcases h with ⟨k, -, hexits, -⟩ | ⟨-, rfl⟩
    · exact absurd hexits (hnone k)
    · exact hpotential
  unfold estimateEntered
  rcases earlyExit with - | exit
  · exact hunlimited fun k hexits => by
      obtain ⟨_, hexit, -⟩ := hexits
      cases hexit
  · dsimp only
    rcases hresolve : exit.threshold.resolve args with - | threshold
    · apply hunlimited
      rintro k ⟨_, hexit, threshold, hresolve', -⟩
      cases hexit
      rw [hresolve] at hresolve'
      cases hresolve'
    · dsimp only
      set potential := incrementSaturated (distance.udiv stride) with hdefinition
      have hexits : ∀ k, Exits (some exit) args start step k ↔
          exit.relation.Holds (start.toInt + k * step.toInt) threshold.toInt := by
        intro k
        constructor
        · rintro ⟨_, hexit, threshold', hresolve', hholds⟩
          cases hexit
          rw [hresolve] at hresolve'
          cases hresolve'
          exact hholds
        · exact fun hholds => ⟨exit, rfl, threshold, hresolve, hholds⟩
      have hfirst : FirstBelow (Exits (some exit) args start step) potential.toNat
          (firstExit exit.relation start step threshold stride potential).toNat :=
        (firstExit_firstBelow hstep hstride).congr fun k => (hexits k).symm
      set first := firstExit exit.relation start step threshold stride potential
      rw [hpotential] at hfirst ⊢
      have hexact := h.eq_of_firstBelow hfirst
      have hone : (1 : Word).toNat = 1 := rfl
      rw [hexact]
      split_ifs with hlt
      · rw [BitVec.toNat_add, hone]
        omega
      · exact hpotential

/-- The count of a loop that goes down. -/
lemma forCount_eq (h : step.toInt < 0) :
    forCount start limit step = (start - limit).udiv (0 - step) := by
  have hnot : ¬0 < step.toInt := by omega
  have hstride : 0 - (step + 1) + 1 = 0 - step := by
    bv_omega
  rw [forCount, if_neg hnot, hstride]

/-- The size of a negative step. -/
lemma toNat_neg_of_toInt_neg (h : step.toInt < 0) : (0 - step).toNat = step.toInt.natAbs := by
  have hsign := BitVec.toInt_eq_toNat_cond step
  have hlt := step.isLt
  have hzero : (0 : Word).toNat = 0 := rfl
  rw [BitVec.toNat_sub, hzero]
  split_ifs at hsign <;> omega

/-- The size of a positive step. -/
lemma toNat_of_toInt_pos (h : 0 < step.toInt) : step.toNat = step.toInt.natAbs := by
  have hsign := BitVec.toInt_eq_toNat_cond step
  have hlt := step.isLt
  split_ifs at hsign <;> omega

/-- The estimate, from the iterations that a loop counts in advance. -/
lemma estimate_eq {plan : LoopHotnessPlan} (hloop : plan.isLoop = true)
    (hstart : plan.start.resolve args = some start) (hlimit : plan.limit.resolve args = some limit)
    (hresolve : plan.step.resolve args = some step) (hstep : step ≠ 0) :
    (forSkips start limit step = true ∧ plan.estimate args = 0) ∨
      (forSkips start limit step = false ∧ ∃ distance stride,
        stride.toNat = step.toInt.natAbs ∧ distance.udiv stride = forCount start limit step ∧
        plan.estimate args = estimateEntered plan.earlyExit args start step distance stride) := by
  have hne : step.toInt ≠ 0 := fun h => hstep (BitVec.eq_of_toInt_eq h)
  unfold estimate
  rw [if_neg (by simp [hloop]), hstart, hlimit, hresolve]
  dsimp only
  rcases lt_or_gt_of_ne hne with hneg | hpos
  · have hnot : ¬0 < step.toInt := by omega
    rw [if_neg hnot, if_pos hneg, forSkips, if_neg hnot, forCount_eq hneg]
    split_ifs with hskips
    · exact .inl ⟨by simpa using hskips, rfl⟩
    · exact .inr ⟨by simpa using hskips, _, _, toNat_neg_of_toInt_neg hneg, rfl, rfl⟩
  · rw [if_pos hpos, forSkips, if_pos hpos, forCount, if_pos hpos]
    split_ifs with hskips
    · exact .inl ⟨by simpa using hskips, rfl⟩
    · exact .inr ⟨by simpa using hskips, _, _, toNat_of_toInt_pos hpos, rfl, rfl⟩

/-- The number of iterations that a loop counts in advance is that of the steps between its
bounds. -/
lemma toNat_forCount (hstep : step ≠ 0) (hskips : forSkips start limit step = false) :
    (forCount start limit step).toNat =
      (limit.toInt - start.toInt).natAbs / step.toInt.natAbs := by
  have hne : step.toInt ≠ 0 := fun h => hstep (BitVec.eq_of_toInt_eq h)
  rcases lt_or_gt_of_ne hne with hneg | hpos
  · have hnot : ¬0 < step.toInt := by omega
    have hle : limit.toInt ≤ start.toInt := by simpa [forSkips, hnot] using hskips
    have hdistance : (start - limit).toNat = (limit.toInt - start.toInt).natAbs := by
      rw [toNat_sub_of_toInt_le hle]
      omega
    rw [forCount_eq hneg, ← hdistance, ← toNat_neg_of_toInt_neg hneg]
    rfl
  · have hle : start.toInt ≤ limit.toInt := by simpa [forSkips, hpos] using hskips
    have hdistance : (limit - start).toNat = (limit.toInt - start.toInt).natAbs := by
      rw [toNat_sub_of_toInt_le hle]
      omega
    rw [forCount, if_pos hpos, ← hdistance, ← toNat_of_toInt_pos hpos]
    rfl

/-- The index of a loop does not wrap. -/
lemma toInt_index (hstep : step ≠ 0) (hskips : forSkips start limit step = false) {k : Nat}
    (hk : k ≤ (forCount start limit step).toNat) :
    (start + BitVec.ofNat 64 k * step).toInt = start.toInt + k * step.toInt := by
  rw [toNat_forCount hstep hskips] at hk
  have hle : k * step.toInt.natAbs ≤ (limit.toInt - start.toInt).natAbs :=
    (Nat.mul_le_mul_right _ hk).trans (Nat.div_mul_le_self _ _)
  have hle' : (k : Int) * |step.toInt| ≤ |limit.toInt - start.toInt| := by
    rw [Int.abs_eq_natAbs, Int.abs_eq_natAbs]
    exact_mod_cast hle
  have hnonneg : 0 ≤ (k : Int) * |step.toInt| := by positivity
  have hstart : start.toInt < 2 ^ 63 := BitVec.toInt_lt
  have hstart' : -2 ^ 63 ≤ start.toInt := BitVec.le_toInt start
  have hlimit : limit.toInt < 2 ^ 63 := BitVec.toInt_lt
  have hlimit' : -2 ^ 63 ≤ limit.toInt := BitVec.le_toInt limit
  have hne : step.toInt ≠ 0 := fun h => hstep (BitVec.eq_of_toInt_eq h)
  have hbounds : -2 ^ 63 ≤ start.toInt + k * step.toInt ∧ start.toInt + k * step.toInt < 2 ^ 63 := by
    rcases lt_or_gt_of_ne hne with hneg | hpos
    · have hnot : ¬0 < step.toInt := by omega
      have hdescends : limit.toInt ≤ start.toInt := by simpa [forSkips, hnot] using hskips
      rw [abs_of_neg hneg, mul_neg] at hle' hnonneg
      rw [abs_of_nonpos (by omega)] at hle'
      constructor <;> linarith
    · have hascends : start.toInt ≤ limit.toInt := by simpa [forSkips, hpos] using hskips
      rw [abs_of_pos hpos] at hle' hnonneg
      rw [abs_of_nonneg (by omega)] at hle'
      constructor <;> linarith
  rw [BitVec.toInt_add, BitVec.toInt_mul, ← BitVec.ofInt_natCast, BitVec.toInt_ofInt,
    Int.bmod_mul_bmod, Int.add_bmod_bmod]
  exact Int.bmod_eq_of_le (by simpa using hbounds.1) (by simpa using hbounds.2)

end estimates

end LoopHotnessPlan

/-! ## The analysis -/

section analysis

variable (p : Proto)

/-- The relation and the register that a condition on two registers compares the index with. -/
def comparedRegister (registers : List Symbolic) (index : Nat) (i : Instruction)
    (relation : Relation) : Option (Relation × Symbolic × Option Nat) :=
  if i.A = index ∧ i.B ≠ index then
    if i.B < p.maxstacksize then some (relation, registers.getD i.B .unknown, some i.B) else none
  else if i.B = index ∧ i.A ≠ index then
    if i.A < p.maxstacksize then some (relation.reverse, registers.getD i.A .unknown, some i.A)
    else none
  else none

/-- The relation and the operand that a condition compares the index in register `index` with; the
operand's register, if it has one. -/
def comparedWith (registers : List Symbolic) (index pc : Nat) :
    Option (Relation × Symbolic × Option Nat) :=
  let i := p.fetch pc
  let onImmediate := fun relation : Relation =>
    if i.A = index then some (relation, Symbolic.constant (BitVec.ofInt 64 i.sB), none) else none
  match i.opcode with
  | .eq => comparedRegister p registers index i .equal
  | .lt => comparedRegister p registers index i .lessThan
  | .le => comparedRegister p registers index i .lessEqual
  | .eqK =>
      if i.A = index then
        (p.integerConstant i.B).map fun value => (.equal, .constant value, none)
      else none
  | .eqI => onImmediate .equal
  | .ltI => onImmediate .lessThan
  | .leI => onImmediate .lessEqual
  | .gtI => onImmediate .greaterThan
  | .geI => onImmediate .greaterEqual
  | _ => none

/-- The early exit of the condition at `pc`. -/
def earlyExitAt (registers : List Symbolic) (preparationPc loopPc stateBase pc : Nat) :
    Option EarlyExit :=
  let actionPc := pc + 2
  let action := (p.fetch actionPc).opcode
  let guardedReturn := action = .ret ∨ action = .ret1
  let guardedBreak := action = .jmp ∧ jumpAt p actionPc = loopPc + 1
  if (p.fetch (pc + 1)).opcode ≠ .jmp then none
  else if loopPc ≤ actionPc ∨ jumpAt p (pc + 1) ≤ actionPc ∨ loopPc < jumpAt p (pc + 1) then none
  else if ¬guardedReturn ∧ ¬guardedBreak then none
  else
    match comparedWith p registers (stateBase + 2) pc with
    | none => none
    | some (relation, threshold, register) =>
        if threshold = .unknown then none
        else if register.any fun r => (List.range pc).any fun q =>
            preparationPc < q && (p.fetch q).opcode.writesDestination && (p.fetch q).A == r then none
        else some ⟨if (p.fetch pc).k then relation.complement else relation, threshold⟩

/-- The early exit of the first condition between the ends of a loop. -/
def findEarlyExit (preparationPc loopPc : Nat) : Option EarlyExit :=
  ((List.range loopPc).find? fun pc =>
      preparationPc < pc && pc + 1 < loopPc && isIntegerComparison (p.fetch pc).opcode).bind
    (earlyExitAt p (symbolicRegisters p preparationPc) preparationPc loopPc
      (p.fetch preparationPc).A)

/-- `analyze_loop_hotness`. -/
def analyzeLoopHotness : LoopHotnessPlan :=
  if p.maxstacksize = 0 then {}
  else
    match (List.range p.sizecode).find? fun pc => (p.fetch pc).opcode == .forPrep with
    | none => {}
    | some pc =>
        if p.maxstacksize ≤ (p.fetch pc).A + 2 then { isLoop := true }
        else
          let controls := analyzeLoopControls p pc
          let plan : LoopHotnessPlan :=
            { isLoop := true
              start := controls.start
              limit := controls.limit
              step := controls.step }
          let loopPc := pc + (p.fetch pc).Bx + 1
          if controls.start = .unknown ∨ controls.step = .unknown ∨ controls.step = .constant 0 ∨
              p.sizecode ≤ loopPc ∨ (p.fetch loopPc).opcode ≠ .forLoop then plan
          else { plan with earlyExit := findEarlyExit p pc loopPc }

end analysis

end UniJit.Lua
