import Mathlib.Tactic

/-!
# How long a loop runs

A loop tries a number of iterations and may stop at the first one where a condition holds.
`StopsAt` says how many iterations it begins. `FirstBelow` describes a computed first index that is
only looked at below a bound; `StopsAt.eq_of_firstBelow` is how the two meet when the number of
iterations is counted up to a cap.

The second half computes the first index at which an arithmetic progression reaches, passes or
meets a threshold.
-/

namespace UniJit.Lib

/-- A loop of `potential` iterations that stops at the first one where `P` holds begins `n`. -/
def StopsAt (P : Nat → Prop) (potential n : Nat) : Prop :=
  (∃ k < potential, P k ∧ (∀ j < k, ¬P j) ∧ n = k + 1) ∨ (∀ k < potential, ¬P k) ∧ n = potential

/-- Below the bound, `first` is where `P` holds first. -/
def FirstBelow (P : Nat → Prop) (bound first : Nat) : Prop :=
  (first < bound → P first) ∧ ∀ j < first, j < bound → ¬P j

section stopping

variable {P : Nat → Prop} {potential bound first n : Nat}

lemma StopsAt.of_first (h : P 0) (hpotential : 0 < potential) : StopsAt P potential 1 :=
  .inl ⟨0, hpotential, h, by simp, rfl⟩

/-- One step that does not stop is the whole potential. -/
lemma StopsAt.of_last (h : ¬P 0) : StopsAt P 1 1 := by
  refine .inr ⟨fun k hk => ?_, rfl⟩
  obtain rfl : k = 0 := by omega
  exact h

/-- One iteration in front of others. -/
lemma StopsAt.succ (h : ¬P 0) (hrest : StopsAt (fun k => P (k + 1)) potential n) :
    StopsAt P (potential + 1) (n + 1) := by
  rcases hrest with ⟨k, hk, hP, hbefore, rfl⟩ | ⟨hnone, rfl⟩
  · refine .inl ⟨k + 1, by omega, hP, fun j hj => ?_, rfl⟩
    rcases j with - | j
    · exact h
    · exact hbefore j (by omega)
  · refine .inr ⟨fun k hk => ?_, rfl⟩
    rcases k with - | k
    · exact h
    · exact hnone k (by omega)

/-- Stopping depends on the property below the potential only. -/
lemma StopsAt.congr {Q : Nat → Prop} (h : StopsAt P potential n)
    (hPQ : ∀ k < potential, (P k ↔ Q k)) : StopsAt Q potential n := by
  rcases h with ⟨k, hk, hP, hbefore, hn⟩ | ⟨hnone, hn⟩
  · exact .inl ⟨k, hk, (hPQ k hk).mp hP, fun j hj => mt (hPQ j (by omega)).mpr (hbefore j hj), hn⟩
  · exact .inr ⟨fun k hk => mt (hPQ k hk).mpr (hnone k hk), hn⟩

lemma FirstBelow.of_zero (h : P 0) : FirstBelow P bound 0 :=
  ⟨fun _ => h, fun j hj => absurd hj (Nat.not_lt_zero j)⟩

lemma FirstBelow.of_none (h : ∀ j, ¬P j) (hbound : bound ≤ first) : FirstBelow P bound first :=
  ⟨fun hlt => absurd hlt (not_lt.mpr hbound), fun j _ _ => h j⟩

/-- Being first depends on the property only. -/
lemma FirstBelow.congr {Q : Nat → Prop} (h : FirstBelow P bound first) (hPQ : ∀ k, P k ↔ Q k) :
    FirstBelow Q bound first :=
  ⟨fun hlt => (hPQ first).mp (h.1 hlt), fun j hj hlt => mt (hPQ j).mpr (h.2 j hj hlt)⟩

/-- A first index may be cut off anywhere above the bound. -/
lemma FirstBelow.min (h : FirstBelow P bound first) {cap : Nat} (hcap : bound ≤ cap) :
    FirstBelow P bound (min first cap) := by
  constructor
  · intro hlt
    have hmin : Min.min first cap = first := by omega
    rw [hmin] at hlt ⊢
    exact h.1 hlt
  · intro j hj
    exact h.2 j (by omega)

/-- The number of iterations up to a cap, from a first index below that cap. -/
lemma StopsAt.eq_of_firstBelow {cap : Nat} (h : StopsAt P potential n)
    (hfirst : FirstBelow P (Min.min potential cap) first) :
    Min.min n cap =
      if first < Min.min potential cap then first + 1 else Min.min potential cap := by
  split_ifs with hlt
  · have hP := hfirst.1 hlt
    rcases h with ⟨k, hk, hPk, hbefore, rfl⟩ | ⟨hnone, rfl⟩
    · have hle : k ≤ first := by
        by_contra hgt
        exact hbefore first (by omega) hP
      have hge : first ≤ k := by
        by_contra hgt
        exact hfirst.2 k (by omega) (by omega) hPk
      omega
    · exact absurd hP (hnone first (by omega))
  · have hnone : ∀ j < Min.min potential cap, ¬P j := fun j hj => hfirst.2 j (by omega) hj
    rcases h with ⟨k, hk, hPk, hbefore, rfl⟩ | ⟨-, rfl⟩
    · have hge : Min.min potential cap ≤ k := by
        by_contra hgt
        exact hnone k (by omega) hPk
      omega
    · rfl

end stopping

/-! ## Arithmetic progressions -/

section progressions

variable {a : Nat} {s t : Int}

/-- A gap added to its lower end is the upper end. -/
lemma gap_eq (h : s ≤ t) : s + ((t - s).toNat : Int) = t := by
  rw [Int.toNat_of_nonneg (by omega)]
  omega

/-- A progression passes a bound after the whole steps in the gap. -/
lemma lt_progression_iff (ha : 0 < a) (h : s ≤ t) {k : Nat} :
    t < s + k * a ↔ (t - s).toNat / a < k := by
  rw [Nat.div_lt_iff_lt_mul ha, ← Int.ofNat_lt]
  push_cast
  have hgap := gap_eq h
  constructor <;> intro hlt <;> linarith

/-- A progression reaches a bound when its steps fill the gap. -/
lemma le_progression_iff (h : s ≤ t) {k : Nat} :
    t ≤ s + k * a ↔ (t - s).toNat ≤ k * a := by
  rw [← Int.ofNat_le]
  push_cast
  have hgap := gap_eq h
  constructor <;> intro hle <;> linarith

/-- The first term behind a threshold. -/
lemma firstBelow_lt (ha : 0 < a) (h : s ≤ t) (bound : Nat) :
    FirstBelow (fun k => t < s + k * a) bound ((t - s).toNat / a + 1) := by
  constructor
  · intro _
    exact (lt_progression_iff ha h).mpr (Nat.lt_succ_self _)
  · intro j hj _ hlt
    have hquotient := (lt_progression_iff ha h).mp hlt
    omega

/-- The first term that is not in front of a threshold. -/
lemma firstBelow_le (ha : 0 < a) (h : s ≤ t) (bound : Nat) :
    FirstBelow (fun k => t ≤ s + k * a) bound
      ((t - s).toNat / a + if (t - s).toNat % a ≠ 0 then 1 else 0) := by
  set gap := (t - s).toNat with hgap
  have hsplit := Nat.div_add_mod gap a
  have hrest := Nat.mod_lt gap ha
  constructor
  · intro _
    rw [le_progression_iff h, ← hgap, add_mul, mul_comm (gap / a) a]
    split_ifs with hzero
    · omega
    · omega
  · intro j hj _ hle
    rw [le_progression_iff h, ← hgap] at hle
    have hbefore : j * a ≤ gap / a * a := by
      apply Nat.mul_le_mul_right
      split_ifs at hj <;> omega
    rw [mul_comm (gap / a) a] at hbefore
    split_ifs at hj with hzero
    · omega
    · have hle' : (j + 1) * a ≤ gap / a * a := Nat.mul_le_mul_right a (by omega)
      rw [mul_comm (gap / a) a, add_mul] at hle'
      omega

/-- The term that meets a threshold, where one does. -/
lemma firstBelow_eq (ha : 0 < a) (h : s ≤ t) (hdvd : (t - s).toNat % a = 0) (bound : Nat) :
    FirstBelow (fun k => s + k * a = t) bound ((t - s).toNat / a) := by
  have hexact : (t - s).toNat / a * a = (t - s).toNat :=
    Nat.div_mul_cancel (Nat.dvd_of_mod_eq_zero hdvd)
  have hgap := gap_eq h
  constructor
  · intro _
    have hcast : (((t - s).toNat / a : Nat) : Int) * a = (t - s).toNat := by exact_mod_cast hexact
    rw [hcast, hgap]
  · intro j hj _ hmeets
    have hcast : ((j * a : Nat) : Int) = (t - s).toNat := by
      push_cast
      linarith
    have hmul : j * a = (t - s).toNat / a * a := by
      rw [hexact]
      exact_mod_cast hcast
    exact absurd (Nat.eq_of_mul_eq_mul_right ha hmul) (by omega)

/-- A progression misses what is no whole number of steps ahead. -/
lemma progression_ne (h : ¬(s ≤ t ∧ (t - s).toNat % a = 0)) (k : Nat) : s + k * a ≠ t := by
  rintro rfl
  apply h
  have hgap : (s + (k : Int) * a - s).toNat = k * a := by
    have hcast : s + (k : Int) * a - s = ((k * a : Nat) : Int) := by
      push_cast
      ring
    rw [hcast, Int.toNat_natCast]
  have hnonneg : (0 : Int) ≤ (k : Int) * a := by positivity
  exact ⟨by omega, by rw [hgap, Nat.mul_mod_left]⟩

/-- From the threshold itself, the next term misses it. -/
lemma firstBelow_ne (ha : 0 < a) (bound : Nat) :
    FirstBelow (fun k => s + k * a ≠ t) bound (if s ≠ t then 0 else 1) := by
  split_ifs with hne
  · exact .of_zero (by simpa using hne)
  · obtain rfl := not_not.mp hne
    refine ⟨fun _ => ?_, fun j hj _ => ?_⟩
    · have hpos : (0 : Int) < a := by exact_mod_cast ha
      simp
      omega
    · obtain rfl : j = 0 := by omega
      simp

end progressions

end UniJit.Lib
