import UniJit.Jit.Tiering

/-!
# Accounting of hotness profiles

A hotness profile by itself, without the tiered code around it: its operations taken one at a
time, in any order and from any thresholds. Clearing the claim without settling it, as replacing
the baseline and withdrawing optimized code do, leaves an attempt that never counts as a success or
a failure. So the settled attempts and the one under way never exceed the attempts, as long as the
count of these is exact.

`HotnessStep` says what one operation does to the active tier and to each counter and threshold.
The counters saturate, and a threshold that is re-armed is the count at that time plus the delay,
cut off where the count ends.
-/

namespace UniJit.Jit

/-- The operations on a hotness profile. -/
inductive HotnessOperation
  | recordInvocation
  | recordBackedges (count : Nat)
  | tryBeginOptimization
  | reportOptimizationFailure
  | markOptimized
  | markDeoptimized
  | resetForBaseline
  deriving DecidableEq, Repr

namespace HotnessProfile

/-- Takes the claim when the function is hot and nobody has it. -/
def tryBeginOptimization (p : HotnessProfile) : Bool × HotnessProfile :=
  if p.hot then p.takeClaim else (false, p)

/-- Gives the claim back, counts a failure and moves the thresholds up. -/
def reportOptimizationFailure (p : HotnessProfile) : Except Status HotnessProfile := do
  let released ← p.releaseClaim
  pure released.accountFailure

/-- The profile after an operation; a failure report that is rejected changes nothing. -/
def apply (p : HotnessProfile) : HotnessOperation → HotnessProfile
  | .recordInvocation => p.recordInvocation
  | .recordBackedges count => p.recordBackedges count
  | .tryBeginOptimization => p.tryBeginOptimization.2
  | .reportOptimizationFailure => p.reportOptimizationFailure.toOption.getD p
  | .markOptimized => p.markOptimized
  | .markDeoptimized => p.markDeoptimized
  | .resetForBaseline => p.resetForBaseline

/-- The profile after a sequence of operations. -/
def applyAll (p : HotnessProfile) (operations : List HotnessOperation) : HotnessProfile :=
  operations.foldl apply p

/-! ## Saturating arithmetic -/

/-- Saturated addition is the sum, cut off. -/
lemma saturatingAdd_eq_min {current : Nat} (increment : Nat) (h : current ≤ maximumUint64) :
    saturatingAdd current increment = min (current + increment) maximumUint64 := by
  unfold saturatingAdd
  split_ifs <;> omega

/-- A delayed threshold is the sum, cut off. -/
lemma delayedThreshold_eq_min {current : Nat} (delay : Nat) (h : current ≤ maximumUint64) :
    delayedThreshold current delay = min (current + delay) maximumUint64 := by
  unfold delayedThreshold
  split_ifs <;> omega

/-! ## The invariant -/

/-- What a profile shows at any time. -/
structure Accounted (p : HotnessProfile) : Prop where
  attempts : p.compilationAttempts < maximumUint64 →
    p.successfulCompilations + p.failedCompilations + p.compilationClaimed.toNat ≤
      p.compilationAttempts
  invocations : p.invocations ≤ maximumUint64
  backedges : p.backedges ≤ maximumUint64
  compilationAttempts : p.compilationAttempts ≤ maximumUint64
  successfulCompilations : p.successfulCompilations ≤ maximumUint64
  failedCompilations : p.failedCompilations ≤ maximumUint64
  nextInvocation : p.nextInvocation = p.thresholds.invocations ∨ p.nextInvocation ≤ maximumUint64
  nextBackedge : p.nextBackedge = p.thresholds.backedges ∨ p.nextBackedge ≤ maximumUint64

/-- A new profile is accounted. -/
lemma accounted_ofThresholds (thresholds : TieringThresholds) :
    Accounted (ofThresholds thresholds) where
  attempts := by simp [ofThresholds]
  invocations := Nat.zero_le _
  backedges := Nat.zero_le _
  compilationAttempts := Nat.zero_le _
  successfulCompilations := Nat.zero_le _
  failedCompilations := Nat.zero_le _
  nextInvocation := .inl rfl
  nextBackedge := .inl rfl

variable {p : HotnessProfile}

/-- Moving the thresholds keeps the accounts. -/
lemma Accounted.rearm (hp : Accounted p) : Accounted p.rearm where
  __ := hp
  nextInvocation := by
    right
    simp only [HotnessProfile.rearm, delayedThreshold_eq_min _ hp.invocations]
    exact min_le_right _ _
  nextBackedge := by
    right
    simp only [HotnessProfile.rearm, delayedThreshold_eq_min _ hp.backedges]
    exact min_le_right _ _

/-- Taking the claim keeps the accounts. -/
lemma Accounted.takeClaim (hp : Accounted p) : Accounted p.takeClaim.2 := by
  unfold HotnessProfile.takeClaim
  split
  · exact hp
  next hfree =>
    have hunclaimed : p.compilationClaimed = false := by simpa using hfree
    have hattempts := hp.attempts
    have hbound := hp.compilationAttempts
    refine { hp with attempts := ?_, compilationAttempts := ?_ }
    · simp only [saturatingAdd_eq_min 1 hbound, Bool.toNat_true]
      simp only [hunclaimed, Bool.toNat_false] at hattempts
      omega
    · simp only [saturatingAdd_eq_min 1 hbound]
      exact min_le_right _ _

/-- Giving the claim back as a failure keeps the accounts. -/
lemma Accounted.releaseClaim (hp : Accounted p) {released : HotnessProfile}
    (h : p.releaseClaim = .ok released) : Accounted released.accountFailure := by
  unfold HotnessProfile.releaseClaim at h
  split_ifs at h with hclaimed
  obtain rfl := Except.ok.inj h
  have hattempts := hp.attempts
  have hbound := hp.failedCompilations
  apply Accounted.rearm
  refine { hp with attempts := ?_, failedCompilations := ?_ }
  · simp only [saturatingAdd_eq_min 1 hbound, Bool.toNat_false]
    simp only [hclaimed, Bool.toNat_true] at hattempts
    omega
  · simp only [saturatingAdd_eq_min 1 hbound]
    exact min_le_right _ _

/-- A claim that is cleared and not counted leaves room. -/
lemma Accounted.clearClaim (hp : Accounted p) : Accounted { p with compilationClaimed := false } :=
  { hp with
    attempts := by
      have hattempts := hp.attempts
      simp only [Bool.toNat_false]
      omega }

/-- Optimized code keeps the accounts. -/
lemma Accounted.markOptimized (hp : Accounted p) : Accounted p.markOptimized := by
  have hattempts := hp.attempts
  have hbound := hp.successfulCompilations
  refine { hp with attempts := ?_, successfulCompilations := ?_ }
  · simp only [HotnessProfile.markOptimized, saturatingAdd_eq_min 1 hbound, Bool.toNat_false]
    cases hclaimed : p.compilationClaimed with
    | true =>
        simp only [hclaimed, Bool.toNat_true] at hattempts
        simp only [↓reduceIte]
        omega
    | false =>
        simp only [hclaimed, Bool.toNat_false] at hattempts
        simpa using hattempts
  · simp only [HotnessProfile.markOptimized, saturatingAdd_eq_min 1 hbound]
    split_ifs
    · exact min_le_right _ _
    · exact hbound

/-- **Step.** Every operation keeps the accounts. -/
lemma Accounted.apply (hp : Accounted p) (operation : HotnessOperation) :
    Accounted (p.apply operation) := by
  cases operation with
  | recordInvocation =>
      refine { hp with invocations := ?_ }
      simp only [HotnessProfile.apply, HotnessProfile.recordInvocation,
        saturatingAdd_eq_min 1 hp.invocations]
      exact min_le_right _ _
  | recordBackedges count =>
      refine { hp with backedges := ?_ }
      simp only [HotnessProfile.apply, HotnessProfile.recordBackedges,
        saturatingAdd_eq_min count hp.backedges]
      exact min_le_right _ _
  | tryBeginOptimization =>
      simp only [HotnessProfile.apply, HotnessProfile.tryBeginOptimization]
      split_ifs
      · exact hp.takeClaim
      · exact hp
  | reportOptimizationFailure =>
      simp only [HotnessProfile.apply, HotnessProfile.reportOptimizationFailure]
      cases h : p.releaseClaim with
      | error status => exact hp
      | ok released => exact hp.releaseClaim h
  | markOptimized => exact hp.markOptimized
  | markDeoptimized =>
      apply Accounted.rearm
      exact { hp.clearClaim with }
  | resetForBaseline =>
      refine { hp.clearClaim with
        invocations := Nat.zero_le _
        backedges := Nat.zero_le _
        nextInvocation := .inl rfl
        nextBackedge := .inl rfl }

/-! ## What an operation does -/

/-- The operation is granted the claim to optimize. -/
def grants (p : HotnessProfile) (operation : HotnessOperation) : Bool :=
  operation = .tryBeginOptimization ∧ p.tryBeginOptimization.1

/-- The operation settles the claim that is held by counting a success. -/
def succeeds (p : HotnessProfile) (operation : HotnessOperation) : Bool :=
  operation = .markOptimized ∧ p.compilationClaimed

/-- The operation settles the claim that is held by counting a failure. -/
def fails (p : HotnessProfile) (operation : HotnessOperation) : Bool :=
  operation = .reportOptimizationFailure ∧ p.compilationClaimed

/-- The operation moves the thresholds on from the current counts. -/
def rearms (p : HotnessProfile) (operation : HotnessOperation) : Bool :=
  p.fails operation ∨ operation = .markDeoptimized

/-- A threshold after an operation on a profile with this count and current threshold. -/
def thresholdAfter (p : HotnessProfile) (operation : HotnessOperation)
    (configured count current : Nat) : Nat :=
  if p.rearms operation then min (count + p.thresholds.retryDelay) maximumUint64
  else if operation = .resetForBaseline then configured else current

/-- The effect of one operation on the active tier, the claim, the counters and the thresholds. -/
structure HotnessStep (p : HotnessProfile) (operation : HotnessOperation) : Prop where
  thresholds : (p.apply operation).thresholds = p.thresholds
  /-- A success makes the optimized tier active, also without a claim. Only a withdrawal and a new
  baseline end that. -/
  optimizedActive : (p.apply operation).optimizedActive =
    match operation with
    | .markOptimized => true
    | .markDeoptimized => false
    | .resetForBaseline => false
    | _ => p.optimizedActive
  granted : p.grants operation = true →
    p.optimizedActive = false ∧ p.hot = true ∧ p.compilationClaimed = false
  claimed : (p.apply operation).compilationClaimed = true ↔ p.grants operation = true ∨
    (p.compilationClaimed = true ∧ p.succeeds operation = false ∧ p.fails operation = false ∧
      operation ≠ .markDeoptimized ∧ operation ≠ .resetForBaseline)
  compilationAttempts : (p.apply operation).compilationAttempts =
    min (p.compilationAttempts + (p.grants operation).toNat) maximumUint64
  successfulCompilations : (p.apply operation).successfulCompilations =
    min (p.successfulCompilations + (p.succeeds operation).toNat) maximumUint64
  failedCompilations : (p.apply operation).failedCompilations =
    min (p.failedCompilations + (p.fails operation).toNat) maximumUint64
  invocations : (p.apply operation).invocations =
    match operation with
    | .recordInvocation => min (p.invocations + 1) maximumUint64
    | .resetForBaseline => 0
    | _ => p.invocations
  backedges : (p.apply operation).backedges =
    match operation with
    | .recordBackedges count => min (p.backedges + count) maximumUint64
    | .resetForBaseline => 0
    | _ => p.backedges
  nextInvocation : (p.apply operation).nextInvocation =
    p.thresholdAfter operation p.thresholds.invocations p.invocations p.nextInvocation
  nextBackedge : (p.apply operation).nextBackedge =
    p.thresholdAfter operation p.thresholds.backedges p.backedges p.nextBackedge

lemma hot_iff : p.hot = true ↔ p.optimizedActive = false ∧
    (p.nextInvocation ≤ p.invocations ∨ p.nextBackedge ≤ p.backedges) := by
  simp [hot]

/-- **Step.** The effect of an operation, by cases on the operation and on what it tests. -/
lemma hotnessStep (hp : Accounted p) (operation : HotnessOperation) :
    HotnessStep p operation := by
  have hattempts := hp.compilationAttempts
  have hsuccesses := hp.successfulCompilations
  have hfailures := hp.failedCompilations
  cases operation with
  | recordInvocation =>
      have hadd := saturatingAdd_eq_min 1 hp.invocations
      constructor <;>
        simp [apply, grants, succeeds, fails, rearms, thresholdAfter, recordInvocation, *]
  | recordBackedges count =>
      have hadd := saturatingAdd_eq_min count hp.backedges
      constructor <;>
        simp [apply, grants, succeeds, fails, rearms, thresholdAfter, recordBackedges, *]
  | tryBeginOptimization =>
      have hadd := saturatingAdd_eq_min 1 hattempts
      by_cases hclaim : p.hot = true ∧ p.compilationClaimed = false
      · obtain ⟨hhot, hfree⟩ := hclaim
        have hinactive := (hot_iff.mp hhot).1
        constructor <;>
          simp [apply, grants, succeeds, fails, rearms, thresholdAfter, tryBeginOptimization,
            takeClaim, *]
      · have hdenied : p.tryBeginOptimization = (false, p) := by
          unfold tryBeginOptimization takeClaim
          split_ifs <;> simp_all
        constructor <;>
          simp [apply, grants, succeeds, fails, rearms, thresholdAfter, *]
  | reportOptimizationFailure =>
      have hadd := saturatingAdd_eq_min 1 hfailures
      have hinvocation := delayedThreshold_eq_min p.thresholds.retryDelay hp.invocations
      have hbackedge := delayedThreshold_eq_min p.thresholds.retryDelay hp.backedges
      cases hclaimed : p.compilationClaimed <;> constructor <;>
        simp [apply, grants, succeeds, fails, rearms, thresholdAfter, reportOptimizationFailure,
          releaseClaim, accountFailure, rearm, Except.toOption, *]
  | markOptimized =>
      have hadd := saturatingAdd_eq_min 1 hsuccesses
      cases hclaimed : p.compilationClaimed <;> constructor <;>
        simp [apply, grants, succeeds, fails, rearms, thresholdAfter, markOptimized, *]
  | markDeoptimized =>
      have hinvocation := delayedThreshold_eq_min p.thresholds.retryDelay hp.invocations
      have hbackedge := delayedThreshold_eq_min p.thresholds.retryDelay hp.backedges
      constructor <;>
        simp [apply, grants, succeeds, fails, rearms, thresholdAfter, markDeoptimized, rearm, *]
  | resetForBaseline =>
      constructor <;>
        simp [apply, grants, succeeds, fails, rearms, thresholdAfter, resetForBaseline, *]

/-- **Tiering accounting**: after every sequence of operations, from any thresholds, the settled
attempts and the one under way do not exceed the attempts, no counter is past its maximum, and the
profile is hot exactly when the tier is not active and a count has reached its threshold; and every
operation changes the counters and thresholds by saturating sums, is granted a claim only while the
optimized tier is not active, and makes the tier active exactly if it counts or repeats a success. -/
theorem tiering_accounting (thresholds : TieringThresholds) (operations : List HotnessOperation) :
    let p := (ofThresholds thresholds).applyAll operations
    Accounted p ∧ (∀ operation, HotnessStep p operation) ∧
      (p.hot = true ↔ p.optimizedActive = false ∧
        (p.nextInvocation ≤ p.invocations ∨ p.nextBackedge ≤ p.backedges)) := by
  intro p
  have hp : Accounted p := by
    refine List.foldlRecOn operations apply (accounted_ofThresholds thresholds) ?_
    exact fun _ hq operation _ => hq.apply operation
  exact ⟨hp, hotnessStep hp, hot_iff⟩

end HotnessProfile

end UniJit.Jit
