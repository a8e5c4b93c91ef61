import UniJit.Status
import UniJit.Ir.Function
import UniJit.Lib.Transitions

/-!
# Hotness profiling and tiered code

`TieredCode` is the point where a baseline and its replaceable optimized code are published. The
current tier is an immutable state behind an atomic pointer; publications and withdrawals replace
it under a mutex, and readers take leases on it without one. A `HotnessProfile` counts invocations
and backedges and hands out the claim to optimize.

The model is a transition system. An operation that holds the publication mutex takes two steps:
the first does everything up to the last atomic access that others can observe, the second, which
is `pending` until then, does the rest. In between no other operation can take the mutex, but
leases, counters and failure reports, which do not take it, can come at any time. A failure report
has two steps as well, since it clears the claim before it moves the thresholds.
-/

namespace UniJit.Jit

open Lib Ir

/-! ## Code handles -/

/-- What a published function shows to the tiering code. -/
structure CompiledFunction where
  number : Nat
  parameterTypes : List ValueType
  returnType : ValueType
  assumptions : List Nat
  deriving DecidableEq, Repr

/-- A lease on a compiled function, or no function. -/
structure CodeHandle where
  function : Option CompiledFunction := none
  deriving DecidableEq, Repr

namespace CodeHandle

/-- The handle names a function. -/
def valid (h : CodeHandle) : Bool := h.function.isSome

/-- The number of parameters. -/
def parameterCount (h : CodeHandle) : Nat :=
  match h.function with
  | none => 0
  | some f => f.parameterTypes.length

/-- The type of a parameter. -/
def parameterType (h : CodeHandle) (index : Nat) : ValueType :=
  match h.function with
  | none => .word
  | some f => f.parameterTypes.getD index .word

/-- The type of the result. -/
def returnType (h : CodeHandle) : ValueType :=
  match h.function with
  | none => .word
  | some f => f.returnType

/-- The number of assumptions the code depends on. -/
def assumptionCount (h : CodeHandle) : Nat :=
  match h.function with
  | none => 0
  | some f => f.assumptions.length

/-- No assumption of the function has been invalidated. -/
def assumptionsValid (invalidated : List Nat) (h : CodeHandle) : Bool :=
  match h.function with
  | none => false
  | some f => f.assumptions.all (· ∉ invalidated)

/-- The comparison that `publish_optimized` makes before it accepts a handle. -/
def signatureMatches (optimized baseline : CodeHandle) : Bool :=
  optimized.parameterCount = baseline.parameterCount ∧
    optimized.returnType = baseline.returnType ∧
    ∀ index < optimized.parameterCount,
      optimized.parameterType index = baseline.parameterType index

end CodeHandle

/-! ## Counters and thresholds -/

/-- The largest counter. -/
def maximumUint64 : Nat := 2 ^ 64 - 1

/-- Adds without wrapping. -/
def saturatingAdd (current increment : Nat) : Nat :=
  if maximumUint64 - current < increment then maximumUint64 else current + increment

/-- Moves a threshold up without wrapping. -/
def delayedThreshold (current delay : Nat) : Nat :=
  if maximumUint64 - current < delay then maximumUint64 else current + delay

/-- The next generation, which skips 0. -/
def nextGeneration (current : Nat) : Nat :=
  if current = maximumUint64 then 1 else current + 1

/-- When a function is hot, with the defaults. -/
structure TieringThresholds where
  invocations : Nat := 1000
  backedges : Nat := 10000
  retryDelay : Nat := 1000
  deriving Repr

/-- The counters of a function. -/
structure HotnessProfile where
  thresholds : TieringThresholds
  invocations : Nat := 0
  backedges : Nat := 0
  nextInvocation : Nat
  nextBackedge : Nat
  compilationAttempts : Nat := 0
  successfulCompilations : Nat := 0
  failedCompilations : Nat := 0
  compilationClaimed : Bool := false
  optimizedActive : Bool := false

namespace HotnessProfile

/-- A new profile. -/
def ofThresholds (thresholds : TieringThresholds) : HotnessProfile :=
  { thresholds := thresholds
    nextInvocation := thresholds.invocations
    nextBackedge := thresholds.backedges }

/-- The function may be optimized: a threshold is reached, and no optimized code is active. -/
def hot (p : HotnessProfile) : Bool :=
  !p.optimizedActive &&
    (p.nextInvocation ≤ p.invocations || p.nextBackedge ≤ p.backedges)

/-- Moves both thresholds up. -/
def rearm (p : HotnessProfile) : HotnessProfile :=
  { p with
    nextInvocation := delayedThreshold p.invocations p.thresholds.retryDelay
    nextBackedge := delayedThreshold p.backedges p.thresholds.retryDelay }

/-- Counts an invocation. -/
def recordInvocation (p : HotnessProfile) : HotnessProfile :=
  { p with invocations := saturatingAdd p.invocations 1 }

/-- Counts backedges. -/
def recordBackedges (p : HotnessProfile) (count : Nat) : HotnessProfile :=
  { p with backedges := saturatingAdd p.backedges count }

/-- The compare-and-exchange by which a hot function is claimed. -/
def takeClaim (p : HotnessProfile) : Bool × HotnessProfile :=
  if p.compilationClaimed then (false, p)
  else (true, { p with
    compilationClaimed := true
    compilationAttempts := saturatingAdd p.compilationAttempts 1 })

/-- The compare-and-exchange of a failure report. It asks for no claim in particular. -/
def releaseClaim (p : HotnessProfile) : Except Status HotnessProfile :=
  if p.compilationClaimed then .ok { p with compilationClaimed := false }
  else .error ⟨.invalidArgument, "no optimization compilation is currently claimed", 0⟩

/-- What a failure report does after it has released the claim. -/
def accountFailure (p : HotnessProfile) : HotnessProfile :=
  { p with failedCompilations := saturatingAdd p.failedCompilations 1 }.rearm

/-- What a new baseline makes of the profile. -/
def resetForBaseline (p : HotnessProfile) : HotnessProfile :=
  { p with
    invocations := 0
    backedges := 0
    nextInvocation := p.thresholds.invocations
    nextBackedge := p.thresholds.backedges
    compilationClaimed := false
    optimizedActive := false }

/-- What optimized code makes of the profile. -/
def markOptimized (p : HotnessProfile) : HotnessProfile :=
  { p with
    compilationClaimed := false
    successfulCompilations :=
      if p.compilationClaimed then saturatingAdd p.successfulCompilations 1
      else p.successfulCompilations
    optimizedActive := true }

/-- What a withdrawal makes of the profile. -/
def markDeoptimized (p : HotnessProfile) : HotnessProfile :=
  { p with optimizedActive := false, compilationClaimed := false }.rearm

end HotnessProfile

/-! ## The tiers -/

/-- The tiers of code. -/
inductive CodeTier
  | none
  | baseline
  | optimized
  deriving DecidableEq, Repr

/-- One published tier, with the state that a withdrawal puts in its place. -/
structure TierState where
  baseline : CodeHandle
  active : CodeHandle
  tier : CodeTier
  generation : Nat
  fallback : Option TierState

/-- A lease: the handle, tier and generation that a reader found. -/
structure TieredCodeSnapshot where
  handle : CodeHandle := {}
  tier : CodeTier := .none
  generation : Nat := 0
  deriving DecidableEq, Repr

/-- What the thread that holds the publication mutex has still to do. -/
inductive Pending
  | reset
  | install (state : TierState)
  | deoptimize
  | takeClaim (client : Nat)

/-- The code of a function with its profile and counters. -/
structure TieredCode where
  state : Option TierState := none
  hotness : HotnessProfile
  promotions : Nat := 0
  withdrawals : Nat := 0
  invalidated : List Nat := []
  pending : Option Pending := none
  failuresToAccount : Nat := 0
  leases : List TieredCodeSnapshot := []

namespace TieredCode

/-- A function without code. -/
def ofThresholds (thresholds : TieringThresholds) : TieredCode :=
  { hotness := .ofThresholds thresholds }

/-- The generation that a reader finds, zero before the first publication. -/
def generation (c : TieredCode) : Nat :=
  match c.state with
  | none => 0
  | some state => state.generation

/-- `publish_baseline` up to the store of the new state. -/
def publishBaseline (c : TieredCode) (baseline : CodeHandle) (allocates : Bool) :
    Except Status TieredCode :=
  if !baseline.valid then
    .error ⟨.invalidArgument, "tiered baseline must contain a valid code handle", 0⟩
  else if baseline.assumptionCount ≠ 0 then
    .error ⟨.invalidArgument, "tiered baseline cannot depend on speculative assumptions", 0⟩
  else if !allocates then
    .error ⟨.resourceExhausted, "unable to publish tiered baseline state", 0⟩
  else .ok { c with
    state := some {
      baseline := baseline
      active := baseline
      tier := .baseline
      generation := nextGeneration c.generation
      fallback := none }
    pending := some .reset }

/-- The state that a withdrawal of optimized code puts in its place. -/
def fallbackState (previous : TierState) : TierState :=
  { baseline := previous.baseline
    active := previous.baseline
    tier := .baseline
    generation := nextGeneration (nextGeneration previous.generation)
    fallback := none }

/-- The state that optimized code is published with. -/
def optimizedState (previous : TierState) (optimized : CodeHandle) : TierState :=
  { baseline := previous.baseline
    active := optimized
    tier := .optimized
    generation := nextGeneration previous.generation
    fallback := some (fallbackState previous) }

/-- `publish_optimized` up to the store of the new state: the accounting comes first, so that no
reader finds optimized code with a partial promotion. -/
def publishOptimized (c : TieredCode) (optimized : CodeHandle) (expectedGeneration : Nat)
    (allocates : Bool) : Except Status TieredCode :=
  if !optimized.valid then
    .error ⟨.invalidArgument, "optimized tier must contain a valid code handle", 0⟩
  else if !optimized.assumptionsValid c.invalidated then
    .error ⟨.invalidArgument, "optimized tier contains an invalidated assumption", 0⟩
  else
    match c.state with
    | none => .error ⟨.invalidArgument, "an optimized tier requires a published baseline", 0⟩
    | some previous =>
        if !previous.baseline.valid then
          .error ⟨.invalidArgument, "an optimized tier requires a published baseline", 0⟩
        else if expectedGeneration ≠ 0 ∧ previous.generation ≠ expectedGeneration then
          .error ⟨.invalidArgument, "tiered generation changed during optimized compilation", 0⟩
        else if !optimized.signatureMatches previous.baseline then
          .error ⟨.invalidArgument, "optimized and baseline signatures do not match", 0⟩
        else if !allocates then
          .error ⟨.resourceExhausted, "unable to publish optimized tier state", 0⟩
        else .ok { c with
          promotions := saturatingAdd c.promotions 1
          hotness := c.hotness.markOptimized
          pending := some (.install (optimizedState previous optimized)) }

/-- `withdraw_optimized` up to the store of the retained state, or `none` when it returns false. -/
def withdrawOptimized (c : TieredCode) (expectedGeneration : Nat) : Option TieredCode :=
  match c.state with
  | none => none
  | some previous =>
      match previous.tier, previous.fallback with
      | .optimized, some fallback =>
          if expectedGeneration ≠ 0 ∧ previous.generation ≠ expectedGeneration then none
          else some { c with
            state := some fallback
            withdrawals := saturatingAdd c.withdrawals 1
            pending := some .deoptimize }
      | _, _ => none

/-- `try_begin_optimization` up to the compare-and-exchange, or `none` when it returns false. -/
def beginClaim (c : TieredCode) (client : Nat) : Option TieredCode :=
  match c.state with
  | none => none
  | some current =>
      if current.tier = .baseline ∧ c.hotness.hot = true then
        some { c with pending := some (.takeClaim client) }
      else none

/-- The rest of the operation that holds the mutex. -/
def finish (c : TieredCode) : Option TieredCode :=
  match c.pending with
  | none => none
  | some .reset => some { c with hotness := c.hotness.resetForBaseline, pending := none }
  | some (.install state) => some { c with state := some state, pending := none }
  | some .deoptimize => some { c with hotness := c.hotness.markDeoptimized, pending := none }
  | some (.takeClaim _) => some { c with hotness := c.hotness.takeClaim.2, pending := none }

/-- Gives the claim back and moves the thresholds up. -/
def reportOptimizationFailure (c : TieredCode) : Except Status TieredCode :=
  match c.hotness.releaseClaim with
  | .error status => .error status
  | .ok hotness =>
      .ok { c with hotness := hotness, failuresToAccount := c.failuresToAccount + 1 }

/-- One failure report gets to its accounting. -/
def accountFailure (c : TieredCode) : Option TieredCode :=
  if c.failuresToAccount = 0 then none
  else some { c with
    hotness := c.hotness.accountFailure
    failuresToAccount := c.failuresToAccount - 1 }

/-- What a caller sees of the code. -/
def snapshot (c : TieredCode) : TieredCodeSnapshot :=
  match c.state with
  | none => {}
  | some state => ⟨state.active, state.tier, state.generation⟩

end TieredCode

/-- What the threads of the process can do next. -/
inductive TieringEvent
  | publishBaseline (baseline : CodeHandle) (allocates : Bool)
  | publishOptimized (optimized : CodeHandle) (expectedGeneration : Nat) (allocates : Bool)
  | withdraw (expectedGeneration : Nat)
  | claim (client : Nat)
  | finish
  | reportFailure
  | accountFailure
  | lease
  | recordInvocation
  | recordBackedges (count : Nat)
  | invalidate (assumption : Nat)

namespace TieredCode

/-- An operation that takes the publication mutex waits for it, and changes nothing when it is
rejected. -/
def underMutex (c : TieredCode) (result : Option TieredCode) : Option TieredCode :=
  if c.pending.isSome then none else some (result.getD c)

/-- One atomic section. -/
def step (c : TieredCode) : TieringEvent → Option TieredCode
  | .publishBaseline baseline allocates =>
      c.underMutex (c.publishBaseline baseline allocates).toOption
  | .publishOptimized optimized expectedGeneration allocates =>
      c.underMutex (c.publishOptimized optimized expectedGeneration allocates).toOption
  | .withdraw expectedGeneration => c.underMutex (c.withdrawOptimized expectedGeneration)
  | .claim client => c.underMutex (c.beginClaim client)
  | .finish => c.finish
  | .reportFailure => some (c.reportOptimizationFailure.toOption.getD c)
  | .accountFailure => c.accountFailure
  | .lease => some { c with leases := c.leases ++ [c.snapshot] }
  | .recordInvocation => some { c with hotness := c.hotness.recordInvocation }
  | .recordBackedges count => some { c with hotness := c.hotness.recordBackedges count }
  | .invalidate assumption => some { c with invalidated := assumption :: c.invalidated }

/-! ## What the operations do to the tiers -/

/-- What a published baseline has changed. -/
lemma publishBaseline_eq_ok {c c' : TieredCode} {baseline : CodeHandle} {allocates : Bool}
    (h : c.publishBaseline baseline allocates = .ok c') :
    c' = { c with
      state := some ⟨baseline, baseline, .baseline, nextGeneration c.generation, none⟩
      pending := some .reset } := by
  unfold publishBaseline at h
  split_ifs at h
  simpa [eq_comm] using h

/-- What published optimized code has checked and changed. -/
lemma publishOptimized_eq_ok {c c' : TieredCode} {optimized : CodeHandle} {expected : Nat}
    {allocates : Bool} (h : c.publishOptimized optimized expected allocates = .ok c') :
    ∃ previous, c.state = some previous ∧
      (expected = 0 ∨ expected = previous.generation) ∧
      optimized.signatureMatches previous.baseline = true ∧
      c' = { c with
        promotions := saturatingAdd c.promotions 1
        hotness := c.hotness.markOptimized
        pending := some (.install (optimizedState previous optimized)) } := by
  cases hstate : c.state with
  | none =>
      simp only [publishOptimized, hstate] at h
      split_ifs at h
  | some previous =>
      simp only [publishOptimized, hstate] at h
      split_ifs at h with _ _ _ hgeneration hsignature _
      refine ⟨previous, rfl, by omega, by simpa using hsignature, ?_⟩
      simpa [eq_comm, hstate] using h

/-- What a withdrawal has checked and changed. -/
lemma withdrawOptimized_eq_some {c c' : TieredCode} {expected : Nat}
    (h : c.withdrawOptimized expected = some c') :
    ∃ previous fallback, c.state = some previous ∧ previous.tier = .optimized ∧
      previous.fallback = some fallback ∧
      (expected = 0 ∨ expected = previous.generation) ∧
      c' = { c with
        state := some fallback
        withdrawals := saturatingAdd c.withdrawals 1
        pending := some .deoptimize } := by
  unfold withdrawOptimized at h
  cases hstate : c.state with
  | none => simp [hstate] at h
  | some previous =>
      simp only [hstate] at h
      split at h
      · rename_i fallback htier hfallback
        split_ifs at h with h₁
        refine ⟨previous, fallback, rfl, htier, hfallback, by omega, ?_⟩
        simpa [eq_comm] using h
      · contradiction

/-- What a claim has checked and changed. -/
lemma beginClaim_eq_some {c c' : TieredCode} {client : Nat} (h : c.beginClaim client = some c') :
    ∃ current, c.state = some current ∧ current.tier = .baseline ∧
      c' = { c with pending := some (.takeClaim client) } := by
  unfold beginClaim at h
  cases hstate : c.state with
  | none => simp [hstate] at h
  | some current =>
      simp only [hstate] at h
      split_ifs at h with hclaim
      exact ⟨current, rfl, hclaim.1, by simpa [eq_comm] using h⟩

/-- A step either leaves the tier as it is, or is one of the three that replace it: a baseline is
published, optimized code that the mutex holder prepared is installed, or it is withdrawn. -/
lemma step_cases {c c' : TieredCode} {e : TieringEvent} (h : c.step e = some c') :
    (c'.state = c.state ∧ (c'.pending = c.pending ∨ c'.pending = none ∨
        (∃ client, c'.pending = some (.takeClaim client)) ∨
        ∃ previous optimized, c.state = some previous ∧
          optimized.signatureMatches previous.baseline = true ∧
          c'.pending = some (.install (optimizedState previous optimized)))) ∨
      (c'.pending = some .reset ∧ ∃ baseline,
        c'.state = some ⟨baseline, baseline, .baseline, nextGeneration c.generation, none⟩) ∨
      (c'.pending = none ∧ ∃ state, c.pending = some (.install state) ∧ c'.state = some state) ∨
      (c'.pending = some .deoptimize ∧ ∃ previous fallback, c.state = some previous ∧
        previous.tier = .optimized ∧ previous.fallback = some fallback ∧
        c'.state = some fallback) := by
  cases e with
  | publishBaseline baseline allocates =>
      simp only [step, underMutex] at h
      split_ifs at h
      cases hrun : c.publishBaseline baseline allocates with
      | error status =>
          obtain rfl : c = c' := by simpa [hrun, Except.toOption] using h
          exact .inl ⟨rfl, .inl rfl⟩
      | ok next =>
          obtain rfl : next = c' := by simpa [hrun, Except.toOption] using h
          obtain rfl := publishBaseline_eq_ok hrun
          exact .inr (.inl ⟨rfl, baseline, rfl⟩)
  | publishOptimized optimized expected allocates =>
      simp only [step, underMutex] at h
      split_ifs at h
      cases hrun : c.publishOptimized optimized expected allocates with
      | error status =>
          obtain rfl : c = c' := by simpa [hrun, Except.toOption] using h
          exact .inl ⟨rfl, .inl rfl⟩
      | ok next =>
          obtain rfl : next = c' := by simpa [hrun, Except.toOption] using h
          obtain ⟨previous, hprevious, -, hsignature, rfl⟩ := publishOptimized_eq_ok hrun
          exact .inl ⟨rfl, .inr (.inr (.inr ⟨previous, optimized, hprevious, hsignature, rfl⟩))⟩
  | withdraw expected =>
      simp only [step, underMutex] at h
      split_ifs at h
      cases hrun : c.withdrawOptimized expected with
      | none =>
          obtain rfl : c = c' := by simpa [hrun] using h
          exact .inl ⟨rfl, .inl rfl⟩
      | some next =>
          obtain rfl : next = c' := by simpa [hrun] using h
          obtain ⟨previous, fallback, hprevious, htier, hfallback, -, rfl⟩ :=
            withdrawOptimized_eq_some hrun
          exact .inr (.inr (.inr ⟨rfl, previous, fallback, hprevious, htier, hfallback, rfl⟩))
  | claim client =>
      simp only [step, underMutex] at h
      split_ifs at h
      cases hrun : c.beginClaim client with
      | none =>
          obtain rfl : c = c' := by simpa [hrun] using h
          exact .inl ⟨rfl, .inl rfl⟩
      | some next =>
          obtain rfl : next = c' := by simpa [hrun] using h
          obtain ⟨current, -, -, rfl⟩ := beginClaim_eq_some hrun
          exact .inl ⟨rfl, .inr (.inr (.inl ⟨client, rfl⟩))⟩
  | finish =>
      simp only [step, finish] at h
      cases hpending : c.pending with
      | none => simp [hpending] at h
      | some rest =>
          cases rest with
          | install state =>
              obtain rfl : _ = c' := by simpa [hpending] using h
              exact .inr (.inr (.inl ⟨rfl, state, rfl, rfl⟩))
          | reset | deoptimize | takeClaim _ =>
              obtain rfl : _ = c' := by simpa [hpending] using h
              exact .inl ⟨rfl, .inr (.inl rfl)⟩
  | reportFailure =>
      simp only [step, reportOptimizationFailure] at h
      cases hrun : c.hotness.releaseClaim with
      | error status =>
          obtain rfl : c = c' := by simpa [hrun, Except.toOption] using h
          exact .inl ⟨rfl, .inl rfl⟩
      | ok hotness =>
          obtain rfl : _ = c' := by simpa [hrun, Except.toOption] using h
          exact .inl ⟨rfl, .inl rfl⟩
  | accountFailure =>
      simp only [step, accountFailure] at h
      split_ifs at h
      obtain rfl := Option.some.inj h
      exact .inl ⟨rfl, .inl rfl⟩
  | lease | recordInvocation | recordBackedges _ | invalidate _ =>
      obtain rfl := Option.some.inj h
      exact .inl ⟨rfl, .inl rfl⟩

/-! ## Generation safety -/

/-- The state that withdrawing `state` restores: its own baseline, one generation later. -/
def retainedBaseline (state : TierState) : TierState :=
  ⟨state.baseline, state.baseline, .baseline, nextGeneration state.generation, none⟩

/-- Optimized code carries the baseline it was built from as its fallback, with one signature. -/
structure TierSafe (c : TieredCode) : Prop where
  fallback : ∀ state, c.state = some state → state.tier = .optimized →
    state.fallback = some (retainedBaseline state)
  signature : ∀ state, c.state = some state → state.tier = .optimized →
    state.active.signatureMatches state.baseline = true

/-- What the mutex holder has prepared fits the state that it is going to replace. -/
structure TierConsistent (c : TieredCode) : Prop extends TierSafe c where
  prepared : ∀ state, c.pending = some (.install state) → ∃ previous optimized,
    c.state = some previous ∧ optimized.signatureMatches previous.baseline = true ∧
      state = optimizedState previous optimized

/-- A function without code is consistent. -/
lemma tierConsistent_ofThresholds (thresholds : TieringThresholds) :
    TierConsistent (ofThresholds thresholds) where
  fallback := by simp [ofThresholds]
  signature := by simp [ofThresholds]
  prepared := by simp [ofThresholds]

/-- A baseline tier needs no fallback. -/
lemma tierSafe_of_baseline {c : TieredCode} {state : TierState} (hstate : c.state = some state)
    (htier : state.tier = .baseline) : TierSafe c := by
  have hnot : ∀ other, c.state = some other → other.tier ≠ .optimized := by
    intro other hother
    obtain rfl : state = other := by simpa [hstate] using hother
    rw [htier]
    decide
  exact ⟨fun other hother h => absurd h (hnot other hother),
    fun other hother h => absurd h (hnot other hother)⟩

/-- Every step keeps a function consistent. -/
lemma TierConsistent.step {c c' : TieredCode} {e : TieringEvent} (hc : TierConsistent c)
    (h : c.step e = some c') : TierConsistent c' := by
  rcases step_cases h with ⟨hstate, hpending⟩ | ⟨hpending, baseline, hstate⟩ |
    ⟨hpending, state, hinstall, hstate⟩ |
    ⟨hpending, previous, fallback, hprevious, htier, hfallback, hstate⟩
  · refine ⟨⟨?_, ?_⟩, ?_⟩
    · rw [hstate]
      exact hc.fallback
    · rw [hstate]
      exact hc.signature
    · intro state hinstall
      rw [hstate]
      rcases hpending with hpending | hpending | ⟨client, hpending⟩ |
        ⟨previous, optimized, hprevious, hsignature, hpending⟩
      · exact hc.prepared state (hpending ▸ hinstall)
      · simp [hpending] at hinstall
      · simp [hpending] at hinstall
      · refine ⟨previous, optimized, hprevious, hsignature, ?_⟩
        simpa [hpending, eq_comm] using hinstall
  · exact ⟨tierSafe_of_baseline hstate rfl, by simp [hpending]⟩
  · obtain ⟨previous, optimized, -, hsignature, rfl⟩ := hc.prepared state hinstall
    refine ⟨⟨?_, ?_⟩, by simp [hpending]⟩
    · intro state hcurrent _
      obtain rfl : optimizedState previous optimized = state := by simpa [hstate] using hcurrent
      rfl
    · intro state hcurrent _
      obtain rfl : optimizedState previous optimized = state := by simpa [hstate] using hcurrent
      exact hsignature
  · have hretained := hc.fallback previous hprevious htier
    obtain rfl : retainedBaseline previous = fallback := by simpa [hretained] using hfallback
    exact ⟨tierSafe_of_baseline hstate rfl, by simp [hpending]⟩

/-- What one step can do to the current tier. -/
structure TierStep (c : TieredCode) (e : TieringEvent) (c' : TieredCode) : Prop where
  generation : c'.state = c.state ∨ (c'.generation = nextGeneration c.generation ∧
    (c.generation < maximumUint64 → c'.generation = c.generation + 1))
  built : ∀ state, c'.state = some state → state.tier = .optimized →
    ∃ previous, c.state = some previous ∧ state.baseline = previous.baseline
  stalePublication : ∀ optimized expected allocates,
    e = .publishOptimized optimized expected allocates → expected ≠ 0 → expected ≠ c.generation →
    c' = c
  staleWithdrawal : ∀ expected, e = .withdraw expected → expected ≠ 0 →
    expected ≠ c.generation → c' = c
  withdrawal : ∀ expected, e = .withdraw expected → ∀ previous, c.state = some previous →
    previous.tier = .optimized → (expected = 0 ∨ expected = previous.generation) →
    c'.state = some (retainedBaseline previous)

/-- Below its end the generation grows by one. -/
lemma nextGeneration_of_lt {generation : Nat} (h : generation < maximumUint64) :
    nextGeneration generation = generation + 1 :=
  if_neg (by omega)

/-- A step keeps the code or gives it the next generation. -/
lemma TierConsistent.generation_step {c c' : TieredCode} {e : TieringEvent}
    (hc : TierConsistent c) (h : c.step e = some c') :
    c'.state = c.state ∨ c'.generation = nextGeneration c.generation := by
  rcases step_cases h with ⟨hstate, -⟩ | ⟨-, baseline, hstate⟩ |
    ⟨-, state, hinstall, hstate⟩ | ⟨-, previous, fallback, hprevious, htier, hfallback, hstate⟩
  · exact .inl hstate
  · right
    simp [TieredCode.generation, hstate]
  · right
    obtain ⟨previous, optimized, hprevious, -, rfl⟩ := hc.prepared state hinstall
    simp [TieredCode.generation, hstate, hprevious, optimizedState]
  · right
    have hretained := hc.fallback previous hprevious htier
    obtain rfl : retainedBaseline previous = fallback := by simpa [hretained] using hfallback
    simp [TieredCode.generation, hstate, hprevious, retainedBaseline]

/-- Optimized code has the baseline of the state it was published over. -/
lemma TierConsistent.built_step {c c' : TieredCode} {e : TieringEvent} (hc : TierConsistent c)
    (h : c.step e = some c') {state : TierState} (hcurrent : c'.state = some state)
    (htier : state.tier = .optimized) :
    ∃ previous, c.state = some previous ∧ state.baseline = previous.baseline := by
  rcases step_cases h with ⟨hstate, -⟩ | ⟨-, baseline, hstate⟩ |
    ⟨-, installed, hinstall, hstate⟩ |
    ⟨-, previous, fallback, hprevious, hoptimized, hfallback, hstate⟩
  · exact ⟨state, hstate ▸ hcurrent, rfl⟩
  · obtain rfl := Option.some.inj (hstate.symm.trans hcurrent)
    contradiction
  · obtain rfl := Option.some.inj (hstate.symm.trans hcurrent)
    obtain ⟨previous, optimized, hprevious, -, rfl⟩ := hc.prepared installed hinstall
    exact ⟨previous, hprevious, rfl⟩
  · have hretained := hc.fallback previous hprevious hoptimized
    obtain rfl : retainedBaseline previous = fallback := by simpa [hretained] using hfallback
    obtain rfl := Option.some.inj (hstate.symm.trans hcurrent)
    contradiction

/-- A publication that quotes another generation is rejected. -/
lemma stale_publication {c c' : TieredCode} {optimized : CodeHandle} {expected : Nat}
    {allocates : Bool} (h : c.step (.publishOptimized optimized expected allocates) = some c')
    (hzero : expected ≠ 0) (hstale : expected ≠ c.generation) : c' = c := by
  simp only [step, underMutex] at h
  split_ifs at h
  cases hrun : c.publishOptimized optimized expected allocates with
  | error status => simpa [hrun, Except.toOption, eq_comm] using h
  | ok next =>
      obtain ⟨previous, hprevious, hexpected, -, -⟩ := publishOptimized_eq_ok hrun
      simp only [TieredCode.generation, hprevious] at hstale
      omega

/-- A withdrawal that quotes another generation does nothing. -/
lemma stale_withdrawal {c c' : TieredCode} {expected : Nat}
    (h : c.step (.withdraw expected) = some c') (hzero : expected ≠ 0)
    (hstale : expected ≠ c.generation) : c' = c := by
  simp only [step, underMutex] at h
  split_ifs at h
  cases hrun : c.withdrawOptimized expected with
  | none => simpa [hrun, eq_comm] using h
  | some next =>
      obtain ⟨previous, fallback, hprevious, -, -, hexpected, -⟩ := withdrawOptimized_eq_some hrun
      simp only [TieredCode.generation, hprevious] at hstale
      omega

/-- A withdrawal of the current generation goes back to the baseline that was kept. -/
lemma TierConsistent.withdrawal {c c' : TieredCode} {expected : Nat} (hc : TierConsistent c)
    (h : c.step (.withdraw expected) = some c') {previous : TierState}
    (hprevious : c.state = some previous) (htier : previous.tier = .optimized)
    (hexpected : expected = 0 ∨ expected = previous.generation) :
    c'.state = some (retainedBaseline previous) := by
  have hretained := hc.fallback previous hprevious htier
  have hmatch : ¬(expected ≠ 0 ∧ previous.generation ≠ expected) := by omega
  simp only [TieredCode.step, underMutex] at h
  split_ifs at h
  simp only [withdrawOptimized, hprevious, htier, hretained, if_neg hmatch, Option.getD_some,
    Option.some.injEq] at h
  rw [← h]

/-- **Generation safety of tiered code**: for every interleaving of publications, claims, failure
reports, withdrawals and leases, optimized code carries its own baseline as fallback under one
signature, and every step moves the generation by one or not at all, ignores requests that quote
another generation, and restores exactly the retained baseline when it withdraws. -/
theorem tiering_safe {thresholds : TieringThresholds} {events : List TieringEvent}
    {c : TieredCode}
    (run : Transitions.afterEvents step (ofThresholds thresholds) events = some c) :
    TierSafe c ∧ ∀ (e : TieringEvent) (c' : TieredCode), c.step e = some c' → TierStep c e c' := by
  have hc : TierConsistent c := Transitions.invariant (fun _ _ _ hc h => hc.step h)
    (tierConsistent_ofThresholds thresholds) run
  refine ⟨hc.toTierSafe, fun e c' h => ⟨?_, ?_, ?_, ?_, ?_⟩⟩
  · rcases hc.generation_step h with hsame | hnext
    · exact .inl hsame
    · exact .inr ⟨hnext, fun hlt => hnext.trans (nextGeneration_of_lt hlt)⟩
  · exact fun state hstate htier => hc.built_step h hstate htier
  · rintro optimized expected allocates rfl hzero hstale
    exact stale_publication h hzero hstale
  · rintro expected rfl hzero hstale
    exact stale_withdrawal h hzero hstale
  · rintro expected rfl previous hprevious htier hexpected
    exact hc.withdrawal h hprevious htier hexpected

/-- A function of one word. -/
def sampleHandle (number : Nat) (assumptions : List Nat) : CodeHandle :=
  ⟨some ⟨number, [.word], .word, assumptions⟩⟩

/-- A run that publishes a baseline, then optimized code, and leases it is safe. -/
theorem tiering_safe_sample :
    ∃ c, Transitions.afterEvents step (ofThresholds {})
        [.publishBaseline (sampleHandle 1 []) true, .finish,
          .publishOptimized (sampleHandle 2 [7]) 1 true, .finish, .lease] = some c ∧
      TierSafe c := by
  have hrun : ∃ c, Transitions.afterEvents step (ofThresholds {})
      [.publishBaseline (sampleHandle 1 []) true, .finish,
        .publishOptimized (sampleHandle 2 [7]) 1 true, .finish, .lease] = some c := ⟨_, rfl⟩
  obtain ⟨c, hc⟩ := hrun
  exact ⟨c, hc, (tiering_safe hc).1⟩

end TieredCode

end UniJit.Jit
