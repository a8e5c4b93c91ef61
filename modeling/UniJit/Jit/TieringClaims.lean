import UniJit.Jit.Tiering

/-!
# Claims to optimize

Compilers that follow the tiering protocol: each claims a hot function, and settles its claim by
publishing optimized code or by reporting a failure, possibly late. `ClaimProtocol` is the tiered
code together with the claims that its clients have not settled yet. A claim is of the current
tier when no publication or withdrawal has replaced the tier since it was taken; `epoch` counts
these replacements, so that the wrap-around of the generation plays no part.

A failure report quotes no generation. A client whose tier has been replaced and who then reports
a failure releases whatever claim is held at that time. As long as no report of that kind meets a
claim of the current tier, at most one client has such a claim; and each one that does breaks it
(`claims_exclusive`).
-/

namespace UniJit.Jit

open Lib

/-- The code, and which clients believe to have the claim. -/
structure ClaimProtocol where
  code : TieredCode
  clients : Nat → Option Nat := fun _ => none
  epoch : Nat := 0

/-- What clients and other threads do. The steps of clients that go to the tiered code are a claim,
a publication of optimized code and a failure report. -/
inductive ProtocolEvent
  | claim (client : Nat)
  | publishOptimized (client : Nat) (optimized : CodeHandle) (expectedGeneration : Nat)
      (allocates : Bool)
  | reportFailure (client : Nat)
  | finish
  | publishBaseline (baseline : CodeHandle) (allocates : Bool)
  | withdraw (expectedGeneration : Nat)
  | accountFailure
  | lease
  | recordInvocation
  | recordBackedges (count : Nat)
  | invalidate (assumption : Nat)

namespace ClaimProtocol

/-- A function without code or clients. -/
def ofThresholds (thresholds : TieringThresholds) : ClaimProtocol :=
  { code := .ofThresholds thresholds }

/-- The client has an unsettled claim of the current tier. -/
def Holds (s : ClaimProtocol) (client : Nat) : Prop := s.clients client = some s.epoch

/-- A step of the tiered code that concerns no client. -/
def background (s : ClaimProtocol) (e : TieringEvent) : Option ClaimProtocol := do
  let code ← s.code.step e
  pure { s with code := code }

/-- Settle the claim of a client. -/
def settle (s : ClaimProtocol) (client : Nat) : ClaimProtocol :=
  { s with clients := Function.update s.clients client none }

/-- One atomic section of a client or of the runtime. -/
def step (s : ClaimProtocol) : ProtocolEvent → Option ClaimProtocol
  | .claim client => if s.clients client = none then s.background (.claim client) else none
  | .publishOptimized client optimized expectedGeneration allocates =>
      if s.code.pending.isSome ∨ s.clients client = none ∨ expectedGeneration = 0 then none
      else
        match s.code.publishOptimized optimized expectedGeneration allocates with
        | .error _ => some s
        | .ok code => some ({ s with code := code }.settle client)
  | .reportFailure client =>
      if s.clients client = none then none
      else do
        let reported ← s.background .reportFailure
        pure (reported.settle client)
  | .finish => do
      let code ← s.code.finish
      match s.code.pending with
      | some (.takeClaim client) =>
          if s.code.hotness.takeClaim.1 then
            pure { s with code := code, clients := Function.update s.clients client (some s.epoch) }
          else pure { s with code := code }
      | some (.install _) => pure { s with code := code, epoch := s.epoch + 1 }
      | _ => pure { s with code := code }
  | .publishBaseline baseline allocates =>
      if s.code.pending.isSome then none
      else
        match s.code.publishBaseline baseline allocates with
        | .error _ => some s
        | .ok code => some { s with code := code, epoch := s.epoch + 1 }
  | .withdraw expectedGeneration =>
      if s.code.pending.isSome then none
      else
        match s.code.withdrawOptimized expectedGeneration with
        | none => some s
        | some code => some { s with code := code, epoch := s.epoch + 1 }
  | .accountFailure => s.background .accountFailure
  | .lease => s.background .lease
  | .recordInvocation => s.background .recordInvocation
  | .recordBackedges count => s.background (.recordBackedges count)
  | .invalidate assumption => s.background (.invalidate assumption)

/-! ## Exclusive claims -/

/-- The mutex holder is going to clear the claim, or has done so already. -/
def Clearing (s : ClaimProtocol) : Prop :=
  s.code.pending = some .reset ∨ s.code.pending = some .deoptimize ∨
    ∃ state, s.code.pending = some (.install state)

/-- At most one client holds a claim of the current tier, and the tiered code knows of it. -/
structure ClaimSafe (s : ClaimProtocol) : Prop where
  exclusive : ∀ i j, s.Holds i → s.Holds j → i = j
  claimed : ¬s.Clearing → ∀ i, s.Holds i → s.code.hotness.compilationClaimed = true

/-- The invariant: the claim is safe, and nobody holds it while a replacement is being finished. -/
structure ClaimConsistent (s : ClaimProtocol) : Prop extends ClaimSafe s where
  taken : ∀ i e, s.clients i = some e → e ≤ s.epoch
  replaced : s.code.pending = some .reset ∨ s.code.pending = some .deoptimize →
    ∀ i, ¬s.Holds i
  installing : ∀ state, s.code.pending = some (.install state) →
    s.code.hotness.compilationClaimed = false

/-- A failure report whose tier has been replaced does not come while a claim of the current tier
is held. -/
def Timely (s : ClaimProtocol) : ProtocolEvent → Prop
  | .reportFailure client => s.clients client ≠ some s.epoch →
      s.code.hotness.compilationClaimed = true → ∀ i, ¬s.Holds i
  | _ => True

/-- At the start the invariant holds. -/
lemma claimConsistent_ofThresholds (thresholds : TieringThresholds) :
    ClaimConsistent (ofThresholds thresholds) where
  exclusive := by simp [ofThresholds, Holds]
  claimed := by simp [ofThresholds, Holds]
  taken := by simp [ofThresholds]
  replaced := by simp [ofThresholds, Holds]
  installing := by simp [ofThresholds, TieredCode.ofThresholds]

/-- Replacing the tier leaves no client with a claim of the current tier. -/
lemma ClaimConsistent.replace {s : ClaimProtocol} (hs : ClaimConsistent s) (code : TieredCode)
    (hpending : ∀ state, code.pending ≠ some (.install state)) :
    ClaimConsistent { s with code := code, epoch := s.epoch + 1 } := by
  have hnone : ∀ i, ¬({ s with code := code, epoch := s.epoch + 1 } : ClaimProtocol).Holds i := by
    intro i hi
    have := hs.taken i (s.epoch + 1) hi
    omega
  refine ⟨⟨fun i _ hi _ => absurd hi (hnone i), fun _ i hi => absurd hi (hnone i)⟩, ?_, ?_, ?_⟩
  · intro i e hi
    have := hs.taken i e hi
    show e ≤ s.epoch + 1
    omega
  · exact fun _ => hnone
  · exact fun state h => absurd h (hpending state)

/-- A step that leaves the mutex, the claim and the clients as they are. -/
lemma ClaimConsistent.keep {s : ClaimProtocol} (hs : ClaimConsistent s) {code : TieredCode}
    (hpending : code.pending = s.code.pending)
    (hclaimed : code.hotness.compilationClaimed = s.code.hotness.compilationClaimed) :
    ClaimConsistent { s with code := code } := by
  refine ⟨⟨hs.exclusive, ?_⟩, hs.taken, ?_, ?_⟩
  · intro hclearing i hi
    show code.hotness.compilationClaimed = true
    rw [hclaimed]
    refine hs.claimed ?_ i hi
    simpa [Clearing, hpending] using hclearing
  · intro hreplaced i hi
    exact hs.replaced (by simpa [hpending] using hreplaced) i hi
  · simpa [hpending, hclaimed] using hs.installing

/-- Settling a claim leaves the others. -/
lemma holds_settle {s : ClaimProtocol} {client i : Nat} :
    (s.settle client).Holds i ↔ i ≠ client ∧ s.Holds i := by
  unfold settle Holds
  by_cases hi : i = client
  · simp [hi]
  · simp [hi]

/-- A client that gives up keeps the invariant. -/
lemma ClaimConsistent.settle {s : ClaimProtocol} (hs : ClaimConsistent s) (client : Nat) :
    ClaimConsistent (s.settle client) := by
  refine ⟨⟨?_, ?_⟩, ?_, ?_, hs.installing⟩
  · intro i j hi hj
    exact hs.exclusive i j (holds_settle.mp hi).2 (holds_settle.mp hj).2
  · intro hclearing i hi
    exact hs.claimed hclearing i (holds_settle.mp hi).2
  · intro i e hi
    unfold ClaimProtocol.settle at hi
    by_cases heq : i = client
    · simp [heq] at hi
    · exact hs.taken i e (by simpa [heq] using hi)
  · intro hpending i hi
    exact hs.replaced hpending i (holds_settle.mp hi).2

/-- A failure report releases the claim that is held, whosever it is. -/
lemma background_reportFailure {s s' : ClaimProtocol} (h : s.background .reportFailure = some s') :
    s'.clients = s.clients ∧ s'.epoch = s.epoch ∧ s'.code.pending = s.code.pending ∧
      s'.code.hotness.compilationClaimed = false := by
  simp only [background, TieredCode.step, TieredCode.reportOptimizationFailure,
    HotnessProfile.releaseClaim, Option.bind_eq_bind, Option.bind_some, Option.pure_def,
    Option.some.injEq] at h
  subst h
  by_cases hclaimed : s.code.hotness.compilationClaimed = true
  · simp [hclaimed, Except.toOption]
  · simp [hclaimed, Except.toOption]

/-- A timely report keeps the invariant. -/
lemma ClaimConsistent.report {s s' : ClaimProtocol} (hs : ClaimConsistent s) {client : Nat}
    (htimely : s.Timely (.reportFailure client)) (h : s.background .reportFailure = some s') :
    ClaimConsistent (s'.settle client) := by
  obtain ⟨hclients, hepoch, hpending, hreleased⟩ := background_reportFailure h
  have hholds : ∀ i, s'.Holds i ↔ s.Holds i := by
    intro i
    simp [Holds, hclients, hepoch]
  -- who else holds a claim did so with the flag clear, so the mutex holder is clearing it
  have hclearing : ∀ i, (s'.settle client).Holds i → s.Clearing := by
    intro i hi
    obtain ⟨hne, hi⟩ := holds_settle.mp hi
    rw [hholds] at hi
    by_contra hnot
    have hclaimed := hs.claimed hnot i hi
    by_cases hcurrent : s.clients client = some s.epoch
    · exact hne (hs.exclusive i client hi hcurrent)
    · exact htimely hcurrent hclaimed i hi
  refine ⟨⟨?_, ?_⟩, ?_, ?_, fun _ _ => hreleased⟩
  · intro i j hi hj
    exact hs.exclusive i j ((hholds i).mp (holds_settle.mp hi).2)
      ((hholds j).mp (holds_settle.mp hj).2)
  · intro hnot i hi
    have : (s'.settle client).Clearing ↔ s.Clearing := by
      simp [Clearing, ClaimProtocol.settle, hpending]
    exact absurd (hclearing i hi) (this.not.mp hnot)
  · intro i e hi
    show e ≤ s'.epoch
    rw [hepoch]
    unfold ClaimProtocol.settle at hi
    by_cases heq : i = client
    · simp [heq] at hi
    · exact hs.taken i e (by simpa [heq, hclients] using hi)
  · intro hreplaced i hi
    refine hs.replaced ?_ i ((hholds i).mp (holds_settle.mp hi).2)
    simpa [ClaimProtocol.settle, hpending] using hreplaced

/-- A publication keeps the invariant. -/
lemma ClaimConsistent.publish {s : ClaimProtocol} (hs : ClaimConsistent s) {code : TieredCode}
    {optimized : CodeHandle} {expected : Nat} {allocates : Bool} (client : Nat)
    (h : s.code.publishOptimized optimized expected allocates = .ok code) :
    ClaimConsistent ({ s with code := code }.settle client) := by
  obtain ⟨previous, -, -, -, rfl⟩ := TieredCode.publishOptimized_eq_ok h
  apply ClaimConsistent.settle
  refine ⟨⟨hs.exclusive, ?_⟩, hs.taken, ?_, fun _ _ => rfl⟩
  · intro hnot
    exact absurd (.inr (.inr ⟨_, rfl⟩)) hnot
  · intro hreplaced
    simp at hreplaced

/-- The claim is free, so no client holds one, and the new holder is the only one. -/
lemma ClaimConsistent.take {s : ClaimProtocol} (hs : ClaimConsistent s) {client : Nat}
    (hpending : s.code.pending = some (.takeClaim client))
    (hfree : s.code.hotness.compilationClaimed = false) {code : TieredCode}
    (hcode : code.pending = none) (hclaimed : code.hotness.compilationClaimed = true) :
    ClaimConsistent { s with
      code := code, clients := Function.update s.clients client (some s.epoch) } := by
  have hnone : ∀ i, ¬s.Holds i := by
    intro i hi
    have := hs.claimed (by simp [Clearing, hpending]) i hi
    rw [hfree] at this
    contradiction
  have hholds : ∀ i, ({ s with
      code := code, clients := Function.update s.clients client (some s.epoch) } :
        ClaimProtocol).Holds i → i = client := by
    intro i hi
    by_contra hne
    exact hnone i (by simpa [Holds, hne] using hi)
  refine ⟨⟨fun i j hi hj => (hholds i hi).trans (hholds j hj).symm, fun _ _ _ => hclaimed⟩,
    ?_, ?_, ?_⟩
  · intro i e hi
    by_cases hne : i = client
    · obtain rfl : s.epoch = e := by simpa [hne] using hi
      exact le_rfl
    · exact hs.taken i e (by simpa [hne] using hi)
  · simp [hcode]
  · simp [hcode]

/-- Finishing an operation keeps the invariant. -/
lemma ClaimConsistent.finish {s s' : ClaimProtocol} (hs : ClaimConsistent s)
    (h : s.step .finish = some s') : ClaimConsistent s' := by
  simp only [ClaimProtocol.step, TieredCode.finish] at h
  cases hpending : s.code.pending with
  | none => simp [hpending] at h
  | some rest =>
      cases rest with
      | reset =>
          obtain rfl : _ = s' := by simpa [hpending] using h
          have hnone := hs.replaced (.inl hpending)
          exact ⟨⟨hs.exclusive, fun _ i hi => absurd hi (hnone i)⟩, hs.taken, by simp, by simp⟩
      | deoptimize =>
          obtain rfl : _ = s' := by simpa [hpending] using h
          have hnone := hs.replaced (.inr hpending)
          exact ⟨⟨hs.exclusive, fun _ i hi => absurd hi (hnone i)⟩, hs.taken, by simp, by simp⟩
      | install state =>
          obtain rfl : _ = s' := by simpa [hpending] using h
          exact hs.replace _ (by simp)
      | takeClaim client =>
          simp only [hpending, HotnessProfile.takeClaim, Option.bind_eq_bind, Option.bind_some] at h
          by_cases hclaimed : s.code.hotness.compilationClaimed = true
          · obtain rfl : _ = s' := by simpa [hclaimed] using h
            refine ⟨⟨hs.exclusive, fun _ _ _ => by simpa using hclaimed⟩, hs.taken, by simp, by simp⟩
          · have hfree : s.code.hotness.compilationClaimed = false := by simpa using hclaimed
            obtain rfl : _ = s' := by simpa [hfree] using h
            exact hs.take hpending hfree rfl rfl

/-- Every timely step keeps the invariant. -/
lemma ClaimConsistent.step {s s' : ClaimProtocol} {e : ProtocolEvent} (hs : ClaimConsistent s)
    (htimely : s.Timely e) (h : s.step e = some s') : ClaimConsistent s' := by
  cases e with
  | claim client =>
      simp only [ClaimProtocol.step] at h
      split_ifs at h
      simp only [background, TieredCode.step, TieredCode.underMutex, Option.bind_eq_bind,
        Option.bind_eq_some_iff, Option.pure_def, Option.some.injEq] at h
      obtain ⟨code, hcode, rfl⟩ := h
      split_ifs at hcode with hpending
      have hfree : s.code.pending = none := by simpa using hpending
      cases hrun : s.code.beginClaim client with
      | none =>
          obtain rfl : s.code = code := by simpa [hrun] using hcode
          exact hs
      | some next =>
          obtain rfl : next = code := by simpa [hrun] using hcode
          obtain ⟨current, -, -, rfl⟩ := TieredCode.beginClaim_eq_some hrun
          refine ⟨⟨hs.exclusive, fun _ i hi => hs.claimed ?_ i hi⟩, hs.taken, by simp, by simp⟩
          simp [Clearing, hfree]
  | publishOptimized client optimized expected allocates =>
      simp only [ClaimProtocol.step] at h
      split_ifs at h
      split at h
      · obtain rfl := Option.some.inj h
        exact hs
      · rename_i hrun
        obtain rfl := Option.some.inj h
        exact hs.publish client hrun
  | reportFailure client =>
      simp only [ClaimProtocol.step] at h
      split_ifs at h
      simp only [Option.bind_eq_bind, Option.bind_eq_some_iff, Option.pure_def,
        Option.some.injEq] at h
      obtain ⟨reported, hreported, rfl⟩ := h
      exact hs.report htimely hreported
  | finish => exact hs.finish h
  | publishBaseline baseline allocates =>
      simp only [ClaimProtocol.step] at h
      split_ifs at h
      split at h
      · obtain rfl := Option.some.inj h
        exact hs
      · rename_i hrun
        obtain rfl := Option.some.inj h
        obtain rfl := TieredCode.publishBaseline_eq_ok hrun
        exact hs.replace _ (by simp)
  | withdraw expected =>
      simp only [ClaimProtocol.step] at h
      split_ifs at h
      split at h
      · obtain rfl := Option.some.inj h
        exact hs
      · rename_i hrun
        obtain rfl := Option.some.inj h
        obtain ⟨previous, fallback, -, -, -, -, rfl⟩ := TieredCode.withdrawOptimized_eq_some hrun
        exact hs.replace _ (by simp)
  | accountFailure =>
      simp only [ClaimProtocol.step, background, TieredCode.step, TieredCode.accountFailure,
        Option.bind_eq_bind, Option.bind_eq_some_iff, Option.pure_def, Option.some.injEq] at h
      obtain ⟨code, hcode, rfl⟩ := h
      split_ifs at hcode
      obtain rfl := Option.some.inj hcode
      exact hs.keep rfl rfl
  | lease | recordInvocation | recordBackedges _ | invalidate _ =>
      obtain rfl := Option.some.inj h
      exact hs.keep rfl rfl

/-- **Exclusive claims**: in every run in which no outdated failure report meets a claim of the
current tier, at most one client holds such a claim and the tiered code knows of it; and a report
keeps this so exactly when it is not an outdated one that meets such a claim. -/
theorem claims_exclusive {thresholds : TieringThresholds} {events : List ProtocolEvent}
    {s : ClaimProtocol}
    (timely : Transitions.Along step Timely (ofThresholds thresholds) events)
    (run : Transitions.afterEvents step (ofThresholds thresholds) events = some s) :
    ClaimSafe s ∧ ∀ (client : Nat) (s' : ClaimProtocol), s.step (.reportFailure client) = some s' →
      (ClaimSafe s' ↔ s.Timely (.reportFailure client)) := by
  have hs : ClaimConsistent s := Transitions.invariant_along
    (fun _ _ _ hs htimely h => hs.step htimely h) (claimConsistent_ofThresholds thresholds) timely
    run
  refine ⟨hs.toClaimSafe, fun client s' h => ⟨fun hsafe => ?_, fun htimely => ?_⟩⟩
  · simp only [step] at h
    split_ifs at h
    simp only [Option.bind_eq_bind, Option.bind_eq_some_iff, Option.pure_def,
      Option.some.injEq] at h
    obtain ⟨reported, hreported, rfl⟩ := h
    obtain ⟨hclients, hepoch, hpending, hreleased⟩ := background_reportFailure hreported
    intro hstale hclaimed i hi
    have hne : i ≠ client := by
      rintro rfl
      exact hstale hi
    have hstill : (reported.settle client).Holds i :=
      holds_settle.mpr ⟨hne, by simpa [Holds, hclients, hepoch] using hi⟩
    have hnot : ¬(reported.settle client).Clearing := by
      simp only [Clearing, settle, hpending]
      rintro (hreset | hdeoptimize | ⟨state, hinstall⟩)
      · exact hs.replaced (.inl hreset) i hi
      · exact hs.replaced (.inr hdeoptimize) i hi
      · rw [hs.installing state hinstall] at hclaimed
        contradiction
    have hcontradiction := hsafe.claimed hnot i hstill
    rw [show (reported.settle client).code.hotness.compilationClaimed = false from hreleased]
      at hcontradiction
    contradiction
  · exact (hs.step htimely h).toClaimSafe

/-- Thresholds that one invocation reaches. -/
def sampleThresholds : TieringThresholds := { invocations := 1, backedges := 10, retryDelay := 1 }

/-- Client 0 claims a hot baseline that is replaced before it reports its failure; its report comes
while nobody holds a claim of the new baseline. Client 1 then claims that baseline, and client 2
asks for it in vain. -/
def sampleEvents : List ProtocolEvent :=
  [.publishBaseline (TieredCode.sampleHandle 1 []) true, .finish, .recordInvocation, .claim 0,
    .finish, .publishBaseline (TieredCode.sampleHandle 2 []) true, .finish, .reportFailure 0,
    .recordInvocation, .claim 1, .finish, .claim 2, .finish]

/-- The outdated report of the sample is in time, since client 0 has the only claim, and it is one
of a tier that has been replaced. -/
lemma timely_sampleEvents :
    Transitions.Along step Timely (ofThresholds sampleThresholds) sampleEvents := by
  refine ⟨trivial, fun s₁ h₁ => ⟨trivial, fun s₂ h₂ => ⟨trivial, fun s₃ h₃ => ⟨trivial,
    fun s₄ h₄ => ⟨trivial, fun s₅ h₅ => ⟨trivial, fun s₆ h₆ => ⟨trivial, fun s₇ h₇ => ⟨?_,
    fun s₈ h₈ => ⟨trivial, fun s₉ h₉ => ⟨trivial, fun s₁₀ h₁₀ => ⟨trivial, fun s₁₁ h₁₁ =>
    ⟨trivial, fun s₁₂ h₁₂ => ⟨trivial, fun s₁₃ h₁₃ => trivial⟩⟩⟩⟩⟩⟩⟩⟩⟩⟩⟩⟩⟩
  obtain rfl := Option.some.inj h₁
  obtain rfl := Option.some.inj h₂
  obtain rfl := Option.some.inj h₃
  obtain rfl := Option.some.inj h₄
  obtain rfl := Option.some.inj h₅
  obtain rfl := Option.some.inj h₆
  obtain rfl := Option.some.inj h₇
  -- the report is outdated, and installing the second baseline has cleared the claim
  intro hstale hclaimed
  contradiction

/-- The sample ends with a claim of client 1 alone, though client 0 has reported late and client 2
has asked as well. A report of client 1 would now be in time. -/
theorem claims_exclusive_sample :
    ∃ s, Transitions.afterEvents step (ofThresholds sampleThresholds) sampleEvents = some s ∧
      (∀ i, s.Holds i → i = 1) ∧ s.Holds 1 ∧ s.code.hotness.compilationClaimed = true ∧
      ∃ s', s.step (.reportFailure 1) = some s' ∧ ClaimSafe s' := by
  have hrun : ∃ s, Transitions.afterEvents step (ofThresholds sampleThresholds) sampleEvents =
      some s ∧ s.Holds 1 ∧ s.code.pending = none ∧ ∃ s', s.step (.reportFailure 1) = some s' :=
    ⟨_, rfl, rfl, rfl, _, rfl⟩
  obtain ⟨s, hs, hholds, hpending, s', hs'⟩ := hrun
  obtain ⟨hsafe, hreports⟩ := claims_exclusive timely_sampleEvents hs
  refine ⟨s, hs, fun i hi => hsafe.exclusive i 1 hi hholds, hholds, ?_, s', hs', ?_⟩
  · exact hsafe.claimed (by simp [Clearing, hpending]) 1 hholds
  · exact (hreports 1 s' hs').mpr fun hstale => absurd hholds hstale

/-- Client 0 reports after the baseline has been replaced, and so releases the claim of client 1;
client 2 then claims the same baseline. -/
theorem late_report_releases_claim :
    ¬∀ (thresholds : TieringThresholds) (events : List ProtocolEvent) (s : ClaimProtocol),
      Transitions.afterEvents step (ofThresholds thresholds) events = some s → ClaimSafe s := by
  intro safe
  have hsafe := safe sampleThresholds
    [.publishBaseline (TieredCode.sampleHandle 1 []) true, .finish, .recordInvocation, .claim 0,
      .finish, .publishBaseline (TieredCode.sampleHandle 2 []) true, .finish, .recordInvocation,
      .claim 1, .finish, .reportFailure 0, .accountFailure, .recordInvocation, .claim 2, .finish]
    _ rfl
  have htwo := hsafe.exclusive 1 2 rfl rfl
  contradiction

end ClaimProtocol

end UniJit.Jit
