import UniJit.Jit.TieringAccounting

/-!
# Failure reports under races

The operations of a hotness profile as other threads see them: one atomic load, store or
compare-and-exchange at a time. Threads call the operations that count, test and claim, and one of
them reports that its compilation failed. The report releases the claim first, then counts the
failure, and only then moves the two thresholds.

A call that found the function hot by a threshold from before that move can take the claim at any
time after the release (`claimed_before_rearm`). A call whose threshold is the moved one cannot,
until as much has been recorded since the release as the retry delay asks for (`retry_delayed`).
-/

namespace UniJit.Jit

open Lib

/-- What makes a function hot. -/
inductive HotnessTrigger
  | invocations
  | backedges
  deriving DecidableEq, Repr

/-- What `saturating_add` is called on. -/
inductive HotnessCounter
  | trigger (trigger : HotnessTrigger)
  | compilationAttempts
  | failedCompilations
  deriving DecidableEq, Repr

namespace HotnessProfile

/-- The counter of a trigger. -/
def count (p : HotnessProfile) : HotnessTrigger → Nat
  | .invocations => p.invocations
  | .backedges => p.backedges

/-- The threshold of a trigger. -/
def threshold (p : HotnessProfile) : HotnessTrigger → Nat
  | .invocations => p.nextInvocation
  | .backedges => p.nextBackedge

/-- Sets the threshold of a trigger. -/
def setThreshold (p : HotnessProfile) (value : Nat) : HotnessTrigger → HotnessProfile
  | .invocations => { p with nextInvocation := value }
  | .backedges => { p with nextBackedge := value }

/-- The value of a counter. -/
def counter (p : HotnessProfile) : HotnessCounter → Nat
  | .trigger trigger => p.count trigger
  | .compilationAttempts => p.compilationAttempts
  | .failedCompilations => p.failedCompilations

/-- Sets a counter. -/
def setCounter (p : HotnessProfile) (value : Nat) : HotnessCounter → HotnessProfile
  | .trigger .invocations => { p with invocations := value }
  | .trigger .backedges => { p with backedges := value }
  | .compilationAttempts => { p with compilationAttempts := value }
  | .failedCompilations => { p with failedCompilations := value }

end HotnessProfile

/-- The operations that threads call. -/
inductive HotnessCall
  | recordInvocation
  | recordBackedges (count : Nat)
  | tryBeginOptimization
  | reportOptimizationFailure
  deriving DecidableEq, Repr

/-- Where a thread is: before which atomic access, with the values it has loaded. The two loads of
a comparison come in either order. -/
inductive HotnessThread
  | idle
  | adding (counter : HotnessCounter) (increment : Nat)
  | exchanging (counter : HotnessCounter) (increment current : Nat)
  | testingActive
  | comparing (trigger : HotnessTrigger)
  | comparingCount (trigger : HotnessTrigger) (threshold : Nat)
  | comparingThreshold (trigger : HotnessTrigger) (count : Nat)
  | claiming (trigger : HotnessTrigger) (count threshold : Nat)
  | releasing
  | rearming (trigger : HotnessTrigger)
  | storing (trigger : HotnessTrigger) (count : Nat)
  deriving DecidableEq, Repr

namespace HotnessThread

/-- What a call does first. -/
def start : HotnessCall → HotnessThread
  | .recordInvocation => .adding (.trigger .invocations) 1
  | .recordBackedges count => .adding (.trigger .backedges) count
  | .tryBeginOptimization => .testingActive
  | .reportOptimizationFailure => .releasing

/-- What the caller of `saturating_add` does next. -/
def afterAdding : HotnessCounter → HotnessThread
  | .trigger _ => .idle
  | .compilationAttempts => .idle
  | .failedCompilations => .rearming .invocations

/-- What `hot` does when a comparison has both its values. -/
def compared (trigger : HotnessTrigger) (count threshold : Nat) : HotnessThread :=
  if threshold ≤ count then .claiming trigger count threshold
  else
    match trigger with
    | .invocations => .comparing .backedges
    | .backedges => .idle

/-- What `rearm` does after a store. -/
def afterStoring : HotnessTrigger → HotnessThread
  | .invocations => .rearming .backedges
  | .backedges => .idle

/-- The next atomic access of a thread. `choice` says which operand of a comparison is loaded
first, and whether a weak exchange is spared a spurious failure. -/
def access (p : HotnessProfile) (choice : Bool) : HotnessThread → HotnessProfile × HotnessThread
  | .idle => (p, .idle)
  | .adding counter increment => (p, .exchanging counter increment (p.counter counter))
  | .exchanging counter increment current =>
      if choice ∧ p.counter counter = current then
        (p.setCounter (saturatingAdd current increment) counter, afterAdding counter)
      else (p, .exchanging counter increment (p.counter counter))
  | .testingActive => (p, if p.optimizedActive then .idle else .comparing .invocations)
  | .comparing trigger =>
      (p, if choice then .comparingThreshold trigger (p.count trigger)
        else .comparingCount trigger (p.threshold trigger))
  | .comparingCount trigger threshold => (p, compared trigger (p.count trigger) threshold)
  | .comparingThreshold trigger count => (p, compared trigger count (p.threshold trigger))
  | .claiming _ _ _ =>
      if p.compilationClaimed then (p, .idle)
      else ({ p with compilationClaimed := true }, .adding .compilationAttempts 1)
  | .releasing =>
      if p.compilationClaimed then
        ({ p with compilationClaimed := false }, .adding .failedCompilations 1)
      else (p, .idle)
  | .rearming trigger => (p, .storing trigger (p.count trigger))
  | .storing trigger count =>
      (p.setThreshold (delayedThreshold count p.thresholds.retryDelay) trigger,
        afterStoring trigger)

end HotnessThread

/-! ## Calls that nothing disturbs -/

namespace HotnessThread

/-- A number of accesses in a row of one thread, with the spurious failures left out. -/
def accesses (p : HotnessProfile) (thread : HotnessThread) : Nat → HotnessProfile × HotnessThread
  | 0 => (p, thread)
  | n + 1 =>
      let (p', thread') := thread.access p true
      accesses p' thread' n

end HotnessThread

/-- The operation that a call stands for. -/
def HotnessCall.operation : HotnessCall → HotnessOperation
  | .recordInvocation => .recordInvocation
  | .recordBackedges count => .recordBackedges count
  | .tryBeginOptimization => .tryBeginOptimization
  | .reportOptimizationFailure => .reportOptimizationFailure

open HotnessThread in
/-- A call that nothing disturbs is the operation taken as one step; no call makes more than eight
accesses. -/
theorem HotnessCall.undisturbed (p : HotnessProfile) (call : HotnessCall) :
    accesses p (.start call) 8 = (p.apply call.operation, .idle) := by
  cases call with
  | recordInvocation =>
      simp [accesses, HotnessThread.start, HotnessThread.access, afterAdding, operation,
        HotnessProfile.apply, HotnessProfile.recordInvocation, HotnessProfile.setCounter,
        HotnessProfile.counter, HotnessProfile.count]
  | recordBackedges count =>
      simp [accesses, HotnessThread.start, HotnessThread.access, afterAdding, operation,
        HotnessProfile.apply, HotnessProfile.recordBackedges, HotnessProfile.setCounter,
        HotnessProfile.counter, HotnessProfile.count]
  | tryBeginOptimization =>
      by_cases hactive : p.optimizedActive = true
      · simp [accesses, HotnessThread.start, HotnessThread.access, operation,
          HotnessProfile.apply, HotnessProfile.tryBeginOptimization, HotnessProfile.hot, hactive]
      by_cases hinvocations : p.nextInvocation ≤ p.invocations <;>
        by_cases hbackedges : p.nextBackedge ≤ p.backedges <;>
        by_cases hclaimed : p.compilationClaimed = true <;>
        simp [accesses, HotnessThread.start, HotnessThread.access, compared, afterAdding, operation,
          HotnessProfile.apply, HotnessProfile.tryBeginOptimization, HotnessProfile.hot,
          HotnessProfile.takeClaim, HotnessProfile.setCounter, HotnessProfile.counter,
          HotnessProfile.count, HotnessProfile.threshold, *]
  | reportOptimizationFailure =>
      by_cases hclaimed : p.compilationClaimed = true <;>
        simp [accesses, HotnessThread.start, HotnessThread.access, afterAdding, afterStoring,
          operation, HotnessProfile.apply, HotnessProfile.reportOptimizationFailure,
          HotnessProfile.releaseClaim, HotnessProfile.accountFailure, HotnessProfile.rearm,
          HotnessProfile.setCounter, HotnessProfile.setThreshold, HotnessProfile.counter,
          HotnessProfile.count, Except.toOption, hclaimed]

/-- The profile and the threads that work on it. `reported` says that the one failure report has
been called. -/
structure HotnessRace where
  profile : HotnessProfile
  threads : Nat → HotnessThread := fun _ => .idle
  reported : Bool := false

/-- A thread calls an operation, or makes the next access of the one it is in. -/
inductive HotnessEvent
  | call (thread : Nat) (call : HotnessCall)
  | access (thread : Nat) (choice : Bool)
  deriving DecidableEq, Repr

/-- The thread of an event. -/
def HotnessEvent.thread : HotnessEvent → Nat
  | .call thread _ => thread
  | .access thread _ => thread

namespace HotnessRace

/-- One atomic access of a call. -/
def step (s : HotnessRace) : HotnessEvent → Option HotnessRace
  | .call thread call =>
      if s.threads thread ≠ .idle ∨ (call = .reportOptimizationFailure ∧ s.reported = true) then none
      else some { s with
        threads := Function.update s.threads thread (.start call)
        reported := s.reported || call = .reportOptimizationFailure }
  | .access thread choice =>
      let (profile, next) := (s.threads thread).access s.profile choice
      some { s with profile := profile, threads := Function.update s.threads thread next }

/-- The event is the exchange by which the failure report releases the claim. -/
def Releases (s : HotnessRace) (e : HotnessEvent) : Prop :=
  ∃ thread choice, e = .access thread choice ∧ s.threads thread = .releasing ∧
    s.profile.compilationClaimed = true

/-- The event is an exchange by which a call takes the claim. -/
def Claims (s : HotnessRace) (e : HotnessEvent) : Prop :=
  ∃ thread choice trigger count threshold, e = .access thread choice ∧
    s.threads thread = .claiming trigger count threshold ∧ s.profile.compilationClaimed = false

/-- The thread has released its claim and is still going to move this threshold. -/
def Moves (trigger : HotnessTrigger) : HotnessThread → Prop
  | .adding .failedCompilations _ => True
  | .exchanging .failedCompilations _ _ => True
  | .rearming .invocations => True
  | .storing .invocations _ => True
  | .rearming .backedges => trigger = .backedges
  | .storing .backedges _ => trigger = .backedges
  | _ => False

/-- A call that goes for the claim was made hot by a threshold that the failure report has already
moved: no thread is still going to move it, and it has not changed since it was loaded. -/
def Current (s : HotnessRace) (e : HotnessEvent) : Prop :=
  ∀ thread choice trigger count threshold, e = .access thread choice →
    s.threads thread = .claiming trigger count threshold →
      (∀ other, ¬Moves trigger (s.threads other)) ∧ threshold = s.profile.threshold trigger

/-- As many invocations or as many backedges as the retry delay asks for have been recorded since
an earlier state. -/
def Delayed (released s : HotnessRace) : Prop :=
  ∃ trigger, released.profile.count trigger + released.profile.thresholds.retryDelay ≤
    s.profile.count trigger

/-! ## What one access does -/

open HotnessThread

/-- What a thread has loaded is not ahead of the counts. -/
def Behind (p : HotnessProfile) : HotnessThread → Prop
  | .comparingThreshold trigger count => count ≤ p.count trigger
  | .claiming trigger count threshold => threshold ≤ count ∧ count ≤ p.count trigger
  | _ => True

/-- The thread is in a failure report. -/
def Reporting (thread : HotnessThread) : Prop :=
  thread = .releasing ∨ Moves .backedges thread

/-- A thread that moves a threshold is reporting a failure. -/
lemma Moves.reporting {trigger : HotnessTrigger} {thread : HotnessThread}
    (h : Moves trigger thread) : Reporting thread := by
  right
  cases trigger with
  | backedges => exact h
  | invocations =>
      cases thread with
      | adding counter increment => cases counter <;> exact h
      | exchanging counter increment current => cases counter <;> exact h
      | rearming trigger => cases trigger <;> first | exact h | contradiction
      | storing trigger count => cases trigger <;> first | exact h | contradiction
      | _ => exact h

/-- The effect of one access on the profile and on its thread. -/
structure Access (p : HotnessProfile) (thread : HotnessThread) (p' : HotnessProfile)
    (thread' : HotnessThread) : Prop where
  thresholds : p'.thresholds = p.thresholds
  count : ∀ trigger, p.count trigger ≤ p'.count trigger
  bounded : ∀ trigger, p'.count trigger ≤ maximumUint64
  threshold : ∀ trigger, p'.threshold trigger = p.threshold trigger ∨
    ∃ count, thread = .storing trigger count ∧
      p'.threshold trigger = delayedThreshold count p.thresholds.retryDelay
  behind : Behind p thread → Behind p' thread'
  reporting : Reporting thread' → Reporting thread
  moves : ∀ trigger, Moves trigger thread → Moves trigger thread' ∨ ∃ count,
    thread = .storing trigger count ∧
      p'.threshold trigger = delayedThreshold count p.thresholds.retryDelay
  storing : ∀ trigger count, thread' = .storing trigger count →
    count = p.count trigger ∧ p' = p

/-- An access that leaves the counts and thresholds alone and stores nothing next. -/
lemma Access.of_same {p p' : HotnessProfile} {thread thread' : HotnessThread}
    (hbounded : ∀ trigger, p.count trigger ≤ maximumUint64)
    (hthresholds : p'.thresholds = p.thresholds)
    (hcount : ∀ trigger, p'.count trigger = p.count trigger)
    (hthreshold : ∀ trigger, p'.threshold trigger = p.threshold trigger)
    (hbehind : Behind p thread → Behind p' thread')
    (hreporting : Reporting thread' → Reporting thread)
    (hmoves : ∀ trigger, Moves trigger thread → Moves trigger thread')
    (hstoring : ∀ trigger count, thread' ≠ .storing trigger count) :
    Access p thread p' thread' where
  thresholds := hthresholds
  count := fun trigger => (hcount trigger).ge
  bounded := fun trigger => (hcount trigger).le.trans (hbounded trigger)
  threshold := fun trigger => .inl (hthreshold trigger)
  behind := hbehind
  reporting := hreporting
  moves := fun trigger h => .inl (hmoves trigger h)
  storing := fun trigger count h => absurd h (hstoring trigger count)

/-- An access of a call that is no failure report and leaves the profile alone. -/
lemma Access.of_quiet {p : HotnessProfile} {thread thread' : HotnessThread}
    (hbounded : ∀ trigger, p.count trigger ≤ maximumUint64)
    (hbehind : Behind p thread → Behind p thread') (hquiet : ¬Reporting thread)
    (hquiet' : ¬Reporting thread') : Access p thread p thread' := by
  apply Access.of_same hbounded rfl (fun _ => rfl) (fun _ => rfl) hbehind
  · exact fun h => absurd h hquiet'
  · exact fun _ h => absurd h.reporting hquiet
  · rintro trigger count rfl
    exact hquiet' (.inr (by cases trigger <;> trivial))

/-- A thread that has just compared is behind its counter. -/
lemma behind_compared {p : HotnessProfile} {trigger : HotnessTrigger} {count threshold : Nat}
    (h : count ≤ p.count trigger) : Behind p (compared trigger count threshold) := by
  unfold compared
  split_ifs with hle
  · exact ⟨hle, h⟩
  · cases trigger <;> trivial

/-- A thread that has compared is not reporting. -/
lemma not_reporting_compared {trigger : HotnessTrigger} {count threshold : Nat} :
    ¬Reporting (compared trigger count threshold) := by
  unfold compared
  split_ifs
  · simp [Reporting, Moves]
  · cases trigger <;> simp [Reporting, Moves]

/-- Setting one counter leaves the others alone. -/
lemma count_setCounter (p : HotnessProfile) (value : Nat) (counter : HotnessCounter)
    (trigger : HotnessTrigger) : (p.setCounter value counter).count trigger =
      if counter = .trigger trigger then value else p.count trigger := by
  rcases counter with (_ | _) | _ | _ <;> cases trigger <;> rfl

/-- Setting a counter leaves the thresholds alone. -/
lemma threshold_setCounter (p : HotnessProfile) (value : Nat) (counter : HotnessCounter)
    (trigger : HotnessTrigger) : (p.setCounter value counter).threshold trigger =
      p.threshold trigger := by
  rcases counter with (_ | _) | _ | _ <;> cases trigger <;> rfl

/-- Setting a counter leaves the configuration alone. -/
lemma thresholds_setCounter (p : HotnessProfile) (value : Nat) (counter : HotnessCounter) :
    (p.setCounter value counter).thresholds = p.thresholds := by
  rcases counter with (_ | _) | _ | _ <;> rfl

/-- The exchange at the end of a saturating addition. -/
lemma access_setCounter {p : HotnessProfile} {counter : HotnessCounter} {increment : Nat}
    (hbounded : ∀ trigger, p.count trigger ≤ maximumUint64) :
    Access p (.exchanging counter increment (p.counter counter))
      (p.setCounter (saturatingAdd (p.counter counter) increment) counter)
      (afterAdding counter) where
  thresholds := thresholds_setCounter p _ counter
  count := by
    intro trigger
    rw [count_setCounter]
    split_ifs with hcounter
    · subst hcounter
      have hle := hbounded trigger
      rw [HotnessProfile.counter, HotnessProfile.saturatingAdd_eq_min _ hle]
      omega
    · exact le_rfl
  bounded := by
    intro trigger
    rw [count_setCounter]
    split_ifs with hcounter
    · subst hcounter
      have hle := hbounded trigger
      rw [HotnessProfile.counter, HotnessProfile.saturatingAdd_eq_min _ hle]
      exact min_le_right _ _
    · exact hbounded trigger
  threshold := fun trigger => .inl (threshold_setCounter p _ counter trigger)
  behind := by cases counter <;> exact fun _ => trivial
  reporting := by
    cases counter with
    | failedCompilations => exact fun _ => .inr trivial
    | _ => simp [Reporting, Moves, afterAdding]
  moves := by
    intro trigger h
    cases counter with
    | failedCompilations => exact .inl trivial
    | _ => exact absurd h (by simp [Moves])
  storing := by cases counter <;> simp [afterAdding]

/-- Setting a threshold leaves the counters alone. -/
lemma count_setThreshold (p : HotnessProfile) (value : Nat) (trigger other : HotnessTrigger) :
    (p.setThreshold value trigger).count other = p.count other := by
  cases trigger <;> cases other <;> rfl

/-- The store of a threshold. -/
lemma access_setThreshold {p : HotnessProfile} {trigger : HotnessTrigger} {count : Nat}
    (hbounded : ∀ trigger, p.count trigger ≤ maximumUint64) :
    Access p (.storing trigger count)
      (p.setThreshold (delayedThreshold count p.thresholds.retryDelay) trigger)
      (afterStoring trigger) where
  thresholds := by cases trigger <;> rfl
  count := fun other => (count_setThreshold p _ trigger other).ge
  bounded := by
    intro other
    rw [count_setThreshold]
    exact hbounded other
  threshold := by
    intro other
    cases trigger <;> cases other
    · exact .inr ⟨count, rfl, rfl⟩
    · exact .inl rfl
    · exact .inl rfl
    · exact .inr ⟨count, rfl, rfl⟩
  behind := by cases trigger <;> exact fun _ => trivial
  reporting := by
    intro _
    right
    cases trigger <;> trivial
  moves := by
    intro other h
    cases trigger <;> cases other
    · exact .inr ⟨count, rfl, rfl⟩
    · exact .inl rfl
    · contradiction
    · exact .inr ⟨count, rfl, rfl⟩
  storing := by cases trigger <;> simp [afterStoring]

/-- **Access.** By cases on where the thread is. -/
lemma access_spec {p : HotnessProfile} (hbounded : ∀ trigger, p.count trigger ≤ maximumUint64)
    (thread : HotnessThread) (choice : Bool) :
    Access p thread (thread.access p choice).1 (thread.access p choice).2 := by
  cases thread with
  | idle =>
      exact .of_same hbounded rfl (fun _ => rfl) (fun _ => rfl) id id (fun _ => id) (by
        simp [HotnessThread.access])
  | adding counter increment =>
      refine .of_same hbounded rfl (fun _ => rfl) (fun _ => rfl) (fun _ => trivial) ?_ ?_ ?_
      · rintro (h | h)
        · contradiction
        · exact .inr (by cases counter <;> exact h)
      · cases counter <;> exact fun _ => id
      · simp [HotnessThread.access]
  | exchanging counter increment current =>
      simp only [HotnessThread.access]
      split_ifs with hexchange
      · obtain ⟨-, rfl⟩ := hexchange
        exact access_setCounter hbounded
      · refine .of_same hbounded rfl (fun _ => rfl) (fun _ => rfl) (fun _ => trivial) ?_ ?_ ?_
        · rintro (h | h)
          · contradiction
          · exact .inr (by cases counter <;> exact h)
        · cases counter <;> exact fun _ => id
        · simp
  | testingActive =>
      apply Access.of_quiet hbounded
      · intro _
        cases hactive : p.optimizedActive <;> simp [HotnessThread.access, hactive, Behind]
      · simp [Reporting, Moves]
      · cases hactive : p.optimizedActive <;>
          simp [HotnessThread.access, hactive, Reporting, Moves]
  | comparing trigger =>
      apply Access.of_quiet hbounded
      · intro _
        cases choice with
        | true => exact le_rfl
        | false => trivial
      · simp [Reporting, Moves]
      · cases choice <;> simp [HotnessThread.access, Reporting, Moves]
  | comparingCount trigger threshold =>
      exact .of_quiet hbounded (fun _ => behind_compared le_rfl) (by simp [Reporting, Moves])
        not_reporting_compared
  | comparingThreshold trigger count =>
      exact .of_quiet hbounded behind_compared (by simp [Reporting, Moves]) not_reporting_compared
  | claiming trigger count threshold =>
      simp only [HotnessThread.access]
      split_ifs
      · exact .of_quiet hbounded (fun _ => trivial) (by simp [Reporting, Moves])
          (by simp [Reporting, Moves])
      · refine .of_same hbounded rfl (fun trigger => by cases trigger <;> rfl)
          (fun trigger => by cases trigger <;> rfl) (fun _ => trivial) ?_ ?_ ?_
        · simp [Reporting, Moves]
        · exact fun _ => id
        · simp
  | releasing =>
      simp only [HotnessThread.access]
      split_ifs
      · exact .of_same hbounded rfl (fun trigger => by cases trigger <;> rfl)
          (fun trigger => by cases trigger <;> rfl) (fun _ => trivial) (fun _ => .inl rfl)
          (fun _ _ => trivial) (by simp)
      · exact .of_same hbounded rfl (fun _ => rfl) (fun _ => rfl) (fun _ => trivial)
          (fun _ => .inl rfl) (fun _ => id) (by simp)
  | rearming trigger =>
      refine ⟨rfl, fun _ => le_rfl, hbounded, fun _ => .inl rfl, fun _ => trivial, ?_, ?_, ?_⟩
      · intro _
        right
        cases trigger <;> trivial
      · intro other h
        left
        cases trigger <;> exact h
      · intro other count h
        obtain ⟨rfl, rfl⟩ := HotnessThread.storing.inj h
        exact ⟨rfl, rfl⟩
  | storing trigger count => exact access_setThreshold hbounded

/-! ## Runs -/

/-- Where a race starts: no thread is in a call, and any operations have come before. -/
def start (thresholds : TieringThresholds) (operations : List HotnessOperation) : HotnessRace :=
  { profile := (HotnessProfile.ofThresholds thresholds).applyAll operations }

/-- What holds throughout a race. -/
structure Sound (s : HotnessRace) : Prop where
  bounded : ∀ trigger, s.profile.count trigger ≤ maximumUint64
  behind : ∀ i, Behind s.profile (s.threads i)
  exclusive : ∀ i j, Reporting (s.threads i) → Reporting (s.threads j) → i = j
  reported : ∀ i, Reporting (s.threads i) → s.reported = true

/-- What holds in a race since the report released its claim. -/
structure Since (released s : HotnessRace) : Prop where
  reported : s.reported = true
  thresholds : s.profile.thresholds = released.profile.thresholds
  recorded : ∀ trigger, released.profile.count trigger ≤ s.profile.count trigger
  loaded : ∀ i trigger count, s.threads i = .storing trigger count →
    released.profile.count trigger ≤ count
  moved : ∀ trigger, (∀ i, ¬Moves trigger (s.threads i)) →
    delayedThreshold (released.profile.count trigger) released.profile.thresholds.retryDelay ≤
      s.profile.threshold trigger

variable {s s' released : HotnessRace} {e : HotnessEvent}

/-- At the start the race is sound. -/
lemma sound_start (thresholds : TieringThresholds) (operations : List HotnessOperation) :
    Sound (start thresholds operations) := by
  obtain ⟨hp, -⟩ := HotnessProfile.tiering_accounting thresholds operations
  refine ⟨?_, fun _ => trivial, ?_, ?_⟩
  · intro trigger
    cases trigger with
    | invocations => exact hp.invocations
    | backedges => exact hp.backedges
  · simp [start, Reporting, Moves]
  · simp [start, Reporting, Moves]

/-- Counters only grow, so a thread stays behind. -/
lemma Behind.mono {p p' : HotnessProfile} {thread : HotnessThread}
    (hcount : ∀ trigger, p.count trigger ≤ p'.count trigger) (h : Behind p thread) :
    Behind p' thread := by
  cases thread with
  | comparingThreshold trigger count => exact le_trans h (hcount trigger)
  | claiming trigger count threshold => exact ⟨h.1, le_trans h.2 (hcount trigger)⟩
  | _ => trivial

/-- A step is a call of an idle thread or an access. -/
lemma step_cases (h : s.step e = some s') :
    (∃ i call, e = .call i call ∧ s.threads i = .idle ∧
        (call = .reportOptimizationFailure → s.reported = false) ∧ s'.profile = s.profile ∧
        s'.threads = Function.update s.threads i (.start call) ∧
        s'.reported = (s.reported || call = .reportOptimizationFailure)) ∨
      ∃ i choice, e = .access i choice ∧
        s'.profile = ((s.threads i).access s.profile choice).1 ∧
        s'.threads = Function.update s.threads i ((s.threads i).access s.profile choice).2 ∧
        s'.reported = s.reported := by
  cases e with
  | call i call =>
      simp only [step] at h
      split_ifs at h with hfree
      push Not at hfree
      obtain rfl := Option.some.inj h
      exact .inl ⟨i, call, rfl, hfree.1, by simpa using hfree.2, rfl, rfl, rfl⟩
  | access i choice =>
      obtain rfl := Option.some.inj h
      exact .inr ⟨i, choice, rfl, rfl, rfl, rfl⟩

lemma reporting_start {call : HotnessCall} :
    Reporting (HotnessThread.start call) ↔ call = .reportOptimizationFailure := by
  cases call <;> simp [Reporting, Moves, HotnessThread.start]

/-- A thread that was not in the failure report before a step is not in it after. -/
lemma reporting_update {threads : Nat → HotnessThread} {i : Nat} {thread : HotnessThread}
    (h : Reporting thread → Reporting (threads i)) {j : Nat}
    (hj : Reporting (Function.update threads i thread j)) : Reporting (threads j) := by
  by_cases hji : j = i
  · subst hji
    rw [Function.update_self] at hj
    exact h hj
  · rwa [Function.update_of_ne hji] at hj

/-- **Step.** -/
lemma Sound.step (hs : Sound s) (h : s.step e = some s') : Sound s' := by
  rcases step_cases h with ⟨i, call, -, hidle, honce, hprofile, hthreads, hreported⟩ |
    ⟨i, choice, -, hprofile, hthreads, hreported⟩
  · have hbehind : ∀ j, Behind s'.profile (s'.threads j) := by
      intro j
      rw [hprofile, hthreads]
      by_cases hj : j = i
      · subst hj
        cases call <;> simp [Behind, HotnessThread.start]
      · simpa [hj] using hs.behind j
    by_cases hcall : call = .reportOptimizationFailure
    · have hnone : ∀ j, ¬Reporting (s.threads j) := by
        intro j hj
        rw [hs.reported j hj] at honce
        exact absurd (honce hcall) (by decide)
      have honly : ∀ j, Reporting (s'.threads j) → j = i := by
        intro j hj
        by_contra hne
        rw [hthreads, Function.update_of_ne hne] at hj
        exact hnone j hj
      refine ⟨by simpa [hprofile] using hs.bounded, hbehind, ?_, ?_⟩
      · exact fun j k hj hk => (honly j hj).trans (honly k hk).symm
      · exact fun _ _ => by simp [hreported, hcall]
    · have hkeep : ∀ j, Reporting (s'.threads j) → Reporting (s.threads j) := by
        intro j hj
        rw [hthreads] at hj
        exact reporting_update (fun hr => absurd (reporting_start.mp hr) hcall) hj
      refine ⟨by simpa [hprofile] using hs.bounded, hbehind, ?_, ?_⟩
      · exact fun j k hj hk => hs.exclusive j k (hkeep j hj) (hkeep k hk)
      · exact fun j hj => by simp [hreported, hs.reported j (hkeep j hj)]
  · have haccess := access_spec hs.bounded (s.threads i) choice
    rw [← hprofile] at haccess
    have hkeep : ∀ j, Reporting (s'.threads j) → Reporting (s.threads j) := by
      intro j hj
      rw [hthreads] at hj
      exact reporting_update haccess.reporting hj
    refine ⟨haccess.bounded, ?_, ?_, ?_⟩
    · intro j
      rw [hthreads]
      by_cases hj : j = i
      · subst hj
        simpa using haccess.behind (hs.behind j)
      · simpa [hj] using (hs.behind j).mono haccess.count
    · exact fun j k hj hk => hs.exclusive j k (hkeep j hj) (hkeep k hk)
    · exact fun j hj => hreported.trans (hs.reported j (hkeep j hj))

/-- The release starts the time that the report looks back to. -/
lemma Sound.since (hs : Sound s) (hreleases : s.Releases e) (h : s.step e = some s') :
    Since s' s' := by
  obtain ⟨i, choice, rfl, hreleasing, hclaimed⟩ := hreleases
  have hreporting : Reporting (s.threads i) := .inl hreleasing
  rcases step_cases h with ⟨_, _, hcall, -⟩ | ⟨i', choice', heq, -, hthreads, hreported⟩
  · contradiction
  obtain ⟨rfl, rfl⟩ := HotnessEvent.access.inj heq
  rw [hreleasing, HotnessThread.access, if_pos hclaimed] at hthreads
  refine ⟨hreported.trans (hs.reported i hreporting), rfl, fun _ => le_rfl, ?_, ?_⟩
  · intro j trigger count hj
    exfalso
    rw [hthreads] at hj
    by_cases hji : j = i
    · simp [hji] at hj
    · rw [Function.update_of_ne hji] at hj
      exact hji (hs.exclusive j i (.inr (by rw [hj]; cases trigger <;> trivial)) hreporting)
  · intro trigger hnone
    exact absurd (by simp [hthreads, Moves]) (hnone i)

/-- The moved threshold is no lower than what the counts at the release ask for. -/
lemma delayedThreshold_mono {count count' delay : Nat} (h : count ≤ count') :
    delayedThreshold count delay ≤ delayedThreshold count' delay := by
  unfold delayedThreshold
  split_ifs <;> omega

/-- **Step.** -/
lemma Since.step (hr : Since released s) (hs : Sound s) (h : s.step e = some s') :
    Since released s' := by
  rcases step_cases h with ⟨i, call, -, hidle, honce, hprofile, hthreads, hreported⟩ |
    ⟨i, choice, -, hprofile, hthreads, hreported⟩
  · refine ⟨by simp [hreported, hr.reported], by rw [hprofile, hr.thresholds],
      by simpa [hprofile] using hr.recorded, ?_, ?_⟩
    · intro j trigger count hj
      rw [hthreads] at hj
      by_cases hji : j = i
      · subst hji
        cases call <;> simp [HotnessThread.start] at hj
      · rw [Function.update_of_ne hji] at hj
        exact hr.loaded j trigger count hj
    · intro trigger hnone
      rw [hprofile]
      apply hr.moved trigger
      intro j hj
      apply hnone j
      rw [hthreads]
      by_cases hji : j = i
      · rw [hji, hidle] at hj
        exact hj.elim
      · rwa [Function.update_of_ne hji]
  · have haccess := access_spec hs.bounded (s.threads i) choice
    rw [← hprofile] at haccess
    refine ⟨hreported.trans hr.reported, haccess.thresholds.trans hr.thresholds,
      fun trigger => (hr.recorded trigger).trans (haccess.count trigger), ?_, ?_⟩
    · intro j trigger count hj
      rw [hthreads] at hj
      by_cases hji : j = i
      · subst hji
        rw [Function.update_self] at hj
        obtain ⟨rfl, -⟩ := haccess.storing trigger count hj
        exact hr.recorded trigger
      · rw [Function.update_of_ne hji] at hj
        exact hr.loaded j trigger count hj
    · intro trigger hnone
      have hstored : ∀ count, s.threads i = .storing trigger count →
          s'.profile.threshold trigger = delayedThreshold count s.profile.thresholds.retryDelay →
          delayedThreshold (released.profile.count trigger)
              released.profile.thresholds.retryDelay ≤ s'.profile.threshold trigger := by
        intro count hstoring hthreshold
        rw [hthreshold, hr.thresholds]
        exact delayedThreshold_mono (hr.loaded i trigger count hstoring)
      by_cases hmoving : Moves trigger (s.threads i)
      · rcases haccess.moves trigger hmoving with hstill | ⟨count, hstoring, hthreshold⟩
        · exact absurd (by simpa [hthreads] using hstill) (hnone i)
        · exact hstored count hstoring hthreshold
      · rcases haccess.threshold trigger with hsame | ⟨count, hstoring, hthreshold⟩
        · rw [hsame]
          apply hr.moved trigger
          intro j hj
          have hji : j ≠ i := by
            rintro rfl
            exact hmoving hj
          exact hnone j (by rwa [hthreads, Function.update_of_ne hji])
        · exact hstored count hstoring hthreshold

/-- **Retry delay**: after a failure report has released its claim, a call takes the claim only
when as much as the retry delay asks for has been recorded since, provided that the call was made
hot by a threshold that the report had already moved, and that the counters are not saturated. -/
theorem retry_delayed {thresholds : TieringThresholds} {operations : List HotnessOperation}
    {before during : List HotnessEvent} {release claim : HotnessEvent}
    {s released t : HotnessRace}
    (reports : Transitions.afterEvents step (start thresholds operations) before = some s)
    (releases : s.Releases release) (releasing : s.step release = some released)
    (continues : Transitions.afterEvents step released during = some t)
    (current : t.Current claim) (claims : t.Claims claim)
    (unsaturated : ∀ trigger, t.profile.count trigger < maximumUint64) :
    Delayed released t := by
  have hs : Sound s := Transitions.invariant (fun _ _ _ hs h => hs.step h)
    (sound_start thresholds operations) reports
  have hreleased : Sound released ∧ Since released released :=
    ⟨hs.step releasing, hs.since releases releasing⟩
  have ht : Sound t ∧ Since released t :=
    Transitions.invariant (I := fun s => Sound s ∧ Since released s)
      (fun _ _ _ hs h => ⟨hs.1.step h, hs.2.step hs.1 h⟩) hreleased continues
  obtain ⟨hsound, hsince⟩ := ht
  obtain ⟨i, choice, trigger, count, threshold, rfl, hclaiming, -⟩ := claims
  obtain ⟨hmoved, rfl⟩ := current i choice trigger count threshold rfl hclaiming
  have hbehind : t.profile.threshold trigger ≤ count ∧ count ≤ t.profile.count trigger := by
    have := hsound.behind i
    rwa [hclaiming] at this
  have hdelayed := hsince.moved trigger hmoved
  have hcount := unsaturated trigger
  refine ⟨trigger, ?_⟩
  unfold delayedThreshold at hdelayed
  split_ifs at hdelayed <;> omega

/-- Thresholds that one invocation reaches, and one more after a failure. -/
def sampleThresholds : TieringThresholds := { invocations := 1, retryDelay := 1 }

/-- A function is hot and claimed, and thread 0 is about to report that its compilation failed. -/
def sampleRace : HotnessRace :=
  { start sampleThresholds [.recordInvocation, .tryBeginOptimization] with
    threads := Function.update (fun _ => .idle) 0 .releasing
    reported := true }

/-- The accesses of a call that nothing disturbs and that finds the function hot, up to its
exchange. -/
def hotAccesses (thread : Nat) : List HotnessEvent :=
  [.call thread .tryBeginOptimization, .access thread true, .access thread true,
    .access thread true]

/-- Thread 0 finishes its report, thread 1 records an invocation and then finds the function
hot. -/
def sampleEvents : List HotnessEvent :=
  List.replicate 6 (.access 0 true) ++
    [.call 1 .recordInvocation, .access 1 true, .access 1 true] ++ hotAccesses 1

/-- Other threads stay where they are. -/
lemma threads_of_ne {events : List HotnessEvent} {t : HotnessRace} {i : Nat}
    (hothers : ∀ e ∈ events, e.thread ≠ i)
    (run : Transitions.afterEvents step s events = some t) : t.threads i = s.threads i := by
  refine Transitions.invariant_along (I := fun t => t.threads i = s.threads i) ?_ rfl
    (Transitions.along_of_forall hothers) run
  intro u e u' hu hne hstep
  rw [← hu]
  rcases step_cases hstep with ⟨j, call, rfl, -, -, -, hthreads, -⟩ | ⟨j, choice, rfl, -, hthreads, -⟩
  · rw [hthreads, Function.update_of_ne (Ne.symm hne : i ≠ j)]
  · rw [hthreads, Function.update_of_ne (Ne.symm hne : i ≠ j)]

/-- The claim of thread 1 comes one invocation after the release of thread 0. -/
theorem retry_delayed_sample : ∃ released t : HotnessRace,
    sampleRace.step (.access 0 true) = some released ∧
      Transitions.afterEvents step released sampleEvents = some t ∧
      t.Claims (.access 1 true) ∧ Delayed released t := by
  have hreports : Transitions.afterEvents step
      (start sampleThresholds [.recordInvocation, .tryBeginOptimization])
      [.call 0 .reportOptimizationFailure] = some sampleRace := rfl
  have hrun : ∃ released t, sampleRace.step (.access 0 true) = some released ∧
      Transitions.afterEvents step released sampleEvents = some t ∧
      t.threads 0 = .idle ∧ t.threads 1 = .claiming .invocations 2 2 ∧
      t.profile.compilationClaimed = false ∧ t.profile.count .invocations = 2 ∧
      t.profile.count .backedges = 0 ∧ t.profile.threshold .invocations = 2 :=
    ⟨_, _, rfl, rfl, rfl, rfl, rfl, rfl, rfl, rfl⟩
  obtain ⟨released, t, hreleasing, hrun, hreporter, hclaiming, hfree, hcount, hbackedges,
    hthreshold⟩ := hrun
  have hclaims : t.Claims (.access 1 true) := ⟨1, true, _, _, _, rfl, hclaiming, hfree⟩
  have hcurrent : t.Current (.access 1 true) := by
    intro i choice trigger count threshold heq hi
    obtain ⟨rfl, rfl⟩ := HotnessEvent.access.inj heq
    obtain ⟨rfl, rfl, rfl⟩ := HotnessThread.claiming.inj (hclaiming.symm.trans hi)
    refine ⟨fun other => ?_, hthreshold.symm⟩
    by_cases hzero : other = 0
    · simp [hzero, hreporter, Moves]
    by_cases hone : other = 1
    · simp [hone, hclaiming, Moves]
    · have hother : ∀ e ∈ HotnessEvent.access 0 true :: sampleEvents, e.thread ≠ other := by
        simp [sampleEvents, hotAccesses, HotnessEvent.thread]
        omega
      have hidle := threads_of_ne hother
        (Transitions.afterEvents_cons.mpr ⟨released, hreleasing, hrun⟩)
      simp [hidle, sampleRace, hzero, Moves]
  have hunsaturated : ∀ trigger, t.profile.count trigger < maximumUint64 := by
    rintro (_ | _)
    · rw [hcount]
      decide
    · rw [hbackedges]
      decide
  exact ⟨released, t, hreleasing, hrun, hclaims, retry_delayed hreports ⟨0, true, rfl, rfl, rfl⟩
    hreleasing hrun hcurrent hclaims hunsaturated⟩

/-- Thread 1 takes the claim as soon as thread 0 has released it. -/
theorem claimed_before_rearm :
    ¬∀ (thresholds : TieringThresholds) (operations : List HotnessOperation)
      (before during : List HotnessEvent) (release claim : HotnessEvent)
      (s released t : HotnessRace),
      Transitions.afterEvents step (start thresholds operations) before = some s →
      s.Releases release → s.step release = some released →
      Transitions.afterEvents step released during = some t → t.Claims claim →
      (∀ trigger, t.profile.count trigger < maximumUint64) → Delayed released t := by
  intro delayed
  obtain ⟨trigger, hdelayed⟩ := delayed sampleThresholds [.recordInvocation, .tryBeginOptimization]
    [.call 0 .reportOptimizationFailure] (hotAccesses 1) (.access 0 true) (.access 1 true)
    sampleRace _ _ rfl ⟨0, true, rfl, rfl, rfl⟩ rfl rfl ⟨1, true, _, _, _, rfl, rfl, rfl⟩ (by
      rintro (_ | _) <;> decide)
  cases trigger with
  | invocations => exact absurd hdelayed (by decide)
  | backedges => exact absurd hdelayed (by decide)

end HotnessRace

end UniJit.Jit
