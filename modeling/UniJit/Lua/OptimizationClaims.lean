import UniJit.Jit.SchedulerTasks
import UniJit.Lua.Optimization

/-!
# Optimization claims and their settlement

A function that has been claimed for optimization stays in its baseline until the claim is
released. The one who has to release it is the caller that could not submit a task, and after a
submission the job of the task. So the claim is lost where a task comes to its end and the job does
nothing about it: the task is dropped from the queue before a worker takes it, by a ticket or by a
shutdown, the job throws, or the job had settled the claim of an earlier caller already when the
new caller was given its ticket.

In every run without such a step the claims are settled (`claims_settled_of_careful`): an attempt
that has the claim is still on its way to a submission, or its task has a job that is not over, and
a task of the function ends only after its job is over.
-/

namespace UniJit.Lua.OptimizationSystem

open UniJit.Jit UniJit.Lib

/-- The function before its first publication, with a scheduler that others may use as well. -/
def start (scheduler : SchedulerState) (thresholds : TieringThresholds)
    (schedulingIdentity : List (BitVec 8)) (parameterCount : Nat) (tierable : Bool) :
    OptimizationSystem where
  scheduler := scheduler
  code := .ofThresholds thresholds
  schedulingIdentity := schedulingIdentity
  parameterCount := parameterCount
  tierable := tierable

/-- What the protocol promises of the claims in a state: one that is not settled is held by the
attempt that took it, an attempt that has failed or whose task is terminal has its claim no longer,
its job has published the optimized tier or reported the failure, and the function can be claimed
again. -/
structure ClaimsSettled (s : OptimizationSystem) : Prop where
  held : s.code.hotness.compilationClaimed = true ↔ ∃ n, s.holder = some n
  rejected : ∀ n : Nat, s.attempts[n]? = some .failed ∨ s.attempts[n]? = some .refused →
    s.holder ≠ some n
  finished : ∀ (n h : Nat) (task : CompilationTask), s.attempts[n]? = some (.submitted h) →
    s.scheduler.tasks[h]? = some task → task.state.terminal = true →
    s.holder ≠ some n ∧ ∃ outcome, s.jobs h = .settled outcome
  again : s.holder = none → s.code.hotness.takeClaim.1 = true

/-- The steps that lose no claim. No task of the function is dropped from the queue, no job throws,
and no submission is answered with a task whose job is over. -/
def Careful (s : OptimizationSystem) : OptimizationEvent → Prop
  | .scheduler (.cancel h) =>
      s.owns h = true → ∀ task, s.scheduler.tasks[h]? = some task → task.state ≠ .queued
  | .scheduler (.shutdown .cancel) => ∀ h ∈ s.scheduler.lanes, s.owns h = false
  | .submit n _ _ _ =>
      ∀ generation, s.attempts[n]? = some (.submitting generation) →
        ∀ h, s.scheduler.findTask (s.schedulingIdentity, generation) = some h →
          (s.jobs h).over = false
  | .decide _ world => world.exception = none
  | _ => True

/-! ## The invariant -/

/-- Whether someone will still settle the claim of an attempt. -/
def StageUnsettled (jobs : Nat → JobStage) : AttemptStage → Prop
  | .claimed | .submitting _ | .failing => True
  | .submitted h => (jobs h).over = false
  | .beginning | .refused | .failed => False

/-- An attempt that has still to report its claim. -/
def Unsettled (s : OptimizationSystem) (n : Nat) : Prop :=
  ∃ stage, s.attempts[n]? = some stage ∧ StageUnsettled s.jobs stage

/-- A task is at its end, or a worker is about to publish it. -/
def Ending (s : SchedulerState) (h : Nat) : Prop :=
  (∃ task, s.tasks[h]? = some task ∧ task.state.terminal = true) ∨
    ∃ (w : Nat) (state : CompilationTaskState) (outcome : Outcome),
      s.workers[w]? = some (.completing h state outcome)

/-- The invariant of careful runs: the claim is held exactly while one attempt is unsettled. -/
structure Held (s : OptimizationSystem) : Prop where
  consistent : s.scheduler.Consistent
  claimed : s.code.hotness.compilationClaimed = true ↔ ∃ n, s.holder = some n
  beginning : ∀ n : Nat, s.code.pending = some (.takeClaim n) → s.attempts[n]? = some .beginning
  unsettled : ∀ n, s.holder = some n → s.Unsettled n
  fresh : ∀ h, s.scheduler.tasks.length ≤ h → s.jobs h = .pending
  unthrown : ∀ h outcome, s.jobs h ≠ .thrown outcome
  owned : ∀ n h : Nat, s.attempts[n]? = some (.submitted h) → s.owns h = true
  ended : ∀ h, s.owns h = true → Ending s.scheduler h → ∃ outcome, s.jobs h = .settled outcome

variable {s s' : OptimizationSystem}

/-- The invariant settles every claim that was reported. -/
lemma Held.claimsSettled (hs : s.Held) : s.ClaimsSettled where
  held := hs.claimed
  rejected := by
    intro n hstage hholder
    obtain ⟨stage, hattempt, hunsettled⟩ := hs.unsettled n hholder
    rcases hstage with hstage | hstage
    · obtain rfl : .failed = stage := by simpa [hstage] using hattempt
      exact hunsettled
    · obtain rfl : .refused = stage := by simpa [hstage] using hattempt
      exact hunsettled
  finished := by
    intro n h task hstage htask hterminal
    obtain ⟨outcome, hsettled⟩ :=
      hs.ended h (hs.owned n h hstage) (.inl ⟨task, htask, hterminal⟩)
    refine ⟨?_, outcome, hsettled⟩
    intro hholder
    obtain ⟨stage, hattempt, hunsettled⟩ := hs.unsettled n hholder
    obtain rfl : .submitted h = stage := by simpa [hstage] using hattempt
    simp [StageUnsettled, hsettled, JobStage.over] at hunsettled
  again := by
    intro hnone
    have hclaimed : s.code.hotness.compilationClaimed = false := by
      rw [← Bool.not_eq_true, hs.claimed, hnone]
      simp
    simp [HotnessProfile.takeClaim, hclaimed]

/-- A function owns the tasks with its identity. -/
lemma owns_iff {h : Nat} : s.owns h = true ↔
    ∃ task, s.scheduler.tasks[h]? = some task ∧ task.identity = s.schedulingIdentity := by
  simp [owns, Option.any_eq_true]

/-- An owned task exists. -/
lemma lt_length_of_owns {h : Nat} (howns : s.owns h = true) : h < s.scheduler.tasks.length := by
  obtain ⟨task, htask, -⟩ := owns_iff.mp howns
  exact (List.getElem?_eq_some_iff.mp htask).1

/-- The tasks that were there belong to the function after a step as before it. -/
lemma owns_scheduled {ended : Nat → Prop} {t : SchedulerState} {h : Nat}
    (hrevises : Revises ended s.scheduler.tasks t.tasks) (hlt : h < s.scheduler.tasks.length) :
    ({ s with scheduler := t }).owns h = s.owns h := by
  obtain ⟨task', htask', heq⟩ := hrevises.kept h _ (List.getElem?_eq_getElem hlt)
  rw [owns, owns, htask', List.getElem?_eq_getElem hlt]
  simp [heq]

/-- A worker is about to publish only tasks that there are. -/
lemma Held.lt_length_of_completing (hs : s.Held) {w h : Nat} {state : CompilationTaskState}
    {outcome : Outcome} (hw : s.scheduler.workers[w]? = some (.completing h state outcome)) :
    h < s.scheduler.tasks.length := by
  have hheld : s.scheduler.heldBy w = some h := by
    simp [SchedulerState.heldBy, hw, Worker.task?]
  obtain ⟨v, hv, -⟩ := (hs.consistent.placed.held h).mpr ⟨w, hheld⟩
  simpa [SchedulerState.views] using (List.getElem?_eq_some_iff.mp hv).1

/-! ## What a step changes -/

/-- A task of the scheduler that may end: its job has settled the claim, if it is one of ours. -/
def Resolved (s : OptimizationSystem) (h : Nat) : Prop :=
  h < s.scheduler.tasks.length ∧ (s.owns h = true → ∃ outcome, s.jobs h = .settled outcome)

/-- Work that has ended is resolved. -/
lemma Held.resolved (hs : s.Held) {h : Nat} (hending : Ending s.scheduler h) : s.Resolved h := by
  refine ⟨?_, fun howns => hs.ended h howns hending⟩
  rcases hending with ⟨task, htask, -⟩ | ⟨w, state, outcome, hw⟩
  · exact (List.getElem?_eq_some_iff.mp htask).1
  · exact hs.lt_length_of_completing hw

/-- The scheduler changes. -/
lemma Held.scheduled (hs : s.Held) {t : SchedulerState} {ended : Nat → Prop}
    (hconsistent : t.Consistent) (hrevises : Revises ended s.scheduler.tasks t.tasks)
    (hended : ∀ h, ended h → s.Resolved h)
    (hcompleting : ∀ (w h : Nat) (state : CompilationTaskState) (outcome : Outcome),
      t.workers[w]? = some (.completing h state outcome) → s.Resolved h) :
    ({ s with scheduler := t }).Held where
  consistent := hconsistent
  claimed := hs.claimed
  beginning := hs.beginning
  unsettled := hs.unsettled
  fresh := by
    intro h hle
    exact hs.fresh h (le_trans hrevises.length_le hle)
  unthrown := hs.unthrown
  owned := by
    intro n h hstage
    have howns := hs.owned n h hstage
    rw [owns_scheduled hrevises (lt_length_of_owns howns)]
    exact howns
  ended := by
    intro h howns hending
    have hresolved : s.Resolved h := by
      rcases hending with ⟨task, htask, hterminal⟩ | ⟨w, state, outcome, hw⟩
      · rcases hrevises.ends h task htask hterminal with hbefore | hnow
        · exact hs.resolved (.inl hbefore)
        · exact hended h hnow
      · exact hcompleting w h state outcome hw
    apply hresolved.2
    rw [← owns_scheduled hrevises hresolved.1]
    exact howns

/-- Only the attempt that is beginning is waited for by the publication mutex. -/
lemma Held.free (hs : s.Held) {n : Nat} {stage : AttemptStage}
    (hstage : s.attempts[n]? = some stage) (hne : stage ≠ .beginning) :
    s.code.pending ≠ some (.takeClaim n) := by
  intro hpending
  rw [hs.beginning n hpending] at hstage
  exact hne (Option.some.inj hstage).symm

/-- An attempt goes on. -/
lemma Held.setAttempt (hs : s.Held) {n : Nat} {before stage : AttemptStage}
    (hbefore : s.attempts[n]? = some before) (hfree : s.code.pending ≠ some (.takeClaim n))
    (hunsettled : s.holder = some n → StageUnsettled s.jobs stage)
    (howned : ∀ h, stage = .submitted h → s.owns h = true) : (s.setAttempt n stage).Held where
  consistent := hs.consistent
  claimed := hs.claimed
  beginning := by
    intro m hpending
    have hne : n ≠ m := by
      rintro rfl
      exact hfree hpending
    simpa [OptimizationSystem.setAttempt, List.getElem?_set_ne hne] using hs.beginning m hpending
  unsettled := by
    intro m hholder
    by_cases hm : n = m
    · subst hm
      have hlt := (List.getElem?_eq_some_iff.mp hbefore).1
      exact ⟨stage, by simp [OptimizationSystem.setAttempt, hlt], hunsettled hholder⟩
    · obtain ⟨stage', hstage', hunsettled'⟩ := hs.unsettled m hholder
      refine ⟨stage', ?_, hunsettled'⟩
      simpa [OptimizationSystem.setAttempt, List.getElem?_set_ne hm] using hstage'
  fresh := hs.fresh
  unthrown := hs.unthrown
  owned := by
    intro m h hstage
    rcases getElem?_set_cases hstage with ⟨rfl, heq⟩ | hstage
    · exact howned h heq.symm
    · exact hs.owned m h hstage
  ended := hs.ended

/-- A job goes on. -/
lemma Held.setJob (hs : s.Held) {h : Nat} {stage : JobStage}
    (hlt : h < s.scheduler.tasks.length) (hopen : s.holder ≠ none → stage.over = false)
    (hthrown : ∀ outcome, stage ≠ .thrown outcome)
    (hbefore : ∀ outcome, s.jobs h ≠ .settled outcome) : (s.setJob h stage).Held where
  consistent := hs.consistent
  claimed := hs.claimed
  beginning := hs.beginning
  unsettled := by
    intro n hholder
    obtain ⟨stage', hstage', hunsettled⟩ := hs.unsettled n hholder
    refine ⟨stage', hstage', ?_⟩
    cases stage' with
    | submitted i =>
        by_cases hi : i = h
        · subst hi
          have hholder' : s.holder = some n := hholder
          simpa [StageUnsettled, OptimizationSystem.setJob] using hopen (by simp [hholder'])
        · simpa [StageUnsettled, OptimizationSystem.setJob, Function.update_of_ne hi] using
            hunsettled
    | _ => exact hunsettled
  fresh := by
    intro i hle
    have hi : i ≠ h := by
      rintro rfl
      exact absurd hlt (not_lt.mpr hle)
    simpa [OptimizationSystem.setJob, Function.update_of_ne hi] using hs.fresh i hle
  unthrown := by
    intro i outcome
    by_cases hi : i = h
    · subst hi
      simpa [OptimizationSystem.setJob] using hthrown outcome
    · simpa [OptimizationSystem.setJob, Function.update_of_ne hi] using hs.unthrown i outcome
  owned := hs.owned
  ended := by
    intro i howns hending
    obtain ⟨outcome, hsettled⟩ := hs.ended i howns hending
    have hi : i ≠ h := by
      rintro rfl
      exact hbefore outcome hsettled
    exact ⟨outcome, by simpa [OptimizationSystem.setJob, Function.update_of_ne hi] using hsettled⟩

/-- The tiered code changes, and the claim with it. -/
lemma Held.withCode (hs : s.Held) {code : TieredCode} {holder : Option Nat}
    (hclaimed : code.hotness.compilationClaimed = true ↔ ∃ n, holder = some n)
    (hbeginning : ∀ n, code.pending = some (.takeClaim n) → s.code.pending = some (.takeClaim n))
    (hholder : ∀ n, holder = some n → s.Unsettled n) :
    ({ s with code := code, holder := holder }).Held where
  consistent := hs.consistent
  claimed := hclaimed
  beginning := fun n hpending => hs.beginning n (hbeginning n hpending)
  unsettled := hholder
  fresh := hs.fresh
  unthrown := hs.unthrown
  owned := hs.owned
  ended := hs.ended

/-- A failure is reported, whoever has the claim. -/
lemma Held.reportFailure (hs : s.Held) : s.reportFailure.Held := by
  refine hs.withCode ?_ ?_ (by simp)
  · simp only [reduceCtorEq, exists_false, iff_false, Bool.not_eq_true]
    cases hclaimed : s.code.hotness.compilationClaimed <;>
      simp [TieredCode.reportOptimizationFailure, HotnessProfile.releaseClaim, hclaimed,
        Except.toOption]
  · intro n hpending
    cases hclaimed : s.code.hotness.compilationClaimed <;>
      simpa [TieredCode.reportOptimizationFailure, HotnessProfile.releaseClaim, hclaimed,
        Except.toOption] using hpending

/-! ## Every careful step keeps the claims -/

/-- Beginning an operation keeps the invariant. -/
lemma Held.begin (hs : s.Held) (hstep : s.step .begin = some s') : s'.Held := by
  simp only [step] at hstep
  split_ifs at hstep with htierable hpending
  · split at hstep
    · obtain rfl := Option.some.inj hstep
      exact hs
    next code hbegin =>
      obtain rfl := Option.some.inj hstep
      obtain ⟨hhotness, hcode⟩ : code.hotness = s.code.hotness ∧
          code.pending = some (.takeClaim s.attempts.length) := by
        unfold TieredCode.beginClaim at hbegin
        split at hbegin
        · simp at hbegin
        · split_ifs at hbegin
          obtain rfl := Option.some.inj hbegin
          exact ⟨rfl, rfl⟩
      have hold : ∀ {n : Nat} {stage : AttemptStage}, s.attempts[n]? = some stage →
          (s.attempts ++ [.beginning])[n]? = some stage := by
        intro n stage hstage
        rw [List.getElem?_append_left (List.getElem?_eq_some_iff.mp hstage).1]
        exact hstage
      refine ⟨hs.consistent, ?_, ?_, ?_, hs.fresh, hs.unthrown, ?_, hs.ended⟩
      · rw [hhotness]
        exact hs.claimed
      · intro n hn
        rw [hcode] at hn
        obtain rfl : s.attempts.length = n := by simpa using hn
        exact List.getElem?_concat_length
      · intro n hholder
        obtain ⟨stage, hstage, hunsettled⟩ := hs.unsettled n hholder
        exact ⟨stage, hold hstage, hunsettled⟩
      · intro n h hstage
        rw [List.getElem?_append] at hstage
        split_ifs at hstage
        · exact hs.owned n h hstage
        · have hmem := List.mem_singleton.mp (List.mem_of_getElem? hstage)
          simp at hmem
  · obtain rfl := Option.some.inj hstep
    exact hs

/-- Finishing an operation keeps the invariant. -/
lemma Held.finish (hs : s.Held) (hstep : s.finish = some s') : s'.Held := by
  simp only [OptimizationSystem.finish, Option.bind_eq_bind, Option.bind_eq_some_iff] at hstep
  obtain ⟨code, hfinish, hresult⟩ := hstep
  cases hpending : s.code.pending with
  | none => simp [TieredCode.finish, hpending] at hfinish
  | some pending =>
      simp only [TieredCode.finish, hpending] at hfinish hresult
      cases pending with
      | reset =>
          obtain rfl := Option.some.inj hfinish
          obtain rfl := Option.some.inj hresult
          exact hs.withCode (by simp [HotnessProfile.resetForBaseline]) (by simp) (by simp)
      | deoptimize =>
          obtain rfl := Option.some.inj hfinish
          obtain rfl := Option.some.inj hresult
          exact hs.withCode (by simp [HotnessProfile.markDeoptimized, HotnessProfile.rearm])
            (by simp) (by simp)
      | install state =>
          obtain rfl := Option.some.inj hfinish
          obtain rfl := Option.some.inj hresult
          exact hs.withCode hs.claimed (by simp) hs.unsettled
      | takeClaim n =>
          obtain rfl := Option.some.inj hfinish
          have hbeginning := hs.beginning n hpending
          have hlt := (List.getElem?_eq_some_iff.mp hbeginning).1
          -- The mutex is given up first, then the attempt has its answer.
          have hfree : ({ s with code := { s.code with pending := none } }).Held :=
            hs.withCode hs.claimed (by simp) hs.unsettled
          cases hclaimed : s.code.hotness.compilationClaimed with
          | false =>
              have htake : s.code.hotness.takeClaim.1 = true := by
                simp [HotnessProfile.takeClaim, hclaimed]
              rw [htake] at hresult
              obtain rfl := Option.some.inj hresult
              have hset := @Held.setAttempt _ hfree n _ .claimed hbeginning (by simp)
                (fun _ => trivial) (by simp)
              refine hset.withCode ?_ (by simp) ?_
              · simp [HotnessProfile.takeClaim, hclaimed]
              · intro m hm
                obtain rfl := Option.some.inj hm
                exact ⟨.claimed, by simp [OptimizationSystem.setAttempt, hlt], trivial⟩
          | true =>
              have htake : s.code.hotness.takeClaim.1 = false := by
                simp [HotnessProfile.takeClaim, hclaimed]
              rw [htake] at hresult
              obtain rfl := Option.some.inj hresult
              have hholder : s.holder ≠ some n := by
                intro hholder
                obtain ⟨stage, hstage, hunsettled⟩ := hs.unsettled n hholder
                obtain rfl : .beginning = stage := by simpa [hbeginning] using hstage
                exact hunsettled
              have hset := @Held.setAttempt _ hfree n _ .refused hbeginning (by simp)
                (fun h => absurd h hholder) (by simp)
              refine hset.withCode ?_ (by simp) hset.unsettled
              have hholder' := hs.claimed.mp hclaimed
              simpa [HotnessProfile.takeClaim, hclaimed, OptimizationSystem.setAttempt] using
                hholder'

/-- Looking for a task keeps the invariant. -/
lemma Held.lookup (hs : s.Held) {n : Nat} (hstep : s.step (.lookup n) = some s') : s'.Held := by
  simp only [step] at hstep
  split at hstep
  next hclaimed =>
    have hfree := hs.free hclaimed (by simp)
    split_ifs at hstep
    all_goals
      obtain rfl := Option.some.inj hstep
      exact hs.setAttempt hclaimed hfree (fun _ => trivial) (by simp)
  next => simp at hstep

/-- A submission keeps the invariant when it does not attach to a task whose job is over. -/
lemma Held.submit (hs : s.Held) {n generation estimatedBytes : Nat} {available allocates : Bool}
    (hstage : s.attempts[n]? = some (.submitting generation))
    (hcareful : ∀ h, s.scheduler.findTask (s.schedulingIdentity, generation) = some h →
      (s.jobs h).over = false) :
    (s.submit n generation estimatedBytes available allocates).Held := by
  have hfree := hs.free hstage (by simp)
  unfold OptimizationSystem.submit
  split_ifs with hunavailable
  · exact hs.setAttempt hstage hfree (fun _ => trivial) (by simp)
  · set request := s.request generation estimatedBytes with hrequest
    have hreleased : s.scheduler.released = false := by simpa using (not_or.mp hunavailable).2
    obtain ⟨hrevises, hworkers⟩ :=
      SchedulerState.submit_frame (s := s.scheduler) request none allocates fun _ => False
    have hconsistent : (s.scheduler.submit request none allocates).2.Consistent :=
      SchedulerState.consistent_step hs.consistent (e := .submit request none allocates)
        (by simp [SchedulerState.step, hreleased])
    have hscheduled := hs.scheduled hconsistent hrevises (by simp) (by
      intro w h state outcome hw
      rw [hworkers] at hw
      exact hs.resolved (.inr ⟨w, state, outcome, hw⟩))
    dsimp only
    split
    next ticket hticket =>
      have hcases := SchedulerState.ticket_submit hticket
      refine hscheduled.setAttempt hstage hfree ?_ ?_
      · intro _
        rcases hcases with hfound | ⟨rfl, -⟩
        · exact hcareful ticket hfound
        · simp [StageUnsettled, hs.fresh _ le_rfl, JobStage.over]
      · intro h heq
        obtain rfl := AttemptStage.submitted.inj heq
        rcases hcases with hfound | ⟨rfl, task, htask, hidentity⟩
        · obtain ⟨task, htask, hkey, -⟩ :=
            (hs.consistent.conserved.identified _ ticket).mp hfound
          have howns : s.owns ticket = true :=
            owns_iff.mpr ⟨task, htask, congrArg Prod.fst hkey⟩
          rw [owns_scheduled hrevises (lt_length_of_owns howns)]
          exact howns
        · exact owns_iff.mpr ⟨task, htask, hidentity⟩
    next => exact hscheduled.setAttempt hstage hfree (fun _ => trivial) (by simp)

/-- A report keeps the invariant. -/
lemma Held.report (hs : s.Held) {n : Nat} (hstep : s.step (.report n) = some s') : s'.Held := by
  simp only [step] at hstep
  split at hstep
  next hfailing =>
    obtain rfl := Option.some.inj hstep
    exact hs.reportFailure.setAttempt hfailing (hs.reportFailure.free hfailing (by simp))
      (by simp [OptimizationSystem.reportFailure]) (by simp)
  next => simp at hstep

/-- Only what something throws is thrown. -/
lemma compileOptimized_ne_throw {world : CompilationWorld} (hnone : world.exception = none)
    (parameterCount : Nat) (status : Status) :
    compileOptimized parameterCount world ≠ .throw status := by
  have hcheck : ∀ handle, checkOptimized parameterCount world handle ≠ .throw status := by
    intro handle
    unfold checkOptimized
    split_ifs <;> simp
  simp only [compileOptimized, hnone]
  split
  · simp
  · split
    · simp
    · split
      · exact hcheck _
      · split
        · simp
        · split
          · simp
          · split
            · simp
            · split
              · simp
              · exact hcheck _

/-- A decision of the job keeps the invariant when nothing is thrown. -/
lemma Held.decide (hs : s.Held) {w : Nat} {world : CompilationWorld}
    (hcareful : world.exception = none) (hstep : s.step (.decide w world) = some s') :
    s'.Held := by
  simp only [step] at hstep
  split at hstep
  next h hrunning =>
    split at hstep
    next howns hpending =>
      have hlt := lt_length_of_owns howns
      have hbefore : ∀ outcome, s.jobs h ≠ .settled outcome := by simp [hpending]
      split at hstep
      next status hthrow => exact absurd hthrow (compileOptimized_ne_throw hcareful _ status)
      next =>
        obtain rfl := Option.some.inj hstep
        exact hs.setJob hlt (fun _ => rfl) (by simp) hbefore
    next => simp at hstep
  next => simp at hstep

/-- The job's report keeps the invariant. -/
lemma Held.reportJob (hs : s.Held) {h : Nat} (hstep : s.step (.reportJob h) = some s') :
    s'.Held := by
  simp only [step] at hstep
  split at hstep
  next status hdecided =>
    obtain rfl := Option.some.inj hstep
    have hlt : h < s.scheduler.tasks.length := by
      by_contra hle
      simp [hs.fresh h (not_lt.mp hle)] at hdecided
    refine hs.reportFailure.setJob hlt ?_ (by simp) ?_
    · simp [OptimizationSystem.reportFailure]
    · intro outcome
      simp [OptimizationSystem.reportFailure, hdecided]
  next => simp at hstep

/-- A promotion keeps the invariant. -/
lemma Held.promote (hs : s.Held) {h : Nat} {allocates : Bool}
    (hstep : s.step (.promote h allocates) = some s') : s'.Held := by
  simp only [step] at hstep
  split at hstep
  next handle hdecided =>
    simp only [OptimizationSystem.promote, Option.bind_eq_bind, Option.bind_eq_some_iff] at hstep
    obtain ⟨task, htask, hresult⟩ := hstep
    have hlt := (List.getElem?_eq_some_iff.mp htask).1
    have hbefore : ∀ outcome, s.jobs h ≠ .settled outcome := by simp [hdecided]
    split_ifs at hresult
    split at hresult
    next code hpublish =>
      obtain rfl := Option.some.inj hresult
      obtain ⟨previous, -, -, -, rfl⟩ := TieredCode.publishOptimized_eq_ok hpublish
      have hreleased : ({ s with
          code := { s.code with
            promotions := saturatingAdd s.code.promotions 1
            hotness := s.code.hotness.markOptimized
            pending := some (.install (TieredCode.optimizedState previous handle)) }
          holder := none }).Held :=
        hs.withCode (by simp [HotnessProfile.markOptimized]) (by simp) (by simp)
      exact hreleased.setJob hlt (by simp) (by simp) hbefore
    next status =>
      obtain rfl := Option.some.inj hresult
      exact hs.setJob hlt (fun _ => rfl) (by simp) hbefore
  next => simp at hstep

/-- What others do to the scheduler. -/
lemma Held.schedule (hs : s.Held) {e : SchedulerEvent} (hcareful : s.Careful (.scheduler e))
    (hstep : s.step (.scheduler e) = some s') : s'.Held := by
  simp only [step] at hstep
  split_ifs at hstep with hallows
  simp only [Option.bind_eq_bind, Option.bind_eq_some_iff] at hstep
  obtain ⟨t, hscheduler, heq⟩ := hstep
  obtain rfl := Option.some.inj heq
  obtain ⟨hrevises, hcompletes⟩ := SchedulerState.step_frame hscheduler
  have hview : ∀ {h : Nat} {v : TaskView}, s.scheduler.views[h]? = some v →
      h < s.scheduler.tasks.length := by
    intro h v hv
    simpa [SchedulerState.views] using (List.getElem?_eq_some_iff.mp hv).1
  refine hs.scheduled (SchedulerState.consistent_step hs.consistent hscheduler) hrevises ?_ ?_
  · intro h hends
    rcases hends with ⟨w, state, outcome, hw⟩ | ⟨rfl, task, htask, hqueued⟩ | ⟨rfl, hlane⟩
    · exact hs.resolved (.inr ⟨w, state, outcome, hw⟩)
    · refine ⟨(List.getElem?_eq_some_iff.mp htask).1, ?_⟩
      intro howns
      exact absurd hqueued (hcareful howns task htask)
    · obtain ⟨p, hp⟩ := SchedulerState.mem_lanes.mp hlane
      obtain ⟨v, hv, -⟩ := (hs.consistent.placed.lane_mem p h).mp hp
      refine ⟨hview hv, ?_⟩
      intro howns
      rw [hcareful h hlane] at howns
      simp at howns
  · intro w h state outcome hw
    rcases hcompletes w h state outcome hw with hbefore | ⟨result, rfl, hrunning⟩
    · exact hs.resolved (.inr ⟨w, state, outcome, hbefore⟩)
    · have hheld : s.scheduler.heldBy w = some h := by
        simp [SchedulerState.heldBy, hrunning, Worker.task?]
      obtain ⟨v, hv, -⟩ := (hs.consistent.placed.held h).mpr ⟨w, hheld⟩
      refine ⟨hview hv, ?_⟩
      intro howns
      simp only [allows, hrunning, howns, Bool.not_true, Bool.false_or] at hallows
      split at hallows
      next hjob => exact ⟨_, hjob⟩
      next hjob => exact ⟨_, hjob⟩
      next hjob => exact absurd hjob (hs.unthrown h _)
      next => simp at hallows

/-- What others do to the tiered code touches no claim before they finish. -/
lemma background_frame {c c' : TieredCode} {e : TieringEvent} (hbackground : background e = true)
    (hstep : c.step e = some c') :
    c'.hotness.compilationClaimed = c.hotness.compilationClaimed ∧
      ∀ n, c'.pending = some (.takeClaim n) → c.pending = some (.takeClaim n) := by
  cases e with
  | publishBaseline baseline allocates =>
      simp only [TieredCode.step, TieredCode.underMutex] at hstep
      split_ifs at hstep
      cases hrun : c.publishBaseline baseline allocates with
      | error status =>
          obtain rfl : c = c' := by simpa [hrun, Except.toOption] using hstep
          exact ⟨rfl, fun _ hn => hn⟩
      | ok next =>
          obtain rfl : next = c' := by simpa [hrun, Except.toOption] using hstep
          obtain rfl := TieredCode.publishBaseline_eq_ok hrun
          exact ⟨rfl, by simp⟩
  | withdraw expected =>
      simp only [TieredCode.step, TieredCode.underMutex] at hstep
      split_ifs at hstep
      cases hrun : c.withdrawOptimized expected with
      | none =>
          obtain rfl : c = c' := by simpa [hrun] using hstep
          exact ⟨rfl, fun _ hn => hn⟩
      | some next =>
          obtain rfl : next = c' := by simpa [hrun] using hstep
          obtain ⟨previous, fallback, -, -, -, -, rfl⟩ := TieredCode.withdrawOptimized_eq_some hrun
          exact ⟨rfl, by simp⟩
  | accountFailure =>
      simp only [TieredCode.step, TieredCode.accountFailure] at hstep
      split_ifs at hstep
      obtain rfl := Option.some.inj hstep
      exact ⟨rfl, fun _ hn => hn⟩
  | lease =>
      obtain rfl := Option.some.inj hstep
      exact ⟨rfl, fun _ hn => hn⟩
  | recordInvocation =>
      obtain rfl := Option.some.inj hstep
      exact ⟨rfl, fun _ hn => hn⟩
  | recordBackedges count =>
      obtain rfl := Option.some.inj hstep
      exact ⟨rfl, fun _ hn => hn⟩
  | invalidate assumption =>
      obtain rfl := Option.some.inj hstep
      exact ⟨rfl, fun _ hn => hn⟩
  | _ => simp [background] at hbackground

/-- What happens to the code meanwhile keeps the invariant. -/
lemma Held.background (hs : s.Held) {e : TieringEvent} (hstep : s.step (.code e) = some s') :
    s'.Held := by
  simp only [step] at hstep
  split_ifs at hstep with hbackground
  simp only [Option.bind_eq_bind, Option.bind_eq_some_iff] at hstep
  obtain ⟨code, hcode, heq⟩ := hstep
  obtain rfl := Option.some.inj heq
  obtain ⟨hclaimed, hpending⟩ := background_frame hbackground hcode
  refine hs.withCode ?_ hpending hs.unsettled
  rw [hclaimed]
  exact hs.claimed

/-- **Step.** -/
lemma Held.step {e : OptimizationEvent} (hs : s.Held) (hcareful : s.Careful e)
    (hstep : s.step e = some s') : s'.Held := by
  cases e with
  | begin => exact hs.begin hstep
  | finish => exact hs.finish hstep
  | lookup n => exact hs.lookup hstep
  | submit n estimatedBytes available allocates =>
      simp only [OptimizationSystem.step] at hstep
      split at hstep
      next generation hstage =>
        obtain rfl := Option.some.inj hstep
        exact hs.submit hstage (hcareful generation hstage)
      next => simp at hstep
  | report n => exact hs.report hstep
  | decide w world => exact hs.decide hcareful hstep
  | reportJob h => exact hs.reportJob hstep
  | promote h allocates => exact hs.promote hstep
  | scheduler e => exact hs.schedule hcareful hstep
  | code e => exact hs.background hstep

/-- The invariant holds at the start. -/
lemma held_start {options : CompilationSchedulerOptions} {hardwareConcurrency : Nat}
    {scheduler : SchedulerState}
    (hcreate : SchedulerState.create options hardwareConcurrency = .ok scheduler)
    (thresholds : TieringThresholds) (schedulingIdentity : List (BitVec 8))
    (parameterCount : Nat) (tierable : Bool) :
    (start scheduler thresholds schedulingIdentity parameterCount tierable).Held where
  consistent := SchedulerState.consistent_create hcreate
  claimed := by simp [start, TieredCode.ofThresholds, HotnessProfile.ofThresholds]
  beginning := by simp [start, TieredCode.ofThresholds]
  unsettled := by simp [start]
  fresh := by simp [start]
  unthrown := by simp [start]
  owned := by simp [start]
  ended := by
    intro h howns
    have hlt := lt_length_of_owns howns
    have hempty : scheduler.tasks = [] := by
      simp only [SchedulerState.create, bind_eq_ok] at hcreate
      obtain ⟨_, -, heq⟩ := hcreate
      obtain rfl := pure_eq_ok.mp heq
      rfl
    simp [start, hempty] at hlt

/-- **Claims are settled** in every run in which no task of the function is dropped from the queue,
no job throws, and no submission is answered with a task whose job is over. -/
theorem claims_settled_of_careful {options : CompilationSchedulerOptions}
    {hardwareConcurrency : Nat} {scheduler : SchedulerState} {thresholds : TieringThresholds}
    {schedulingIdentity : List (BitVec 8)} {parameterCount : Nat} {tierable : Bool}
    {events : List OptimizationEvent} {s : OptimizationSystem}
    (hcreate : SchedulerState.create options hardwareConcurrency = .ok scheduler)
    (hcareful : Transitions.Along step Careful
      (start scheduler thresholds schedulingIdentity parameterCount tierable) events)
    (run : Transitions.afterEvents step
      (start scheduler thresholds schedulingIdentity parameterCount tierable) events = some s) :
    s.ClaimsSettled := by
  have hs : s.Held := Transitions.invariant_along (fun _ _ _ hs hcareful => hs.step hcareful)
    (held_start hcreate thresholds schedulingIdentity parameterCount tierable) hcareful run
  exact hs.claimsSettled

/-- A function of the identity `f` that one invocation makes hot. -/
def sampleThresholds : TieringThresholds := { invocations := 1, backedges := 10, retryDelay := 1 }

/-- A baseline. -/
def sampleBaseline : CodeHandle := ⟨some ⟨1, [.word], .word, []⟩⟩

/-- An optimized function. -/
def sampleOptimized : CompiledFunction := ⟨2, [.word], .word, []⟩

/-- A function with a baseline and one worker. -/
def sampleStart : OptimizationSystem :=
  start { options := { workerCount := 1 }
          statistics := { workerCount := 1, accepting := true }
          workers := [.waiting] } sampleThresholds [0x66#8] 1 true

/-- The baseline is published and invoked, and the caller submits a task. -/
def sampleSubmission : List OptimizationEvent :=
  [.code (.publishBaseline sampleBaseline true), .finish, .code .recordInvocation, .begin, .finish,
    .lookup 0, .submit 0 4096 true true]

/-- A worker takes the task, and its job publishes the optimized tier. -/
def samplePromotion : List OptimizationEvent :=
  [.scheduler (.pop 0),
    .decide 0 { compile := .ok sampleOptimized, publish := fun f => .ok ⟨some f⟩ },
    .promote 0 true, .finish, .scheduler (.sample 0 (.ok ())), .scheduler (.publish 0)]

/-- The run that submits and promotes is careful. -/
lemma careful_promotion : Transitions.Along step Careful sampleStart
    (sampleSubmission ++ samplePromotion) := by
  refine ⟨trivial, fun s₁ h₁ => ⟨trivial, fun s₂ h₂ => ⟨trivial, fun s₃ h₃ => ⟨trivial,
    fun s₄ h₄ => ⟨trivial, fun s₅ h₅ => ⟨trivial, fun s₆ h₆ => ⟨?_, fun s₇ h₇ => ⟨trivial,
    fun s₈ h₈ => ⟨rfl, fun s₉ h₉ => ⟨trivial, fun _ _ => ⟨trivial, fun _ _ => ⟨trivial,
    fun _ _ => ⟨trivial, fun _ _ => trivial⟩⟩⟩⟩⟩⟩⟩⟩⟩⟩⟩⟩⟩
  obtain rfl := Option.some.inj h₁
  obtain rfl := Option.some.inj h₂
  obtain rfl := Option.some.inj h₃
  obtain rfl := Option.some.inj h₄
  obtain rfl := Option.some.inj h₅
  obtain rfl := Option.some.inj h₆
  intro _ _ _ _
  rfl

/-- In the run that submits and promotes the claim is given back and the job is settled. -/
theorem claims_settled_of_careful_sample :
    ∃ s, Transitions.afterEvents step sampleStart (sampleSubmission ++ samplePromotion) = some s ∧
      s.holder ≠ some 0 ∧ ∃ outcome, s.jobs 0 = .settled outcome := by
  refine ⟨_, rfl, ?_⟩
  have hsettled := @claims_settled_of_careful {} 1 _ sampleThresholds [0x66#8] 1 true _ _ rfl
    careful_promotion rfl
  exact hsettled.finished 0 0 _ rfl rfl rfl

/-- The task is cancelled while it is queued. It never runs, and the claim is still there. -/
theorem claim_lost_by_cancellation :
    ¬∀ (options : CompilationSchedulerOptions) (hardwareConcurrency : Nat)
      (scheduler : SchedulerState) (thresholds : TieringThresholds)
      (schedulingIdentity : List (BitVec 8)) (parameterCount : Nat) (tierable : Bool)
      (events : List OptimizationEvent) (s : OptimizationSystem),
      SchedulerState.create options hardwareConcurrency = .ok scheduler →
        Transitions.afterEvents step
          (start scheduler thresholds schedulingIdentity parameterCount tierable) events = some s →
        s.ClaimsSettled := by
  intro settled
  have hsettled := settled {} 1 _ sampleThresholds [0x66#8] 1 true
    (sampleSubmission ++ [.scheduler (.cancel 0)]) _ rfl rfl
  exact (hsettled.finished 0 0 _ rfl rfl rfl).1 rfl

end UniJit.Lua.OptimizationSystem
