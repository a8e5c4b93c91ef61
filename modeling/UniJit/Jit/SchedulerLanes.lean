import UniJit.Jit.SchedulerRuns

/-!
# How the lanes are served

Which lane a worker takes its next task from depends on two burst counters and on which lanes hold
tasks. Arrivals, cancellations and everything else between two such steps change the lanes in any
way but leave the counters alone (`step_bursts`), so what a run takes is decided by the counters.

A lane that stays non-empty is served after a bounded number of tasks of other lanes: each of them
uses up some of a potential of the counters (`starvation_bound`). While no lane runs empty the
lanes are served in turns of fifteen, twelve urgent tasks, two normal ones and one background task;
the shares of 4:2:1 that the scheduler is documented to give are not met in any window
(`lane_shares`).
-/

namespace UniJit.Jit

open Lib

namespace SchedulerState

/-- The lane from which an event takes a task. -/
def takenLane (s : SchedulerState) : SchedulerEvent → Option CompilationPriority
  | .pop w =>
      match s.workers[w]? with
      | some .waiting =>
          if s.statistics.queuedTasks = 0 then none else s.selectLane.map (·.1)
      | _ => none
  | _ => none

/-- The lanes from which a run takes its tasks, in order. -/
def takenLanes (s : SchedulerState) (events : List SchedulerEvent) : List CompilationPriority :=
  Transitions.outputs step takenLane s events

/-! ## The burst counters -/

/-- The burst counters of the urgent and the normal lane. -/
def bursts (s : SchedulerState) : Nat × Nat := (s.urgentBurst, s.normalBurst)

variable {s s' : SchedulerState} {e : SchedulerEvent}

lemma bursts_discard (s : SchedulerState) (h : Nat) : (s.discard h).bursts = s.bursts := by
  rw [discard, eraseTask_eq]
  rfl

/-- Dropping tasks leaves the bursts alone. -/
lemma bursts_foldl_discard (dropped : List Nat) (s : SchedulerState) :
    (dropped.foldl discard s).bursts = s.bursts := by
  induction dropped generalizing s with
  | nil => rfl
  | cons h rest ih => rw [List.foldl_cons, ih, bursts_discard]

/-- An attempt to submit leaves the bursts alone. -/
lemma bursts_attempt (request : CompilationRequest) (priority : CompilationPriority)
    (allocates : Bool) : (s.attempt request priority allocates).2.bursts = s.bursts := by
  unfold attempt
  split
  · rfl
  · split_ifs <;> rfl

/-- A submission leaves the bursts alone. -/
lemma bursts_submit (request : CompilationRequest) (timeout : Option Int) (allocates : Bool) :
    (s.submit request timeout allocates).2.bursts = s.bursts := by
  unfold submit
  split
  · rfl
  · split
    next status _ =>
      dsimp only
      split <;> rfl
    next priority _ =>
      have hattempt := bursts_attempt (s := s) request priority allocates
      split
      next heq =>
        rw [heq] at hattempt
        exact hattempt
      next heq =>
        rw [heq] at hattempt
        split <;> exact hattempt

/-- A submitter that wakes leaves the bursts alone. -/
lemma bursts_submitterWake {i : Nat} {allocates : Bool}
    (h : s.submitterWake i allocates = some s') : s'.bursts = s.bursts := by
  simp only [submitterWake, Option.bind_eq_bind, Option.bind_eq_some_iff] at h
  obtain ⟨request, -, priority, -, hresult⟩ := h
  have hattempt := bursts_attempt (s := s) request priority allocates
  split at hresult
  next heq =>
    rw [heq] at hattempt
    obtain rfl := Option.some.inj hresult
    exact hattempt
  next heq =>
    rw [heq] at hattempt
    obtain rfl := Option.some.inj hresult
    exact hattempt

/-- A cancellation leaves the bursts alone. -/
lemma bursts_cancel (h : Nat) : (s.cancel h).2.bursts = s.bursts := by
  unfold cancel
  split
  · rfl
  · split
    · rfl
    · dsimp only
      split
      · rfl
      · split
        · rfl
        · split
          · rfl
          · exact bursts_discard _ h

/-- A worker that publishes leaves the bursts alone. -/
lemma bursts_workerPublish {w : Nat} (h : s.workerPublish w = some s') :
    s'.bursts = s.bursts := by
  unfold workerPublish at h
  split at h
  next i state outcome hw =>
    obtain rfl := Option.some.inj h
    rw [eraseTask_eq]
    rfl
  next => contradiction

/-- A shutdown leaves the bursts alone. -/
lemma bursts_shutdown {mode : SchedulerShutdownMode} (h : s.shutdown mode = some s') :
    s'.bursts = s.bursts := by
  unfold shutdown at h
  split at h
  · obtain rfl := Option.some.inj h
    cases mode with
    | drain => rfl
    | cancel => exact bursts_foldl_discard _ _
  · contradiction
  · obtain rfl := Option.some.inj h
    rfl

/-! ## What one step takes -/

/-- The three ways in which a lane is selected; the other two branches of `pop_task_locked` are
never reached. -/
lemma selectLane_cases {lane : CompilationPriority} {urgent normal : Nat}
    (h : s.selectLane = some (lane, urgent, normal)) :
    (lane = .urgent ∧ urgent = sizeAdd s.urgentBurst 1 ∧ normal = s.normalBurst ∧
        (s.urgentBurst < urgentBurstLimit ∨
          (s.queues .normal = [] ∧ s.queues .background = []))) ∨
      (lane = .normal ∧ urgent = 0 ∧ normal = sizeAdd s.normalBurst 1 ∧
        (s.queues .urgent = [] ∨ urgentBurstLimit ≤ s.urgentBurst) ∧
        (s.normalBurst < normalBurstLimit ∨ s.queues .background = [])) ∨
      (lane = .background ∧ urgent = 0 ∧ normal = 0 ∧
        (s.queues .urgent = [] ∨ urgentBurstLimit ≤ s.urgentBurst) ∧
        (s.queues .normal = [] ∨ normalBurstLimit ≤ s.normalBurst)) := by
  unfold selectLane at h
  split_ifs at h with hurgent hnormal hbackground hurgent' hnormal'
  · simp only [Option.some.injEq, Prod.mk.injEq] at h
    exact .inl ⟨h.1.symm, h.2.1.symm, h.2.2.symm, hurgent.2⟩
  · simp only [Option.some.injEq, Prod.mk.injEq] at h
    refine .inr (.inl ⟨h.1.symm, h.2.1.symm, h.2.2.symm, ?_, hnormal.2⟩)
    by_cases hempty : s.queues .urgent = []
    · exact .inl hempty
    · right
      by_contra hlt
      exact hurgent ⟨hempty, .inl (not_le.mp hlt)⟩
  · simp only [Option.some.injEq, Prod.mk.injEq] at h
    refine .inr (.inr ⟨h.1.symm, h.2.1.symm, h.2.2.symm, ?_, ?_⟩)
    · by_cases hempty : s.queues .urgent = []
      · exact .inl hempty
      · right
        by_contra hlt
        exact hurgent ⟨hempty, .inl (not_le.mp hlt)⟩
    · by_cases hempty : s.queues .normal = []
      · exact .inl hempty
      · right
        by_contra hlt
        exact hnormal ⟨hempty, .inl (not_le.mp hlt)⟩
  -- an urgent task that is not taken at once waits for a normal or a background one
  · exfalso
    push Not at hbackground
    by_cases hempty : s.queues .normal = []
    · exact hurgent ⟨hurgent', .inr ⟨hempty, hbackground⟩⟩
    · exact hnormal ⟨hempty, .inr hbackground⟩
  · exfalso
    push Not at hbackground
    exact hnormal ⟨hnormal', .inr hbackground⟩

/-- What taking a task does: the front of the selected lane goes to the worker. -/
structure Takes (s : SchedulerState) (w : Nat) (lane : CompilationPriority) (s' : SchedulerState) :
    Prop where
  selected : s.selectLane = some (lane, s'.urgentBurst, s'.normalBurst)
  front : ∃ h, s.queues lane = h :: s'.queues lane ∧ s'.workers[w]? = some (.running h)
  others : ∀ other, other ≠ lane → s'.queues other = s.queues other

/-- **Step.** An event that takes no task leaves the counters alone, and one that does is a worker
taking the front of the selected lane. -/
lemma step_taken (hstep : s.step e = some s') :
    (s.takenLane e = none ∧ s'.bursts = s.bursts) ∨
      ∃ w lane, e = .pop w ∧ s.takenLane e = some lane ∧ s.Takes w lane s' := by
  cases hreleased : s.released with
  | true =>
      cases e with
      | cancel h =>
          obtain rfl : (s.cancel h).2 = s' := by simpa [step, hreleased] using hstep
          exact .inl ⟨rfl, bursts_cancel h⟩
      | _ => simp [step, hreleased] at hstep
  | false =>
      cases e with
      | cancel h =>
          obtain rfl : (s.cancel h).2 = s' := by simpa [step, hreleased] using hstep
          exact .inl ⟨rfl, bursts_cancel h⟩
      | submit request timeout allocates =>
          obtain rfl : (s.submit request timeout allocates).2 = s' := by
            simpa [step, hreleased] using hstep
          exact .inl ⟨rfl, bursts_submit request timeout allocates⟩
      | wake i allocates =>
          simp only [step, hreleased] at hstep
          exact .inl ⟨rfl, bursts_submitterWake hstep⟩
      | timeout i =>
          simp only [step, hreleased, submitterTimeout, Option.bind_eq_bind,
            Option.bind_eq_some_iff] at hstep
          obtain ⟨request, -, heq⟩ := hstep
          obtain rfl := Option.some.inj heq
          exact .inl ⟨rfl, rfl⟩
      | pop w =>
          simp only [step, hreleased, workerPop] at hstep
          split at hstep
          next hw =>
            split_ifs at hstep with hwork hqueued
            · obtain rfl := Option.some.inj hstep
              exact .inl ⟨by simp [takenLane, hw, hqueued], rfl⟩
            · simp only [popTask, Option.bind_eq_bind, Option.bind_eq_some_iff] at hstep
              obtain ⟨⟨h, popped⟩, ⟨⟨lane, urgent, normal⟩, hlane, h', hfront, task, -, heq⟩, hset⟩ :=
                hstep
              obtain ⟨rfl, rfl⟩ := Prod.mk.inj (Option.some.inj heq)
              obtain rfl := Option.some.inj hset
              obtain ⟨rest, hqueue⟩ := List.head?_eq_some_iff.mp hfront
              have hlt := (List.getElem?_eq_some_iff.mp hw).1
              refine .inr ⟨w, lane, rfl, by simp [takenLane, hw, hqueued, hlane], ⟨hlane, ?_, ?_⟩⟩
              · exact ⟨h', by simp [updateTask, hqueue], by simp [updateTask, hlt]⟩
              · intro other hother
                simp [updateTask, hother]
          next => contradiction
      | sample w outcome =>
          simp only [step, hreleased, workerSample] at hstep
          split at hstep
          next h hw =>
            simp only [Option.bind_eq_bind, Option.bind_eq_some_iff] at hstep
            obtain ⟨task, -, heq⟩ := hstep
            obtain rfl := Option.some.inj heq
            exact .inl ⟨rfl, rfl⟩
          next => contradiction
      | publish w =>
          simp only [step, hreleased] at hstep
          exact .inl ⟨rfl, bursts_workerPublish hstep⟩
      | shutdown mode =>
          simp only [step, hreleased] at hstep
          exact .inl ⟨rfl, bursts_shutdown hstep⟩
      | join self =>
          simp only [step, hreleased, joinWorkers] at hstep
          split_ifs at hstep
          obtain rfl := Option.some.inj hstep
          exact .inl ⟨rfl, rfl⟩
      | release =>
          simp only [step, hreleased, release] at hstep
          split_ifs at hstep
          obtain rfl := Option.some.inj hstep
          exact .inl ⟨rfl, rfl⟩

/-! ## Starvation -/

/-- A lane that stays non-empty through a window that takes nothing from it. -/
def Passed (lane : CompilationPriority) (s : SchedulerState) (e : SchedulerEvent) : Prop :=
  s.queues lane ≠ [] ∧ (s.step e ≠ none → s.takenLane e ≠ some lane)

/-- How many tasks can be taken before a background task: the rest of an urgent burst, and for
each normal task that may still come, that task and a full urgent burst. -/
def backgroundPotential (s : SchedulerState) : Nat :=
  (urgentBurstLimit - s.urgentBurst) +
    (urgentBurstLimit + 1) * (normalBurstLimit - s.normalBurst)

/-- How many tasks can be taken before a normal task: the rest of an urgent burst, and a background
task with a full urgent burst if the normal burst is over. -/
def normalPotential (s : SchedulerState) : Nat :=
  (urgentBurstLimit - s.urgentBurst) +
    if normalBurstLimit ≤ s.normalBurst then urgentBurstLimit + 1 else 0

lemma sizeAdd_one {n : Nat} (h : n < 4) : sizeAdd n 1 = n + 1 :=
  sizeAdd_eq (by omega)

/-- **Step.** A step that passes over the background lane uses up its potential. -/
lemma lowers_backgroundPotential (hpassed : Passed .background s e) (hstep : s.step e = some s') :
    s'.backgroundPotential + (s.takenLane e).toList.length ≤ s.backgroundPotential := by
  obtain ⟨hwaiting, hother⟩ := hpassed
  rcases step_taken hstep with ⟨hnone, hbursts⟩ | ⟨w, lane, rfl, hlane, htakes⟩
  · obtain ⟨hurgent, hnormal⟩ := Prod.mk.inj hbursts
    simp [backgroundPotential, hnone, hurgent, hnormal]
  · rw [hlane, Option.toList_some, List.length_singleton]
    rw [hlane] at hother
    unfold backgroundPotential urgentBurstLimit normalBurstLimit
    rcases selectLane_cases htakes.selected with ⟨-, hurgent, hnormal, hlimit⟩ |
      ⟨-, hurgent, hnormal, -, hlimit⟩ | ⟨rfl, -⟩
    · have hlt : s.urgentBurst < 4 := hlimit.resolve_right fun hempty => hwaiting hempty.2
      rw [hurgent, hnormal, sizeAdd_one hlt]
      omega
    · have hlt : s.normalBurst < 2 := hlimit.resolve_right hwaiting
      rw [hurgent, hnormal, sizeAdd_one (by omega)]
      omega
    · exact absurd rfl (hother (by simp [hstep]))

/-- **Step.** A step that passes over the normal lane uses up its potential. -/
lemma lowers_normalPotential (hpassed : Passed .normal s e) (hstep : s.step e = some s') :
    s'.normalPotential + (s.takenLane e).toList.length ≤ s.normalPotential := by
  obtain ⟨hwaiting, hother⟩ := hpassed
  rcases step_taken hstep with ⟨hnone, hbursts⟩ | ⟨w, lane, rfl, hlane, htakes⟩
  · obtain ⟨hurgent, hnormal⟩ := Prod.mk.inj hbursts
    simp [normalPotential, hnone, hurgent, hnormal]
  · rw [hlane, Option.toList_some, List.length_singleton]
    rw [hlane] at hother
    unfold normalPotential urgentBurstLimit normalBurstLimit
    rcases selectLane_cases htakes.selected with ⟨-, hurgent, hnormal, hlimit⟩ | ⟨rfl, -⟩ |
      ⟨-, hurgent, hnormal, -, hlimit⟩
    · have hlt : s.urgentBurst < 4 := hlimit.resolve_right fun hempty => hwaiting hempty.1
      rw [hurgent, hnormal, sizeAdd_one hlt]
      omega
    · exact absurd rfl (hother (by simp [hstep]))
    · have hle : 2 ≤ s.normalBurst := hlimit.resolve_left hwaiting
      rw [hurgent, hnormal, if_pos hle]
      simp

/-- **Starvation bound**: whatever the lanes and counters are at the start, in every run while the
background lane stays non-empty at most fourteen tasks in a row are taken from other lanes, and
while the normal lane stays non-empty at most nine are. -/
theorem starvation_bound (s : SchedulerState) (events : List SchedulerEvent) :
    (Transitions.Along step (fun s _ => s.queues .background ≠ []) s events →
      .background ∉ s.takenLanes events → (s.takenLanes events).length ≤ 14) ∧
    (Transitions.Along step (fun s _ => s.queues .normal ≠ []) s events →
      .normal ∉ s.takenLanes events → (s.takenLanes events).length ≤ 9) := by
  refine ⟨fun waiting never => ?_, fun waiting never => ?_⟩
  · have hpassed : Transitions.Along step (Passed .background) s events :=
      Transitions.along_outputs waiting never
    calc (s.takenLanes events).length
        ≤ s.backgroundPotential := Transitions.length_outputs_le
          (fun _ _ _ => lowers_backgroundPotential) hpassed
      _ ≤ 14 := by
        unfold backgroundPotential urgentBurstLimit normalBurstLimit
        omega
  · have hpassed : Transitions.Along step (Passed .normal) s events :=
      Transitions.along_outputs waiting never
    calc (s.takenLanes events).length
        ≤ s.normalPotential := Transitions.length_outputs_le
          (fun _ _ _ => lowers_normalPotential) hpassed
      _ ≤ 9 := by
        unfold normalPotential urgentBurstLimit normalBurstLimit
        split_ifs <;> omega

/-! ## Shares -/

/-- No lane is empty. -/
def Busy (s : SchedulerState) : Prop := ∀ lane, s.queues lane ≠ []

/-- The turns of the lanes while none of them runs empty. -/
def turns : List CompilationPriority :=
  let urgentTurns := List.replicate urgentBurstLimit CompilationPriority.urgent
  urgentTurns ++ [.normal] ++ urgentTurns ++ [.normal] ++ urgentTurns ++ [.background]

/-- The turn that the counters stand for. -/
def turn (s : SchedulerState) : Nat :=
  (urgentBurstLimit + 1) * min s.normalBurst normalBurstLimit + min s.urgentBurst urgentBurstLimit

/-- **Step.** While no lane is empty, a task is taken from the lane whose turn it is. -/
lemma takes_turn {w : Nat} {lane : CompilationPriority} (hbusy : s.Busy)
    (htakes : s.Takes w lane s') :
    turns[s.turn]? = some lane ∧ s'.turn = (s.turn + 1) % turns.length := by
  have hlength : turns.length = 15 := rfl
  rw [hlength]
  unfold turn urgentBurstLimit normalBurstLimit
  rcases selectLane_cases htakes.selected with ⟨rfl, hurgent, hnormal, hlimit⟩ |
    ⟨rfl, hurgent, hnormal, hlimit, hburst⟩ | ⟨rfl, hurgent, hnormal, hlimit, hburst⟩
  · have hlt : s.urgentBurst < 4 := hlimit.resolve_right fun hempty => hbusy .normal hempty.1
    rw [hurgent, hnormal, sizeAdd_one hlt]
    refine ⟨?_, by omega⟩
    obtain hcase | hcase | hcase : min s.normalBurst 2 = 0 ∨ min s.normalBurst 2 = 1 ∨
        min s.normalBurst 2 = 2 := by omega
    all_goals
      rw [hcase, min_eq_left (by omega)]
      interval_cases s.urgentBurst <;> rfl
  · have hle : 4 ≤ s.urgentBurst := hlimit.resolve_left (hbusy .urgent)
    have hlt : s.normalBurst < 2 := hburst.resolve_right (hbusy .background)
    rw [hurgent, hnormal, sizeAdd_one (by omega), min_eq_right hle]
    refine ⟨?_, by omega⟩
    interval_cases s.normalBurst <;> rfl
  · have hle : 4 ≤ s.urgentBurst := hlimit.resolve_left (hbusy .urgent)
    have hge : 2 ≤ s.normalBurst := hburst.resolve_left (hbusy .normal)
    rw [hurgent, hnormal, min_eq_right hle, min_eq_right hge]
    exact ⟨rfl, rfl⟩

/-- While no lane is empty, the tasks come from the lanes in their turns. -/
lemma taken_in_turns {events : List SchedulerEvent}
    (busy : Transitions.Along step (fun s _ => s.Busy) s events) {i : Nat}
    {lane : CompilationPriority} (htaken : (s.takenLanes events)[i]? = some lane) :
    turns[(s.turn + i) % turns.length]? = some lane := by
  induction events generalizing s i with
  | nil => simp [takenLanes, Transitions.outputs] at htaken
  | cons e events ih =>
      unfold takenLanes Transitions.outputs at htaken
      split at htaken
      · simp at htaken
      next s' hstep =>
        rcases step_taken hstep with ⟨hnone, hbursts⟩ | ⟨w, served, rfl, hlane, htakes⟩
        · obtain ⟨hurgent, hnormal⟩ := Prod.mk.inj hbursts
          have hturn : s'.turn = s.turn := by simp [turn, hurgent, hnormal]
          rw [hnone] at htaken
          rw [← hturn]
          exact ih (busy.2 s' hstep) htaken
        · obtain ⟨hserved, hturn⟩ := takes_turn busy.1 htakes
          rw [hlane] at htaken
          cases i with
          | zero =>
              obtain rfl : served = lane := by simpa using htaken
              obtain ⟨hlt, -⟩ := List.getElem?_eq_some_iff.mp hserved
              rwa [Nat.add_zero, Nat.mod_eq_of_lt hlt]
          | succ i =>
              have hnext := ih (busy.2 s' hstep) (i := i)
                (by simpa [takenLanes] using htaken)
              rw [hturn, Nat.mod_add_mod] at hnext
              rwa [Nat.add_right_comm] at hnext

/-- While no lane is empty, five tasks hold at least four urgent ones. -/
lemma urgent_share {events : List SchedulerEvent}
    (busy : Transitions.Along step (fun s _ => s.Busy) s events) :
    5 * ((s.takenLanes events).length - (s.takenLanes events).count .urgent) ≤
      (s.takenLanes events).length + min s.urgentBurst urgentBurstLimit := by
  induction events generalizing s with
  | nil => simp [takenLanes, Transitions.outputs]
  | cons e events ih =>
      unfold takenLanes Transitions.outputs
      split
      · simp
      next s' hstep =>
        have hrest := ih (busy.2 s' hstep)
        change 5 * ((s'.takenLanes events).length - (s'.takenLanes events).count .urgent) ≤ _
          at hrest
        have hcount := List.count_le_length (l := s'.takenLanes events) (a := .urgent)
        rcases step_taken hstep with ⟨hnone, hbursts⟩ | ⟨w, served, rfl, hlane, htakes⟩
        · obtain ⟨hurgent, -⟩ := Prod.mk.inj hbursts
          rw [hnone, ← hurgent]
          exact hrest
        · rw [hlane]
          change 5 * ((served :: s'.takenLanes events).length -
            (served :: s'.takenLanes events).count .urgent) ≤
              (served :: s'.takenLanes events).length + _
          rw [List.length_cons]
          unfold urgentBurstLimit at hrest ⊢
          rcases selectLane_cases htakes.selected with ⟨rfl, hurgent, -, hlimit⟩ |
            ⟨rfl, hurgent, -, hlimit, -⟩ | ⟨rfl, hurgent, -, hlimit, -⟩
          · have hlt : s.urgentBurst < 4 :=
              hlimit.resolve_right fun hempty => busy.1 .normal hempty.1
            rw [hurgent, sizeAdd_one hlt] at hrest
            rw [List.count_cons_self]
            omega
          · have hle : 4 ≤ s.urgentBurst := hlimit.resolve_left (busy.1 .urgent)
            rw [List.count_cons_of_ne (by decide)]
            omega
          · have hle : 4 ≤ s.urgentBurst := hlimit.resolve_left (busy.1 .urgent)
            rw [List.count_cons_of_ne (by decide)]
            omega

/-- Urgent, normal and background tasks in the documented shares of 4:2:1. -/
def DocumentedShares (lanes : List CompilationPriority) : Prop :=
  ∃ rounds, lanes.count .urgent = 4 * rounds ∧ lanes.count .normal = 2 * rounds ∧
    lanes.count .background = rounds

/-- Every pop is from one of the three lanes. -/
lemma length_eq_counts (lanes : List CompilationPriority) :
    lanes.length = lanes.count .urgent + lanes.count .normal + lanes.count .background := by
  induction lanes with
  | nil => rfl
  | cons lane lanes ih => cases lane <;> simp [ih] <;> omega

/-- **Lane shares**: while no lane is empty, whatever the counters are at the start, the lanes are
served in turns of twelve urgent tasks, two normal ones and one background task, and no window of
such a run has the documented shares. -/
theorem lane_shares {events : List SchedulerEvent}
    (busy : Transitions.Along step (fun s _ => s.Busy) s events)
    (taken : s.takenLanes events ≠ []) :
    ¬DocumentedShares (s.takenLanes events) ∧
      ∀ (i : Nat) (lane : CompilationPriority), (s.takenLanes events)[i]? = some lane →
        turns[(s.turn + i) % turns.length]? = some lane := by
  refine ⟨?_, fun i lane htaken => taken_in_turns busy htaken⟩
  rintro ⟨rounds, hurgent, hnormal, hbackground⟩
  have hshare := urgent_share busy
  have hlength := length_eq_counts (s.takenLanes events)
  have hpositive := List.length_pos_iff.mpr taken
  unfold urgentBurstLimit at hshare
  omega

/-- Whether every lane has work can be computed. -/
instance (s : SchedulerState) : Decidable s.Busy :=
  decidable_of_iff
    (s.queues .background ≠ [] ∧ s.queues .normal ≠ [] ∧ s.queues .urgent ≠ [])
    ⟨fun ⟨hbackground, hnormal, hurgent⟩ lane => by cases lane <;> assumption,
      fun hbusy => ⟨hbusy .background, hbusy .normal, hbusy .urgent⟩⟩

/-- Eight urgent tasks, three normal ones and two of the background for seven workers. -/
def sampleArrivals : List SchedulerEvent :=
  let arrive (priority : CompilationPriority) (generation : Nat) : SchedulerEvent :=
    .submit { identity := [1], generation := generation, priority := some priority } none true
  (List.range 8).map (arrive .urgent) ++ [8, 9, 10].map (arrive .normal) ++
    [11, 12].map (arrive .background)

/-- Each of the seven workers takes a task. -/
def samplePops : List SchedulerEvent := (List.range 7).map .pop

/-- A backlog in every lane. -/
def sampleBacklog : Option SchedulerState :=
  (create { workerCount := 7 } 1).toOption.bind fun s =>
    Transitions.afterEvents step s sampleArrivals

/-- What the workers meet: every counter at zero, no lane empty until all of them have a task, and
six of the seven tasks urgent. -/
lemma sampleBacklog_spec :
    ∃ s₀ s, create { workerCount := 7 } 1 = .ok s₀ ∧
      Transitions.afterEvents step s₀ sampleArrivals = some s ∧ s.bursts = (0, 0) ∧
      Transitions.Along step (fun s _ => s.Busy) s samplePops ∧
      s.takenLanes samplePops = [.urgent, .urgent, .urgent, .urgent, .normal, .urgent, .urgent] := by
  have hbacklog : sampleBacklog.any fun s => s.bursts = (0, 0) ∧
      Transitions.Along step (fun s _ => s.Busy) s samplePops ∧
      s.takenLanes samplePops =
        [.urgent, .urgent, .urgent, .urgent, .normal, .urgent, .urgent] := by
    decide +kernel
  obtain ⟨s, hs, hspec⟩ := (Option.any_eq_true _ _).mp hbacklog
  obtain ⟨s₀, hcreated, hrun⟩ := Option.bind_eq_some_iff.mp hs
  refine ⟨s₀, s, ?_, hrun, by simpa using hspec⟩
  cases hresult : create { workerCount := 7 } 1 with
  | error status => simp [hresult, Except.toOption] at hcreated
  | ok created =>
      rw [hresult] at hcreated
      exact congrArg Except.ok (Option.some.inj hcreated)

/-- Popping the backlog does not give the documented shares. -/
theorem lane_shares_sample :
    ∃ s : SchedulerState, s.takenLanes samplePops ≠ [] ∧
      ¬DocumentedShares (s.takenLanes samplePops) := by
  obtain ⟨s₀, s, -, -, -, hbusy, htaken⟩ := sampleBacklog_spec
  have hsome : s.takenLanes samplePops ≠ [] := by simp [htaken]
  exact ⟨s, hsome, (lane_shares hbusy hsome).1⟩

/-- Seven tasks that workers take from a fresh policy state are six urgent ones and a normal one. -/
theorem urgent_overserved :
    ¬∀ (options : CompilationSchedulerOptions) (hardwareConcurrency : Nat)
      (s₀ s : SchedulerState) (arrivals pops : List SchedulerEvent),
      create options hardwareConcurrency = .ok s₀ →
      Transitions.afterEvents step s₀ arrivals = some s → s.bursts = (0, 0) →
      Transitions.Along step (fun s _ => s.Busy) s pops → (s.takenLanes pops).length = 7 →
      DocumentedShares (s.takenLanes pops) := by
  intro shares
  obtain ⟨s₀, s, hcreated, hrun, hfresh, hbusy, htaken⟩ := sampleBacklog_spec
  obtain ⟨rounds, hurgent, -, hbackground⟩ :=
    shares _ _ s₀ s sampleArrivals samplePops hcreated hrun hfresh hbusy (by simp [htaken])
  rw [htaken] at hurgent hbackground
  simp at hurgent hbackground
  omega

end SchedulerState

end UniJit.Jit
