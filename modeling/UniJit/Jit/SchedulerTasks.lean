import UniJit.Jit.SchedulerRuns

/-!
# The end of a task

A task ends in one of three ways: a worker publishes the result of its job, a client cancels it
while it is queued, or the scheduler is shut down in the mode that drops what is queued. A worker
is about to publish a task only after the job of the task has returned.
-/

namespace UniJit.Jit

open Lib

/-- From one list of tasks to a later one, tasks keep their places and identities, and only those
with `ended` may come to an end. -/
structure Revises (ended : Nat → Prop) (ts ts' : List CompilationTask) : Prop where
  kept : ∀ (i : Nat) t, ts[i]? = some t → ∃ t', ts'[i]? = some t' ∧ t'.identity = t.identity
  ends : ∀ (i : Nat) t', ts'[i]? = some t' → t'.state.terminal = true →
    (∃ t, ts[i]? = some t ∧ t.state.terminal = true) ∨ ended i

namespace Revises

variable {ended : Nat → Prop} {ts ts' ts'' : List CompilationTask}

lemma refl (ts : List CompilationTask) : Revises ended ts ts :=
  ⟨fun _ t ht => ⟨t, ht, rfl⟩, fun _ t ht hterminal => .inl ⟨t, ht, hterminal⟩⟩

/-- Revisions are transitive. -/
lemma trans (h : Revises ended ts ts') (h' : Revises ended ts' ts'') : Revises ended ts ts'' := by
  refine ⟨?_, ?_⟩
  · intro i t ht
    obtain ⟨t', ht', hidentity⟩ := h.kept i t ht
    obtain ⟨t'', ht'', hidentity'⟩ := h'.kept i t' ht'
    exact ⟨t'', ht'', hidentity'.trans hidentity⟩
  · intro i t'' ht'' hterminal
    rcases h'.ends i t'' ht'' hterminal with ⟨t', ht', hterminal'⟩ | hended
    · exact h.ends i t' ht' hterminal'
    · exact .inr hended

/-- A change of one task. -/
lemma modify {i : Nat} {f : CompilationTask → CompilationTask}
    (hidentity : ∀ t, (f t).identity = t.identity)
    (hterminal : ∀ t, ts[i]? = some t → (f t).state.terminal = true →
      t.state.terminal = true ∨ ended i) : Revises ended ts (ts.modify i f) := by
  refine ⟨?_, ?_⟩
  · intro j t ht
    refine ⟨if i = j then f t else t, ?_, ?_⟩
    · rw [List.getElem?_modify, ht]
      rfl
    · split_ifs
      · exact hidentity t
      · rfl
  · intro j t' ht' hstate
    rw [List.getElem?_modify] at ht'
    obtain ⟨t, ht, rfl⟩ := Option.map_eq_some_iff.mp ht'
    by_cases hij : i = j
    · subst hij
      rw [if_pos rfl] at hstate
      rcases hterminal t ht hstate with hbefore | hended
      · exact .inl ⟨t, ht, hbefore⟩
      · exact .inr hended
    · rw [if_neg hij] at hstate
      exact .inl ⟨t, ht, hstate⟩

/-- A task is added, which is not at its end. -/
lemma append {t : CompilationTask} (hopen : t.state.terminal = false) :
    Revises ended ts (ts ++ [t]) := by
  refine ⟨?_, ?_⟩
  · intro i t' ht'
    have hlt := (List.getElem?_eq_some_iff.mp ht').1
    exact ⟨t', by rw [List.getElem?_append_left hlt, ht'], rfl⟩
  · intro i t' ht' hterminal
    rw [List.getElem?_append] at ht'
    split_ifs at ht'
    · exact .inl ⟨t', ht', hterminal⟩
    · obtain rfl := List.mem_singleton.mp (List.mem_of_getElem? ht')
      rw [hopen] at hterminal
      simp at hterminal

/-- The flags of some tasks are raised. -/
lemma flags (raised : Nat → CompilationTask → Prop) [∀ i t, Decidable (raised i t)] :
    Revises ended ts (ts.mapIdx fun i t =>
      if raised i t then { t with cancellationRequested := true } else t) := by
  refine ⟨?_, ?_⟩
  · intro i t ht
    refine ⟨if raised i t then { t with cancellationRequested := true } else t, ?_, ?_⟩
    · rw [List.getElem?_mapIdx, ht]
      rfl
    · split_ifs <;> rfl
  · intro i t' ht' hterminal
    rw [List.getElem?_mapIdx] at ht'
    obtain ⟨t, ht, rfl⟩ := Option.map_eq_some_iff.mp ht'
    refine .inl ⟨t, ht, ?_⟩
    split_ifs at hterminal <;> exact hterminal

/-- A revision removes no task. -/
lemma length_le (h : Revises ended ts ts') : ts.length ≤ ts'.length := by
  by_contra hlt
  push Not at hlt
  obtain ⟨t', ht', -⟩ := h.kept ts'.length _ (List.getElem?_eq_getElem hlt)
  simp at ht'

end Revises

namespace SchedulerState

/-- Whether an event ends a task: a worker has its result, a client cancels it while it is queued,
or the scheduler drops what is queued. -/
def Ends (s : SchedulerState) (e : SchedulerEvent) (h : Nat) : Prop :=
  (∃ (w : Nat) (state : CompilationTaskState) (outcome : Outcome),
      s.workers[w]? = some (.completing h state outcome)) ∨
    (e = .cancel h ∧ ∃ task, s.tasks[h]? = some task ∧ task.state = .queued) ∨
    (e = .shutdown .cancel ∧ h ∈ s.lanes)

variable {s s' : SchedulerState} {e : SchedulerEvent}

lemma tasks_eraseTask (s : SchedulerState) (h : Nat) : (s.eraseTask h).tasks = s.tasks := by
  rw [eraseTask_eq]

/-- Dropping a task cancels it. -/
lemma tasks_discard (s : SchedulerState) (h : Nat) :
    (s.discard h).tasks = s.tasks.modify h fun task =>
      { task with
        outcome := .error cancelledStatus, state := .cancelled, completed := true } := by
  simp only [discard, completeTask, updateTask, updateStatistics, tasks_eraseTask]

/-- The submissions leave the workers and the tasks that are there alone. -/
lemma attempt_frame (request : CompilationRequest) (priority : CompilationPriority)
    (allocates : Bool) (ended : Nat → Prop) :
    Revises ended s.tasks (s.attempt request priority allocates).2.tasks ∧
      (s.attempt request priority allocates).2.workers = s.workers := by
  unfold attempt
  split
  · exact ⟨.refl _, rfl⟩
  · split_ifs
    · exact ⟨.refl _, rfl⟩
    · exact ⟨.append rfl, rfl⟩
    · exact ⟨.refl _, rfl⟩
    · exact ⟨.refl _, rfl⟩

/-- A submission ends no task and leaves the workers alone. -/
lemma submit_frame (request : CompilationRequest) (timeout : Option Int) (allocates : Bool)
    (ended : Nat → Prop) :
    Revises ended s.tasks (s.submit request timeout allocates).2.tasks ∧
      (s.submit request timeout allocates).2.workers = s.workers := by
  unfold submit
  split
  · exact ⟨.refl _, rfl⟩
  · split
    next status _ =>
      dsimp only
      split <;> exact ⟨.refl _, rfl⟩
    next priority _ =>
      have hattempt := attempt_frame (s := s) request priority allocates ended
      split
      next heq =>
        rw [heq] at hattempt
        exact hattempt
      next heq =>
        rw [heq] at hattempt
        split <;> exact hattempt

/-- The ticket of a submission is for the task that had its identity and generation, or for a new
one. -/
lemma ticket_submit {request : CompilationRequest} {timeout : Option Int} {allocates : Bool}
    {h : Nat} (hticket : (s.submit request timeout allocates).1.bind (·.ticket) = some h) :
    s.findTask request.key = some h ∨
      (h = s.tasks.length ∧ ∃ task, (s.submit request timeout allocates).2.tasks[h]? = some task ∧
        task.identity = request.identity) := by
  have hattempt : ∀ priority, (s.attempt request priority allocates).1.bind (·.ticket) = some h →
      s.findTask request.key = some h ∨
        (h = s.tasks.length ∧ ∃ task, (s.attempt request priority allocates).2.tasks[h]? =
          some task ∧ task.identity = request.identity) := by
    intro priority hticket
    unfold attempt at hticket ⊢
    split at hticket
    next found heq =>
      obtain rfl : found = h := by simpa using hticket
      exact .inl heq
    next heq =>
      split_ifs at hticket ⊢
      · simp [CompilationSubmission.rejected] at hticket
      · obtain rfl : s.tasks.length = h := by simpa using hticket
        exact .inr ⟨rfl, _, List.getElem?_concat_length, rfl⟩
      · simp [CompilationSubmission.rejected] at hticket
      · simp at hticket
  unfold submit at hticket ⊢
  split at hticket
  · simp [CompilationSubmission.rejected] at hticket
  · rename_i htimeout
    rw [if_neg htimeout]
    split at hticket
    next heq => simp [CompilationSubmission.rejected] at hticket
    next priority _ =>
      have hticket' := hattempt priority
      split at hticket
      next heq' =>
        simp only [heq'] at hticket' ⊢
        exact hticket' hticket
      next heq' =>
        split at hticket
        · simp at hticket
        · simp [CompilationSubmission.rejected] at hticket

/-- A submitter that wakes ends no task and leaves the workers alone. -/
lemma submitterWake_frame {i : Nat} {allocates : Bool} (h : s.submitterWake i allocates = some s')
    (ended : Nat → Prop) : Revises ended s.tasks s'.tasks ∧ s'.workers = s.workers := by
  simp only [submitterWake, Option.bind_eq_bind, Option.bind_eq_some_iff] at h
  obtain ⟨request, -, priority, -, hresult⟩ := h
  have hattempt := attempt_frame (s := s) request priority allocates ended
  split at hresult
  next heq =>
    rw [heq] at hattempt
    obtain rfl := Option.some.inj hresult
    exact hattempt
  next heq =>
    rw [heq] at hattempt
    obtain rfl := Option.some.inj hresult
    exact hattempt

/-- A cancellation ends at most its task and leaves the workers alone. -/
lemma cancel_frame (h : Nat) :
    Revises (s.Ends (.cancel h)) s.tasks (s.cancel h).2.tasks ∧
      (s.cancel h).2.workers = s.workers := by
  have hflag : ∀ ended, Revises ended s.tasks
      (s.tasks.modify h fun task => { task with cancellationRequested := true }) := by
    intro ended
    exact .modify (fun _ => rfl) fun _ _ hterminal => .inl hterminal
  unfold cancel
  split
  · exact ⟨.refl _, rfl⟩
  next task htask =>
    split
    · exact ⟨.refl _, rfl⟩
    · dsimp only
      split
      · exact ⟨hflag _, rfl⟩
      · split
        · exact ⟨hflag _, rfl⟩
        next hqueued =>
          split
          · exact ⟨hflag _, rfl⟩
          · refine ⟨?_, ?_⟩
            · rw [tasks_discard]
              refine (hflag _).trans (.modify (fun _ => rfl) ?_)
              intro _ _ _
              exact .inr (.inr (.inl ⟨rfl, task, htask, not_not.mp hqueued⟩))
            · rw [discard, eraseTask_eq]
              rfl

/-- Taking a task ends none. -/
lemma popTask_frame {h : Nat} (hpop : s.popTask = some (h, s')) (ended : Nat → Prop) :
    Revises ended s.tasks s'.tasks ∧ s'.workers = s.workers := by
  simp only [popTask, Option.bind_eq_bind, Option.bind_eq_some_iff] at hpop
  obtain ⟨⟨lane, urgent, normal⟩, -, h', -, task, htask, heq⟩ := hpop
  obtain ⟨rfl, rfl⟩ := Prod.mk.inj (Option.some.inj heq)
  refine ⟨?_, rfl⟩
  refine .modify (fun _ => rfl) ?_
  intro t _ hterminal
  simp [CompilationTaskState.terminal] at hterminal

/-- A worker that publishes ends its task only. -/
lemma workerPublish_frame {w : Nat} (h : s.workerPublish w = some s') :
    Revises (s.Ends (.publish w)) s.tasks s'.tasks ∧ s'.workers = s.workers.set w .waiting := by
  unfold workerPublish at h
  split at h
  next i state outcome hw =>
    obtain rfl := Option.some.inj h
    rw [eraseTask_eq]
    refine ⟨?_, rfl⟩
    exact .modify (fun _ => rfl) fun _ _ _ => .inr (.inl ⟨w, state, outcome, hw⟩)
  next => simp at h

/-- What was queued is dropped. -/
lemma revises_foldl_discard {ended : Nat → Prop} (dropped : List Nat)
    (hended : ∀ h ∈ dropped, ended h) (s : SchedulerState) :
    Revises ended s.tasks (dropped.foldl discard s).tasks ∧
      (dropped.foldl discard s).workers = s.workers := by
  induction dropped generalizing s with
  | nil => exact ⟨.refl _, rfl⟩
  | cons h rest ih =>
      obtain ⟨htasks, hworkers⟩ :=
        ih (fun i hi => hended i (List.mem_cons_of_mem h hi)) (s.discard h)
      refine ⟨?_, ?_⟩
      · refine Revises.trans ?_ htasks
        rw [tasks_discard]
        exact .modify (fun _ => rfl) fun _ _ _ => .inr (hended h List.mem_cons_self)
      · rw [List.foldl_cons, hworkers, discard, eraseTask_eq]
        rfl

/-- A shutdown ends what it cancels and leaves the workers alone. -/
lemma shutdown_frame {mode : SchedulerShutdownMode} (h : s.shutdown mode = some s') :
    Revises (s.Ends (.shutdown mode)) s.tasks s'.tasks ∧ s'.workers = s.workers := by
  unfold shutdown at h
  split at h
  · obtain rfl := Option.some.inj h
    cases mode with
    | drain => exact ⟨.refl _, rfl⟩
    | cancel =>
        have hlanes : ∀ i ∈ s.lanes, s.Ends (.shutdown .cancel) i :=
          fun i hi => .inr (.inr ⟨rfl, hi⟩)
        obtain ⟨htasks, hworkers⟩ := revises_foldl_discard s.lanes hlanes
          { (s.updateStatistics fun statistics => { statistics with accepting := false }
            ).requestCancellation with queues := fun _ => [] }
        refine ⟨?_, hworkers⟩
        refine Revises.trans ?_ htasks
        exact .flags fun i task => s.identities task.key = some i
  · simp at h
  · obtain rfl := Option.some.inj h
    exact ⟨.refl _, rfl⟩

/-- A worker that is about to publish a task after a step was so before it, or has just taken the
result of the job. -/
def Completes (s : SchedulerState) (e : SchedulerEvent) (s' : SchedulerState) : Prop :=
  ∀ (w h : Nat) (state : CompilationTaskState) (outcome : Outcome),
    s'.workers[w]? = some (.completing h state outcome) →
      s.workers[w]? = some (.completing h state outcome) ∨
        ∃ result, e = .sample w result ∧ s.workers[w]? = some (.running h)

/-- Where the workers are as they were no worker completes. -/
lemma completes_of_workers (h : s'.workers = s.workers) : Completes s e s' := by
  intro w h' state outcome hw
  rw [h] at hw
  exact .inl hw

/-- A worker that moves on to something else than a publication. -/
lemma completes_of_set {w : Nat} {worker : Worker} (h : s'.workers = s.workers.set w worker)
    (hworker : ∀ h state outcome, worker ≠ .completing h state outcome) : Completes s e s' := by
  intro w' h' state outcome hw'
  rw [h] at hw'
  rcases getElem?_set_cases hw' with ⟨-, heq⟩ | hw'
  · exact absurd heq.symm (hworker h' state outcome)
  · exact .inl hw'

/-- **Step.** What a step does to the tasks and to the workers. -/
lemma step_frame (hstep : s.step e = some s') :
    Revises (s.Ends e) s.tasks s'.tasks ∧ Completes s e s' := by
  cases e with
  | cancel h =>
      obtain rfl : (s.cancel h).2 = s' := by
        cases hreleased : s.released <;> simpa [step, hreleased] using hstep
      obtain ⟨htasks, hworkers⟩ := cancel_frame (s := s) h
      exact ⟨htasks, completes_of_workers hworkers⟩
  | submit request timeout allocates =>
      cases hreleased : s.released with
      | true => simp [step, hreleased] at hstep
      | false =>
          obtain rfl : (s.submit request timeout allocates).2 = s' := by
            simpa [step, hreleased] using hstep
          obtain ⟨htasks, hworkers⟩ := submit_frame (s := s) request timeout allocates _
          exact ⟨htasks, completes_of_workers hworkers⟩
  | wake i allocates =>
      cases hreleased : s.released with
      | true => simp [step, hreleased] at hstep
      | false =>
          simp only [step, hreleased] at hstep
          obtain ⟨htasks, hworkers⟩ := submitterWake_frame hstep _
          exact ⟨htasks, completes_of_workers hworkers⟩
  | timeout i =>
      cases hreleased : s.released with
      | true => simp [step, hreleased] at hstep
      | false =>
          simp only [step, hreleased, submitterTimeout, Option.bind_eq_bind,
            Option.bind_eq_some_iff] at hstep
          obtain ⟨_, -, heq⟩ := hstep
          obtain rfl := Option.some.inj heq
          exact ⟨.refl _, completes_of_workers rfl⟩
  | pop w =>
      cases hreleased : s.released with
      | true => simp [step, hreleased] at hstep
      | false =>
          simp only [step, hreleased, workerPop] at hstep
          split at hstep
          · split_ifs at hstep
            · obtain rfl := Option.some.inj hstep
              exact ⟨.refl _, completes_of_set rfl (by simp)⟩
            · simp only [Option.bind_eq_bind, Option.bind_eq_some_iff] at hstep
              obtain ⟨⟨h, popped⟩, hpop, heq⟩ := hstep
              obtain rfl := Option.some.inj heq
              obtain ⟨htasks, hworkers⟩ := popTask_frame hpop (s.Ends (.pop w))
              exact ⟨htasks, completes_of_set (by rw [← hworkers]) (by simp)⟩
          · simp at hstep
  | sample w result =>
      cases hreleased : s.released with
      | true => simp [step, hreleased] at hstep
      | false =>
          simp only [step, hreleased, workerSample] at hstep
          split at hstep
          next h hrunning =>
            simp only [Option.bind_eq_bind, Option.bind_eq_some_iff] at hstep
            obtain ⟨task, -, heq⟩ := hstep
            obtain rfl := Option.some.inj heq
            refine ⟨.refl _, ?_⟩
            intro w' h' state outcome hw'
            rcases getElem?_set_cases hw' with ⟨rfl, heq'⟩ | hw'
            · obtain ⟨rfl, -⟩ := Worker.completing.inj heq'
              exact .inr ⟨result, rfl, hrunning⟩
            · exact .inl hw'
          next => simp at hstep
  | publish w =>
      cases hreleased : s.released with
      | true => simp [step, hreleased] at hstep
      | false =>
          simp only [step, hreleased] at hstep
          obtain ⟨htasks, hworkers⟩ := workerPublish_frame hstep
          exact ⟨htasks, completes_of_set hworkers (by simp)⟩
  | shutdown mode =>
      cases hreleased : s.released with
      | true => simp [step, hreleased] at hstep
      | false =>
          simp only [step, hreleased] at hstep
          obtain ⟨htasks, hworkers⟩ := shutdown_frame hstep
          exact ⟨htasks, completes_of_workers hworkers⟩
  | join self =>
      cases hreleased : s.released with
      | true => simp [step, hreleased] at hstep
      | false =>
          simp only [step, hreleased, joinWorkers] at hstep
          split_ifs at hstep
          obtain rfl := Option.some.inj hstep
          exact ⟨.refl _, completes_of_workers rfl⟩
  | release =>
      cases hreleased : s.released with
      | true => simp [step, hreleased] at hstep
      | false =>
          simp only [step, hreleased, SchedulerState.release] at hstep
          split_ifs at hstep
          obtain rfl := Option.some.inj hstep
          exact ⟨.refl _, completes_of_workers rfl⟩

end SchedulerState

end UniJit.Jit
