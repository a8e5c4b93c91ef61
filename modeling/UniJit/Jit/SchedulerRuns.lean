import UniJit.Jit.SchedulerMoves

/-!
# Conservation, lifecycle and cancellation of compilation tasks

What holds in every state that the scheduler's threads can reach, whatever the order of their
steps, and from one state to every later one.

Every step is a sequence of moves (`step_moves`), so the invariant of the moves is one of the
steps, and of whole runs. From it follow the scheduler's accounting (`scheduler_conserves`) and
the effect of a cancellation request. A request on a running task is honoured unless the worker
has already sampled the cancellation flag: between that sample and the publication of the result
a request still reports that it took effect, and the result it should have prevented is published
all the same (`cancel_honoured_iff`).
-/

namespace UniJit.Jit.SchedulerState

open Lib

/-! ## Every step is made of moves -/

/-- Any number of moves. -/
abbrev Moves : SchedulerState → SchedulerState → Prop := Relation.ReflTransGen Move

/-- Moves keep the invariant. -/
lemma Consistent.moves {s s' : SchedulerState} (hs : Consistent s) (hmoves : Moves s s') :
    Consistent s' := by
  induction hmoves with
  | refl => exact hs
  | tail _ hmove ih => exact ih.move hmove

lemma Moves.idle {s s' : SchedulerState} (same : Same s s') : Moves s s' :=
  .single (.idle same)

/-- An attempt to submit is made of moves. -/
lemma moves_attempt (s : SchedulerState) (request : CompilationRequest)
    (priority : CompilationPriority) (allocates : Bool) :
    Moves s (s.attempt request priority allocates).2 := by
  unfold attempt
  split
  · exact .idle {}
  · rename_i fresh
    split_ifs with hclosed hcapacity hallocates
    · exact .idle {}
    · have haccepting : s.statistics.accepting = true := by simpa using hclosed
      exact .tail (.single (.enroll request priority fresh haccepting hcapacity)) (.idle {})
    · exact .idle {}
    · exact .refl

/-- A submission is made of moves. -/
lemma moves_submit (s : SchedulerState) (request : CompilationRequest) (timeout : Option Int)
    (allocates : Bool) : Moves s (s.submit request timeout allocates).2 := by
  unfold submit
  split
  · exact .refl
  · split
    · show Moves s (if _ then _ else s)
      split_ifs
      · exact .idle {}
      · exact .refl
    · rename_i priority _
      have hattempt := moves_attempt s request priority allocates
      split
      · rename_i heq
        rw [heq] at hattempt
        exact hattempt
      · rename_i heq
        rw [heq] at hattempt
        split
        · exact .tail hattempt (.idle {})
        · exact .tail hattempt (.idle {})

/-- A submitter that wakes makes moves. -/
lemma moves_submitterWake {s s' : SchedulerState} {i : Nat} {allocates : Bool}
    (h : s.submitterWake i allocates = some s') : Moves s s' := by
  simp only [submitterWake, Option.bind_eq_bind, Option.bind_eq_some_iff] at h
  obtain ⟨request, -, priority, -, h⟩ := h
  have hattempt := moves_attempt s request priority allocates
  split at h
  · rename_i heq
    rw [heq] at hattempt
    obtain rfl := Option.some.inj h
    exact .tail hattempt (.idle {})
  · rename_i heq
    rw [heq] at hattempt
    obtain rfl := Option.some.inj h
    exact hattempt

/-- A submitter that gives up makes moves. -/
lemma moves_submitterTimeout {s s' : SchedulerState} {i : Nat}
    (h : s.submitterTimeout i = some s') : Moves s s' := by
  simp only [submitterTimeout, Option.bind_eq_bind, Option.bind_eq_some_iff] at h
  obtain ⟨request, -, h⟩ := h
  obtain rfl := Option.some.inj h
  exact .idle {}

/-- One flag at a time. -/
lemma updateTask_flag (s : SchedulerState) (h : Nat) :
    (s.updateTask h fun task => { task with cancellationRequested := true }) =
      s.raiseFlags (· == h) := by
  unfold updateTask raiseFlags
  congr 1
  apply List.ext_getElem?
  intro i
  rw [List.getElem?_modify, List.getElem?_mapIdx]
  by_cases hi : h = i
  · simp [hi]
  · simp [hi, Ne.symm hi]

/-- A cancellation is made of moves. -/
lemma moves_cancel (s : SchedulerState) (h : Nat) : Moves s (s.cancel h).2 := by
  unfold cancel
  split
  · exact .refl
  · rename_i task htask
    split_ifs with hterminal hreleased hqueued hmem
    · exact .refl
    all_goals
      have hflag : Move s (s.raiseFlags (· == h)) := by
        refine .flag _ fun i other hother hi => ?_
        obtain rfl : i = h := by simpa using hi
        obtain rfl : task = other := by simpa [htask] using hother
        simpa using hterminal
      rw [← updateTask_flag] at hflag
    · exact .single hflag
    · exact .single hflag
    · refine .tail (.single hflag) ?_
      have hflagged : (s.updateTask h fun task =>
          { task with cancellationRequested := true }).tasks[h]? =
            some { task with cancellationRequested := true } := by
        simp [updateTask, htask]
      have hdrop := Move.drop hflagged hmem
      exact hdrop
    · exact .single hflag

/-- Taking a task is made of moves. -/
lemma moves_popTask {s s' : SchedulerState} {w h : Nat} (hs : Consistent s)
    (hw : s.workers[w]? = some .waiting) (hpop : s.popTask = some (h, s')) :
    Moves s { s' with workers := s'.workers.set w (.running h) } := by
  simp only [popTask, Option.bind_eq_bind, Option.bind_eq_some_iff, Option.pure_def,
    Option.some.injEq, Prod.mk.injEq, Prod.exists] at hpop
  obtain ⟨lane, urgent, normal, hselect, h', hhead, task, htask, rfl, rfl⟩ := hpop
  obtain ⟨rest, hlane⟩ : ∃ rest, s.queues lane = h' :: rest := by
    rw [List.head?_eq_some_iff] at hhead
    exact hhead
  have hmem : h' ∈ s.queues lane := by simp [hlane]
  obtain ⟨-, hpriority⟩ := hs.placed.queued_of_mem htask hmem
  have hqueues : (s.dequeue h' task).queues = Function.update s.queues lane (s.queues lane).tail := by
    show Function.update s.queues task.priority _ = _
    rw [hpriority, hlane, List.erase_cons_head, List.tail_cons]
  refine .tail (.single (.start (w := w) hw htask (by rwa [hpriority]))) (.idle ?_)
  exact { queues := hqueues.symm }

/-- A worker that takes the lock makes moves. -/
lemma moves_workerPop {s s' : SchedulerState} {w : Nat} (hs : Consistent s)
    (h : s.workerPop w = some s') : Moves s s' := by
  unfold workerPop at h
  split at h
  · rename_i hw
    split_ifs at h with hready hempty
    · obtain rfl := Option.some.inj h
      have hclosed : s.statistics.accepting = false := by
        rcases hready with hready | hready
        · exact absurd hempty hready
        · exact hready
      exact .single (.exit hw hempty hclosed)
    · simp only [Option.bind_eq_bind, Option.bind_eq_some_iff, Option.pure_def,
        Option.some.injEq, Prod.exists] at h
      obtain ⟨task, popped, hpop, rfl⟩ := h
      exact moves_popTask hs hw hpop
  · contradiction

/-- A worker that has run its task makes moves. -/
lemma moves_workerSample {s s' : SchedulerState} {w : Nat} {outcome : Outcome}
    (h : s.workerSample w outcome = some s') : Moves s s' := by
  unfold workerSample at h
  split at h
  · rename_i task hw
    simp only [Option.bind_eq_bind, Option.bind_eq_some_iff, Option.pure_def,
      Option.some.injEq] at h
    obtain ⟨record, htask, rfl⟩ := h
    refine .single (.sample _ _ hw htask ?_ ?_)
    · split_ifs <;> rfl
    · intro hrequested
      rw [if_pos]
      simp [hrequested]
  · contradiction

/-- A worker that publishes makes moves. -/
lemma moves_workerPublish {s s' : SchedulerState} {w : Nat} (h : s.workerPublish w = some s') :
    Moves s s' := by
  cases hw : s.workers[w]? with
  | none => simp [workerPublish, hw] at h
  | some worker =>
      cases worker with
      | completing task state outcome => exact .single (.publish hw h)
      | waiting | running _ | exited => simp [workerPublish, hw] at h

/-! ### Shutdown

The loop of `shutdown` empties the lanes first and clears the queue counters last; dropping the
tasks one by one leads to the same state. -/

/-- Replace the lanes and the queue counters. -/
def withQueues (s : SchedulerState) (queues : CompilationPriority → List Nat) (tasks bytes : Nat) :
    SchedulerState :=
  { s with
    queues := queues
    statistics := { s.statistics with queuedTasks := tasks, queuedBytes := bytes } }

/-- Erasing a task does not look at the lanes. -/
lemma eraseTask_withQueues (s : SchedulerState) (h : Nat)
    (queues : CompilationPriority → List Nat) (tasks bytes : Nat) :
    (s.withQueues queues tasks bytes).eraseTask h =
      (s.eraseTask h).withQueues queues tasks bytes := by
  cases htask : s.tasks[h]? with
  | none =>
      have htask' : (s.withQueues queues tasks bytes).tasks[h]? = none := htask
      simp only [eraseTask, htask, htask']
  | some task =>
      have htask' : (s.withQueues queues tasks bytes).tasks[h]? = some task := htask
      simp only [eraseTask, htask, htask']
      by_cases hkey : s.identities task.key = some h
      · have hkey' : (s.withQueues queues tasks bytes).identities task.key = some h := hkey
        rw [if_pos hkey, if_pos hkey']
        rfl
      · have hkey' : ¬(s.withQueues queues tasks bytes).identities task.key = some h := hkey
        rw [if_neg hkey, if_neg hkey']

/-- Dropping a task reads neither the lanes nor the queue counters. -/
lemma discard_withQueues (s : SchedulerState) (h : Nat) (queues : CompilationPriority → List Nat)
    (tasks bytes : Nat) :
    (s.withQueues queues tasks bytes).discard h = (s.discard h).withQueues queues tasks bytes := by
  rw [discard, eraseTask_withQueues]
  rfl

/-- Dropping queued tasks is made of moves. -/
lemma moves_discard {tasks : List Nat} {s : SchedulerState} (hs : Consistent s)
    (hnodup : tasks.Nodup) (hqueued : ∀ h ∈ tasks, ∃ p, h ∈ s.queues p)
    (queues : CompilationPriority → List Nat) (n b : Nat) :
    ∃ t, Moves s t ∧ (∀ p i, i ∈ t.queues p → i ∈ s.queues p ∧ i ∉ tasks) ∧
      tasks.foldl discard (s.withQueues queues n b) = t.withQueues queues n b := by
  induction tasks generalizing s with
  | nil => exact ⟨s, .refl, by simp, rfl⟩
  | cons h rest ih =>
      obtain ⟨hfirst, hrest⟩ := List.nodup_cons.mp hnodup
      obtain ⟨p, hp⟩ := hqueued h List.mem_cons_self
      obtain ⟨v, hv, -, hpriority⟩ := (hs.placed.lane_mem p h).mp hp
      obtain ⟨task, htask, rfl⟩ : ∃ task, s.tasks[h]? = some task ∧ task.view = v := by
        simpa [views] using hv
      obtain rfl : task.priority = p := hpriority
      have hdrop : Move s ((s.dequeue h task).discard h) := .drop htask hp
      -- the lanes after the first drop
      have hlanes : ((s.dequeue h task).discard h).queues =
          Function.update s.queues task.priority ((s.queues task.priority).erase h) := by
        show ((s.withQueues _ _ _).discard h).queues = _
        rw [discard_withQueues]
        rfl
      have hkeep : ∀ p i, i ∈ ((s.dequeue h task).discard h).queues p ↔ i ∈ s.queues p ∧ i ≠ h := by
        intro p i
        rw [hlanes]
        by_cases hlane : p = task.priority
        · subst hlane
          rw [Function.update_self, (hs.placed.lane_nodup _).mem_erase_iff, and_comm]
        · rw [Function.update_of_ne hlane]
          refine ⟨fun hi => ⟨hi, ?_⟩, And.left⟩
          rintro rfl
          exact hlane (hs.placed.queued_of_mem htask hi).2.symm
      obtain ⟨t, ht, hleft, hfold⟩ := ih (hs.move hdrop) hrest fun i hi => by
        obtain ⟨p, hp⟩ := hqueued i (List.mem_cons_of_mem h hi)
        refine ⟨p, (hkeep p i).mpr ⟨hp, ?_⟩⟩
        rintro rfl
        exact hfirst hi
      refine ⟨t, .head hdrop ht, ?_, ?_⟩
      · intro p i hi
        obtain ⟨hi, hnot⟩ := hleft p i hi
        obtain ⟨hi, hne⟩ := (hkeep p i).mp hi
        exact ⟨hi, by simp [hne, hnot]⟩
      · rw [List.foldl_cons, ← hfold]
        congr 1
        show _ = ((s.withQueues _ _ _).discard h).withQueues queues n b
        rw [discard_withQueues, discard_withQueues]
        rfl

/-- No task is queued twice. -/
lemma Consistent.nodup_lanes {s : SchedulerState} (hs : Consistent s) : s.lanes.Nodup := by
  have hdisjoint : ∀ p q, p ≠ q → List.Disjoint (s.queues p) (s.queues q) := by
    intro p q hne i hp hq
    obtain ⟨v, hv, -, rfl⟩ := (hs.placed.lane_mem p i).mp hp
    obtain ⟨u, hu, -, rfl⟩ := (hs.placed.lane_mem q i).mp hq
    rw [hv] at hu
    exact hne (congrArg TaskView.priority (Option.some.inj hu))
  unfold lanes
  refine ((hs.placed.lane_nodup _).append (hs.placed.lane_nodup _)
    (hdisjoint _ _ (by decide))).append (hs.placed.lane_nodup _) ?_
  rw [List.disjoint_append_left]
  exact ⟨hdisjoint _ _ (by decide), hdisjoint _ _ (by decide)⟩

/-- A task is queued in one of the lanes. -/
lemma mem_lanes {s : SchedulerState} {i : Nat} : i ∈ s.lanes ↔ ∃ p, i ∈ s.queues p := by
  simp only [lanes, List.mem_append]
  constructor
  · rintro ((h | h) | h)
    · exact ⟨_, h⟩
    · exact ⟨_, h⟩
    · exact ⟨_, h⟩
  · rintro ⟨p, h⟩
    cases p <;> simp [h]

/-- Cancelling what is queued is made of moves. -/
lemma moves_cancelQueued {s : SchedulerState} (hs : Consistent s) : Moves s s.cancelQueued := by
  obtain ⟨t, ht, hleft, hfold⟩ := moves_discard hs hs.nodup_lanes (fun h hh => mem_lanes.mp hh)
    (fun _ => []) s.statistics.queuedTasks s.statistics.queuedBytes
  have hempty : t.queues = fun _ => [] := by
    funext p
    rw [List.eq_nil_iff_forall_not_mem]
    intro i hi
    exact (hleft p i hi).2 (mem_lanes.mpr ⟨p, (hleft p i hi).1⟩)
  have hcounted := (hs.moves ht).counted
  have htasks : t.statistics.queuedTasks = 0 := by
    rw [hcounted.queuedTasks, hempty]
    rfl
  have hbytes : t.statistics.queuedBytes = 0 := by
    rw [hcounted.queuedBytes, hempty]
    rfl
  have heq : s.cancelQueued = t := by
    have hstart : ({ s with queues := fun _ => [] } : SchedulerState) =
        s.withQueues (fun _ => []) s.statistics.queuedTasks s.statistics.queuedBytes := rfl
    have hclear : t.withQueues t.queues t.statistics.queuedTasks t.statistics.queuedBytes = t := rfl
    rw [hempty, htasks, hbytes] at hclear
    unfold cancelQueued
    rw [hstart, hfold]
    exact hclear
  rw [heq]
  exact ht

/-- Asking for cancellation raises the flags of the tasks with an identity. -/
lemma requestCancellation_eq (s : SchedulerState) :
    s.requestCancellation = s.raiseFlags fun h =>
      s.tasks[h]?.any fun task => s.identities task.key == some h := by
  unfold requestCancellation raiseFlags
  congr 1
  apply List.ext_getElem?
  intro i
  rw [List.getElem?_mapIdx, List.getElem?_mapIdx]
  cases hi : s.tasks[i]? with
  | none => rfl
  | some task => simp [hi]

/-- Asking for cancellation is a move. -/
lemma move_requestCancellation {s : SchedulerState} (hs : Consistent s) :
    Move s s.requestCancellation := by
  rw [requestCancellation_eq]
  refine .flag _ fun h task htask hraised => ?_
  rw [htask, Option.any_some, beq_iff_eq, hs.placed.identified] at hraised
  obtain ⟨v, hv, -, hopen⟩ := hraised
  obtain rfl : task.view = v := by simpa [views_of_tasks htask] using hv
  exact hopen

/-- Closing the queue is made of moves. -/
lemma moves_close {s : SchedulerState} (hs : Consistent s) (mode : SchedulerShutdownMode) :
    Moves s (s.close mode) := by
  have hclose : Move s (s.updateStatistics fun statistics =>
      { statistics with accepting := false }) := .idle { closes := by simp [updateStatistics] }
  cases mode with
  | drain => exact .single hclose
  | cancel =>
      have hflag := move_requestCancellation (hs.move hclose)
      exact .head hclose (.head hflag (moves_cancelQueued ((hs.move hclose).move hflag)))

/-- **What a step can do**: every step is a sequence of moves. -/
lemma step_moves {s s' : SchedulerState} {e : SchedulerEvent} (hs : Consistent s)
    (h : s.step e = some s') : Moves s s' := by
  unfold step at h
  split at h
  · obtain rfl := Option.some.inj h
    exact moves_cancel s _
  · contradiction
  · obtain rfl := Option.some.inj h
    exact moves_submit s _ _ _
  · exact moves_submitterWake h
  · exact moves_submitterTimeout h
  · exact moves_workerPop hs h
  · exact moves_workerSample h
  · exact moves_workerPublish h
  · unfold shutdown at h
    split at h
    · obtain rfl := Option.some.inj h
      exact .tail (moves_close hs _) (.idle {})
    · contradiction
    · obtain rfl := Option.some.inj h
      exact .refl
  · unfold joinWorkers at h
    split_ifs at h
    obtain rfl := Option.some.inj h
    exact .idle {}
  · unfold release at h
    split_ifs at h with hexited
    obtain rfl := Option.some.inj h
    refine .idle { releases := fun _ => .inr ?_ }
    intro w hw
    have := List.all_eq_true.mp hexited.2 w hw
    cases w <;> first | rfl | contradiction

/-! ## What a run cannot undo -/

/-- From one state to a later one: a finished task stays as it is, and once admission is closed no
task is added and no lane grows. -/
structure Advances (s t : SchedulerState) : Prop where
  settled : ∀ (h : Nat) (task : CompilationTask), s.tasks[h]? = some task →
    task.state.terminal = true → t.tasks[h]? = some task
  closed : s.statistics.accepting = false → t.statistics.accepting = false ∧
    t.tasks.length = s.tasks.length ∧ ∀ p, (t.queues p).Sublist (s.queues p)

namespace Advances

lemma refl (s : SchedulerState) : Advances s s :=
  ⟨fun _ _ h _ => h, fun h => ⟨h, rfl, fun _ => List.Sublist.refl _⟩⟩

/-- Advances are transitive. -/
lemma trans {s t u : SchedulerState} (hst : Advances s t) (htu : Advances t u) : Advances s u := by
  refine ⟨fun h task htask hterminal => ?_, fun hclosed => ?_⟩
  · exact htu.settled h task (hst.settled h task htask hterminal) hterminal
  · obtain ⟨hclosed', hlength, hlanes⟩ := hst.closed hclosed
    obtain ⟨hclosed'', hlength', hlanes'⟩ := htu.closed hclosed'
    exact ⟨hclosed'', hlength'.trans hlength, fun p => (hlanes' p).trans (hlanes p)⟩

end Advances

/-- A task other than the changed one is as it was. -/
lemma getElem?_modify_of_ne {tasks : List CompilationTask} {h i : Nat} {task other : CompilationTask}
    (f : CompilationTask → CompilationTask) (htask : tasks[h]? = some task)
    (hother : tasks[i]? = some other) (hne : task.state.terminal ≠ other.state.terminal) :
    (tasks.modify h f)[i]? = some other := by
  rw [List.getElem?_modify, hother]
  have hhi : h ≠ i := by
    rintro rfl
    rw [htask] at hother
    exact hne (by rw [Option.some.inj hother])
  simp [hhi]

/-- Taking a task out of a lane leaves part of every lane. -/
lemma sublist_update_erase (queues : CompilationPriority → List Nat) (p q : CompilationPriority)
    (h : Nat) : (Function.update queues p ((queues p).erase h) q).Sublist (queues q) := by
  by_cases hq : q = p
  · subst hq
    rw [Function.update_self]
    exact List.erase_sublist
  · rw [Function.update_of_ne hq]

/-- A move advances the tasks. -/
lemma Consistent.advances_move {s s' : SchedulerState} (hs : Consistent s) (hmove : Move s s') :
    Advances s s' := by
  cases hmove with
  | idle same =>
      refine ⟨fun h task htask _ => by rwa [same.tasks], fun hclosed => ⟨?_, ?_, fun p => ?_⟩⟩
      · rcases haccepting : s'.statistics.accepting with _ | _
        · rfl
        · rw [same.closes haccepting] at hclosed
          contradiction
      · rw [same.tasks]
      · rw [same.queues]
  | flag raised hraised =>
      refine ⟨fun h task htask hterminal => ?_, fun hclosed => ⟨hclosed, ?_, fun p => .refl _⟩⟩
      · have hflag : raised h = false := by
          rcases hflag : raised h with _ | _
          · rfl
          · rw [hraised h task htask hflag] at hterminal
            contradiction
        simp [raiseFlags, htask, hflag]
      · simp [raiseFlags]
  | enroll request priority fresh accepting capacity =>
      refine ⟨fun h task htask _ => ?_, fun hclosed => ?_⟩
      · show (s.tasks ++ _)[h]? = some task
        rw [List.getElem?_append_left (List.getElem?_eq_some_iff.mp htask).1]
        exact htask
      · rw [accepting] at hclosed
        contradiction
  | @start w h task hw htask hmem =>
      have hqueued := (hs.placed.queued_of_mem htask hmem).1
      refine ⟨fun i other hother hterminal => ?_, fun hclosed => ⟨hclosed, ?_, fun p => ?_⟩⟩
      · exact getElem?_modify_of_ne _ htask hother (by rw [hqueued, hterminal]; decide)
      · simp [SchedulerState.start]
      · exact sublist_update_erase s.queues task.priority p h
  | sample state outcome hw htask hterminal hcancel =>
      exact ⟨fun _ _ h _ => h, fun h => ⟨h, rfl, fun _ => .refl _⟩⟩
  | @publish _ w h state outcome hw hpublish =>
      obtain ⟨task, htask, hrunning, heq⟩ := hs.workerPublish_eq hw
      obtain rfl : s' = s.published w h task.key state outcome := by
        rw [heq] at hpublish
        exact (Option.some.inj hpublish).symm
      refine ⟨fun i other hother hterminal => ?_, fun hclosed => ⟨?_, ?_, fun p => .refl _⟩⟩
      · exact getElem?_modify_of_ne _ htask hother (by rw [hrunning, hterminal]; decide)
      · rw [← hclosed]
        show (countFinished _ state).accepting = _
        unfold countFinished
        split <;> rfl
      · simp [published]
  | @drop h task htask hmem =>
      have hqueued := (hs.placed.queued_of_mem htask hmem).1
      have htasks : ((s.dequeue h task).discard h).tasks = s.tasks.modify h fun task =>
          { task with
            outcome := .error cancelledStatus, state := .cancelled, completed := true } := by
        rw [discard, eraseTask_eq]
        rfl
      refine ⟨fun i other hother hterminal => ?_, fun hclosed => ⟨?_, ?_, fun p => ?_⟩⟩
      · rw [htasks]
        exact getElem?_modify_of_ne _ htask hother (by rw [hqueued, hterminal]; decide)
      · rw [discard, eraseTask_eq]
        exact hclosed
      · simp [htasks]
      · rw [discard, eraseTask_eq]
        exact sublist_update_erase s.queues task.priority p h
  | exit hw hempty hclosed =>
      exact ⟨fun _ _ h _ => h, fun h => ⟨h, rfl, fun _ => .refl _⟩⟩

/-- Moves advance the tasks. -/
lemma Consistent.advances {s s' : SchedulerState} (hs : Consistent s) (hmoves : Moves s s') :
    Advances s s' := by
  induction hmoves with
  | refl => exact .refl s
  | tail hmoves hmove ih => exact ih.trans ((hs.moves hmoves).advances_move hmove)

/-! ## Runs of the scheduler -/

/-- A new scheduler satisfies the invariant. -/
lemma consistent_create {options : CompilationSchedulerOptions} {hardwareConcurrency : Nat}
    {s : SchedulerState} (h : create options hardwareConcurrency = .ok s) : Consistent s := by
  simp only [create, validateOptions, bind_eq_ok, require_eq_ok] at h
  obtain ⟨_, ⟨_, hworkers, -⟩, h⟩ := h
  obtain rfl := (pure_eq_ok.mp h)
  have hwaiting : ∀ (w : Nat) (worker : Worker),
      (List.replicate (resolvedWorkerCount options.workerCount hardwareConcurrency)
        Worker.waiting)[w]? = some worker → worker = .waiting := by
    intro w worker hw
    exact List.eq_of_mem_replicate (List.mem_of_getElem? hw)
  refine ⟨⟨?_, ?_, ?_, ?_, ?_, ?_⟩, ⟨rfl, rfl, ?_, ?_, rfl, rfl, ?_, rfl, rfl, rfl, rfl⟩,
    ⟨?_, ?_, ?_, ?_⟩⟩
  · simp [views]
  · simp
  · intro h
    simp only [views, heldBy, List.map_nil, List.getElem?_nil, reduceCtorEq, false_and,
      exists_false, false_iff, not_exists, Option.bind_eq_some_iff, not_and]
    intro w worker hw
    obtain rfl := hwaiting w worker hw
    simp [Worker.task?]
  · intro w w' h hw
    simp only [heldBy, Option.bind_eq_some_iff] at hw
    obtain ⟨worker, hworker, htask⟩ := hw
    obtain rfl := hwaiting w worker hworker
    contradiction
  · simp [views]
  · simp [views]
  · simp
  · simp
  · simp [List.countP_replicate, Worker.task?]
  · simp only [List.length_replicate]
    omega
  · intro w h state outcome hw
    exact absurd (hwaiting w _ hw) (by simp)
  · intro w hw
    exact absurd (hwaiting w _ hw) (by simp)
  · simp

/-- Every step keeps the invariant. -/
lemma consistent_step {s s' : SchedulerState} {e : SchedulerEvent} (hs : Consistent s)
    (h : s.step e = some s') : Consistent s' :=
  hs.moves (step_moves hs h)

/-- A run advances the tasks. -/
lemma advances_run {s t : SchedulerState} {events : List SchedulerEvent} (hs : Consistent s)
    (run : Transitions.afterEvents step s events = some t) : Advances s t :=
  Transitions.related (I := Consistent) (fun _ _ _ => consistent_step) Advances.refl
    (fun _ _ _ => Advances.trans) (fun _ _ _ hs h => hs.advances (step_moves hs h)) hs run

/-- What the scheduler promises in every state: the queue counters are the totals over the three
lanes and within the limits, the table holds exactly the queued and running tasks with one of them
for each identity and generation, the counters balance as long as none has saturated, and a worker
has returned only from a closed scheduler with empty lanes. -/
structure Conserved (s : SchedulerState) : Prop where
  queuedTasks : s.statistics.queuedTasks =
    (s.queues .background).length + (s.queues .normal).length + (s.queues .urgent).length
  queuedBytes : s.statistics.queuedBytes =
    laneBytes s.views (s.queues .background) + laneBytes s.views (s.queues .normal) +
      laneBytes s.views (s.queues .urgent)
  queuedTasks_le : s.statistics.queuedTasks ≤ s.options.maximumQueuedTasks
  queuedBytes_le : s.statistics.queuedBytes ≤ s.options.maximumQueuedBytes
  identified : ∀ key h, s.identities key = some h ↔
    ∃ task, s.tasks[h]? = some task ∧ task.key = key ∧
      (task.state = .queued ∨ task.state = .running)
  one_open : ∀ (h h' : Nat) (task task' : CompilationTask), s.tasks[h]? = some task →
    s.tasks[h']? = some task' → task.state.terminal = false → task'.state.terminal = false →
    task.key = task'.key → h = h'
  balance : s.statistics.submitted < maximumCounter →
    s.statistics.submitted = s.statistics.queuedTasks + s.statistics.activeWorkers +
      s.statistics.succeeded + s.statistics.failed + s.statistics.cancelled
  exited : ∀ w : Nat, s.workers[w]? = some .exited →
    s.statistics.accepting = false ∧ ∀ p, s.queues p = []

/-- A task has not ended exactly while it is queued or running. -/
lemma Consistent.open_iff {s : SchedulerState} (hs : Consistent s) {h : Nat}
    {task : CompilationTask} (htask : s.tasks[h]? = some task) :
    task.state.terminal = false ↔ task.state = .queued ∨ task.state = .running := by
  have hvalid : task.state ≠ .invalid :=
    hs.placed.valid task.view (List.mem_of_getElem? (views_of_tasks htask))
  cases hstate : task.state with
  | invalid => exact absurd hstate hvalid
  | _ => decide

/-- Short of saturation every submitted task is queued, active or ended. -/
lemma Consistent.balance {s : SchedulerState} (hs : Consistent s)
    (hunsaturated : s.statistics.submitted < maximumCounter) :
    s.statistics.submitted = s.statistics.queuedTasks + s.statistics.activeWorkers +
      s.statistics.succeeded + s.statistics.failed + s.statistics.cancelled := by
  have hc := hs.counted
  have hlength := length_eq_countState hs.placed.valid
  rw [hc.submitted] at hunsaturated
  rw [hc.submitted, hc.queued, hc.active, hc.succeeded, hc.failed, hc.cancelled]
  unfold saturated at *
  omega

/-- The invariant conserves tasks. -/
lemma Consistent.conserved {s : SchedulerState} (hs : Consistent s) : Conserved s where
  queuedTasks := hs.counted.queuedTasks
  queuedBytes := hs.counted.queuedBytes
  queuedTasks_le := hs.counted.queuedTasks_le
  queuedBytes_le := hs.counted.queuedBytes_le
  identified := by
    intro key h
    rw [hs.placed.identified]
    constructor
    · rintro ⟨v, hv, hkey, hopen⟩
      obtain ⟨task, htask, rfl⟩ : ∃ task, s.tasks[h]? = some task ∧ task.view = v := by
        simpa [views] using hv
      exact ⟨task, htask, hkey, (hs.open_iff htask).mp hopen⟩
    · rintro ⟨task, htask, hkey, hstate⟩
      exact ⟨task.view, views_of_tasks htask, hkey, (hs.open_iff htask).mpr hstate⟩
  one_open := by
    intro h h' task task' htask htask' hopen hopen' hkey
    have hfirst := (hs.placed.identified task.key h).mpr
      ⟨task.view, views_of_tasks htask, rfl, hopen⟩
    have hsecond := (hs.placed.identified task.key h').mpr
      ⟨task'.view, views_of_tasks htask', hkey.symm, hopen'⟩
    rw [hfirst] at hsecond
    exact Option.some.inj hsecond
  balance := hs.balance
  exited := hs.staffed.exited

/-- **Conservation and lifecycle**: for every interleaving of submissions, cancellations, worker
steps and shutdown, the scheduler is conserved in the state reached, and in every later state the
finished tasks are unchanged and a closed scheduler has queued nothing more. -/
theorem scheduler_conserves {options : CompilationSchedulerOptions} {hardwareConcurrency : Nat}
    {start s : SchedulerState} {events : List SchedulerEvent}
    (hcreate : create options hardwareConcurrency = .ok start)
    (run : Transitions.afterEvents step start events = some s) :
    Conserved s ∧ ∀ (later : List SchedulerEvent) (t : SchedulerState),
      Transitions.afterEvents step s later = some t → Advances s t := by
  have hs : Consistent s := Transitions.invariant (fun _ _ _ => consistent_step)
    (consistent_create hcreate) run
  exact ⟨hs.conserved, fun _ _ hlater => advances_run hs hlater⟩

/-- A request. -/
def sampleRequest : CompilationRequest := { identity := [0x66#8] }

/-- A request that is submitted, run and published, after which the scheduler is drained. -/
def sampleEvents : List SchedulerEvent :=
  [.submit sampleRequest none true, .pop 0, .sample 0 (.ok ()), .publish 0, .shutdown .drain,
    .pop 0]

/-- A run from a new scheduler conserves its tasks. -/
theorem scheduler_conserves_sample :
    ∃ start s, create {} 1 = .ok start ∧
      Transitions.afterEvents step start sampleEvents = some s ∧ Conserved s := by
  have hrun : (Transitions.afterEvents step
      { options := { workerCount := 1 }
        statistics := { workerCount := 1, accepting := true }
        workers := [.waiting] } sampleEvents).isSome = true := by
    decide +kernel
  obtain ⟨s, hs⟩ := Option.isSome_iff_exists.mp hrun
  exact ⟨_, s, rfl, hs, (@scheduler_conserves {} 1 _ s _ rfl hs).1⟩

/-! ## Cancellation -/

section cancellation

variable {s s' : SchedulerState} {h : Nat}

/-- The task is going to be cancelled: its flag is raised, and no worker has settled on another
result for it. -/
structure Doomed (h : Nat) (s : SchedulerState) : Prop where
  flagged : ∃ task, s.tasks[h]? = some task ∧ task.cancellationRequested = true ∧
    (task.state.terminal = true → task.state = .cancelled)
  unsettled : ∀ (w : Nat) (state : CompilationTaskState) (outcome : Outcome),
    s.workers[w]? = some (.completing h state outcome) → state = .cancelled

/-- A change to one task that keeps its flag and, for the task at hand, leaves it open or
cancelled. -/
lemma flagged_modify {tasks : List CompilationTask} {i : Nat}
    {f : CompilationTask → CompilationTask}
    (hflag : ∀ task, (f task).cancellationRequested = task.cancellationRequested)
    (hstate : ∀ task, tasks[h]? = some task → i = h → (f task).state.terminal = true →
      (f task).state = .cancelled)
    (hflagged : ∃ task, tasks[h]? = some task ∧ task.cancellationRequested = true ∧
      (task.state.terminal = true → task.state = .cancelled)) :
    ∃ task, (tasks.modify i f)[h]? = some task ∧ task.cancellationRequested = true ∧
      (task.state.terminal = true → task.state = .cancelled) := by
  obtain ⟨task, htask, hrequested, hopen⟩ := hflagged
  rw [List.getElem?_modify, htask]
  by_cases hi : i = h
  · refine ⟨f task, by simp [hi], by rw [hflag, hrequested], hstate task htask hi⟩
  · exact ⟨task, by simp [hi], hrequested, hopen⟩

/-- A doomed task stays doomed. -/
lemma Doomed.move (hd : Doomed h s) (hs : Consistent s) (hmove : Move s s') : Doomed h s' := by
  obtain ⟨hflagged, hunsettled⟩ := hd
  cases hmove with
  | idle same =>
      refine ⟨by simpa [same.tasks] using hflagged, ?_⟩
      simpa [same.workers] using hunsettled
  | flag raised hraised =>
      refine ⟨?_, hunsettled⟩
      obtain ⟨task, htask, hrequested, hopen⟩ := hflagged
      simp only [raiseFlags, List.getElem?_mapIdx, htask, Option.map_some, Option.some.injEq,
        exists_eq_left']
      split_ifs
      · exact ⟨rfl, hopen⟩
      · exact ⟨hrequested, hopen⟩
  | enroll request priority fresh accepting capacity =>
      refine ⟨?_, hunsettled⟩
      obtain ⟨task, htask, hrest⟩ := hflagged
      refine ⟨task, ?_, hrest⟩
      show (s.tasks ++ _)[h]? = some task
      rw [List.getElem?_append_left (List.getElem?_eq_some_iff.mp htask).1]
      exact htask
  | @start w i task hw htask hmem =>
      refine ⟨flagged_modify (fun _ => rfl) (fun _ _ _ hterminal => ?_) hflagged, ?_⟩
      · contradiction
      · intro j state outcome hj
        rcases getElem?_set_cases hj with ⟨-, heq⟩ | hj
        · contradiction
        · exact hunsettled j state outcome hj
  | @sample w i task state outcome hw htask hterminal hcancel =>
      refine ⟨hflagged, fun j state' outcome' hj => ?_⟩
      rcases getElem?_set_cases hj with ⟨-, heq⟩ | hj
      · obtain ⟨rfl, rfl, rfl⟩ : h = i ∧ state' = state ∧ outcome' = outcome := by simpa using heq
        obtain ⟨flagged, hflagged, hrequested, -⟩ := hflagged
        obtain rfl : task = flagged := by simpa [htask] using hflagged
        exact hcancel hrequested
      · exact hunsettled j state' outcome' hj
  | @publish _ w i state outcome hw hpublish =>
      obtain ⟨task, htask, hrunning, heq⟩ := hs.workerPublish_eq hw
      obtain rfl : s' = s.published w i task.key state outcome := by
        rw [heq] at hpublish
        exact (Option.some.inj hpublish).symm
      refine ⟨flagged_modify (fun _ => rfl) (fun _ _ hi _ => ?_) hflagged, ?_⟩
      · subst hi
        exact hunsettled w state outcome hw
      · intro j state' outcome' hj
        rcases getElem?_set_cases hj with ⟨-, heq⟩ | hj
        · contradiction
        · exact hunsettled j state' outcome' hj
  | @drop i task htask hmem =>
      rw [discard, eraseTask_eq]
      exact ⟨flagged_modify (fun _ => rfl) (fun _ _ _ _ => rfl) hflagged, hunsettled⟩
  | exit hw hempty hclosed =>
      refine ⟨hflagged, fun j state outcome hj => ?_⟩
      rcases getElem?_set_cases hj with ⟨-, heq⟩ | hj
      · contradiction
      · exact hunsettled j state outcome hj

/-- The result of the task is settled: a worker is about to publish it, or has done so. -/
def Settled (h : Nat) (state : CompilationTaskState) (s : SchedulerState) : Prop :=
  (∃ (w : Nat) (outcome : Outcome), s.workers[w]? = some (.completing h state outcome)) ∨
    ∃ task, s.tasks[h]? = some task ∧ task.state = state

/-- A worker that is about to publish stays there until it does. -/
lemma getElem?_set_of_ne {workers : List Worker} {w i : Nat} {old new worker : Worker}
    (hw : workers[w]? = some old) (hi : workers[i]? = some worker) (hne : worker ≠ old) :
    (workers.set w new)[i]? = some worker := by
  rw [List.getElem?_set_ne, hi]
  rintro rfl
  rw [hi] at hw
  exact hne (Option.some.inj hw)

/-- A settled task stays settled. -/
lemma Settled.move {state : CompilationTaskState} (hterminal : state.terminal = true)
    (hsettled : Settled h state s) (hs : Consistent s) (hmove : Move s s') :
    Settled h state s' := by
  rcases hsettled with ⟨w, outcome, hw⟩ | ⟨task, htask, hstate⟩
  · cases hmove with
    | idle same => exact .inl ⟨w, outcome, by rw [same.workers, hw]⟩
    | flag raised hraised => exact .inl ⟨w, outcome, hw⟩
    | enroll request priority fresh accepting capacity => exact .inl ⟨w, outcome, hw⟩
    | start hwaiting htask hmem =>
        exact .inl ⟨w, outcome, getElem?_set_of_ne hwaiting hw (by simp)⟩
    | sample state' outcome' hrunning htask hterminal hcancel =>
        exact .inl ⟨w, outcome, getElem?_set_of_ne hrunning hw (by simp)⟩
    | @publish _ w' i state' outcome' hw' hpublish =>
        obtain ⟨task, htask, hrunning, heq⟩ := hs.workerPublish_eq hw'
        obtain rfl : s' = s.published w' i task.key state' outcome' := by
          rw [heq] at hpublish
          exact (Option.some.inj hpublish).symm
        by_cases hsame : w = w'
        · subst hsame
          obtain ⟨rfl, rfl, rfl⟩ : h = i ∧ state = state' ∧ outcome = outcome' := by
            simpa [hw] using hw'
          refine .inr ⟨{ task with outcome := outcome, state := state, completed := true }, ?_, rfl⟩
          simp [published, htask]
        · refine .inl ⟨w, outcome, ?_⟩
          show (s.workers.set w' .waiting)[w]? = _
          rw [List.getElem?_set_ne (Ne.symm hsame), hw]
    | drop htask hmem =>
        rw [discard, eraseTask_eq]
        exact .inl ⟨w, outcome, hw⟩
    | exit hwaiting hempty hclosed =>
        exact .inl ⟨w, outcome, getElem?_set_of_ne hwaiting hw (by simp)⟩
  · have := (hs.advances_move hmove).settled h task htask (by rw [hstate, hterminal])
    exact .inr ⟨task, this, hstate⟩

/-- A property of a state that every move keeps holds after a run. -/
lemma moves_run {P : SchedulerState → Prop} {t : SchedulerState} {events : List SchedulerEvent}
    (kept : ∀ s s', P s → Consistent s → Move s s' → P s') (hs : Consistent s) (hP : P s)
    (run : Transitions.afterEvents step s events = some t) : P t := by
  have hboth : Consistent t ∧ P t := by
    refine Transitions.invariant (I := fun s => Consistent s ∧ P s) ?_ ⟨hs, hP⟩ run
    rintro s e s' ⟨hs, hP⟩ hstep
    refine ⟨consistent_step hs hstep, ?_⟩
    have hmoves := step_moves hs hstep
    clear hstep
    induction hmoves with
    | refl => exact hP
    | tail hmoves hmove ih => exact kept _ _ ih (hs.moves hmoves) hmove
  exact hboth.2

/-- A request that takes effect finds the task open and leaves its flag raised. -/
lemma cancel_eq_true (hcancel : (s.cancel h).1 = true) :
    (∃ task, s.tasks[h]? = some task ∧ task.state.terminal = false) ∧
      (s.cancel h).2.workers = s.workers ∧
      ∃ task, (s.cancel h).2.tasks[h]? = some task ∧ task.cancellationRequested = true ∧
        (task.state.terminal = true → task.state = .cancelled) := by
  unfold cancel at hcancel ⊢
  cases htask : s.tasks[h]? with
  | none => simp [htask] at hcancel
  | some task =>
      simp only [htask] at hcancel ⊢
      by_cases hterminal : task.state.terminal = true
      · simp [hterminal] at hcancel
      · have hopen : task.state.terminal = false := by simpa using hterminal
        have hflagged : (s.updateTask h fun task =>
            { task with cancellationRequested := true }).tasks[h]? =
              some { task with cancellationRequested := true } := by
          simp [updateTask, htask]
        refine ⟨⟨task, rfl, hopen⟩, ?_⟩
        rw [if_neg hterminal]
        split_ifs
        · exact ⟨rfl, _, hflagged, rfl, fun h => absurd h hterminal⟩
        · exact ⟨rfl, _, hflagged, rfl, fun h => absurd h hterminal⟩
        · rw [discard, eraseTask_eq]
          refine ⟨rfl, { task with
            cancellationRequested := true, outcome := .error cancelledStatus,
            state := .cancelled, completed := true }, ?_, rfl, fun _ => rfl⟩
          show (List.modify _ h _)[h]? = _
          rw [List.getElem?_modify]
          simp [dequeue, updateStatistics, hflagged]
        · exact ⟨rfl, _, hflagged, rfl, fun h => absurd h hterminal⟩

/-- **When a cancellation is honoured**: a request that reports that it took effect leads to a
cancelled task exactly when no worker has already settled on another result for it. -/
theorem cancel_honoured_iff {options : CompilationSchedulerOptions} {hardwareConcurrency : Nat}
    {start s t : SchedulerState} {events later : List SchedulerEvent} {h : Nat}
    {task : CompilationTask} (hcreate : create options hardwareConcurrency = .ok start)
    (run : Transitions.afterEvents step start events = some s)
    (hcancel : (s.cancel h).1 = true)
    (rest : Transitions.afterEvents step (s.cancel h).2 later = some t)
    (htask : t.tasks[h]? = some task) (hterminal : task.state.terminal = true) :
    task.state = .cancelled ↔
      ∀ (w : Nat) (state : CompilationTaskState) (outcome : Outcome),
        s.workers[w]? = some (.completing h state outcome) → state = .cancelled := by
  have hs : Consistent s := Transitions.invariant (fun _ _ _ => consistent_step)
    (consistent_create hcreate) run
  have hs' : Consistent (s.cancel h).2 := hs.moves (moves_cancel s h)
  have ht : Consistent t := Transitions.invariant (fun _ _ _ => consistent_step) hs' rest
  obtain ⟨-, hworkers, hflagged⟩ := cancel_eq_true hcancel
  constructor
  · intro hcancelled w state outcome hw
    by_contra hne
    have hsettled : Settled h state t := by
      have hfinal := hs.staffed.completing w h state outcome hw
      refine moves_run (fun _ _ hP hs hmove => hP.move hfinal hs hmove) hs' ?_ rest
      exact .inl ⟨w, outcome, by rw [hworkers, hw]⟩
    rcases hsettled with ⟨w', outcome', hw'⟩ | ⟨task', htask', hstate⟩
    · -- a worker that has not published still has a running task
      obtain ⟨running, hrunning, hstate⟩ := ht.placed.running_of_held
        (show t.heldBy w' = some h by simp [heldBy, hw', Worker.task?])
      obtain rfl : task = running := by simpa [htask] using hrunning
      rw [hstate] at hterminal
      contradiction
    · obtain rfl : task = task' := by simpa [htask] using htask'
      exact hne (hstate.symm.trans hcancelled)
  · intro hunsettled
    have hdoomed : Doomed h t := by
      refine moves_run (fun _ _ hP hs hmove => hP.move hs hmove) hs' ⟨hflagged, ?_⟩ rest
      rw [hworkers]
      exact hunsettled
    obtain ⟨task', htask', -, hcancelled⟩ := hdoomed.flagged
    obtain rfl : task = task' := by simpa [htask] using htask'
    exact hcancelled hterminal

/-- A request on a running task, before its job returns. -/
theorem cancel_honoured_sample :
    ∃ start s t task, create {} 1 = .ok start ∧
      Transitions.afterEvents step start [.submit sampleRequest none true, .pop 0] = some s ∧
      (s.cancel 0).1 = true ∧
      Transitions.afterEvents step (s.cancel 0).2 [.sample 0 (.ok ()), .publish 0] = some t ∧
      t.tasks[0]? = some task ∧ task.state = .cancelled := by
  have hsample : ∃ start s t task, create {} 1 = .ok start ∧
      Transitions.afterEvents step start [.submit sampleRequest none true, .pop 0] = some s ∧
      (s.cancel 0).1 = true ∧
      Transitions.afterEvents step (s.cancel 0).2 [.sample 0 (.ok ()), .publish 0] = some t ∧
      t.tasks[0]? = some task ∧ task.state.terminal = true ∧ s.workers = [.running 0] :=
    ⟨_, _, _, _, rfl, rfl, rfl, rfl, rfl, rfl, rfl⟩
  obtain ⟨start, s, t, task, hcreate, run, hcancel, rest, htask, hterminal, hworkers⟩ := hsample
  refine ⟨start, s, t, task, hcreate, run, hcancel, rest, htask, ?_⟩
  refine (cancel_honoured_iff hcreate run hcancel rest htask hterminal).mpr ?_
  intro w state outcome hw
  rw [hworkers] at hw
  cases w with
  | zero => simp at hw
  | succ w => simp at hw

/-- The window between the sample and the publication: the request reports that it took effect,
and the task succeeds. -/
theorem cancel_between_sample_and_publication :
    ¬∀ (options : CompilationSchedulerOptions) (hardwareConcurrency : Nat)
      (start s t : SchedulerState) (events later : List SchedulerEvent) (h : Nat)
      (task : CompilationTask), create options hardwareConcurrency = .ok start →
      Transitions.afterEvents step start events = some s → (s.cancel h).1 = true →
      Transitions.afterEvents step (s.cancel h).2 later = some t → t.tasks[h]? = some task →
      task.state.terminal = true → task.state = .cancelled := by
  intro honoured
  have hcancelled := honoured {} 1 _ _ _
    [.submit sampleRequest none true, .pop 0, .sample 0 (.ok ())] [.publish 0] 0 _ rfl rfl rfl rfl
    rfl rfl
  contradiction

end cancellation

end UniJit.Jit.SchedulerState
