import UniJit.Jit.CompilationScheduler
import UniJit.Lib.Updates

/-!
# The moves of the compilation scheduler

What the steps of the scheduler's threads are made of, and the invariant that every one of these
moves keeps. The invariant `Consistent` ties the lanes, the identity table, the workers and the
counters to the states of the tasks: a lane holds the queued tasks of its priority, a worker holds
a running one, the table holds both kinds, and each counter is the number of tasks in one state.

Only four moves change the state of a task: it is admitted, it is started, its result is
published, or it is cancelled in its lane. Every other step leaves the part of the state that
`Consistent` reads as it was (`Consistent.idle`).
-/

namespace UniJit.Jit

open Lib

/-- The part of a task that the tables and counters depend on. -/
structure TaskView where
  state : CompilationTaskState
  key : TaskKey
  priority : CompilationPriority
  bytes : Nat

/-- What the accounts see of a task. -/
def CompilationTask.view (task : CompilationTask) : TaskView :=
  ⟨task.state, task.key, task.priority, task.estimatedBytes⟩

/-! ## Lists of views -/

/-- Give a task a new state. -/
def setState (views : List TaskView) (h : Nat) (state : CompilationTaskState) : List TaskView :=
  views.modify h fun v => { v with state := state }

/-- The number of tasks in a state. -/
def countState (views : List TaskView) (state : CompilationTaskState) : Nat :=
  views.countP fun v => v.state = state

/-- The byte cost of a task. -/
def bytesOf (views : List TaskView) (h : Nat) : Nat := (views[h]?.map (·.bytes)).getD 0

@[simp] lemma length_setState (views : List TaskView) (h : Nat) (state : CompilationTaskState) :
    (setState views h state).length = views.length := by
  simp [setState]

/-- A new state is of its task only. -/
lemma getElem?_setState (views : List TaskView) (h i : Nat) (state : CompilationTaskState) :
    (setState views h state)[i]? =
      if h = i then views[i]?.map (fun v => { v with state := state }) else views[i]? := by
  rw [setState, List.getElem?_modify]
  split_ifs <;> simp

/-- The task with the new state. -/
lemma getElem?_setState_self {views : List TaskView} {h : Nat} {v : TaskView}
    (hv : views[h]? = some v) (state : CompilationTaskState) :
    (setState views h state)[h]? = some { v with state := state } := by
  simp [getElem?_setState, hv]

/-- The other tasks are as they were. -/
lemma getElem?_setState_ne {views : List TaskView} {h i : Nat} (hne : h ≠ i)
    (state : CompilationTaskState) : (setState views h state)[i]? = views[i]? := by
  simp [getElem?_setState, hne]

/-- A new state leaves the sizes alone. -/
lemma bytesOf_setState (views : List TaskView) (h i : Nat) (state : CompilationTaskState) :
    bytesOf (setState views h state) i = bytesOf views i := by
  unfold bytesOf
  rw [getElem?_setState]
  split_ifs <;> simp [Option.map_map, Function.comp_def]

/-- A task that changes its state moves from one count to the other. -/
lemma countState_setState {views : List TaskView} {h : Nat} {v : TaskView}
    (hv : views[h]? = some v) (state counted : CompilationTaskState) :
    countState (setState views h state) counted + (if v.state = counted then 1 else 0) =
      countState views counted + (if state = counted then 1 else 0) := by
  simpa [countState, setState] using countP_modify_add hv (fun v => { v with state := state })
    (fun v => decide (v.state = counted))

/-- A task that enters a state is counted there. -/
lemma countState_enter {views : List TaskView} {h : Nat} {v : TaskView}
    {state : CompilationTaskState} (hv : views[h]? = some v) (hne : v.state ≠ state) :
    countState (setState views h state) state = countState views state + 1 := by
  simpa [hne] using countState_setState hv state state

/-- A task that leaves a state is not counted there any more. -/
lemma countState_leave {views : List TaskView} {h : Nat} {v : TaskView}
    {state : CompilationTaskState} (hv : views[h]? = some v) (hne : v.state ≠ state) :
    countState (setState views h state) v.state + 1 = countState views v.state := by
  simpa [Ne.symm hne] using countState_setState hv state v.state

/-- The counts of other states are as they were. -/
lemma countState_other {views : List TaskView} {h : Nat} {v : TaskView}
    {state counted : CompilationTaskState} (hv : views[h]? = some v) (hold : v.state ≠ counted)
    (hnew : state ≠ counted) :
    countState (setState views h state) counted = countState views counted := by
  simpa [hold, hnew] using countState_setState hv state counted

/-- Every task is in one of the five states a task can have. -/
lemma length_eq_countState {views : List TaskView} (hvalid : ∀ v ∈ views, v.state ≠ .invalid) :
    views.length = countState views .queued + countState views .running +
      countState views .succeeded + countState views .failed + countState views .cancelled := by
  induction views with
  | nil => rfl
  | cons v vs ih =>
      have hrest := ih fun u hu => hvalid u (List.mem_cons_of_mem v hu)
      have hv := hvalid v List.mem_cons_self
      simp only [countState, List.length_cons, List.countP_cons] at hrest ⊢
      cases hstate : v.state with
      | invalid => exact absurd hstate hv
      | _ => simp; omega

/-! ## The invariant -/

namespace SchedulerState

/-- What the accounts see of the tasks. -/
def views (s : SchedulerState) : List TaskView := s.tasks.map (·.view)

/-- The task that a worker has taken. -/
def heldBy (s : SchedulerState) (w : Nat) : Option Nat := s.workers[w]?.bind Worker.task?

/-- What a list function gives for the three lanes together. -/
def overLanes (queues : CompilationPriority → List Nat) (f : List Nat → Nat) : Nat :=
  f (queues .background) + f (queues .normal) + f (queues .urgent)

/-- The byte cost of a lane. -/
def laneBytes (views : List TaskView) (lane : List Nat) : Nat := (lane.map (bytesOf views)).sum

/-- The lanes, the table and the workers hold the tasks of the states they stand for. -/
structure Placed (s : SchedulerState) : Prop where
  lane_mem : ∀ p h, h ∈ s.queues p ↔
    ∃ v, s.views[h]? = some v ∧ v.state = .queued ∧ v.priority = p
  lane_nodup : ∀ p, (s.queues p).Nodup
  held : ∀ h, (∃ v, s.views[h]? = some v ∧ v.state = .running) ↔ ∃ w, s.heldBy w = some h
  held_unique : ∀ w w' h, s.heldBy w = some h → s.heldBy w' = some h → w = w'
  identified : ∀ key h, s.identities key = some h ↔
    ∃ v, s.views[h]? = some v ∧ v.key = key ∧ v.state.terminal = false
  valid : ∀ v ∈ s.views, v.state ≠ .invalid

/-- The counters show the lanes and the numbers of tasks in each state. -/
structure Counted (s : SchedulerState) : Prop where
  queuedTasks : s.statistics.queuedTasks = overLanes s.queues List.length
  queuedBytes : s.statistics.queuedBytes = overLanes s.queues (laneBytes s.views)
  queuedTasks_le : s.statistics.queuedTasks ≤ s.options.maximumQueuedTasks
  queuedBytes_le : s.statistics.queuedBytes ≤ s.options.maximumQueuedBytes
  queued : s.statistics.queuedTasks = countState s.views .queued
  active : s.statistics.activeWorkers = countState s.views .running
  active_workers : s.statistics.activeWorkers = s.workers.countP fun w => w.task?.isSome
  submitted : s.statistics.submitted = saturated s.views.length
  succeeded : s.statistics.succeeded = saturated (countState s.views .succeeded)
  failed : s.statistics.failed = saturated (countState s.views .failed)
  cancelled : s.statistics.cancelled = saturated (countState s.views .cancelled)

/-- What the worker threads have established. -/
structure Staffed (s : SchedulerState) : Prop where
  workers : 0 < s.workers.length ∧ s.workers.length ≤ maximumWorkers
  completing : ∀ (w h : Nat) (state : CompilationTaskState) (outcome : Outcome),
    s.workers[w]? = some (.completing h state outcome) → state.terminal = true
  exited : ∀ w : Nat, s.workers[w]? = some .exited →
    s.statistics.accepting = false ∧ ∀ p, s.queues p = []
  released : s.released = true → ∀ w ∈ s.workers, w = .exited

/-- The invariant of the scheduler: tasks in their places, counted, and held by workers. -/
structure Consistent (s : SchedulerState) : Prop where
  placed : Placed s
  counted : Counted s
  staffed : Staffed s

/-! ## A task changes its state

Each lemma says what one of the tables has to become when the task `h`, with the view `v`, goes to
`state`. -/

section moves

variable {views : List TaskView} {h : Nat} {v : TaskView} {state : CompilationTaskState}

/-- A task that leaves its lane. -/
lemma lane_mem_leave {queues : CompilationPriority → List Nat}
    (lane_mem : ∀ p i, i ∈ queues p ↔ ∃ v, views[i]? = some v ∧ v.state = .queued ∧ v.priority = p)
    (nodup : ∀ p, (queues p).Nodup) (hv : views[h]? = some v) (hstate : state ≠ .queued)
    (p : CompilationPriority) (i : Nat) :
    i ∈ Function.update queues v.priority ((queues v.priority).erase h) p ↔
      ∃ u, (setState views h state)[i]? = some u ∧ u.state = .queued ∧ u.priority = p := by
  by_cases hi : h = i
  · subst hi
    simp only [getElem?_setState_self hv, Option.some.injEq, exists_eq_left', hstate, false_and,
      iff_false]
    intro hmem
    by_cases hp : p = v.priority
    · subst hp
      rw [Function.update_self] at hmem
      exact ((nodup v.priority).mem_erase_iff.mp hmem).1 rfl
    · rw [Function.update_of_ne hp] at hmem
      obtain ⟨u, hu, -, hpriority⟩ := (lane_mem p h).mp hmem
      obtain rfl : v = u := by simpa [hv] using hu
      exact hp hpriority.symm
  · rw [getElem?_setState_ne hi, ← lane_mem p i]
    by_cases hp : p = v.priority
    · subst hp
      rw [Function.update_self]
      exact List.mem_erase_of_ne (Ne.symm hi)
    · rw [Function.update_of_ne hp]

/-- A task that is not in a lane and does not enter one. -/
lemma lane_mem_stay {queues : CompilationPriority → List Nat}
    (lane_mem : ∀ p i, i ∈ queues p ↔ ∃ v, views[i]? = some v ∧ v.state = .queued ∧ v.priority = p)
    (hv : views[h]? = some v) (hqueued : v.state ≠ .queued) (hstate : state ≠ .queued)
    (p : CompilationPriority) (i : Nat) :
    i ∈ queues p ↔
      ∃ u, (setState views h state)[i]? = some u ∧ u.state = .queued ∧ u.priority = p := by
  rw [lane_mem p i]
  by_cases hi : h = i
  · subst hi
    simp [getElem?_setState_self hv, hv, hqueued, hstate]
  · rw [getElem?_setState_ne hi]

/-- A task that reaches a terminal state leaves the table. -/
lemma identified_erase {identities : TaskKey → Option Nat}
    (identified : ∀ key i, identities key = some i ↔
      ∃ v, views[i]? = some v ∧ v.key = key ∧ v.state.terminal = false)
    (hv : views[h]? = some v) (hopen : v.state.terminal = false) (hstate : state.terminal = true)
    (key : TaskKey) (i : Nat) :
    Function.update identities v.key none key = some i ↔
      ∃ u, (setState views h state)[i]? = some u ∧ u.key = key ∧ u.state.terminal = false := by
  have hself : identities v.key = some h := (identified v.key h).mpr ⟨v, hv, rfl, hopen⟩
  by_cases hkey : key = v.key
  · subst hkey
    simp only [Function.update_self, reduceCtorEq, false_iff, not_exists, not_and]
    intro u hu hsame hterminal
    by_cases hi : h = i
    · subst hi
      rw [getElem?_setState_self hv, Option.some.injEq] at hu
      subst hu
      simp [hstate] at hterminal
    · rw [getElem?_setState_ne hi] at hu
      have hother := (identified v.key i).mpr ⟨u, hu, hsame, hterminal⟩
      rw [hself, Option.some.injEq] at hother
      exact hi hother
  · rw [Function.update_of_ne hkey, identified key i]
    by_cases hi : h = i
    · subst hi
      have : ¬v.key = key := fun h => hkey h.symm
      simp [getElem?_setState_self hv, hv, this]
    · rw [getElem?_setState_ne hi]

/-- A task that stays in the table. -/
lemma identified_stay {identities : TaskKey → Option Nat}
    (identified : ∀ key i, identities key = some i ↔
      ∃ v, views[i]? = some v ∧ v.key = key ∧ v.state.terminal = false)
    (hv : views[h]? = some v) (hopen : v.state.terminal = false) (hstate : state.terminal = false)
    (key : TaskKey) (i : Nat) :
    identities key = some i ↔
      ∃ u, (setState views h state)[i]? = some u ∧ u.key = key ∧ u.state.terminal = false := by
  rw [identified key i]
  by_cases hi : h = i
  · subst hi
    simp [getElem?_setState_self hv, hv, hopen, hstate]
  · rw [getElem?_setState_ne hi]

/-- Whether another task runs does not change. -/
lemma running_setState (hv : views[h]? = some v) (i : Nat) :
    (∃ u, (setState views h state)[i]? = some u ∧ u.state = .running) ↔
      (i = h ∧ state = .running) ∨ (i ≠ h ∧ ∃ u, views[i]? = some u ∧ u.state = .running) := by
  by_cases hi : h = i
  · subst hi
    simp [getElem?_setState_self hv]
  · simp [getElem?_setState_ne hi, Ne.symm hi]

/-- A valid state keeps the tasks valid. -/
lemma valid_setState (valid : ∀ v ∈ views, v.state ≠ .invalid) (hstate : state ≠ .invalid) :
    ∀ u ∈ setState views h state, u.state ≠ .invalid := by
  intro u hu
  obtain ⟨i, hi⟩ := List.mem_iff_getElem?.mp hu
  rw [getElem?_setState] at hi
  split_ifs at hi with heq
  · obtain ⟨w, -, rfl⟩ := Option.map_eq_some_iff.mp hi
    exact hstate
  · exact valid u (List.mem_of_getElem? hi)

/-- A lane without one of its tasks. -/
lemma overLanes_erase {queues : CompilationPriority → List Nat} {p : CompilationPriority}
    (hmem : h ∈ queues p) :
    overLanes (Function.update queues p ((queues p).erase h)) List.length + 1 =
      overLanes queues List.length := by
  have hlength := List.length_erase_of_mem hmem
  have hpos := List.length_pos_of_mem hmem
  unfold overLanes
  cases p <;> simp <;> omega

/-- Taking a task out of its lane gives its bytes back. -/
lemma overLanes_bytes_erase {queues : CompilationPriority → List Nat} {p : CompilationPriority}
    (hmem : h ∈ queues p) (hv : views[h]? = some v) :
    overLanes (Function.update queues p ((queues p).erase h)) (laneBytes views) + v.bytes =
      overLanes queues (laneBytes views) := by
  have hsum := List.sum_map_erase (bytesOf views) hmem
  have hself : bytesOf views h = v.bytes := by simp [bytesOf, hv]
  rw [hself] at hsum
  unfold overLanes laneBytes
  cases p <;> simp <;> omega

/-- A new state leaves the bytes of the lanes alone. -/
lemma laneBytes_setState : laneBytes (setState views h state) = laneBytes views := by
  funext lane
  simp [laneBytes, funext (bytesOf_setState views h · state)]

end moves

/-! ## The moves of the scheduler -/

/-- A step that touches nothing the invariant depends on, except that admission may close and
that the state may be released once every worker has returned. -/
structure Same (s s' : SchedulerState) : Prop where
  options : s'.options = s.options := by rfl
  tasks : s'.tasks = s.tasks := by rfl
  queues : s'.queues = s.queues := by rfl
  identities : s'.identities = s.identities := by rfl
  workers : s'.workers = s.workers := by rfl
  queuedTasks : s'.statistics.queuedTasks = s.statistics.queuedTasks := by rfl
  queuedBytes : s'.statistics.queuedBytes = s.statistics.queuedBytes := by rfl
  activeWorkers : s'.statistics.activeWorkers = s.statistics.activeWorkers := by rfl
  submitted : s'.statistics.submitted = s.statistics.submitted := by rfl
  succeeded : s'.statistics.succeeded = s.statistics.succeeded := by rfl
  failed : s'.statistics.failed = s.statistics.failed := by rfl
  cancelled : s'.statistics.cancelled = s.statistics.cancelled := by rfl
  closes : s'.statistics.accepting = true → s.statistics.accepting = true := by exact id
  releases : s'.released = true → s.released = true ∨ ∀ w ∈ s.workers, w = .exited := by
    exact Or.inl

/-- Raise the cancellation flags of some tasks. -/
def raiseFlags (s : SchedulerState) (raised : Nat → Bool) : SchedulerState :=
  { s with
    tasks := s.tasks.mapIdx fun h task =>
      if raised h then { task with cancellationRequested := true } else task }

/-- A worker takes a queued task. -/
def start (s : SchedulerState) (w h : Nat) (task : CompilationTask) : SchedulerState :=
  { s with
    tasks := s.tasks.modify h fun task => { task with state := .running }
    queues := (s.dequeue h task).queues
    statistics := { s.statistics with
      queuedTasks := (s.dequeue h task).statistics.queuedTasks
      queuedBytes := (s.dequeue h task).statistics.queuedBytes
      activeWorkers := sizeAdd s.statistics.activeWorkers 1 }
    workers := s.workers.set w (.running h) }

/-- What a step of any thread is made of. -/
inductive Move : SchedulerState → SchedulerState → Prop
  | idle {s s'} (same : Same s s') : Move s s'
  | flag {s} (raised : Nat → Bool)
      (hraised : ∀ h task, s.tasks[h]? = some task → raised h = true →
        task.state.terminal = false) :
      Move s (s.raiseFlags raised)
  | enroll {s} (request : CompilationRequest) (priority : CompilationPriority)
      (fresh : s.identities request.key = none) (accepting : s.statistics.accepting = true)
      (capacity : s.queueHasCapacity request.estimatedBytes = true) :
      Move s (s.enroll request priority)
  | start {s} {w h : Nat} {task : CompilationTask} (hw : s.workers[w]? = some .waiting)
      (htask : s.tasks[h]? = some task) (hmem : h ∈ s.queues task.priority) :
      Move s (s.start w h task)
  | sample {s} {w h : Nat} {task : CompilationTask} (state : CompilationTaskState)
      (outcome : Outcome) (hw : s.workers[w]? = some (.running h))
      (htask : s.tasks[h]? = some task) (hterminal : state.terminal = true)
      (hcancel : task.cancellationRequested = true → state = .cancelled) :
      Move s { s with workers := s.workers.set w (.completing h state outcome) }
  | publish {s s'} {w h : Nat} {state : CompilationTaskState} {outcome : Outcome}
      (hw : s.workers[w]? = some (.completing h state outcome))
      (hpublish : s.workerPublish w = some s') : Move s s'
  | drop {s} {h : Nat} {task : CompilationTask} (htask : s.tasks[h]? = some task)
      (hmem : h ∈ s.queues task.priority) : Move s ((s.dequeue h task).discard h)
  | exit {s} {w : Nat} (hw : s.workers[w]? = some .waiting)
      (hempty : s.statistics.queuedTasks = 0) (hclosed : s.statistics.accepting = false) :
      Move s { s with workers := s.workers.set w .exited }

/-! ### Views of the operations -/

/-- Ending a task sets its state. -/
@[simp] lemma views_completeTask (s : SchedulerState) (h : Nat) (state : CompilationTaskState)
    (outcome : Outcome) : (s.completeTask h state outcome).views = setState s.views h state := by
  apply List.ext_getElem?
  intro i
  simp only [views, completeTask, updateTask, List.getElem?_map, List.getElem?_modify,
    getElem?_setState]
  split_ifs <;> simp [CompilationTask.view, CompilationTask.key, Function.comp_def]

/-- Starting a task sets its state. -/
lemma views_setRunning (s : SchedulerState) (h : Nat) :
    (s.updateTask h fun task => { task with state := .running }).views =
      setState s.views h .running := by
  apply List.ext_getElem?
  intro i
  simp only [views, updateTask, List.getElem?_map, List.getElem?_modify, getElem?_setState]
  split_ifs <;> simp [CompilationTask.view, CompilationTask.key, Function.comp_def]

/-- A cancellation flag is not seen by the accounts. -/
@[simp] lemma views_raiseFlags (s : SchedulerState) (raised : Nat → Bool) :
    (s.raiseFlags raised).views = s.views := by
  apply List.ext_getElem?
  intro i
  simp only [views, raiseFlags, List.getElem?_map, List.getElem?_mapIdx, Option.map_map]
  congr 1
  funext task
  simp only [Function.comp_apply]
  split_ifs <;> rfl

/-- Erasing a task changes the identities only. -/
lemma eraseTask_eq (s : SchedulerState) (h : Nat) :
    s.eraseTask h = { s with identities := (s.eraseTask h).identities } := by
  unfold eraseTask
  split
  · rfl
  · split_ifs <;> rfl

/-- Erasing a task that is held frees its identity. -/
lemma eraseTask_identities {s : SchedulerState} {h : Nat} {v : TaskView}
    (hv : s.views[h]? = some v) (hheld : s.identities v.key = some h) :
    (s.eraseTask h).identities = Function.update s.identities v.key none := by
  obtain ⟨task, htask, rfl⟩ : ∃ task, s.tasks[h]? = some task ∧ task.view = v := by
    simpa [views] using hv
  have hheld' : s.identities task.key = some h := hheld
  simp only [eraseTask, htask, if_pos hheld']
  rfl

/-- A task is seen. -/
lemma views_of_tasks {s : SchedulerState} {h : Nat} {task : CompilationTask}
    (htask : s.tasks[h]? = some task) : s.views[h]? = some task.view := by
  simp [views, htask]

/-! ### Workers -/

/-- A worker that goes to another place in its loop. -/
lemma bind_task_set {workers : List Worker} {w : Nat} {old : Worker} (hw : workers[w]? = some old)
    (new : Worker) (i : Nat) :
    (workers.set w new)[i]?.bind Worker.task? =
      if i = w then new.task? else workers[i]?.bind Worker.task? := by
  have hlt : w < workers.length := (List.getElem?_eq_some_iff.mp hw).1
  rw [List.getElem?_set]
  split_ifs with h₁ h₂ h₂
  · rfl
  · exact absurd h₁.symm h₂
  · exact absurd h₂.symm h₁
  · rfl

/-- How exchanging a worker changes the number of tasks held. -/
lemma countP_task_set {workers : List Worker} {w : Nat} {old : Worker}
    (hw : workers[w]? = some old) (new : Worker) :
    (workers.set w new).countP (fun worker => worker.task?.isSome) +
        (if old.task?.isSome then 1 else 0) =
      workers.countP (fun worker => worker.task?.isSome) +
        (if new.task?.isSome then 1 else 0) := by
  exact countP_set_add hw new _

/-- A worker that is still at work shows that the scheduler is not released. -/
lemma Staffed.not_released {s : SchedulerState} (hs : Staffed s) {w : Nat} {worker : Worker}
    (hw : s.workers[w]? = some worker) (hne : worker ≠ .exited) : s.released = false := by
  rcases hreleased : s.released with _ | _
  · rfl
  · exact absurd (hs.released hreleased worker (List.mem_of_getElem? hw)) hne

/-- A worker that moves on without leaving keeps what the workers established. -/
lemma Staffed.set {s s' : SchedulerState} (hs : Staffed s) {w : Nat} {old new : Worker}
    (hw : s.workers[w]? = some old) (hold : old ≠ .exited) (hnew : new ≠ .exited)
    (hterminal : ∀ h state outcome, new = .completing h state outcome → state.terminal = true)
    (hworkers : s'.workers = s.workers.set w new) (hreleased : s'.released = s.released)
    (haccepting : s'.statistics.accepting = s.statistics.accepting)
    (hqueues : (∀ p, s.queues p = []) → ∀ p, s'.queues p = []) : Staffed s' where
  workers := by simpa [hworkers] using hs.workers
  completing := by
    intro i h state outcome hi
    rw [hworkers] at hi
    rcases getElem?_set_cases hi with ⟨-, heq⟩ | hi
    · exact hterminal h state outcome heq.symm
    · exact hs.completing i h state outcome hi
  exited := by
    intro i hi
    rw [hworkers] at hi
    rcases getElem?_set_cases hi with ⟨-, heq⟩ | hi
    · exact absurd heq.symm hnew
    · rw [haccepting]
      exact ⟨(hs.exited i hi).1, hqueues (hs.exited i hi).2⟩
  released := by
    intro h
    rw [hreleased, hs.not_released hw hold] at h
    contradiction

/-! ### Each move keeps the invariant -/

/-- A step that the accounts do not see keeps the invariant. -/
lemma Consistent.idle {s s' : SchedulerState} (hs : Consistent s) (same : Same s s') :
    Consistent s' := by
  have hviews : s'.views = s.views := by simp [views, same.tasks]
  have hheld : s'.heldBy = s.heldBy := by
    funext w
    simp [heldBy, same.workers]
  refine ⟨?_, ?_, ?_⟩
  · constructor
    · simpa [hviews, same.queues] using hs.placed.lane_mem
    · simpa [same.queues] using hs.placed.lane_nodup
    · simpa [hviews, hheld] using hs.placed.held
    · simpa [hheld] using hs.placed.held_unique
    · simpa [hviews, same.identities] using hs.placed.identified
    · simpa [hviews] using hs.placed.valid
  · constructor
    · simpa [same.queuedTasks, same.queues] using hs.counted.queuedTasks
    · simpa [same.queuedBytes, same.queues, hviews] using hs.counted.queuedBytes
    · simpa [same.queuedTasks, same.options] using hs.counted.queuedTasks_le
    · simpa [same.queuedBytes, same.options] using hs.counted.queuedBytes_le
    · simpa [same.queuedTasks, hviews] using hs.counted.queued
    · simpa [same.activeWorkers, hviews] using hs.counted.active
    · simpa [same.activeWorkers, same.workers] using hs.counted.active_workers
    · simpa [same.submitted, hviews] using hs.counted.submitted
    · simpa [same.succeeded, hviews] using hs.counted.succeeded
    · simpa [same.failed, hviews] using hs.counted.failed
    · simpa [same.cancelled, hviews] using hs.counted.cancelled
  · constructor
    · simpa [same.workers] using hs.staffed.workers
    · simpa [same.workers] using hs.staffed.completing
    · intro w hw
      rw [same.workers] at hw
      obtain ⟨hclosed, hempty⟩ := hs.staffed.exited w hw
      rw [same.queues]
      refine ⟨?_, hempty⟩
      rcases haccepting : s'.statistics.accepting with _ | _
      · rfl
      · rw [same.closes haccepting] at hclosed
        contradiction
    · intro h
      rw [same.workers]
      rcases same.releases h with hreleased | hexited
      · exact hs.staffed.released hreleased
      · exact hexited

/-- A cancellation flag keeps the invariant. -/
lemma Consistent.flag {s : SchedulerState} (hs : Consistent s) (raised : Nat → Bool) :
    Consistent (s.raiseFlags raised) := by
  have hviews := views_raiseFlags s raised
  obtain ⟨hplaced, hcounted, hstaffed⟩ := hs
  refine ⟨⟨?_, hplaced.lane_nodup, ?_, hplaced.held_unique, ?_, ?_⟩, ⟨hcounted.queuedTasks, ?_,
    hcounted.queuedTasks_le, hcounted.queuedBytes_le, ?_, ?_, hcounted.active_workers, ?_, ?_, ?_,
    ?_⟩, ⟨hstaffed.workers, hstaffed.completing, hstaffed.exited, hstaffed.released⟩⟩
  all_goals rw [hviews]
  · exact hplaced.lane_mem
  · exact hplaced.held
  · exact hplaced.identified
  · exact hplaced.valid
  · exact hcounted.queuedBytes
  · exact hcounted.queued
  · exact hcounted.active
  · exact hcounted.submitted
  · exact hcounted.succeeded
  · exact hcounted.failed
  · exact hcounted.cancelled

section admission

variable {s : SchedulerState} (request : CompilationRequest) (priority : CompilationPriority)

/-- The view of a task that is admitted. -/
def admittedView : TaskView := ⟨.queued, request.key, priority, request.estimatedBytes⟩

/-- An admitted task is seen as queued. -/
lemma views_enroll : (s.enroll request priority).views =
    s.views ++ [admittedView request priority] := by
  simp [views, enroll, CompilationTask.view, CompilationTask.key, admittedView,
    CompilationRequest.key]

/-- An entry of a list with one more. -/
lemma getElem?_concat {α : Type} (as : List α) (a : α) (i : Nat) :
    (as ++ [a])[i]? = if i = as.length then some a else as[i]? := by
  rcases Nat.lt_trichotomy i as.length with h | h | h
  · rw [List.getElem?_append_left h, if_neg (by omega)]
  · simp [h]
  · rw [if_neg (by omega), List.getElem?_eq_none (by simp; omega),
      List.getElem?_eq_none (by omega)]

variable {request priority}

/-- An admitted task is in its place. -/
lemma Consistent.placed_admit (hs : Consistent s) (fresh : s.identities request.key = none) :
    Placed (s.enroll request priority) := by
  have hviews := views_enroll (s := s) request priority
  have hlength : s.views.length = s.tasks.length := by simp [views]
  have hnone : s.views[s.tasks.length]? = none := by simp [views]
  have hget : ∀ i, (s.enroll request priority).views[i]? =
      if i = s.tasks.length then some (admittedView request priority) else s.views[i]? := by
    intro i
    rw [hviews, getElem?_concat, hlength]
  refine ⟨?_, ?_, ?_, hs.placed.held_unique, ?_, ?_⟩
  · intro p i
    have hold := hs.placed.lane_mem p i
    show i ∈ Function.update s.queues priority (s.queues priority ++ [s.tasks.length]) p ↔ _
    rw [hget i]
    by_cases hi : i = s.tasks.length
    · have hout : i ∉ s.queues p := by
        rw [hold, hi, hnone]
        simp
      by_cases hp : p = priority
      · subst hp
        simp [hi, admittedView]
      · rw [Function.update_of_ne hp]
        simp [hi, admittedView, Ne.symm hp, hi ▸ hout]
    · rw [if_neg hi, ← hold]
      by_cases hp : p = priority
      · subst hp
        simp [hi]
      · rw [Function.update_of_ne hp]
  · intro p
    show (Function.update s.queues priority (s.queues priority ++ [s.tasks.length]) p).Nodup
    by_cases hp : p = priority
    · subst hp
      rw [Function.update_self]
      refine (hs.placed.lane_nodup p).append (List.nodup_singleton _) ?_
      simp only [List.disjoint_singleton]
      rw [hs.placed.lane_mem, hnone]
      simp
    · rw [Function.update_of_ne hp]
      exact hs.placed.lane_nodup p
  · intro i
    show _ ↔ ∃ w, s.heldBy w = some i
    rw [← hs.placed.held i, hget i]
    by_cases hi : i = s.tasks.length
    · simp [hi, hnone, admittedView]
    · rw [if_neg hi]
  · intro key i
    have hold := hs.placed.identified key i
    show Function.update s.identities request.key (some s.tasks.length) key = some i ↔ _
    rw [hget i]
    by_cases hkey : key = request.key
    · subst hkey
      rw [Function.update_self]
      by_cases hi : i = s.tasks.length
      · simp [hi, admittedView, CompilationTaskState.terminal]
      · rw [if_neg hi, ← hold, fresh]
        simp [Ne.symm hi]
    · rw [Function.update_of_ne hkey]
      by_cases hi : i = s.tasks.length
      · have : ¬request.key = key := fun h => hkey h.symm
        rw [hold, hi, hnone]
        simp [admittedView, this]
      · rw [if_neg hi, hold]
  · intro v hv
    rw [hviews, List.mem_append, List.mem_singleton] at hv
    rcases hv with hv | rfl
    · exact hs.placed.valid v hv
    · simp [admittedView]

/-- An admitted task is counted. -/
lemma Consistent.counted_admit (hs : Consistent s)
    (capacity : s.queueHasCapacity request.estimatedBytes = true) :
    Counted (s.enroll request priority) := by
  have hviews := views_enroll (s := s) request priority
  have hlength : s.views.length = s.tasks.length := by simp [views]
  have hc := hs.counted
  have htasks := s.options.maximumQueuedTasks_lt
  have hbytes := s.options.maximumQueuedBytes_lt
  have htasks_le := hc.queuedTasks_le
  have hbytes_le := hc.queuedBytes_le
  simp only [queueHasCapacity, decide_eq_true_eq] at capacity
  rw [sizeSub_eq hbytes_le] at capacity
  have hqueued : (s.enroll request priority).statistics.queuedTasks =
      s.statistics.queuedTasks + 1 := sizeAdd_eq (by omega)
  have hcost : (s.enroll request priority).statistics.queuedBytes =
      s.statistics.queuedBytes + request.estimatedBytes := sizeAdd_eq (by omega)
  have hcount : ∀ state, countState (s.enroll request priority).views state =
      countState s.views state + if state = .queued then 1 else 0 := by
    intro state
    rw [hviews]
    simp [countState, admittedView, eq_comm]
  -- the new task is the only one whose cost is read beyond the old list
  have hold : ∀ lane : List Nat, (∀ i ∈ lane, i < s.tasks.length) →
      laneBytes (s.enroll request priority).views lane = laneBytes s.views lane := by
    intro lane hlane
    unfold laneBytes
    congr 1
    apply List.map_congr_left
    intro i hi
    have := hlane i hi
    rw [bytesOf, bytesOf, hviews, getElem?_concat, if_neg (by omega)]
  have hinside : ∀ p, ∀ i ∈ s.queues p, i < s.tasks.length := by
    intro p i hi
    obtain ⟨v, hv, -⟩ := (hs.placed.lane_mem p i).mp hi
    rw [← hlength]
    exact (List.getElem?_eq_some_iff.mp hv).1
  have hnew : bytesOf (s.enroll request priority).views s.tasks.length = request.estimatedBytes := by
    rw [bytesOf, hviews, getElem?_concat, if_pos hlength.symm]
    rfl
  refine ⟨?_, ?_, ?_, ?_, ?_, ?_, hc.active_workers, ?_, ?_, ?_, ?_⟩
  · rw [hqueued, hc.queuedTasks]
    show _ = overLanes (Function.update s.queues priority _) _
    unfold overLanes
    cases priority <;> simp <;> omega
  · rw [hcost, hc.queuedBytes]
    show _ = overLanes (Function.update s.queues priority _) _
    have happend : laneBytes (s.enroll request priority).views
        (s.queues priority ++ [s.tasks.length]) =
          laneBytes s.views (s.queues priority) + request.estimatedBytes := by
      rw [← hold _ (hinside priority)]
      simp [laneBytes, hnew]
    unfold overLanes
    cases priority <;> simp [happend, hold _ (hinside _)] <;> omega
  · rw [hqueued]
    exact capacity.1
  · rw [hcost]
    show _ ≤ s.options.maximumQueuedBytes
    omega
  · rw [hqueued, hcount, hc.queued]
    simp
  · rw [hcount, if_neg (by decide), Nat.add_zero]
    exact hc.active
  · show saturatingIncrement s.statistics.submitted = _
    rw [hc.submitted, saturatingIncrement_saturated, hviews]
    simp
  · rw [hcount, if_neg (by decide), Nat.add_zero]
    exact hc.succeeded
  · rw [hcount, if_neg (by decide), Nat.add_zero]
    exact hc.failed
  · rw [hcount, if_neg (by decide), Nat.add_zero]
    exact hc.cancelled

/-- Admitting a task keeps the invariant. -/
lemma Consistent.enroll (hs : Consistent s) (fresh : s.identities request.key = none)
    (accepting : s.statistics.accepting = true)
    (capacity : s.queueHasCapacity request.estimatedBytes = true) :
    Consistent (s.enroll request priority) := by
  refine ⟨hs.placed_admit fresh, hs.counted_admit capacity, ?_⟩
  refine ⟨hs.staffed.workers, hs.staffed.completing, ?_, hs.staffed.released⟩
  intro w hw
  have hclosed := (hs.staffed.exited w hw).1
  rw [accepting] at hclosed
  contradiction

end admission

/-! A task is in its lane as long as it is queued, and a worker's task is running. -/

/-- A task in a lane is queued under its priority. -/
lemma Placed.queued_of_mem {s : SchedulerState} (hs : Placed s) {p : CompilationPriority}
    {h : Nat} {task : CompilationTask} (htask : s.tasks[h]? = some task) (hmem : h ∈ s.queues p) :
    task.state = .queued ∧ task.priority = p := by
  obtain ⟨v, hv, hstate, hpriority⟩ := (hs.lane_mem p h).mp hmem
  obtain rfl : task.view = v := by simpa [views_of_tasks htask] using hv
  exact ⟨hstate, hpriority⟩

/-- A task that a worker holds is running. -/
lemma Placed.running_of_held {s : SchedulerState} (hs : Placed s) {w h : Nat}
    (hw : s.heldBy w = some h) :
    ∃ task, s.tasks[h]? = some task ∧ task.state = .running := by
  obtain ⟨v, hv, hstate⟩ := (hs.held h).mpr ⟨w, hw⟩
  obtain ⟨task, htask, rfl⟩ : ∃ task, s.tasks[h]? = some task ∧ task.view = v := by
    simpa [views] using hv
  exact ⟨task, htask, hstate⟩

section leaving

variable {s : SchedulerState} {w h : Nat} {task : CompilationTask}

/-- What `dequeue` does to the queue counters. -/
lemma Consistent.dequeue_counters (hs : Consistent s) (htask : s.tasks[h]? = some task)
    (hmem : h ∈ s.queues task.priority) :
    (s.dequeue h task).statistics.queuedTasks + 1 = s.statistics.queuedTasks ∧
      (s.dequeue h task).statistics.queuedBytes + task.estimatedBytes =
        s.statistics.queuedBytes := by
  have hc := hs.counted
  have hlength := overLanes_erase hmem
  have hcost : _ + task.estimatedBytes = _ :=
    overLanes_bytes_erase hmem (views_of_tasks htask)
  rw [← hc.queuedTasks] at hlength
  rw [← hc.queuedBytes] at hcost
  constructor
  · show sizeSub s.statistics.queuedTasks 1 + 1 = _
    rw [sizeSub_eq (by omega)]
    omega
  · show sizeSub s.statistics.queuedBytes task.estimatedBytes + _ = _
    rw [sizeSub_eq (by omega)]
    omega

/-- The counters after a task left its lane for another state, given what the rest of the step
does to the counters of that state. -/
lemma Consistent.counted_leave (hs : Consistent s) (htask : s.tasks[h]? = some task)
    (hmem : h ∈ s.queues task.priority) {state : CompilationTaskState} (hstate : state ≠ .queued)
    {s' : SchedulerState} (hoptions : s'.options = s.options)
    (hviews : s'.views = setState s.views h state)
    (hqueues : s'.queues = (s.dequeue h task).queues)
    (hqueuedTasks : s'.statistics.queuedTasks = (s.dequeue h task).statistics.queuedTasks)
    (hqueuedBytes : s'.statistics.queuedBytes = (s.dequeue h task).statistics.queuedBytes)
    (hsubmitted : s'.statistics.submitted = s.statistics.submitted)
    (hworkers : s'.statistics.activeWorkers = s'.workers.countP fun w => w.task?.isSome)
    (hrest : s'.statistics.activeWorkers = countState s'.views .running ∧
      s'.statistics.succeeded = saturated (countState s'.views .succeeded) ∧
      s'.statistics.failed = saturated (countState s'.views .failed) ∧
      s'.statistics.cancelled = saturated (countState s'.views .cancelled)) : Counted s' := by
  have hc := hs.counted
  have hqueued := (hs.placed.queued_of_mem htask hmem).1
  obtain ⟨hfewer, hcheaper⟩ := hs.dequeue_counters htask hmem
  rw [← hqueuedTasks] at hfewer
  rw [← hqueuedBytes] at hcheaper
  have htasks_le := hc.queuedTasks_le
  have hbytes_le := hc.queuedBytes_le
  refine ⟨?_, ?_, ?_, ?_, ?_, hrest.1, hworkers, ?_, hrest.2.1, hrest.2.2.1, hrest.2.2.2⟩
  · have := overLanes_erase hmem
    rw [hqueues]
    show _ = overLanes (Function.update s.queues task.priority _) _
    rw [← hc.queuedTasks] at this
    omega
  · have : _ + task.estimatedBytes = _ := overLanes_bytes_erase hmem (views_of_tasks htask)
    rw [hqueues, hviews, laneBytes_setState]
    show _ = overLanes (Function.update s.queues task.priority _) _
    rw [← hc.queuedBytes] at this
    omega
  · rw [hoptions]
    omega
  · rw [hoptions]
    omega
  · have := countState_leave (views_of_tasks htask)
      (show task.state ≠ state by rw [hqueued]; exact Ne.symm hstate)
    rw [show task.view.state = .queued from hqueued, ← hc.queued, ← hviews] at this
    omega
  · rw [hsubmitted, hc.submitted, hviews, length_setState]

/-- Starting a task keeps the invariant. -/
lemma Consistent.start (hs : Consistent s) (hw : s.workers[w]? = some .waiting)
    (htask : s.tasks[h]? = some task) (hmem : h ∈ s.queues task.priority) :
    Consistent (s.start w h task) := by
  have hv := views_of_tasks htask
  have hqueued := (hs.placed.queued_of_mem htask hmem).1
  have hviews : (s.start w h task).views = setState s.views h .running := views_setRunning _ h
  have hheld : ∀ i, (s.start w h task).heldBy i = if i = w then some h else s.heldBy i :=
    fun i => bind_task_set hw (.running h) i
  have hidle : s.heldBy w = none := by simp [heldBy, hw, Worker.task?]
  have hfree : ∀ i, s.heldBy i ≠ some h := by
    intro i hi
    obtain ⟨other, hother, hrunning⟩ := hs.placed.running_of_held hi
    obtain rfl : task = other := by simpa [htask] using hother
    rw [hqueued] at hrunning
    contradiction
  refine ⟨⟨?_, ?_, ?_, ?_, ?_, ?_⟩, ?_, ?_⟩
  · rw [hviews]
    exact lane_mem_leave hs.placed.lane_mem hs.placed.lane_nodup hv (by decide)
  · intro p
    show (Function.update s.queues task.priority _ p).Nodup
    by_cases hp : p = task.priority
    · subst hp
      rw [Function.update_self]
      exact (hs.placed.lane_nodup _).erase h
    · rw [Function.update_of_ne hp]
      exact hs.placed.lane_nodup p
  · intro i
    rw [hviews, running_setState hv]
    simp only [hheld, hs.placed.held i]
    constructor
    · rintro (⟨rfl, -⟩ | ⟨-, j, hj⟩)
      · exact ⟨w, by simp⟩
      · refine ⟨j, ?_⟩
        rw [if_neg, hj]
        rintro rfl
        rw [hidle] at hj
        contradiction
    · rintro ⟨j, hj⟩
      split_ifs at hj with hjw
      · exact .inl ⟨(Option.some.inj hj).symm, trivial⟩
      · refine .inr ⟨?_, j, hj⟩
        rintro rfl
        exact hfree j hj
  · intro i j k hi hj
    rw [hheld] at hi hj
    split_ifs at hi hj with hiw hjw hjw
    · rw [hiw, hjw]
    · exact absurd (hi ▸ hj) (hfree j)
    · exact absurd (hj ▸ hi) (hfree i)
    · exact hs.placed.held_unique i j k hi hj
  · rw [hviews]
    apply identified_stay hs.placed.identified hv
    · rw [show task.view.state = .queued from hqueued]
      decide
    · decide
  · rw [hviews]
    exact valid_setState hs.placed.valid (by decide)
  · have hstate : task.view.state = .queued := hqueued
    have hworkers := countP_task_set hw (.running h)
    have hle := List.countP_le_length (p := fun w : Worker => w.task?.isSome) (l := s.workers)
    have hbound := hs.staffed.workers.2
    have hactive := hs.counted.active_workers
    have hadd : (s.start w h task).statistics.activeWorkers = s.statistics.activeWorkers + 1 := by
      unfold maximumWorkers at hbound
      show sizeAdd s.statistics.activeWorkers 1 = _
      rw [sizeAdd_eq (by omega)]
    refine hs.counted_leave htask hmem (by decide) rfl hviews rfl rfl rfl rfl ?_ ?_
    · rw [hadd, hactive]
      exact hworkers.symm
    · rw [hadd, hviews]
      refine ⟨?_, ?_, ?_, ?_⟩
      · rw [countState_enter hv (by rw [hstate]; decide), hs.counted.active]
      · rw [countState_other hv (by rw [hstate]; decide) (by decide)]
        exact hs.counted.succeeded
      · rw [countState_other hv (by rw [hstate]; decide) (by decide)]
        exact hs.counted.failed
      · rw [countState_other hv (by rw [hstate]; decide) (by decide)]
        exact hs.counted.cancelled
  · show Staffed (s.start w h task)
    refine hs.staffed.set hw (by simp) (by simp) (by simp) rfl rfl rfl ?_
    intro hempty
    rw [hempty] at hmem
    simp at hmem

/-- Dropping a queued task keeps the invariant. -/
lemma Consistent.drop (hs : Consistent s) (htask : s.tasks[h]? = some task)
    (hmem : h ∈ s.queues task.priority) : Consistent ((s.dequeue h task).discard h) := by
  have hv := views_of_tasks htask
  have hqueued : task.view.state = .queued := (hs.placed.queued_of_mem htask hmem).1
  have hopen : task.view.state.terminal = false := by
    rw [hqueued]
    decide
  have hdiscard : (s.dequeue h task).discard h =
      ({ s.dequeue h task with
          identities := Function.update s.identities task.key none
          statistics := { (s.dequeue h task).statistics with
            cancelled := saturatingIncrement s.statistics.cancelled } } :
        SchedulerState).completeTask h .cancelled (.error cancelledStatus) := by
    have hkey := (hs.placed.identified task.view.key h).mpr ⟨task.view, hv, rfl, hopen⟩
    have herase := eraseTask_identities (s := s.dequeue h task) hv hkey
    rw [discard, eraseTask_eq, herase]
    rfl
  have hviews : ((s.dequeue h task).discard h).views = setState s.views h .cancelled := by
    rw [hdiscard, views_completeTask]
    rfl
  have hheld : ((s.dequeue h task).discard h).heldBy = s.heldBy := by
    rw [hdiscard]
    rfl
  refine ⟨⟨?_, ?_, ?_, ?_, ?_, ?_⟩, ?_, ?_⟩
  · rw [hviews, hdiscard]
    exact lane_mem_leave hs.placed.lane_mem hs.placed.lane_nodup hv (by decide)
  · intro p
    rw [hdiscard]
    show (Function.update s.queues task.priority _ p).Nodup
    by_cases hp : p = task.priority
    · subst hp
      rw [Function.update_self]
      exact (hs.placed.lane_nodup _).erase h
    · rw [Function.update_of_ne hp]
      exact hs.placed.lane_nodup p
  · intro i
    rw [hviews, running_setState hv, hheld, ← hs.placed.held i]
    constructor
    · rintro (⟨-, h⟩ | ⟨-, h⟩)
      · contradiction
      · exact h
    · rintro ⟨v, hi, hrunning⟩
      refine .inr ⟨?_, v, hi, hrunning⟩
      rintro rfl
      obtain rfl : task.view = v := by simpa [hv] using hi
      rw [hqueued] at hrunning
      contradiction
  · rw [hheld]
    exact hs.placed.held_unique
  · rw [hviews, hdiscard]
    exact identified_erase hs.placed.identified hv hopen (by decide)
  · rw [hviews]
    exact valid_setState hs.placed.valid (by decide)
  · refine hs.counted_leave htask hmem (by decide) ?_ hviews ?_ ?_ ?_ ?_ ?_ ?_
    · rw [hdiscard]
      rfl
    · rw [hdiscard]
      rfl
    · rw [hdiscard]
      rfl
    · rw [hdiscard]
      rfl
    · rw [hdiscard]
      rfl
    · rw [hdiscard]
      exact hs.counted.active_workers
    · rw [hviews, hdiscard]
      refine ⟨?_, ?_, ?_, ?_⟩
      · rw [countState_other hv (by rw [hqueued]; decide) (by decide)]
        exact hs.counted.active
      · rw [countState_other hv (by rw [hqueued]; decide) (by decide)]
        exact hs.counted.succeeded
      · rw [countState_other hv (by rw [hqueued]; decide) (by decide)]
        exact hs.counted.failed
      · rw [countState_enter hv (by rw [hqueued]; decide), ← saturatingIncrement_saturated,
          ← hs.counted.cancelled]
        rfl
  · rw [hdiscard]
    refine ⟨hs.staffed.workers, hs.staffed.completing, ?_, hs.staffed.released⟩
    intro i hi
    have hempty := (hs.staffed.exited i hi).2 task.priority
    rw [hempty] at hmem
    simp at hmem

end leaving

section working

variable {s : SchedulerState} {w h : Nat} {state : CompilationTaskState} {outcome : Outcome}

/-- A worker that goes on with the task it has, or without one, changes no task. -/
lemma Consistent.set_worker {old new : Worker} (hs : Consistent s) (hw : s.workers[w]? = some old)
    (htask : new.task? = old.task?)
    (hstaffed : Staffed { s with workers := s.workers.set w new }) :
    Consistent { s with workers := s.workers.set w new } := by
  have hheld : ({ s with workers := s.workers.set w new } : SchedulerState).heldBy = s.heldBy := by
    funext i
    show (s.workers.set w new)[i]?.bind Worker.task? = s.heldBy i
    rw [bind_task_set hw]
    split_ifs with hi
    · simp [heldBy, hi, hw, htask]
    · rfl
  obtain ⟨hplaced, hcounted, -⟩ := hs
  refine ⟨⟨hplaced.lane_mem, hplaced.lane_nodup, ?_, ?_, hplaced.identified, hplaced.valid⟩,
    ⟨hcounted.queuedTasks, hcounted.queuedBytes, hcounted.queuedTasks_le, hcounted.queuedBytes_le,
      hcounted.queued, hcounted.active, ?_, hcounted.submitted, hcounted.succeeded,
      hcounted.failed, hcounted.cancelled⟩, hstaffed⟩
  · rw [hheld]
    exact hplaced.held
  · rw [hheld]
    exact hplaced.held_unique
  · have hcount := countP_task_set hw new
    rw [htask] at hcount
    show s.statistics.activeWorkers = _
    rw [hcounted.active_workers]
    exact (Nat.add_right_cancel hcount).symm

/-- A worker that has run its task keeps the invariant. -/
lemma Consistent.sample (hs : Consistent s) (hw : s.workers[w]? = some (.running h))
    (hterminal : state.terminal = true) :
    Consistent { s with workers := s.workers.set w (.completing h state outcome) } := by
  refine hs.set_worker hw rfl (hs.staffed.set hw (by simp) (by simp) ?_ rfl rfl rfl fun h => h)
  intro h' state' outcome' heq
  obtain ⟨-, rfl, -⟩ : h = h' ∧ state = state' ∧ outcome = outcome' := by simpa using heq
  exact hterminal

/-- A worker that exits keeps the invariant. -/
lemma Consistent.exit (hs : Consistent s) (hw : s.workers[w]? = some .waiting)
    (hempty : s.statistics.queuedTasks = 0) (hclosed : s.statistics.accepting = false) :
    Consistent { s with workers := s.workers.set w .exited } := by
  have hlanes : ∀ p, s.queues p = [] := by
    have hzero := hs.counted.queuedTasks
    rw [hempty, overLanes] at hzero
    intro p
    apply List.eq_nil_of_length_eq_zero
    cases p <;> omega
  refine hs.set_worker hw rfl ⟨by simpa using hs.staffed.workers, ?_, ?_, ?_⟩
  · intro i h' state' outcome' hi
    rcases getElem?_set_cases hi with ⟨-, heq⟩ | hi
    · contradiction
    · exact hs.staffed.completing i h' state' outcome' hi
  · intro i _
    exact ⟨hclosed, hlanes⟩
  · intro hreleased
    have := hs.staffed.not_released hw (by simp)
    rw [show s.released = true from hreleased] at this
    contradiction

/-- The counter of a terminal state goes up. -/
def countFinished (statistics : CompilationSchedulerStats) (state : CompilationTaskState) :
    CompilationSchedulerStats :=
  match state with
  | .succeeded => { statistics with succeeded := saturatingIncrement statistics.succeeded }
  | .cancelled => { statistics with cancelled := saturatingIncrement statistics.cancelled }
  | _ => { statistics with failed := saturatingIncrement statistics.failed }

/-- The state after a publication, for a task that the table holds. -/
def published (s : SchedulerState) (w h : Nat) (key : TaskKey) (state : CompilationTaskState)
    (outcome : Outcome) : SchedulerState :=
  { s with
    tasks := s.tasks.modify h fun task =>
      { task with outcome := outcome, state := state, completed := true }
    identities := Function.update s.identities key none
    statistics := countFinished
      { s.statistics with activeWorkers := sizeSub s.statistics.activeWorkers 1 } state
    workers := s.workers.set w .waiting }

/-- What a worker that publishes has held. -/
lemma Consistent.workerPublish_eq (hs : Consistent s)
    (hw : s.workers[w]? = some (.completing h state outcome)) :
    ∃ task, s.tasks[h]? = some task ∧ task.state = .running ∧
      s.workerPublish w = some (s.published w h task.key state outcome) := by
  have hheld : s.heldBy w = some h := by simp [heldBy, hw, Worker.task?]
  obtain ⟨task, htask, hrunning⟩ := hs.placed.running_of_held hheld
  have hopen : task.view.state.terminal = false := by
    rw [show task.view.state = .running from hrunning]
    decide
  have hkey : s.identities task.key = some h :=
    (hs.placed.identified task.view.key h).mpr ⟨task.view, views_of_tasks htask, rfl, hopen⟩
  refine ⟨task, htask, hrunning, ?_⟩
  have herase : (s.updateStatistics fun statistics =>
      { statistics with activeWorkers := sizeSub statistics.activeWorkers 1 }).eraseTask h =
      { s with
        identities := Function.update s.identities task.key none
        statistics := { s.statistics with
          activeWorkers := sizeSub s.statistics.activeWorkers 1 } } := by
    simp only [eraseTask, updateStatistics, htask]
    exact if_pos hkey
  simp only [workerPublish, hw, herase]
  rfl

/-- The counters of the terminal states after a publication. -/
lemma Consistent.counters_published (hs : Consistent s) {v : TaskView} (hv : s.views[h]? = some v)
    (hstate : v.state = .running) (hterminal : state.terminal = true) (w : Nat) (key : TaskKey) :
    let s' := s.published w h key state outcome
    s'.statistics.succeeded = saturated (countState s'.views .succeeded) ∧
      s'.statistics.failed = saturated (countState s'.views .failed) ∧
      s'.statistics.cancelled = saturated (countState s'.views .cancelled) := by
  have hviews : (s.published w h key state outcome).views = setState s.views h state :=
    views_completeTask s h state outcome
  have hc := hs.counted
  have hother : ∀ {c : CompilationTaskState}, c.terminal = true → state ≠ c →
      countState (setState s.views h state) c = countState s.views c := by
    intro c hterminal hne
    refine countState_other hv ?_ hne
    rintro hsame
    rw [← hsame, hstate] at hterminal
    contradiction
  have henter : countState (setState s.views h state) state = countState s.views state + 1 := by
    refine countState_enter hv ?_
    rintro hsame
    rw [← hsame, hstate] at hterminal
    contradiction
  simp only [hviews]
  obtain rfl | rfl | rfl : state = .succeeded ∨ state = .failed ∨ state = .cancelled := by
    simpa [CompilationTaskState.terminal] using hterminal
  · rw [henter, hother rfl (by decide), hother rfl (by decide), ← saturatingIncrement_saturated,
      ← hc.succeeded, ← hc.failed, ← hc.cancelled]
    exact ⟨rfl, rfl, rfl⟩
  · rw [henter, hother rfl (by decide), hother rfl (by decide), ← saturatingIncrement_saturated,
      ← hc.succeeded, ← hc.failed, ← hc.cancelled]
    exact ⟨rfl, rfl, rfl⟩
  · rw [henter, hother rfl (by decide), hother rfl (by decide), ← saturatingIncrement_saturated,
      ← hc.succeeded, ← hc.failed, ← hc.cancelled]
    exact ⟨rfl, rfl, rfl⟩

/-- Publishing the end of a task keeps the invariant. -/
lemma Consistent.publish (hs : Consistent s) {s' : SchedulerState}
    (hw : s.workers[w]? = some (.completing h state outcome))
    (hpublish : s.workerPublish w = some s') : Consistent s' := by
  obtain ⟨task, htask, hrunning, heq⟩ := hs.workerPublish_eq hw
  obtain rfl : s' = s.published w h task.key state outcome := by
    rw [heq] at hpublish
    exact (Option.some.inj hpublish).symm
  have hv := views_of_tasks htask
  have hstate : task.view.state = .running := hrunning
  have hterminal := hs.staffed.completing w h state outcome hw
  have hheldw : s.heldBy w = some h := by simp [heldBy, hw, Worker.task?]
  have hviews : (s.published w h task.key state outcome).views = setState s.views h state :=
    views_completeTask s h state outcome
  have hheld : ∀ i, (s.published w h task.key state outcome).heldBy i =
      if i = w then none else s.heldBy i :=
    fun i => bind_task_set hw .waiting i
  have hne : ∀ {c : CompilationTaskState}, c.terminal = false → state ≠ c := by
    rintro c hc rfl
    rw [hterminal] at hc
    contradiction
  refine ⟨⟨?_, hs.placed.lane_nodup, ?_, ?_, ?_, ?_⟩, ?_, ?_⟩
  · rw [hviews]
    exact lane_mem_stay hs.placed.lane_mem hv (by rw [hstate]; decide) (hne rfl)
  · intro i
    rw [hviews, running_setState hv]
    simp only [hheld, hs.placed.held i]
    constructor
    · rintro (⟨-, h⟩ | ⟨hi, j, hj⟩)
      · exact absurd h (hne rfl)
      · refine ⟨j, ?_⟩
        rw [if_neg, hj]
        rintro rfl
        rw [hheldw] at hj
        exact hi (Option.some.inj hj).symm
    · rintro ⟨j, hj⟩
      split_ifs at hj with hjw
      refine .inr ⟨?_, j, hj⟩
      rintro rfl
      exact hjw (hs.placed.held_unique j w _ hj hheldw)
  · intro i j k hi hj
    rw [hheld] at hi hj
    split_ifs at hi hj
    exact hs.placed.held_unique i j k hi hj
  · rw [hviews]
    exact identified_erase hs.placed.identified hv (by rw [hstate]; decide) hterminal
  · rw [hviews]
    exact valid_setState hs.placed.valid (hne rfl)
  · have hc := hs.counted
    have hleave := countState_leave hv
      (show task.view.state ≠ state by rw [hstate]; exact (hne rfl).symm)
    rw [hstate, ← hc.active] at hleave
    have hworkers := countP_task_set hw .waiting
    have hactive : (s.published w h task.key state outcome).statistics.activeWorkers =
        s.statistics.activeWorkers - 1 := by
      rw [← sizeSub_eq (by omega)]
      show (countFinished _ state).activeWorkers = _
      unfold countFinished
      split <;> rfl
    have hother : ∀ {c : CompilationTaskState}, task.view.state ≠ c → state ≠ c →
        countState (s.published w h task.key state outcome).views c = countState s.views c := by
      intro c hold hnew
      rw [hviews, countState_other hv hold hnew]
    have hkeep : (s.published w h task.key state outcome).statistics.queuedTasks =
          s.statistics.queuedTasks ∧
        (s.published w h task.key state outcome).statistics.queuedBytes =
          s.statistics.queuedBytes ∧
        (s.published w h task.key state outcome).statistics.submitted =
          s.statistics.submitted := by
      show (countFinished _ state).queuedTasks = _ ∧ (countFinished _ state).queuedBytes = _ ∧
        (countFinished _ state).submitted = _
      unfold countFinished
      split <;> exact ⟨rfl, rfl, rfl⟩
    obtain ⟨hkeepTasks, hkeepBytes, hkeepSubmitted⟩ := hkeep
    have hcounters : let s' := s.published w h task.key state outcome
        s'.statistics.succeeded = saturated (countState s'.views .succeeded) ∧
          s'.statistics.failed = saturated (countState s'.views .failed) ∧
          s'.statistics.cancelled = saturated (countState s'.views .cancelled) :=
      hs.counters_published hv hstate hterminal w task.key
    refine ⟨?_, ?_, ?_, ?_, ?_, ?_, ?_, ?_, ?_, ?_, ?_⟩
    · rw [hkeepTasks]
      exact hc.queuedTasks
    · rw [hkeepBytes, hviews, laneBytes_setState]
      exact hc.queuedBytes
    · rw [hkeepTasks]
      exact hc.queuedTasks_le
    · rw [hkeepBytes]
      exact hc.queuedBytes_le
    · rw [hkeepTasks, hother (by rw [hstate]; decide) (hne rfl)]
      exact hc.queued
    · rw [hactive, hviews]
      omega
    · rw [hactive, hc.active_workers]
      have hcompleting : (Worker.completing h state outcome).task?.isSome = true := rfl
      have hwaiting : Worker.waiting.task?.isSome = false := rfl
      rw [hcompleting, hwaiting] at hworkers
      show _ = (s.workers.set w .waiting).countP _
      simp only [if_true, Bool.false_eq_true, if_false] at hworkers
      omega
    · rw [hkeepSubmitted, hviews, length_setState]
      exact hc.submitted
    · exact hcounters.1
    · exact hcounters.2.1
    · exact hcounters.2.2
  · show Staffed (s.published w h task.key state outcome)
    refine hs.staffed.set hw (by simp) (by simp) (by simp) rfl rfl ?_ fun h => h
    show (countFinished _ state).accepting = _
    unfold countFinished
    split <;> rfl

end working

/-- Every move keeps the invariant. -/
lemma Consistent.move {s s' : SchedulerState} (hs : Consistent s) (hmove : Move s s') :
    Consistent s' := by
  cases hmove with
  | idle same => exact hs.idle same
  | flag raised _ => exact hs.flag raised
  | enroll request priority fresh accepting capacity => exact hs.enroll fresh accepting capacity
  | start hw htask hmem => exact hs.start hw htask hmem
  | sample state outcome hw _ hterminal _ => exact hs.sample hw hterminal
  | publish hw hpublish => exact hs.publish hw hpublish
  | drop htask hmem => exact hs.drop htask hmem
  | exit hw hempty hclosed => exact hs.exit hw hempty hclosed

end SchedulerState

end UniJit.Jit
